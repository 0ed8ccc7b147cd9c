/-
# The first described declaration of each name

Which declaration describes a name can be said without the walk over the source: of the lines that
declare the name, the first one whose comment block leaves a description. The block of a line is the
longest run of blank and comment lines that ends right above it, and its texts are read from top to
bottom.

* `isBlockAbove_iff` : the walk up from a line goes over its comment block.
* `mem_blockTexts_iff` : the texts of a block, character by character.
* `describe_eq` : the description of a block in one piece.
* `first_described_declaration_wins` : what the pass over the declarations finds.
-/
import Mathlib.Data.List.TakeWhile
import ProcedureCatalog.Proofs.Extraction.CommentTexts
import ProcedureCatalog.Proofs.Extraction.Passes

namespace ProcedureCatalog.Declaration

open Text SourceLine

variable {expected : ExpectedNames} {lines : List (List Char)}

/-! ## The comment block above a line -/

/-- The lines are the comment block above the one at the position: the run of blank and comment
lines right above it, up to a line of code or the start of the source. -/
def IsBlockAbove (lines : List (List Char)) (index : Nat) (block : List (List Char)) : Prop :=
  ∃ above, lines.take index = above ++ block ∧ (∀ line ∈ block, classify line ≠ .code) ∧
    ∀ line ∈ above.getLast?, classify line = .code

/-- The texts of a block from top to bottom: those of its comments without their markers, as far as
they carry words. -/
def blockTexts (block : List (List Char)) : List (List Char) :=
  (block.map fun line => dropCommentMarkers (classify line).content).filter (!isDecorative ·)

/-- A text of a block has a character that is no dash, star, slash or blank, and it is what stands
in a comment of the block behind all the stars and slashes in front, trimmed. -/
theorem mem_blockTexts_iff {block : List (List Char)} {text : List Char} :
    text ∈ blockTexts block ↔
      (∃ c ∈ text, c ≠ '-' ∧ c ≠ '*' ∧ c ≠ '/' ∧ isBlank c = false) ∧
      ∃ line ∈ block, ∃ markers rest, (classify line).content = markers ++ rest ∧
        (∀ c ∈ markers, c = '*' ∨ c = '/') ∧ (∀ c ∈ rest.head?, c ≠ '*' ∧ c ≠ '/') ∧
        trim rest = text := by
  rw [blockTexts, List.mem_filter, List.mem_map, Bool.not_eq_true', isDecorative_eq_false_iff,
    and_comm]
  apply and_congr_right
  intro _
  constructor
  · rintro ⟨line, hline, htext⟩
    exact ⟨line, hline, dropCommentMarkers_eq_iff.1 htext⟩
  · rintro ⟨line, hline, htext⟩
    exact ⟨line, hline, dropCommentMarkers_eq_iff.2 htext⟩

/-- Only code ends the walk to a comment block. -/
theorem isTransparent_eq_true_iff {line : List Char} :
    (classify line).isTransparent = true ↔ classify line ≠ .code := by
  cases classify line <;> simp [LineClass.isTransparent]

theorem isTransparent_eq_false_iff {line : List Char} :
    (classify line).isTransparent = false ↔ classify line = .code := by
  cases classify line <;> simp [LineClass.isTransparent]

/-- The walk up from a line goes over its comment block, and over nothing else. -/
theorem isBlockAbove_iff {index : Nat} {block : List (List Char)} :
    IsBlockAbove lines index block ↔ blockLines (lines.take index).reverse = block.reverse := by
  constructor
  · rintro ⟨above, htake, hblock, habove⟩
    have hover : ∀ line ∈ block.reverse, (classify line).isTransparent = true := by
      intro line hline
      exact isTransparent_eq_true_iff.2 (hblock line (List.mem_reverse.1 hline))
    -- the walk ends at the line above the block, if there is one
    have hend : blockLines above.reverse = [] := by
      rw [blockLines, List.takeWhile_eq_nil_iff]
      intro hne htransparent
      have hlast : above.reverse[0] ∈ above.getLast? := by
        rw [← List.head?_reverse, List.head?_eq_getElem?, List.getElem?_eq_getElem hne]
        rfl
      exact isTransparent_eq_true_iff.1 htransparent (habove _ hlast)
    rw [htake, List.reverse_append, blockLines, List.takeWhile_append_of_pos hover]
    change block.reverse ++ blockLines above.reverse = block.reverse
    rw [hend, List.append_nil]
  · intro hwalk
    let rest := (lines.take index).reverse.dropWhile fun line => (classify line).isTransparent
    have hsplit : block.reverse ++ rest = (lines.take index).reverse := by
      rw [← hwalk]
      exact List.takeWhile_append_dropWhile
    refine ⟨rest.reverse, ?_, ?_, ?_⟩
    · rw [← List.reverse_reverse (lines.take index), ← hsplit, List.reverse_append,
        List.reverse_reverse]
    · intro line hline
      rw [← List.mem_reverse, ← hwalk] at hline
      have htransparent := List.mem_takeWhile_imp hline
      exact isTransparent_eq_true_iff.1 htransparent
    · intro line hline
      rw [List.getLast?_reverse] at hline
      have hstop := List.head?_dropWhile_not (fun line => (classify line).isTransparent)
        (lines.take index).reverse
      rw [show _ = some line from hline] at hstop
      exact isTransparent_eq_false_iff.1 hstop

/-- The fragments of a block are its texts. -/
theorem filterMap_fragment?_eq (block : List (List Char)) :
    block.filterMap fragment? = blockTexts block := by
  induction block with
  | nil => rfl
  | cons line block ih =>
    rw [List.filterMap_cons, ih, blockTexts, blockTexts, List.map_cons, List.filter_cons, fragment?]
    cases isDecorative (dropCommentMarkers (classify line).content) <;> rfl

/-- The texts of the block above a line, joined from top to bottom, collapsed and normalized, are
its description. -/
theorem describe_eq {index : Nat} {block : List (List Char)} (h : IsBlockAbove lines index block) :
    describe lines index = Description.normalize (Description.collapse
      (.ofList (joinWith [' '] (blockTexts block)))) := by
  have htake : lines.take (min index lines.length) = lines.take index :=
    List.take_eq_take_min.symm
  rw [describe, harvest, htake, isBlockAbove_iff.1 h]
  dsimp only
  rw [List.filterMap_reverse, List.reverse_reverse, filterMap_fragment?_eq, Description.normalize,
    Description.collapse, String.toList_ofList, String.toList_ofList]

/-! ## What a line gives -/

/-- The line at the position declares the name, and this is the description that the comment block
above it gives. -/
def Describes (expected : ExpectedNames) (lines : List (List Char)) (name : String) (index : Nat)
    (description : String) : Prop :=
  ∃ line block, lines[index]? = some line ∧ declared? expected line = some name ∧
    IsBlockAbove lines index block ∧ description = Description.normalize (Description.collapse
      (.ofList (joinWith [' '] (blockTexts block))))

/-- There is one block above each line, and it is the one that is read. -/
theorem describes_iff {name : String} {index : Nat} {description : String} {line : List Char}
    (hline : lines[index]? = some line) : Describes expected lines name index description ↔
      declared? expected line = some name ∧ description = describe lines index := by
  constructor
  · rintro ⟨line', block, hline', hdeclared, hblock, hdescription⟩
    obtain rfl := Option.some.inj (hline.symm.trans hline')
    exact ⟨hdeclared, hdescription.trans (describe_eq hblock).symm⟩
  · rintro ⟨hdeclared, hdescription⟩
    have hblock : IsBlockAbove lines index (blockLines (lines.take index).reverse).reverse :=
      isBlockAbove_iff.2 (List.reverse_reverse _).symm
    exact ⟨line, _, hline, hdeclared, hblock, hdescription.trans (describe_eq hblock)⟩

/-- A line gives the candidate: it describes the candidate's name, and the description is not
empty. -/
def Offers (expected : ExpectedNames) (lines : List (List Char)) (index : Nat) (line : List Char)
    (c : Candidate) : Prop :=
  declared? expected line = some c.name ∧ describe lines index ≠ "" ∧
    c = ⟨c.name, describe lines index, some (index + 1), .blockHeader⟩

/-- The names found before settle nothing but that they are not found again. -/
theorem isGivenBy_candidate? (expected : ExpectedNames) (lines : List (List Char)) :
    Finder.IsGivenBy (candidate? expected lines) (Offers expected lines) := by
  intro resolved index line c
  constructor
  · intro h
    obtain ⟨hdeclared, hnew, hne, hc⟩ := candidate?_eq_some h
    rw [hc] at hne
    exact ⟨hnew, hdeclared, hne, hc⟩
  · rintro ⟨hnew, hdeclared, hne, hc⟩
    have hfree : ¬ resolved.contains c.name = true := by simpa using hnew
    have hsome : ¬ (describe lines index).isEmpty = true := by simpa using hne
    unfold candidate?
    rw [hdeclared]
    dsimp only
    rw [if_neg hfree, if_neg hsome, ← hc]

/-- What the line at a position offers is what it describes. -/
theorem offers_iff {index : Nat} {line : List Char} {c : Candidate}
    (hline : lines[index]? = some line) : Offers expected lines index line c ↔
      c.strategy = .blockHeader ∧ c.description ≠ "" ∧ c.line = some (index + 1) ∧
        Describes expected lines c.name index c.description := by
  rw [describes_iff hline]
  constructor
  · rintro ⟨hdeclared, hne, hc⟩
    have hdescription : c.description = describe lines index := by rw [hc]
    refine ⟨by rw [hc], ?_, by rw [hc], hdeclared, hdescription⟩
    rwa [hdescription]
  · rintro ⟨hstrategy, hne, hat, hdeclared, hdescription⟩
    refine ⟨hdeclared, ?_, ?_⟩
    · rwa [← hdescription]
    · rw [← hdescription, ← hstrategy, ← hat]

/-! ## What the pass finds -/

/-- The pass finds the first described declaration of each name. -/
theorem mem_collect_iff {c : Candidate} : c ∈ collect expected lines ↔
    IsFirstSaid (Describes expected lines) .blockHeader c := by
  rw [collect, collectFrom_eq_scan, mem_scan_iff (isGivenBy_candidate? expected lines),
    and_iff_right List.not_mem_nil]
  apply isFirst_iff_isFirstSaid
  · rintro name index description ⟨line, -, hline, -⟩
    exact ⟨line, hline⟩
  · intro index line c hline
    exact offers_iff hline

/-- **The first described declaration of each name wins.** For every source and all expected names,
a name has a block candidate exactly when some line that declares it has a comment block above it
that leaves a description, the candidate is what the first such line gives, and the candidates come
in the order of their lines. -/
theorem first_described_declaration_wins (expected : ExpectedNames) (source : String) :
    let lines := Text.lines source.toList
    (∀ name, (∃ c ∈ collect expected lines, c.name = name) ↔
      ∃ index description, Describes expected lines name index description ∧ description ≠ "") ∧
    (∀ c, c ∈ collect expected lines ↔
      IsFirstSaid (Describes expected lines) .blockHeader c) ∧
    (collect expected lines).Pairwise fun c d => c.index < d.index := by
  intro lines
  refine ⟨?_, ?_, ?_⟩
  · intro name
    rw [← exists_isFirstSaid_iff]
    exact exists_congr fun c => and_congr_left' mem_collect_iff
  · intro c
    exact mem_collect_iff
  · rw [collect, collectFrom_eq_scan]
    have hpairs := pairwise_scan (isSound_candidate? expected lines) [] 0 lines
    exact hpairs.imp fun h => h.1

end ProcedureCatalog.Declaration
