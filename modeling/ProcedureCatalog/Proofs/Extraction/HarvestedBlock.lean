/-
# The walk up to a comment block

The comment block above a line is found by a walk that looks at one line after the other, from the
line above up to a line of code or the start of the source. The walk looks only at lines that there
are, also from a position behind the last line.

* `harvest_succ` : what one more line changes.
* `walkUp?_eq` : the walk arrives, with the block.
* `IsHarvest` : the block described without the walk; there is one at each position.
* `walk_finds_the_block_above` : the walk finds it.
-/
import ProcedureCatalog.Proofs.Extraction.FirstBlocks

namespace ProcedureCatalog.Declaration

open Text SourceLine

variable {lines : List (List Char)}

/-! ## The walk -/

/-- The walk up from line `start`, with the fragments of the lines it has gone over; `none` where
it looks at a line that there is not. -/
def walkUp? (lines : List (List Char)) :
    (start : Nat) → (fragments : List (List Char)) → Option Block
  | 0, fragments => some ⟨fragments, 0⟩
  | start + 1, fragments =>
    match lines[start]? with
    | none => none
    | some line =>
      if (classify line).isTransparent then
        walkUp? lines start ((fragment? line).toList ++ fragments)
      else some ⟨fragments, start + 1⟩

/-- No block ends above the first line. -/
theorem harvest_zero (lines : List (List Char)) : harvest lines 0 = ⟨[], 0⟩ := by
  rw [harvest, Nat.zero_min]
  rfl

/-- Line `index` is the last one of the block above the next line, unless it is code. -/
theorem harvest_succ {index : Nat} (h : index < lines.length) :
    harvest lines (index + 1) =
      if (classify lines[index]).isTransparent then
        ⟨(harvest lines index).fragments ++ (fragment? lines[index]).toList,
          (harvest lines index).start⟩
      else ⟨[], index + 1⟩ := by
  have hstop : min (index + 1) lines.length = index + 1 := Nat.min_eq_left h
  have hstop' : min index lines.length = index := Nat.min_eq_left (Nat.le_of_lt h)
  have habove : (lines.take (index + 1)).reverse = lines[index] :: (lines.take index).reverse := by
    rw [← List.take_concat_get h, List.concat_eq_append, List.reverse_append]
    rfl
  rw [harvest, harvest, hstop, hstop', habove, blockLines, List.takeWhile_cons]
  split
  · change Block.mk _ _ = Block.mk _ _
    rw [List.filterMap_cons, List.length_cons, Nat.add_sub_add_right]
    cases hfragment : fragment? lines[index] with
    | none => simp [blockLines]
    | some fragment => simp [blockLines]
  · rfl

/-- The walk up from a line arrives, and what it finds is the block above the line. -/
theorem walkUp?_eq {start : Nat} (h : start ≤ lines.length) (fragments : List (List Char)) :
    walkUp? lines start fragments =
      some ⟨(harvest lines start).fragments ++ fragments, (harvest lines start).start⟩ := by
  induction start generalizing fragments with
  | zero => rw [harvest_zero]; rfl
  | succ start ih =>
    rw [walkUp?, List.getElem?_eq_getElem h, harvest_succ h]
    dsimp only
    split
    · rw [ih (Nat.le_of_lt h), List.append_assoc]
    · rfl

/-! ## The block without the walk -/

/-- The block above a position: the longest run of lines that ends there and has no code, with the
texts of these lines from top to bottom. -/
structure IsHarvest (lines : List (List Char)) (index : Nat) (block : Block) : Prop where
  start_le : block.start ≤ min index lines.length
  notCode : ∀ i line, block.start ≤ i → i < index → lines[i]? = some line →
    classify line = .blank ∨ ∃ text, classify line = .comment text
  longest : block.start = 0 ∨ ∃ line, lines[block.start - 1]? = some line ∧ classify line = .code
  fragments_eq : block.fragments = blockTexts ((lines.take index).drop block.start)

/-- A line without code is blank or a comment. -/
theorem classify_ne_code_iff {line : List Char} : classify line ≠ .code ↔
    classify line = .blank ∨ ∃ text, classify line = .comment text := by
  cases classify line <;> simp

/-- The lines above a position are a comment block and what stands above it, and the block is what
is harvested. -/
theorem exists_harvest_eq (lines : List (List Char)) (index : Nat) :
    ∃ above block, lines.take index = above ++ block ∧ (∀ line ∈ block, classify line ≠ .code) ∧
      (∀ line ∈ above.getLast?, classify line = .code) ∧
      harvest lines index = ⟨blockTexts block, above.length⟩ := by
  have hwalk :=
    isBlockAbove_iff.2 (List.reverse_reverse (blockLines (lines.take index).reverse)).symm
  obtain ⟨above, htake, hblock, habove⟩ := hwalk
  refine ⟨above, _, htake, hblock, habove, ?_⟩
  have hlength := congrArg List.length htake
  rw [List.length_take, List.length_append, List.length_reverse] at hlength
  rw [harvest, ← List.take_eq_take_min, hlength]
  change Block.mk _ _ = Block.mk _ _
  rw [Nat.add_sub_cancel, ← List.filterMap_reverse, filterMap_fragment?_eq]

/-- What is harvested is the block above the position. -/
theorem isHarvest_harvest (lines : List (List Char)) (index : Nat) :
    IsHarvest lines index (harvest lines index) := by
  obtain ⟨above, block, htake, hblock, habove, heq⟩ := exists_harvest_eq lines index
  have hlength := congrArg List.length htake
  rw [List.length_take, List.length_append] at hlength
  rw [heq]
  constructor
  · change above.length ≤ _
    omega
  · intro i line hfrom hto hline
    have hi : (above ++ block)[i]? = some line := by
      rw [← htake, List.getElem?_take_of_lt hto, hline]
    rw [List.getElem?_append_right hfrom] at hi
    exact classify_ne_code_iff.1 (hblock line (List.mem_of_getElem? hi))
  · rcases List.eq_nil_or_concat above with rfl | ⟨top, last, rfl⟩
    · exact .inl rfl
    · rw [List.concat_eq_append] at htake habove hlength ⊢
      rw [List.length_append, List.length_singleton] at hlength
      refine .inr ⟨last, ?_, habove last (by rw [List.getLast?_concat]; rfl)⟩
      change lines[(top ++ [last]).length - 1]? = some last
      have hat : (lines.take index)[top.length]? = some last := by
        rw [htake, List.append_assoc, List.getElem?_append_right (Nat.le_refl _), Nat.sub_self]
        rfl
      rw [List.length_append, List.length_singleton, Nat.add_sub_cancel]
      rwa [List.getElem?_take_of_lt (by omega)] at hat
  · change blockTexts block = blockTexts _
    rw [htake, List.drop_left]

/-- A block ends its run at one line only. -/
theorem IsHarvest.start_le_start {index : Nat} {block block' : Block}
    (h : IsHarvest lines index block) (h' : IsHarvest lines index block') :
    block'.start ≤ block.start := by
  by_contra hlt
  have hlt : block.start < block'.start := Nat.lt_of_not_le hlt
  rcases h'.longest with hzero | ⟨line, hline, hcode⟩
  · omega
  · have hle := h'.start_le
    have hnotCode := h.notCode (block'.start - 1) line (by omega) (by omega) hline
    exact classify_ne_code_iff.2 hnotCode hcode

/-- There is one block above each position. -/
theorem IsHarvest.unique {index : Nat} {block block' : Block} (h : IsHarvest lines index block)
    (h' : IsHarvest lines index block') : block = block' := by
  have hstart : block.start = block'.start :=
    Nat.le_antisymm (h'.start_le_start h) (h.start_le_start h')
  have hfragments : block.fragments = block'.fragments := by
    rw [h.fragments_eq, h'.fragments_eq, hstart]
  cases block
  cases block'
  cases hstart
  cases hfragments
  rfl

/-! ## The walk finds the block -/

/-- **The walk finds the block above a line.** From every position the walk arrives, without a look
at a line that there is not. What it finds is the longest run of blank and comment lines that ends
above the position, or above the end of the source: its first line, and from top to bottom the
texts of its comments without the stars and slashes in front of them, trimmed, as far as they carry
words. No other block is that run. -/
theorem walk_finds_the_block_above (lines : List (List Char)) (index : Nat) :
    walkUp? lines (min index lines.length) [] = some (harvest lines index) ∧
      ∀ block, harvest lines index = block ↔ IsHarvest lines index block := by
  constructor
  · have hstop : harvest lines (min index lines.length) = harvest lines index := by
      rw [harvest, harvest, Nat.min_assoc, Nat.min_self]
    rw [walkUp?_eq (Nat.min_le_right _ _), hstop, List.append_nil]
  · intro block
    constructor
    · rintro rfl
      exact isHarvest_harvest lines index
    · exact (isHarvest_harvest lines index).unique

/-- A frame, a blank line and a trailing frame between two lines of code. -/
example : harvest ["x".toList, "// ---".toList, "// *one".toList, [], "** two **".toList] 9 =
    ⟨["one".toList, "two **".toList], 1⟩ := by
  decide +kernel

end ProcedureCatalog.Declaration
