/-
# Labels and headers

A label is recognised in two ways: with its text, on the content of a comment as it is, and
without its text, on the content without trailing stars, where it ends what continues another
label. The second way recognises all that the first one does.

* `exists_of_afterLabel?` : the text behind the colon has no say in what stands before it.
* `isHeader_trimDecoration` : what is a label is a header also without the decoration at its end.
* `fragment?_of_candidate?` : a line that gives a candidate ends the label above it.
-/
import ProcedureCatalog.Proofs.Extraction.CommentTexts
import ProcedureCatalog.Proofs.Extraction.LabelGrammar
import ProcedureCatalog.Proofs.Extraction.Passes

namespace ProcedureCatalog

open Text SourceLine

namespace Label

/-! ## Headers -/

/-- The text of a label has no say in what stands before it. -/
theorem exists_of_afterLabel? {name content rest : List Char}
    (h : afterLabel? name content = some rest) :
    ∃ before, content = before ++ ':' :: rest ∧
      ∀ other, afterLabel? name (before ++ ':' :: other) = some other := by
  obtain ⟨spelled, gap, hspelled, hgap, hstart⟩ := afterLabel?_eq_some_iff.1 h
  obtain ⟨blanks, hblanks, hcontent⟩ := exists_trimStart content
  refine ⟨blanks ++ (spelled ++ gap), ?_, fun other => ?_⟩
  · rw [← hcontent, hstart, List.append_assoc, List.append_assoc]
  · have hopens : trimStart (blanks ++ (spelled ++ gap) ++ ':' :: other) =
        spelled ++ (gap ++ ':' :: other) := by
      rw [List.append_assoc, List.append_assoc]
      refine trimStart_append hblanks ?_
      -- both texts start with the same character, at the latest with the colon
      have hsame : (spelled ++ (gap ++ ':' :: other)).head? = (trimStart content).head? := by
        rw [hstart, ← List.append_assoc, ← List.append_assoc]
        cases spelled ++ gap with
        | nil => rfl
        | cons c rest => rfl
      rw [hsame]
      exact head?_dropWhile_eq_false content
    exact afterLabel?_eq_some_iff.2 ⟨spelled, gap, hspelled, hgap, hopens⟩

/-- The content of a label is a header also without the decoration at its end. -/
theorem isHeader_trimDecoration {expected : ExpectedNames} {name : String} {content own : List Char}
    (hname : name ∈ expected.names) (hhead : ∀ c ∈ content.head?, isBlank c = false)
    (h : textOf? name content = some own) :
    trimDecoration content ≠ [] ∧ isHeader expected (trimDecoration content) = true := by
  obtain ⟨rest, hlabel, -⟩ := Option.bind_eq_some_iff.1 h
  obtain ⟨before, hcontent, hbefore⟩ := exists_of_afterLabel? hlabel
  obtain ⟨tail, htail, hstars⟩ := exists_trimDecoration_append hhead
  have hcolon : ':' ∉ tail := by
    intro hmem
    have := hstars ':' hmem
    simp [isBlank] at this
  -- the colon is no decoration, so it is still there
  have hkept : ∃ rest', trimDecoration content = before ++ ':' :: rest' := by
    rw [hcontent] at htail
    rcases List.append_eq_append_iff.1 htail with ⟨middle, -, hmiddle⟩ | ⟨middle, hmiddle, hrest⟩
    · rw [hmiddle] at hcolon
      simp at hcolon
    · rw [hcontent]
      cases middle with
      | nil =>
        rw [List.nil_append] at hrest
        rw [← hrest] at hcolon
        simp at hcolon
      | cons c middle =>
        rw [hmiddle, ← (List.cons.inj hrest).1]
        exact ⟨middle, rfl⟩
  obtain ⟨rest', hrest'⟩ := hkept
  constructor
  · rw [hrest']
    simp
  · rw [isHeader, List.any_eq_true]
    refine ⟨name, hname, ?_⟩
    rw [hrest', hbefore]
    rfl

/-- Which texts are headers decides what continues a label. -/
theorem continuation_eq_of_isHeader_eq {expected other : ExpectedNames}
    (h : isHeader expected = isHeader other) : continuation expected = continuation other := by
  have hfragments : fragments expected = fragments other := by
    funext lines
    induction lines with
    | nil => rfl
    | cons line lines ih => rw [fragments, fragments, fragment?, fragment?, h, ih]
  funext lines start
  rw [continuation, continuation, hfragments]

/-- A line that gives a candidate does not continue a label. -/
theorem fragment?_of_candidate? {expected : ExpectedNames} {lines : List (List Char)}
    {resolved : List String} {index : Nat} {line : List Char} {c : Candidate}
    (h : candidate? expected lines resolved index line = some c) :
    fragment? expected line = none := by
  obtain ⟨content, own, hclass, hmatch, -, -⟩ := candidate?_eq_some h
  obtain ⟨hname, -, htext⟩ := match?_eq_some hmatch
  have hhead : ∀ c ∈ content.head?, isBlank c = false := by
    rw [← trim_eq_of_classify hclass]
    exact head?_trim_eq_false content
  obtain ⟨hne, hheader⟩ := isHeader_trimDecoration hname hhead htext
  have hends : (!(trimDecoration content).isEmpty &&
      isHeader expected (trimDecoration content)) = true := by
    simp [hne, hheader]
  rw [fragment?, hclass]
  exact if_pos hends

end Label

end ProcedureCatalog
