/-
# The spelling of the expected names

Expected names that are the same up to case are told apart by nothing that an extraction does. A run
with the one list is followed step by step by a run with the other: both find the same on the same
lines, each under its own spelling of the name.

* `Counterparts` : the two spellings of one name.
* `Strategy.forall₂_propose` : each strategy proposes the same, name by name.
* `get?_extract_of_counterparts` : a name and its counterpart have the same entry, or none.
* `spelling_does_not_matter` : the two lists of names, and the results with them.
-/
import ProcedureCatalog.Proofs.Extraction.KeptNames
import ProcedureCatalog.Proofs.Extraction.Precedence
import ProcedureCatalog.Proofs.Text.Folding

namespace ProcedureCatalog

open Text

/-! ## Related lists -/

section Related

variable {α β γ δ : Type} {R : α → β → Prop} {S : γ → δ → Prop} {as : List α} {bs : List β}

/-- Related answers are both there or both not. -/
theorem rel_cases {o : Option α} {o' : Option β} (h : Option.Rel R o o') :
    (o = none ∧ o' = none) ∨ ∃ a b, o = some a ∧ o' = some b ∧ R a b := by
  cases h with
  | none => exact .inl ⟨rfl, rfl⟩
  | some hab => exact .inr ⟨_, _, rfl, rfl, hab⟩

theorem rel_or {o p : Option α} {o' p' : Option β} (h : Option.Rel R o o')
    (hp : Option.Rel R p p') : Option.Rel R (o.or p) (o'.or p') := by
  cases h with
  | none => exact hp
  | some hab => exact .some hab

/-- What is found first in related lists is related. -/
theorem rel_findSome? {f : α → Option γ} {g : β → Option δ} (h : List.Forall₂ R as bs)
    (hfind : ∀ a b, R a b → Option.Rel S (f a) (g b)) :
    Option.Rel S (as.findSome? f) (bs.findSome? g) := by
  induction h with
  | nil => exact .none
  | @cons a b as bs hab _ ih =>
    rw [List.findSome?_cons, List.findSome?_cons]
    rcases rel_cases (hfind a b hab) with ⟨hf, hg⟩ | ⟨c, d, hf, hg, hcd⟩
    · rw [hf, hg]
      exact ih
    · rw [hf, hg]
      exact .some hcd

/-- The first elements under corresponding conditions are related. -/
theorem rel_find? {p : α → Bool} {q : β → Bool} (h : List.Forall₂ R as bs)
    (hsame : ∀ a b, R a b → p a = q b) : Option.Rel R (as.find? p) (bs.find? q) := by
  rw [List.find?_eq_findSome?_guard, List.find?_eq_findSome?_guard]
  refine rel_findSome? h fun a b hab => ?_
  rw [Option.guard, Option.guard, hsame a b hab]
  split
  · exact .some hab
  · exact .none

/-- Corresponding conditions hold somewhere in both of two related lists, or in none. -/
theorem any_congr_of_forall₂ {p : α → Bool} {q : β → Bool} (h : List.Forall₂ R as bs)
    (hsame : ∀ a b, R a b → p a = q b) : as.any p = bs.any q := by
  induction h with
  | nil => rfl
  | cons hab _ ih => rw [List.any_cons, List.any_cons, hsame _ _ hab, ih]

end Related

/-! ## Counterparts -/

/-- The two spellings of one name: an expected name of the one list and one of the other that are
the same up to case. -/
def Counterparts (expected expected' : ExpectedNames) (name name' : String) : Prop :=
  name ∈ expected.names ∧ name' ∈ expected'.names ∧ sameName name name' = true

section Respelled

variable {expected expected' : ExpectedNames} {name name' : String}

namespace Counterparts

/-- A name has one counterpart, and is the counterpart of one name. -/
theorem eq_iff {other other' : String} (h : Counterparts expected expected' name name')
    (hother : Counterparts expected expected' other other') : name = other ↔ name' = other' := by
  obtain ⟨hmem, hmem', hsame⟩ := h
  obtain ⟨hmemOther, hmemOther', hsameOther⟩ := hother
  have hcongr : sameName name other = sameName name' other' := sameName_congr hsame hsameOther
  constructor
  · rintro rfl
    refine ExpectedNames.eq_of_sameName hmem' hmemOther' ?_
    rw [← hcongr]
    exact sameName_iff.2 rfl
  · rintro rfl
    refine ExpectedNames.eq_of_sameName hmem hmemOther ?_
    rw [hcongr]
    exact sameName_iff.2 rfl

theorem upper_eq (h : Counterparts expected expected' name name') :
    upper name.toList = upper name'.toList :=
  sameName_iff.1 h.2.2

end Counterparts

/-- The names of the one list are, one by one, those of the other in another spelling. -/
def ExpectedNames.IsRespelled (expected expected' : ExpectedNames) : Prop :=
  List.Forall₂ (Counterparts expected expected') expected.names expected'.names

/-- Names that were found on either side are known to both or to none. -/
theorem contains_eq_of_counterparts {known known' : List String}
    (hknown : List.Forall₂ (Counterparts expected expected') known known')
    (h : Counterparts expected expected' name name') :
    known.contains name = known'.contains name' := by
  rw [List.contains_eq_any_beq, List.contains_eq_any_beq]
  refine any_congr_of_forall₂ hknown fun a b hab => ?_
  rw [Bool.eq_iff_iff, beq_iff_eq, beq_iff_eq]
  exact h.eq_iff hab

/-- Candidates of counterparts with the same description, strategy and line. -/
def Candidate.Counterparts (expected expected' : ExpectedNames) (c c' : Candidate) : Prop :=
  ProcedureCatalog.Counterparts expected expected' c.name c'.name ∧ c.found = c'.found

/-! ## The passes -/

/-- Two walks over the same lines find the same, when they do so on every line. -/
theorem forall₂_scan {find find' : Finder}
    (h : ∀ known known' index line,
      List.Forall₂ (Counterparts expected expected') known known' →
        Option.Rel (Candidate.Counterparts expected expected') (find known index line)
          (find' known' index line))
    {known known' : List String}
    (hknown : List.Forall₂ (Counterparts expected expected') known known') (index : Nat)
    (lines : List (List Char)) :
    List.Forall₂ (Candidate.Counterparts expected expected') (scan find known index lines)
      (scan find' known' index lines) := by
  induction lines generalizing known known' index with
  | nil => exact .nil
  | cons line lines ih =>
    rw [scan, scan]
    rcases rel_cases (h known known' index line hknown) with ⟨hfind, hfind'⟩ |
      ⟨c, c', hfind, hfind', hc⟩
    · rw [hfind, hfind']
      exact ih hknown _
    · rw [hfind, hfind']
      exact .cons hc (ih (.cons hc.1 hknown) _)

namespace Label

/-- A label is one of a name in any spelling. -/
theorem afterLabel?_congr (h : Counterparts expected expected' name name') (content : List Char) :
    afterLabel? name.toList content = afterLabel? name'.toList content := by
  rw [afterLabel?, afterLabel?, dropFolded?_congr h.upper_eq]

/-- A text is a header of the names in any spelling. -/
theorem isHeader_eq_of_isRespelled (h : expected.IsRespelled expected') :
    isHeader expected = isHeader expected' := by
  funext content
  refine any_congr_of_forall₂ h fun a b hab => ?_
  rw [afterLabel?_congr hab]

/-- The first label that matches is one of counterparts, with the same text. -/
theorem rel_match? (h : expected.IsRespelled expected') {known known' : List String}
    (hknown : List.Forall₂ (Counterparts expected expected') known known') (content : List Char) :
    Option.Rel (fun m m' => Counterparts expected expected' m.1 m'.1 ∧ m.2 = m'.2)
      (match? expected known content) (match? expected' known' content) := by
  have hnew : List.Forall₂ (Counterparts expected expected')
      (expected.names.filter fun name => !known.contains name)
      (expected'.names.filter fun name => !known'.contains name) := by
    refine List.rel_filter ?_ h
    intro a b hab
    dsimp only
    rw [contains_eq_of_counterparts hknown hab]
  refine rel_findSome? hnew fun a b hab => ?_
  rw [textOf?, textOf?, afterLabel?_congr hab]
  cases (afterLabel? b.toList content).bind labelText? with
  | none => exact .none
  | some text => exact .some ⟨hab, rfl⟩

/-- The labels that are found are those of counterparts, with the same descriptions. -/
theorem forall₂_collect (h : expected.IsRespelled expected') (lines : List (List Char)) :
    List.Forall₂ (Candidate.Counterparts expected expected') (collect expected lines)
      (collect expected' lines) := by
  rw [collect, collect, collectFrom_eq_scan, collectFrom_eq_scan]
  refine forall₂_scan (fun known known' index line hknown => ?_) .nil 0 lines
  have hdescribe : ∀ own start,
      describe expected lines own start = describe expected' lines own start := by
    intro own start
    rw [describe, describe, continuation_eq_of_isHeader_eq (isHeader_eq_of_isRespelled h)]
  unfold candidate?
  rcases (SourceLine.classify line).content with _ | ⟨c, cs⟩
  · exact .none
  · dsimp only
    rcases rel_cases (rel_match? h hknown (c :: cs)) with ⟨hm, hm'⟩ | ⟨m, m', hm, hm', hname, hown⟩
    · rw [hm, hm']
      exact .none
    · rw [hm, hm']
      dsimp only
      rw [hown, hdescribe]
      split
      · exact .none
      · exact .some ⟨hname, rfl⟩

end Label

namespace Declaration

/-- A declared identifier resolves to counterparts. -/
theorem rel_resolve? (h : expected.IsRespelled expected') (declared : List Char) :
    Option.Rel (Counterparts expected expected') (expected.resolve? declared)
      (expected'.resolve? declared) := by
  unfold ExpectedNames.resolve?
  cases upper (trim declared) with
  | nil => exact .none
  | cons c cs =>
    have hfind : Option.Rel (Counterparts expected expected')
        (expected.find? (String.ofList (c :: cs))) (expected'.find? (String.ofList (c :: cs))) :=
      rel_find? h fun a b hab => sameName_congr hab.2.2 (sameName_iff.2 rfl)
    have hsuffix : Option.Rel (Counterparts expected expected')
        (expected.names.find? (ExpectedNames.hasSuffix (c :: cs)))
        (expected'.names.find? (ExpectedNames.hasSuffix (c :: cs))) := by
      refine rel_find? h fun a b hab => ?_
      rw [ExpectedNames.hasSuffix, ExpectedNames.hasSuffix, hab.upper_eq]
    dsimp only
    rcases rel_cases hfind with ⟨hone, hother⟩ | ⟨a, b, hone, hother, hab⟩
    · rw [hone, hother]
      exact hsuffix
    · rw [hone, hother]
      exact .some hab

/-- An identifier that was read, or none, resolves to counterparts. -/
theorem rel_bind_resolve? (h : expected.IsRespelled expected') (o : Option (List Char)) :
    Option.Rel (Counterparts expected expected') (o.bind expected.resolve?)
      (o.bind expected'.resolve?) := by
  cases o with
  | none => exact .none
  | some declared => exact rel_resolve? h declared

/-- A line declares counterparts. -/
theorem rel_declared? (h : expected.IsRespelled expected') (line : List Char) :
    Option.Rel (Counterparts expected expected') (declared? expected line)
      (declared? expected' line) := by
  unfold declared?
  cases SourceLine.classify line with
  | blank => exact .none
  | comment content => exact .none
  | code =>
    dsimp only
    cases beforeExport (trim line) with
    | none => exact .none
    | some head =>
      change Option.Rel _ (resolveHead? expected head) (resolveHead? expected' head)
      unfold resolveHead?
      cases freeForm? head with
      | some declared => exact rel_resolve? h declared
      | none => exact rel_or (rel_bind_resolve? h _) (rel_bind_resolve? h _)

/-- The declarations that are found are those of counterparts, with the same descriptions. -/
theorem forall₂_collect (h : expected.IsRespelled expected') (lines : List (List Char)) :
    List.Forall₂ (Candidate.Counterparts expected expected') (collect expected lines)
      (collect expected' lines) := by
  rw [collect, collect, collectFrom_eq_scan, collectFrom_eq_scan]
  refine forall₂_scan (fun known known' index line hknown => ?_) .nil 0 lines
  unfold candidate?
  rcases rel_cases (rel_declared? h line) with ⟨hd, hd'⟩ | ⟨name, name', hd, hd', hname⟩
  · rw [hd, hd']
    exact .none
  · rw [hd, hd']
    dsimp only
    rw [contains_eq_of_counterparts hknown hname]
    split
    · exact .none
    · split
      · exact .none
      · exact .some ⟨hname, rfl⟩

end Declaration

/-- The names say the same in any spelling. -/
theorem Inference.forall₂_collect (h : expected.IsRespelled expected') :
    List.Forall₂ (Candidate.Counterparts expected expected') (collect expected)
      (collect expected') := by
  refine List.rel_filterMap ?_ h
  intro name name' hname
  have hinfer : infer name = infer name' := by
    rw [infer, infer, upper_trim, upper_trim, hname.upper_eq]
  dsimp only
  rw [hinfer]
  cases infer name' with
  | none => exact .none
  | some text => exact .some ⟨hname, rfl⟩

/-! ## Extractions -/

/-- Each strategy proposes the same, name by name. -/
theorem Strategy.forall₂_propose (h : expected.IsRespelled expected') (lines : List (List Char))
    (s : Strategy) : List.Forall₂ (Candidate.Counterparts expected expected')
      (s.propose expected lines) (s.propose expected' lines) := by
  cases s with
  | inlineLabel => exact Label.forall₂_collect h lines
  | blockHeader => exact Declaration.forall₂_collect h lines
  | nameInference => exact Inference.forall₂_collect h

/-- A strategy proposes the same for a name and its counterpart. -/
theorem Strategy.found_proposal?_eq (h : expected.IsRespelled expected')
    (hname : Counterparts expected expected' name name') (lines : List (List Char))
    (s : Strategy) : (s.proposal? expected lines name).map Candidate.found =
      (s.proposal? expected' lines name').map Candidate.found := by
  have hfind : Option.Rel (Candidate.Counterparts expected expected')
      (s.proposal? expected lines name) (s.proposal? expected' lines name') := by
    refine rel_find? (s.forall₂_propose h lines) fun c c' hc => ?_
    rw [Bool.eq_iff_iff, beq_iff_eq, beq_iff_eq]
    exact hc.1.eq_iff hname
  rcases rel_cases hfind with ⟨hp, hp'⟩ | ⟨c, c', hp, hp', hc⟩
  · rw [hp, hp', Option.map_none]
  · rw [hp, hp', Option.map_some, Option.map_some, hc.2]

/-- A name and its counterpart have the same entry, or none. -/
theorem get?_extract_of_counterparts (h : expected.IsRespelled expected')
    (hname : Counterparts expected expected' name name') (strategies : List Strategy)
    (source : String) : (extract expected strategies source).get? name =
      (extract expected' strategies source).get? name' := by
  rw [get?_extract, get?_extract, List.map_findSome?, List.map_findSome?]
  congr 1
  funext s
  exact s.found_proposal?_eq h hname _

end Respelled

/-! ## Lists of names -/

namespace ExpectedNames

variable {names names' : List String}

theorem mem_names_ofList {name : String} :
    name ∈ (ofList names).names ↔ ∃ i ∈ keptPositions names, name = nameAt names i := by
  simp only [names_ofList, List.mem_map, eq_comm]

/-- The names at a kept position of two lists that are the same up to case are counterparts. -/
theorem counterparts_nameAt (h : List.Forall₂ (fun a b => sameName a b = true) names names')
    {i : Nat} (hi : i ∈ keptPositions names) :
    Counterparts (ofList names) (ofList names') (nameAt names i) (nameAt names' i) := by
  refine ⟨mem_names_ofList.2 ⟨i, hi, rfl⟩, mem_names_ofList.2 ⟨i, ?_, rfl⟩, sameName_nameAt h i⟩
  rwa [← keptPositions_congr h]

theorem isRespelled_ofList (h : List.Forall₂ (fun a b => sameName a b = true) names names') :
    (ofList names).IsRespelled (ofList names') := by
  rw [IsRespelled, names_ofList names, names_ofList names', ← keptPositions_congr h,
    List.forall₂_map_left_iff, List.forall₂_map_right_iff, List.forall₂_same]
  intro i hi
  exact counterparts_nameAt h hi

end ExpectedNames

open ExpectedNames in
/-- **The spelling of the expected names does not matter.** Of two lists of names that are, one by
one, the same up to the case of ASCII letters, the same positions are kept, and with every source
and every list of strategies the names at a kept position have the same text, strategy and line, or
both no entry. There are no entries of other names. -/
theorem spelling_does_not_matter {names names' : List String}
    (h : List.Forall₂ (fun a b => sameName a b = true) names names') (strategies : List Strategy)
    (source : String) :
    keptPositions names = keptPositions names' ∧
      (ofList names).names = (keptPositions names).map (nameAt names) ∧
      (ofList names').names = (keptPositions names').map (nameAt names') ∧
      (∀ i ∈ keptPositions names,
        (extract (ofList names) strategies source).get? (nameAt names i) =
          (extract (ofList names') strategies source).get? (nameAt names' i)) ∧
      (∀ entry ∈ (extract (ofList names) strategies source).entries,
        ∃ i ∈ keptPositions names, entry.1 = nameAt names i) ∧
      ∀ entry ∈ (extract (ofList names') strategies source).entries,
        ∃ i ∈ keptPositions names', entry.1 = nameAt names' i := by
  refine ⟨keptPositions_congr h, names_ofList names, names_ofList names', ?_, ?_, ?_⟩
  · intro i hi
    exact get?_extract_of_counterparts (isRespelled_ofList h) (counterparts_nameAt h hi) _ _
  · intro entry hentry
    exact mem_names_ofList.1 (mem_names_of_mem_extract hentry)
  · intro entry hentry
    exact mem_names_ofList.1 (mem_names_of_mem_extract hentry)

/-- Blanks, a blank name and a repeated one in lists of different case, with a label, a declaration
and an inference. -/
theorem spelling_does_not_matter_mixed :
    let names := [" A_one", "", "two", "A_ONE", "Set"]
    let names' := [" a_ONE", "", "TWO", "a_one", "SET"]
    let source := "// Two: label\nreturn;\n// header\ndcl-proc One export;"
    List.Forall₂ (fun a b => sameName a b = true) names names' ∧
      ExpectedNames.keptPositions names = [0, 2, 4] ∧
      ExpectedNames.keptPositions names' = [0, 2, 4] ∧
      (extract (.ofList names) Strategy.all source).get? "A_one" =
        some ⟨"header", .blockHeader, some 4⟩ ∧
      (extract (.ofList names') Strategy.all source).get? "a_ONE" =
        some ⟨"header", .blockHeader, some 4⟩ ∧
      (extract (.ofList names) Strategy.all source).get? "Set" =
        (extract (.ofList names') Strategy.all source).get? "SET" := by
  intro names names' source
  have hnames : List.Forall₂ (fun a b => sameName a b = true) names names' := by
    simp only [names, names', List.forall₂_cons, List.forall₂_nil_left_iff]
    decide +kernel
  obtain ⟨hkept, -, -, hget, -⟩ := spelling_does_not_matter hnames Strategy.all source
  have hpositions : ExpectedNames.keptPositions names = [0, 2, 4] := by decide +kernel
  refine ⟨hnames, hpositions, hkept ▸ hpositions, ?_, ?_, ?_⟩
  · decide +kernel
  · have hone : ExpectedNames.nameAt names' 0 = "a_ONE" := by decide +kernel
    rw [← hone, ← hget 0 (by rw [hpositions]; decide)]
    decide +kernel
  · have hset : ExpectedNames.nameAt names' 4 = "SET" := by decide +kernel
    have hset' : ExpectedNames.nameAt names 4 = "Set" := by decide +kernel
    rw [← hset, ← hset']
    exact hget 4 (by rw [hpositions]; decide)

end ProcedureCatalog
