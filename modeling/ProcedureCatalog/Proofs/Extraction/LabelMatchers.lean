/-
# The two readers of labels

Labels are read with their text, to describe a procedure, and without it, to end the label above.
Both readers accept the same grammar, name for name, and both take the names as they are: the
pattern of one name stands for that name alone, and the pattern of all names, with bars between
theirs, for just these names.

* `alternatives?_patterns` : what the pattern of some names stands for.
* `isHeader_iff` : the texts that open a label.
* `match?_eq_some_iff_isFirstMatch`, `match?_eq_none_iff` : the label that is read, and when there
  is none.
* `label_readers_agree` : both readers together.
-/
import ProcedureCatalog.Host.Quoting
import ProcedureCatalog.Proofs.Extraction.Headers
import ProcedureCatalog.Proofs.Text.Words

namespace ProcedureCatalog.Label

open Text SourceLine Host

/-! ## Patterns of names -/

/-- The texts that a pattern stands for, when it is made of nothing but characters that stand for
themselves and bars. -/
def alternatives? : List Char → Option (List (List Char))
  | [] => some [[]]
  | '\\' :: c :: cs =>
    if c ∈ patternMetacharacters then (alternatives? cs).map (List.modifyHead (c :: ·)) else none
  | '|' :: cs => (alternatives? cs).map ([] :: ·)
  | c :: cs =>
    if c ∈ patternMetacharacters then none else (alternatives? cs).map (List.modifyHead (c :: ·))

/-- The pattern of one name. -/
def pattern (name : String) : List Char := (patternText name).toList

theorem pattern_eq (name : String) : pattern name = name.toList.flatMap patternChar := by
  rw [pattern, patternText, replaceChars, String.toList_ofList]

/-- A character is read back from its pattern. -/
theorem alternatives?_patternChar_append (c : Char) (rest : List Char) :
    alternatives? (patternChar c ++ rest) =
      (alternatives? rest).map (List.modifyHead (c :: ·)) := by
  by_cases hc : c ∈ patternMetacharacters
  · rw [patternChar, if_pos hc]
    exact if_pos hc
  · have hslash : c ≠ '\\' := by
      rintro rfl
      exact hc (by decide)
    have hbar : c ≠ '|' := by
      rintro rfl
      exact hc (by decide)
    rw [patternChar, if_neg hc, List.singleton_append, alternatives?.eq_def]
    split
    · next heq => exact absurd heq (List.cons_ne_nil _ _)
    · next heq => exact absurd (List.cons.inj heq).1 hslash
    · next heq => exact absurd (List.cons.inj heq).1 hbar
    · next heq =>
      obtain ⟨rfl, rfl⟩ := List.cons.inj heq
      exact if_neg hc

/-- A name is read back from its pattern. -/
theorem alternatives?_flatMap_append (name rest : List Char) :
    alternatives? (name.flatMap patternChar ++ rest) =
      (alternatives? rest).map (List.modifyHead (name ++ ·)) := by
  induction name with
  | nil =>
    have hid : List.modifyHead (([] : List Char) ++ ·) = id := List.modifyHead_id
    rw [hid, Option.map_id]
    rfl
  | cons c name ih =>
    rw [List.flatMap_cons, List.append_assoc, alternatives?_patternChar_append, ih, Option.map_map]
    congr 1
    funext texts
    rw [Function.comp, List.modifyHead_modifyHead]
    rfl

/-- The patterns of some names, with bars between them, stand for just these names. -/
theorem alternatives?_patterns {names : List String} (hne : names ≠ []) :
    alternatives? (joinWith ['|'] (names.map pattern)) = some (names.map String.toList) := by
  induction names with
  | nil => exact absurd rfl hne
  | cons name names ih =>
    cases names with
    | nil =>
      have hread := alternatives?_flatMap_append name.toList []
      rw [List.append_nil, ← pattern_eq] at hread
      rw [List.map_singleton, joinWith, hread, alternatives?]
      simp
    | cons second names =>
      have hrest := ih (List.cons_ne_nil _ _)
      rw [List.map_cons] at hrest
      rw [List.map_cons, List.map_cons, joinWith_cons_cons, List.append_assoc, pattern_eq name,
        alternatives?_flatMap_append, List.singleton_append, alternatives?, hrest]
      simp

/-! ## The label that is read -/

variable {expected : ExpectedNames} {resolved : List String} {name : String}
  {content text : List Char}

/-- The name is the first expected one, outside `resolved`, that the content is a label of, and
`text` is the text of that label. -/
structure IsFirstMatch (expected : ExpectedNames) (resolved : List String) (content : List Char)
    (name : String) (text : List Char) : Prop where
  isLabel : IsLabel name.toList content text
  notMem : name ∉ resolved
  first : ∃ earlier later, expected.names = earlier ++ name :: later ∧
    ∀ other ∈ earlier, other ∉ resolved → ∀ text, ¬ IsLabel other.toList content text

/-- A trimmed text is a header exactly when it opens a label of an expected name. -/
theorem isHeader_iff (htrim : trim content = content) : isHeader expected content = true ↔
    ∃ name ∈ expected.names, ∃ rest, Opens name.toList content rest := by
  have hstart : trimStart content = content :=
    dropWhile_eq_self (by rw [← htrim]; exact head?_trim_eq_false content)
  rw [isHeader, List.any_eq_true]
  constructor
  · rintro ⟨name, hname, hsome⟩
    obtain ⟨rest, hrest⟩ := Option.isSome_iff_exists.1 hsome
    rw [afterLabel?_eq_some_iff, hstart] at hrest
    exact ⟨name, hname, rest, hrest⟩
  · rintro ⟨name, hname, rest, hopens⟩
    refine ⟨name, hname, Option.isSome_iff_exists.2 ⟨rest, ?_⟩⟩
    rwa [afterLabel?_eq_some_iff, hstart]

section Trimmed

variable (htrim : trim content = content) (hline : '\n' ∉ content)

include htrim hline

/-- A name gives nothing exactly when the content is no label of it. -/
theorem map_textOf?_eq_none_iff : (textOf? name content).map (name, ·) = none ↔
    ∀ text, ¬ IsLabel name.toList content text := by
  rw [Option.map_eq_none_iff, Option.eq_none_iff_forall_ne_some]
  simp only [ne_eq, textOf?_eq_some_iff htrim hline]

/-- The label that is read is the first one. -/
theorem match?_eq_some_iff_isFirstMatch : match? expected resolved content = some (name, text) ↔
    IsFirstMatch expected resolved content name text := by
  rw [match?, List.findSome?_eq_some_iff]
  constructor
  · rintro ⟨before, found, after, hfilter, hfound, hnone⟩
    obtain ⟨own, hown, heq⟩ := Option.map_eq_some_iff.1 hfound
    obtain ⟨rfl, rfl⟩ := Prod.mk.inj heq
    obtain ⟨front, back, hnames, hfront, hback⟩ := List.filter_eq_append_iff.1 hfilter
    obtain ⟨skipped, later, rfl, hskipped, hnew, -⟩ := List.filter_eq_cons_iff.1 hback
    refine ⟨(textOf?_eq_some_iff htrim hline).1 hown, by simpa using hnew, front ++ skipped, later,
      by rw [hnames, List.append_assoc], ?_⟩
    intro other hother hunresolved
    rcases List.mem_append.1 hother with hother | hother
    · rw [← map_textOf?_eq_none_iff htrim hline]
      apply hnone
      rw [← hfront, List.mem_filter]
      exact ⟨hother, by simpa using hunresolved⟩
    · -- a skipped name is resolved
      exact absurd (by simpa using hunresolved) (hskipped other hother)
  · rintro ⟨hlabel, hnew, earlier, later, hnames, hfirst⟩
    refine ⟨earlier.filter fun n => !resolved.contains n, name,
      later.filter fun n => !resolved.contains n, ?_, ?_, ?_⟩
    · have hkept : (!resolved.contains name) = true := by simpa using hnew
      rw [hnames, List.filter_append,
        List.filter_cons_of_pos (p := fun n => !resolved.contains n) hkept]
    · rw [(textOf?_eq_some_iff htrim hline).2 hlabel, Option.map_some]
    · intro other hother
      obtain ⟨hmem, hunresolved⟩ := List.mem_filter.1 hother
      rw [map_textOf?_eq_none_iff htrim hline]
      exact hfirst other hmem (by simpa using hunresolved)

/-- No label is read exactly when the content is one of no name outside `resolved`. -/
theorem match?_eq_none_iff : match? expected resolved content = none ↔
    ∀ name ∈ expected.names, name ∉ resolved → ∀ text, ¬ IsLabel name.toList content text := by
  rw [match?, List.findSome?_eq_none_iff]
  simp only [List.mem_filter, map_textOf?_eq_none_iff htrim hline, Bool.not_eq_true',
    List.contains_eq_mem, decide_eq_false_iff_not, and_imp]

end Trimmed

/-- A label that is read opens a label also without the decoration at its end. -/
theorem isHeader_of_match? (htrim : trim content = content)
    (h : match? expected resolved content ≠ none) :
    isHeader expected (trimDecoration content) = true := by
  obtain ⟨⟨name, text⟩, hmatch⟩ := Option.ne_none_iff_exists'.1 h
  obtain ⟨hname, -, htext⟩ := match?_eq_some hmatch
  have hhead : ∀ c ∈ content.head?, isBlank c = false := by
    rw [← htrim]
    exact head?_trim_eq_false content
  exact (isHeader_trimDecoration hname hhead htext).2

/-! ## Both readers -/

/-- **Both readers of labels accept the same grammar.** On a trimmed content of one line a header is
what opens a label of an expected name, and the label that is read is that of the first name outside
`resolved` with text behind its colon. So what gives a label is a header, also without the
decoration at its end. The patterns that the readers search for stand for the names alone. -/
theorem label_readers_agree (expected : ExpectedNames) {content : List Char}
    (htrim : trim content = content) (hline : '\n' ∉ content) :
    (isHeader expected content = true ↔
        ∃ name ∈ expected.names, ∃ rest, Opens name.toList content rest) ∧
      (∀ resolved name text, match? expected resolved content = some (name, text) ↔
        IsFirstMatch expected resolved content name text) ∧
      (∀ resolved, match? expected resolved content = none ↔
        ∀ name ∈ expected.names, name ∉ resolved → ∀ text, ¬ IsLabel name.toList content text) ∧
      (∀ resolved, match? expected resolved content ≠ none →
        isHeader expected (trimDecoration content) = true) ∧
      (∀ name, alternatives? (pattern name) = some [name.toList]) ∧
      (expected.names ≠ [] → alternatives? (joinWith ['|'] (expected.names.map pattern)) =
        some (expected.names.map String.toList)) := by
  refine ⟨isHeader_iff htrim, fun resolved name text => ?_, fun resolved => ?_,
    fun resolved => isHeader_of_match? htrim, fun name => ?_, alternatives?_patterns⟩
  · exact match?_eq_some_iff_isFirstMatch htrim hline
  · exact match?_eq_none_iff htrim hline
  · exact alternatives?_patterns (List.cons_ne_nil name [])

/-- The parentheses belong to the first name, and to the form of a label when that is resolved. -/
theorem label_readers_agree_parens :
    let expected := ExpectedNames.ofList ["A.B", "A()", "A"]
    let content := "a() : uno **".toList
    match? expected [] content = some ("A()", "uno **".toList) ∧
      match? expected ["A()"] content = some ("A", "uno **".toList) ∧
      isHeader expected (trimDecoration content) = true ∧
      joinWith ['|'] (expected.names.map pattern) = "A\\.B|A\\(\\)|A".toList := by
  intro expected content
  have htrim : trim content = content := by decide +kernel
  have hline : '\n' ∉ content := by decide +kernel
  obtain ⟨-, hfirst, -, hheader, -, -⟩ := label_readers_agree expected htrim hline
  have hnames : expected.names = ["A.B", "A()", "A"] := by decide +kernel
  have hdot : ∀ text, ¬ IsLabel "A.B".toList content text :=
    (map_textOf?_eq_none_iff htrim hline).1 (by decide +kernel)
  have hblank : ∀ c ∈ [' '], isBlank c = true := List.forall_mem_singleton.2 (by decide)
  have hhead : ∀ c ∈ "uno **".toList.head?, isBlank c = false := by
    intro c hc
    obtain rfl := Option.some.inj hc
    decide
  have hopens : Opens "A()".toList content ([' '] ++ "uno **".toList) :=
    ⟨"a()".toList, [' '], by decide +kernel, .blanks hblank, by decide +kernel⟩
  have hopens' : Opens "A".toList content ([' '] ++ "uno **".toList) :=
    ⟨"a".toList, [] ++ '(' :: ')' :: [' '], by decide +kernel,
      .parens (List.forall_mem_nil _) hblank, by decide +kernel⟩
  have hread : match? expected [] content = some ("A()", "uno **".toList) := by
    refine (hfirst [] "A()" _).2 ⟨⟨by decide, hhead, [' '], hblank, hopens⟩, by simp,
      ["A.B"], ["A"], hnames, ?_⟩
    exact List.forall_mem_singleton.2 fun _ => hdot
  refine ⟨hread, ?_, hheader [] (by rw [hread]; exact Option.some_ne_none _), ?_⟩
  · refine (hfirst ["A()"] "A" _).2 ⟨⟨by decide, hhead, [' '], hblank, hopens'⟩, by decide,
      ["A.B", "A()"], [], hnames, ?_⟩
    rw [List.forall_mem_cons]
    refine ⟨fun _ => hdot, List.forall_mem_singleton.2 fun hnew => ?_⟩
    exact absurd List.mem_cons_self hnew
  · decide +kernel

end ProcedureCatalog.Label
