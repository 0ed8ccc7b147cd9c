/-
# The first usable label of each name

Which label describes a name can be said without the walk over the source: of the lines that hold a
label of the name, the first one whose text, read on over the lines that continue it, leaves a
description. Names made of the characters of object names do not compete for a line, so neither
the names found before nor the order of the names has a say in this.

* `describe_eq` : the description of a label in one piece.
* `match?_eq_some_iff` : a line holds a label of one name at most.
* `first_usable_label_wins` : what the pass over the labels finds.
-/
import ProcedureCatalog.Proofs.Extraction.Headers
import ProcedureCatalog.Proofs.Extraction.Spelling
import ProcedureCatalog.Proofs.Text.LineEnds

namespace ProcedureCatalog.Label

open Text SourceLine

variable {expected : ExpectedNames} {lines : List (List Char)}

/-! ## The description of a label -/

/-- The text of a label and that of the lines that continue it make the description, with a space
between them, collapsed and normalized. -/
theorem describe_eq (expected : ExpectedNames) (lines : List (List Char)) (own : List Char)
    (start : Nat) : describe expected lines own start = Description.normalize (Description.collapse
      (.ofList (trimDecoration own ++ ' ' :: (continuation expected lines start).text))) := by
  have hcollapse : ∀ a b : List Char, Text.collapse (joinWith [' '] ([a, b].filter (!·.isEmpty))) =
      Text.collapse (a ++ ' ' :: b) := by
    intro a b
    have hblank : isBlank ' ' = true := by decide
    have hwords : [a, b].flatMap words = words a ++ words b := by simp
    rw [Text.collapse, Text.collapse, words_joinWith hblank, flatMap_words_filter, hwords,
      words_append hblank]
  rw [describe, hcollapse, Description.normalize, Description.collapse, String.toList_ofList,
    String.toList_ofList]

/-! ## Labels of different names -/

/-- The names are made of characters of object names. -/
def HasPlainNames (expected : ExpectedNames) : Prop :=
  ∀ name ∈ expected.names, ∀ c ∈ name.toList, ObjectName.isNameChar c = true

-- the characters are those of the name, not all there are
instance (expected : ExpectedNames) : Decidable (HasPlainNames expected) :=
  haveI (name : String) : Decidable (∀ c ∈ name.toList, ObjectName.isNameChar c = true) :=
    List.decidableBAll _ _
  List.decidableBAll _ _

/-- A content is a label of one expected name at most. -/
theorem eq_of_textOf? (hplain : HasPlainNames expected) {name name' : String}
    {content own own' : List Char} (hname : name ∈ expected.names)
    (hname' : name' ∈ expected.names) (h : textOf? name content = some own)
    (h' : textOf? name' content = some own') : name = name' := by
  obtain ⟨rest, hlabel, -⟩ := Option.bind_eq_some_iff.1 h
  obtain ⟨rest', hlabel', -⟩ := Option.bind_eq_some_iff.1 h'
  refine ExpectedNames.eq_of_sameName hname hname' (sameName_iff.2 ?_)
  exact Opens.upper_eq (hplain name hname) (hplain name' hname') (afterLabel?_eq_some_iff.1 hlabel)
    (afterLabel?_eq_some_iff.1 hlabel')

/-- The label that is matched is the one of the only name it belongs to, unless that is resolved. -/
theorem match?_eq_some_iff (hplain : HasPlainNames expected) {resolved : List String}
    {content own : List Char} {name : String} :
    match? expected resolved content = some (name, own) ↔
      name ∈ expected.names ∧ name ∉ resolved ∧ textOf? name content = some own := by
  refine ⟨match?_eq_some, ?_⟩
  rintro ⟨hname, hnew, htext⟩
  have hmem : name ∈ expected.names.filter fun n => !resolved.contains n :=
    List.mem_filter.2 ⟨hname, by simpa using hnew⟩
  cases hmatch : match? expected resolved content with
  | none =>
    have hnone := List.findSome?_eq_none_iff.1 hmatch name hmem
    rw [htext] at hnone
    simp at hnone
  | some found =>
    obtain ⟨name', own'⟩ := found
    obtain ⟨hname', -, htext'⟩ := match?_eq_some hmatch
    obtain rfl := eq_of_textOf? hplain hname' hname htext' htext
    obtain rfl := Option.some.inj (htext'.symm.trans htext)
    rfl

/-! ## What a line gives -/

/-- The line holds a label of the candidate's name, which describes it as the candidate says. -/
def Holds (expected : ExpectedNames) (lines : List (List Char)) (index : Nat) (line : List Char)
    (c : Candidate) : Prop :=
  c.name ∈ expected.names ∧ c.description ≠ "" ∧
    ∃ content own, classify line = .comment content ∧ textOf? c.name content = some own ∧
      c = ⟨c.name, describe expected lines own (index + 1), some (index + 1), .inlineLabel⟩

/-- A label is not empty. -/
theorem ne_nil_of_textOf? {name : String} {content own : List Char}
    (h : textOf? name content = some own) : content ≠ [] := by
  obtain ⟨rest, hlabel, -⟩ := Option.bind_eq_some_iff.1 h
  obtain ⟨spelled, gap, -, -, hstart⟩ := afterLabel?_eq_some_iff.1 hlabel
  rintro rfl
  simp at hstart

/-- The names found before settle nothing but that they are not found again. -/
theorem isGivenBy_candidate? (hplain : HasPlainNames expected) (lines : List (List Char)) :
    Finder.IsGivenBy (candidate? expected lines) (Holds expected lines) := by
  intro resolved index line c
  constructor
  · intro h
    obtain ⟨content, own, hclass, hmatch, hne, hc⟩ := candidate?_eq_some h
    obtain ⟨hname, hnew, htext⟩ := match?_eq_some hmatch
    exact ⟨hnew, hname, hne, content, own, hclass, htext, hc⟩
  · rintro ⟨hnew, hname, hne, content, own, hclass, htext, hc⟩
    have hmatch := (match?_eq_some_iff hplain).2 ⟨hname, hnew, htext⟩
    obtain ⟨first, rest, rfl⟩ := List.exists_cons_of_ne_nil (ne_nil_of_textOf? htext)
    have hdescription : c.description = describe expected lines own (index + 1) := by rw [hc]
    rw [hdescription] at hne
    unfold candidate?
    rw [hclass]
    dsimp only [LineClass.content]
    rw [hmatch]
    dsimp only
    rw [if_neg (by simpa using hne), ← hc]

/-! ## The first usable label -/

/-- The line at the position is a comment with a label of the name, and this is the description
that the label gives with the lines that continue it. -/
def Says (expected : ExpectedNames) (lines : List (List Char)) (name : String) (index : Nat)
    (description : String) : Prop :=
  ∃ line content text, lines[index]? = some line ∧ classify line = .comment content ∧
    IsLabel name.toList content text ∧
    description = Description.normalize (Description.collapse
      (.ofList (trimDecoration text ++ ' ' :: (continuation expected lines (index + 1)).text)))

/-- The candidate is what the first label of an expected name says that says anything. -/
structure IsFirstLabel (expected : ExpectedNames) (lines : List (List Char)) (c : Candidate) :
    Prop where
  name_mem : c.name ∈ expected.names
  strategy_eq : c.strategy = .inlineLabel
  ne_empty : c.description ≠ ""
  first : ∃ index, c.line = some (index + 1) ∧ Says expected lines c.name index c.description ∧
    ∀ earlier < index, ∀ description, Says expected lines c.name earlier description →
      description = ""

/-- It is the first description that the labels of an expected name give. -/
theorem isFirstLabel_iff {c : Candidate} : IsFirstLabel expected lines c ↔
    IsFirstSaid (fun name index description =>
      name ∈ expected.names ∧ Says expected lines name index description) .inlineLabel c := by
  constructor
  · rintro ⟨hname, hstrategy, hne, index, hat, hsaid, hearlier⟩
    refine ⟨hstrategy, hne, index, hat, ⟨hname, hsaid⟩, ?_⟩
    exact fun earlier hlt description hbefore => hearlier earlier hlt description hbefore.2
  · rintro ⟨hstrategy, hne, index, hat, ⟨hname, hsaid⟩, hearlier⟩
    refine ⟨hname, hstrategy, hne, index, hat, hsaid, ?_⟩
    exact fun earlier hlt description hbefore => hearlier earlier hlt description ⟨hname, hbefore⟩

section Source

variable (hlines : ∀ line ∈ lines, '\n' ∉ line)

include hlines

/-- What the line at a position holds is what it says. -/
theorem holds_iff {index : Nat} {line : List Char} {c : Candidate}
    (hline : lines[index]? = some line) : Holds expected lines index line c ↔
      c.strategy = .inlineLabel ∧ c.description ≠ "" ∧ c.line = some (index + 1) ∧
        c.name ∈ expected.names ∧ Says expected lines c.name index c.description := by
  have hread : ∀ {content : List Char}, classify line = .comment content →
      ∀ {text}, textOf? c.name content = some text ↔ IsLabel c.name.toList content text := by
    intro content hclass text
    refine textOf?_eq_some_iff (trim_eq_of_classify hclass) fun hmem => ?_
    exact hlines line (List.mem_of_getElem? hline) (mem_of_classify hclass hmem)
  constructor
  · rintro ⟨hname, hne, content, own, hclass, htext, hc⟩
    have hdescription : c.description = describe expected lines own (index + 1) := by rw [hc]
    rw [describe_eq] at hdescription
    refine ⟨by rw [hc], hne, by rw [hc], hname, line, content, own, hline, hclass, ?_, hdescription⟩
    exact (hread hclass).1 htext
  · rintro ⟨hstrategy, hne, hat, hname, line', content, text, hline', hclass, hlabel, hdescription⟩
    obtain rfl := Option.some.inj (hline.symm.trans hline')
    refine ⟨hname, hne, content, text, hclass, (hread hclass).2 hlabel, ?_⟩
    rw [describe_eq, ← hdescription, ← hstrategy, ← hat]

/-- The first line that holds a label of its name is the one with the first usable label. -/
theorem isFirst_holds_iff {c : Candidate} :
    IsFirst (Holds expected lines) 0 lines c ↔ IsFirstLabel expected lines c := by
  rw [isFirstLabel_iff]
  apply isFirst_iff_isFirstSaid
  · rintro name index description ⟨-, line, -, -, hline, -⟩
    exact ⟨line, hline⟩
  · intro index line c hline
    exact holds_iff hlines hline

end Source

/-- There is a first usable label exactly when there is one at all. -/
theorem exists_isFirstLabel_iff {name : String} :
    (∃ c, IsFirstLabel expected lines c ∧ c.name = name) ↔ name ∈ expected.names ∧
      ∃ index description, Says expected lines name index description ∧ description ≠ "" := by
  simp only [isFirstLabel_iff, exists_isFirstSaid_iff, and_assoc, exists_and_left]

/-! ## The order of the names -/

/-- The lines that continue a label depend on which names are expected, and not on their order. -/
theorem continuation_eq_of_mem_iff {other : ExpectedNames}
    (h : ∀ name, name ∈ other.names ↔ name ∈ expected.names) (lines : List (List Char))
    (start : Nat) : continuation other lines start = continuation expected lines start := by
  have hheader : isHeader other = isHeader expected := by
    funext content
    rw [isHeader, isHeader, Bool.eq_iff_iff, List.any_eq_true, List.any_eq_true]
    exact exists_congr fun name => and_congr_left' (h name)
  rw [continuation_eq_of_isHeader_eq hheader]

theorem isFirstLabel_congr {other : ExpectedNames}
    (h : ∀ name, name ∈ other.names ↔ name ∈ expected.names) {c : Candidate} :
    IsFirstLabel other lines c ↔ IsFirstLabel expected lines c := by
  have hsaid : Says other lines = Says expected lines := by
    funext name index description
    simp only [Says, continuation_eq_of_mem_iff h]
  constructor
  · rintro ⟨hname, hstrategy, hne, hfirst⟩
    rw [hsaid] at hfirst
    exact ⟨(h _).1 hname, hstrategy, hne, hfirst⟩
  · rintro ⟨hname, hstrategy, hne, hfirst⟩
    rw [← hsaid] at hfirst
    exact ⟨(h _).2 hname, hstrategy, hne, hfirst⟩

/-! ## What the pass finds -/

/-- The pass finds the first usable labels of the names that it has not found before. -/
theorem mem_collectFrom_iff (hplain : HasPlainNames expected) {source : List Char}
    {resolved : List String} {c : Candidate} :
    c ∈ collectFrom expected (Text.lines source) resolved 0 (Text.lines source) ↔
      c.name ∉ resolved ∧ IsFirstLabel expected (Text.lines source) c := by
  rw [collectFrom_eq_scan, mem_scan_iff (isGivenBy_candidate? hplain _),
    isFirst_holds_iff fun line => newline_notMem_of_mem_lines]

/-- **The first usable label of each name wins.** A name has a label candidate exactly when some
line says something about it, the candidate is what the first such line says, and neither names
found before nor the order of the names changes what is found for it. -/
theorem first_usable_label_wins {expected : ExpectedNames}
    (hplain : ∀ name ∈ expected.names, ∀ c ∈ name.toList, ObjectName.isNameChar c = true)
    (source : String) :
    let lines := Text.lines source.toList
    (∀ name, (∃ c ∈ collect expected lines, c.name = name) ↔ name ∈ expected.names ∧
      ∃ index description, Says expected lines name index description ∧ description ≠ "") ∧
    (∀ c, c ∈ collect expected lines ↔ IsFirstLabel expected lines c) ∧
    (∀ resolved c, c ∈ collectFrom expected lines resolved 0 lines ↔
      c.name ∉ resolved ∧ IsFirstLabel expected lines c) ∧
    ∀ other : ExpectedNames, (∀ name, name ∈ other.names ↔ name ∈ expected.names) →
      ∀ c, c ∈ collect other lines ↔ c ∈ collect expected lines := by
  intro lines
  have hnames : HasPlainNames expected := hplain
  have hcollect : ∀ {names : ExpectedNames}, HasPlainNames names → ∀ c,
      c ∈ collect names lines ↔ IsFirstLabel names lines c := by
    intro names hnames c
    rw [collect, mem_collectFrom_iff hnames, and_iff_right List.not_mem_nil]
  refine ⟨fun name => ?_, hcollect hnames, fun resolved c => mem_collectFrom_iff hnames, ?_⟩
  · rw [← exists_isFirstLabel_iff]
    exact exists_congr fun c => and_congr_left' (hcollect hnames c)
  · intro other hmem c
    have hother : HasPlainNames other := fun name hname => hnames name ((hmem name).1 hname)
    rw [hcollect hother, hcollect hnames, isFirstLabel_congr hmem]

/-- A label of stars alone is passed over, and a label is read in any case and with its
continuation. -/
theorem first_usable_label_wins_after_stars :
    let expected := ExpectedNames.ofList ["A_ONE", "TWO"]
    let source :=
      "// A_ONE : ***\ndcl-s x;\n// two() : dos **\n// mas\n// a_one : uno\n// A_ONE : otra\n"
    (∀ name ∈ expected.names, ∀ c ∈ name.toList, ObjectName.isNameChar c = true) ∧
      IsFirstLabel expected (Text.lines source.toList) ⟨"TWO", "dos mas", some 3, .inlineLabel⟩ ∧
      IsFirstLabel expected (Text.lines source.toList) ⟨"A_ONE", "uno", some 5, .inlineLabel⟩ := by
  intro expected source
  have hplain : ∀ name ∈ expected.names, ∀ c ∈ name.toList, ObjectName.isNameChar c = true := by
    change HasPlainNames expected
    decide +kernel
  obtain ⟨-, hfirst, -⟩ := first_usable_label_wins hplain source
  refine ⟨hplain, (hfirst _).1 ?_, (hfirst _).1 ?_⟩
  · decide +kernel
  · decide +kernel

end ProcedureCatalog.Label
