/-
# What declarations name

A line of code declares an exported procedure in a free or a fixed form. The free form gives the
procedure outright. The fixed form gives it too, but when its identifier stands for no expected name
the line is read once more as a loose declaration, and then the letter of the specification is
taken for the identifier.

* `FreeForm` : a free-form declaration in its parts.
* `FreeForm.beforeExport_trim_line` : its first keyword `EXPORT` is the one behind the identifier.
* `free_form_names_its_procedure` : the procedure of a free-form declaration.
* `resolveHead?_of_fixedForm` : a fixed-form specification is read twice.
* `fixed_form_names_its_own_iff` : when it names its own procedure.
-/
import ProcedureCatalog.Proofs.Extraction.DeclaredNames
import ProcedureCatalog.Proofs.Extraction.ExportKeyword
import ProcedureCatalog.Proofs.Text.Trimming

namespace ProcedureCatalog.Declaration

open Text SourceLine ExpectedNames

/-! ## Reading the parts of a declaration -/

/-- An identifier neither starts nor ends with a blank. -/
theorem trim_eq_of_isIdentifier {name : List Char} (h : ∀ c ∈ name, isIdentifier c = true) :
    trim name = name := by
  apply trim_eq_self
  · intro c hc
    exact isBlank_eq_false_of_isIdentifier (h c (List.mem_of_mem_head? hc))
  · intro c hc
    exact isBlank_eq_false_of_isIdentifier (h c (List.mem_of_getLast? hc))

section Parts

variable {blanks name rest : List Char}

/-- The blanks before a text that does not start with one are passed over. -/
theorem afterBlanks?_append (hne : blanks ≠ []) (hblanks : ∀ c ∈ blanks, isBlank c = true)
    (hrest : ∀ c ∈ rest.head?, isBlank c = false) : afterBlanks? (blanks ++ rest) = some rest := by
  obtain ⟨b, blanks, rfl⟩ := List.exists_cons_of_ne_nil hne
  rw [List.forall_mem_cons] at hblanks
  rw [List.cons_append, afterBlanks?, if_pos hblanks.1, trimStart_append hblanks.2 hrest]

variable (hne : name ≠ []) (hname : ∀ c ∈ name, isIdentifier c = true)

include hne hname

/-- The identifier is read up to the first other character. -/
theorem identifier?_append (hrest : ∀ c ∈ rest.head?, isIdentifier c = false) :
    identifier? (name ++ rest) = some name := by
  rw [identifier?, takeWhile_append_eq hname hrest]
  obtain ⟨c, name, rfl⟩ := List.exists_cons_of_ne_nil hne
  rfl

/-- The identifier is read up to the blank behind it. -/
theorem identifierBeforeBlank?_append {blank : Char} (hblank : isBlank blank = true) :
    identifierBeforeBlank? (name ++ blank :: rest) = some name := by
  have hstop : ∀ c ∈ (blank :: rest).head?, isIdentifier c = false := by
    intro c hc
    obtain rfl := Option.some.inj hc
    exact isIdentifier_eq_false_of_isBlank hblank
  rw [identifierBeforeBlank?, dropWhile_append_eq hname hstop, List.head?_cons]
  dsimp only
  rw [if_pos hblank, identifier?_append hne hname hstop]

/-- What starts with an identifier does not start with a blank. -/
theorem head?_append_isBlank_eq_false : ∀ c ∈ (name ++ rest).head?, isBlank c = false := by
  intro c hc
  rw [List.head?_append_of_ne_nil _ hne] at hc
  exact isBlank_eq_false_of_isIdentifier (hname c (List.mem_of_mem_head? hc))

end Parts

/-! ## The free form -/

/-- A free-form declaration in its parts: `DCL-PROC`, the declared identifier and `EXPORT`, with
blanks between them, and behind them anything that does not go on with the last word. The identifier
does not hold the keyword `EXPORT` between signs or ends of its own. -/
structure FreeForm where
  indent : List Char
  opening : List Char
  gap : List Char
  declared : List Char
  gap' : List Char
  closing : List Char
  tail : List Char
  isBlank_indent : ∀ c ∈ indent, isBlank c = true
  upper_opening : upper opening = "DCL-PROC".toList
  gap_ne_nil : gap ≠ []
  isBlank_gap : ∀ c ∈ gap, isBlank c = true
  declared_ne_nil : declared ≠ []
  isIdentifier_declared : ∀ c ∈ declared, isIdentifier c = true
  noKeyword_declared : ∀ o : Occurrence declared, upper o.text = exportKeyword →
    ¬ (o.before.getLast?.all isSign = true ∧ o.after.head?.all isSign = true)
  gap'_ne_nil : gap' ≠ []
  isBlank_gap' : ∀ c ∈ gap', isBlank c = true
  upper_closing : upper closing = exportKeyword
  isWord_tail : tail.head?.any isWord = false

namespace FreeForm

variable (d : FreeForm)

/-- The line that the parts make. -/
def line : List Char :=
  d.indent ++ (d.opening ++ (d.gap ++ (d.declared ++ (d.gap' ++ (d.closing ++ d.tail)))))

/-- The declaration without its indent and its tail. -/
def body : List Char := d.opening ++ (d.gap ++ (d.declared ++ (d.gap' ++ d.closing)))

/-- What stands before the keyword `EXPORT`. -/
def head : List Char := d.opening ++ (d.gap ++ (d.declared ++ d.gap'))

theorem line_eq : d.line = d.indent ++ (d.body ++ d.tail) := by
  simp only [line, body, List.append_assoc]

/-! ### What it is made of -/

/-- A declaration starts with the letter D. -/
theorem exists_body_eq : ∃ c rest, d.body = c :: rest ∧ c.toUpper = 'D' := by
  have hupper := d.upper_opening
  cases hopening : d.opening with
  | nil => simp [hopening] at hupper
  | cons c rest =>
    rw [hopening, upper_cons] at hupper
    exact ⟨c, rest ++ _, by rw [body, hopening]; rfl, (List.cons.inj hupper).1⟩

theorem isBlank_head?_body : ∀ c ∈ d.body.head?, isBlank c = false := by
  obtain ⟨first, rest, hbody, hfirst⟩ := d.exists_body_eq
  intro c hc
  rw [hbody] at hc
  obtain rfl := Option.some.inj hc
  rw [← isBlank_toUpper, hfirst]
  decide

theorem isBlank_getLast?_body : ∀ c ∈ d.body.getLast?, isBlank c = false := by
  have hne := ne_nil_of_upper_eq d.upper_closing
  have hlast : d.body.getLast? = d.closing.getLast? := by
    simp only [body, List.getLast?_append_of_ne_nil, hne, ne_eq, not_false_eq_true,
      List.append_eq_nil_iff, and_false]
  intro c hc
  rw [hlast] at hc
  by_contra hblank
  have hword := isWord_of_mem_of_upper_eq d.upper_closing (List.mem_of_getLast? hc)
  rw [isWord_eq_false_of_isBlank (by simpa using hblank)] at hword
  exact Bool.noConfusion hword

/-- There is no star in a declaration before its tail. -/
theorem star_notMem : '*' ∉ d.indent ++ d.body := by
  have hblank : ∀ blanks : List Char, (∀ c ∈ blanks, isBlank c = true) → '*' ∉ blanks := by
    intro blanks h hmem
    exact absurd (h _ hmem) (by decide)
  have hletters : ∀ text literal : List Char, upper text = literal → '*' ∉ literal →
      '*' ∉ text := by
    intro text literal h hnot hmem
    apply hnot
    rw [← h]
    exact List.mem_map_of_mem hmem
  have hdeclared : '*' ∉ d.declared := by
    intro hmem
    exact absurd (d.isIdentifier_declared _ hmem) (by decide)
  simp only [body, List.mem_append, not_or]
  exact ⟨hblank _ d.isBlank_indent, hletters _ _ d.upper_opening (by decide),
    hblank _ d.isBlank_gap, hdeclared, hblank _ d.isBlank_gap',
    hletters _ _ d.upper_closing (by decide)⟩

/-! ### How it is read -/

/-- Without the blanks around it a declaration is its body, up to the tail. -/
theorem trim_line : trim d.line = d.body ++ trimEnd d.tail := by
  have hstart : ∀ c ∈ (d.body ++ d.tail).head?, isBlank c = false := by
    obtain ⟨first, rest, hbody, -⟩ := d.exists_body_eq
    have hhead := d.isBlank_head?_body
    rw [hbody] at hhead ⊢
    exact hhead
  rw [line_eq, trim, trimStart_append d.isBlank_indent hstart,
    trimEnd_append_of_getLast? d.isBlank_getLast?_body]

/-- A declaration is code: it starts with a letter, and the star in column 7 would stand in it. -/
theorem classify_line : classify d.line = .code := by
  obtain ⟨first, rest, hbody, hfirst⟩ := d.exists_body_eq
  have hfixed : fixedComment? d.line = none := by
    have hlong : 6 < (d.indent ++ d.body).length := by
      have hlength := congrArg List.length d.upper_opening
      rw [length_upper, show "DCL-PROC".toList.length = 8 from rfl] at hlength
      rw [List.length_append, body, List.length_append]
      omega
    have hdrop : d.line.drop 6 = (d.indent ++ d.body).drop 6 ++ d.tail := by
      rw [line_eq, ← List.append_assoc, List.drop_append_of_le_length (Nat.le_of_lt hlong)]
    have hcolumn : (d.indent ++ d.body).drop 6 =
        (d.indent ++ d.body)[6] :: (d.indent ++ d.body).drop 7 := List.drop_eq_getElem_cons hlong
    rw [fixedComment?, hdrop, hcolumn]
    split
    · next heq =>
      refine absurd ?_ d.star_notMem
      rw [← (List.cons.inj heq).1]
      exact List.getElem_mem hlong
    · rfl
  rw [classify, trim_line, hbody, hfixed]
  split
  · next heq => simp at heq
  · next heq =>
    rw [(List.cons.inj heq).1] at hfirst
    exact absurd hfirst (by decide)
  · next heq =>
    rw [(List.cons.inj heq).1] at hfirst
    exact absurd hfirst (by decide)
  · rfl

/-- Between its signs and ends an identifier has its only word boundaries. -/
theorem beforeExport_declared : beforeExport d.declared = none := by
  have hsign : ∀ c? : Option Char, (∀ c ∈ c?, c ∈ d.declared) → c?.any isWord = false →
      c?.all isSign = true := by
    intro c? hmem hword
    cases c? with
    | none => rfl
    | some c =>
      have hboth := any_isIdentifier (some c)
      rw [hword, Bool.false_or] at hboth
      exact hboth.symm.trans (d.isIdentifier_declared c (hmem c rfl))
  apply beforeExport_eq_none
  intro o ho
  apply d.noKeyword_declared o ho.spelled
  have hfirst := ho.bounded.first
  have hlast := ho.bounded.last
  have hword : o.text.head?.any isWord = true := by
    rw [List.head?_eq_some_head (ne_nil_of_upper_eq ho.spelled)]
    exact isWord_of_mem_of_upper_eq ho.spelled (List.head_mem _)
  rw [isBoundary_comm, isBoundary_of_isWord hword, Bool.not_eq_true'] at hfirst
  rw [isBoundary_of_isWord (getLast?_isWord_of_upper_eq ho.spelled), Bool.not_eq_true'] at hlast
  have hmem : ∀ c, c ∈ o.before ∨ c ∈ o.after → c ∈ d.declared := by
    intro c hc
    rw [← o.joined, List.mem_append, List.mem_append]
    rcases hc with hc | hc
    · exact .inl hc
    · exact .inr (.inr hc)
  constructor
  · exact hsign _ (fun c hc => hmem c (.inl (List.mem_of_getLast? hc))) hfirst
  · exact hsign _ (fun c hc => hmem c (.inr (List.mem_of_mem_head? hc))) hlast

/-- The first keyword `EXPORT` is the one behind the identifier. -/
theorem beforeExport_trim_line : beforeExport (trim d.line) = some d.head := by
  have hopening : beforeExport d.opening = none := by
    apply beforeExport_eq_none_of_not_isInfix
    rw [d.upper_opening]
    decide +kernel
  have htail : (trimEnd d.tail).head?.any isWord = false := by
    obtain ⟨rest, hrest⟩ := exists_dropEndWhile_append (p := isBlank) d.tail
    have hword := d.isWord_tail
    rw [← hrest, List.head?_append] at hword
    rw [trimEnd]
    cases hhead : (dropEndWhile isBlank d.tail).head? with
    | none => rfl
    | some c => simpa [hhead] using hword
  have hgap : ∀ c ∈ d.gap, isWord c = false := fun c hc =>
    isWord_eq_false_of_isBlank (d.isBlank_gap c hc)
  have hgap' : ∀ c ∈ d.gap', isWord c = false := fun c hc =>
    isWord_eq_false_of_isBlank (d.isBlank_gap' c hc)
  have hparts : trim d.line = d.opening ++ (d.gap ++ (d.declared ++ (d.gap' ++
      (d.closing ++ trimEnd d.tail)))) := by
    rw [trim_line, body]
    simp only [List.append_assoc]
  rw [hparts, beforeExport_append_separators d.gap_ne_nil hgap, hopening,
    beforeExport_append_separators d.gap'_ne_nil hgap', d.beforeExport_declared,
    beforeExport_append d.upper_closing htail]
  simp only [Option.none_or, Option.map_some, List.append_nil, head]

/-- A text folds like the keyword of a procedure exactly when it is that keyword in any case. -/
theorem map_fold_eq_dclProc_iff {text : List Char} :
    text.map fold = "DCL-PROC".toList.map fold ↔ upper text = "DCL-PROC".toList :=
  map_fold_eq_literal_iff (by decide +kernel) (List.forall_iff_forall_mem.1 (by decide +kernel))
    (List.forall_iff_forall_mem.1 (by decide +kernel))

/-- What stands before `EXPORT` names the procedure of the identifier. -/
theorem resolveHead?_head (expected : ExpectedNames) :
    resolveHead? expected d.head = expected.resolve? d.declared := by
  have hopening : dropFolded? "DCL-PROC".toList d.head =
      some (d.gap ++ (d.declared ++ d.gap')) := by
    rw [dropFolded?_eq_some_iff]
    exact ⟨d.opening, by rw [head], map_fold_eq_dclProc_iff.2 d.upper_opening⟩
  have hstop : ∀ c ∈ d.gap'.head?, isIdentifier c = false := by
    intro c hc
    exact isIdentifier_eq_false_of_isBlank (d.isBlank_gap' c (List.mem_of_mem_head? hc))
  have hfree : freeForm? d.head = some d.declared := by
    rw [freeForm?, hopening, Option.bind_some, afterBlanks?_append d.gap_ne_nil d.isBlank_gap
      (head?_append_isBlank_eq_false d.declared_ne_nil d.isIdentifier_declared), Option.bind_some,
      identifier?_append d.declared_ne_nil d.isIdentifier_declared hstop]
  rw [resolveHead?, hfree]

/-- A declaration declares the procedure that its identifier stands for. -/
theorem declared?_line (expected : ExpectedNames) :
    declared? expected d.line = expected.resolve? d.declared := by
  rw [declared?, classify_line]
  dsimp only
  rw [beforeExport_trim_line, Option.bind_some, resolveHead?_head]

end FreeForm

/-- **Every exported free-form declaration names its procedure.** The line is code, and it declares
what its identifier resolves to: the expected name that the identifier is up to case, or else the
first expected name that ends, behind an underscore, in the identifier. -/
theorem free_form_names_its_procedure (expected : ExpectedNames) (d : FreeForm) :
    classify d.line = .code ∧ declared? expected d.line = expected.resolve? d.declared ∧
      ∀ name, declared? expected d.line = some name ↔ Resolves expected d.declared name := by
  refine ⟨d.classify_line, d.declared?_line expected, fun name => ?_⟩
  rw [d.declared?_line expected]
  exact resolve?_eq_some_iff d.declared_ne_nil (trim_eq_of_isIdentifier d.isIdentifier_declared)

/-- A declaration in mixed case with a second keyword behind the first. -/
def FreeForm.mixed : FreeForm where
  indent := "  ".toList
  opening := "Dcl-Proc".toList
  gap := " ".toList
  declared := "get".toList
  gap' := "\t ".toList
  closing := "Export".toList
  tail := "(put) EXPORT;".toList
  isBlank_indent := List.all_eq_true.1 (by decide)
  upper_opening := by decide +kernel
  gap_ne_nil := by decide
  isBlank_gap := List.all_eq_true.1 (by decide)
  declared_ne_nil := by decide
  isIdentifier_declared := List.all_eq_true.1 (by decide)
  noKeyword_declared := fun o ho _ => absurd (ho ▸ o.isInfix_upper) (by decide +kernel)
  gap'_ne_nil := by decide
  isBlank_gap' := List.all_eq_true.1 (by decide)
  upper_closing := by decide +kernel
  isWord_tail := by decide

/-- A whole name comes before a longer one that ends in it. -/
theorem free_form_names_its_procedure_whole :
    FreeForm.mixed.line = "  Dcl-Proc get\t Export(put) EXPORT;".toList ∧
      declared? (ExpectedNames.ofList ["MOD_GET", "GET"]) FreeForm.mixed.line = some "GET" := by
  obtain ⟨-, -, hnames⟩ :=
    free_form_names_its_procedure (ExpectedNames.ofList ["MOD_GET", "GET"]) FreeForm.mixed
  refine ⟨by decide +kernel, (hnames "GET").2 (.whole ?_ ?_)⟩
  · decide +kernel
  · decide +kernel

/-! ## The fixed form -/

/-- The line is a fixed-form specification of the identifier: code that starts, before its first
keyword `EXPORT`, with the letter P, blanks, the identifier and a blank. -/
structure IsFixedForm (line declared : List Char) : Prop where
  code : classify line = .code
  ne_nil : declared ≠ []
  isIdentifier : ∀ c ∈ declared, isIdentifier c = true
  parts : ∃ letter blanks blank rest, (letter = 'P' ∨ letter = 'p') ∧ blanks ≠ [] ∧
    (∀ c ∈ blanks, isBlank c = true) ∧ isBlank blank = true ∧
    IsBeforeExport (letter :: (blanks ++ (declared ++ blank :: rest))) (trim line)

section FixedForm

variable {letter blank : Char} {blanks declared rest : List Char}

/-- The letter of a specification starts no keyword `DCL-…`. -/
theorem dropFolded?_keyword_eq_none (hletter : letter = 'P' ∨ letter = 'p')
    (keyword rest : List Char) : dropFolded? ('D' :: keyword) (letter :: rest) = none := by
  rcases hletter with rfl | rfl
  · exact if_neg (by decide)
  · exact if_neg (by decide)

/-- As a loose declaration, a specification names its letter. -/
theorem looseForm?_of_fixedForm (hletter : letter = 'P' ∨ letter = 'p') (hne : blanks ≠ [])
    (hblanks : ∀ c ∈ blanks, isBlank c = true) :
    looseForm? (letter :: (blanks ++ rest)) = some [letter] := by
  have hkeyword : afterKeyword? (letter :: (blanks ++ rest)) = none := by
    have hnone := dropFolded?_keyword_eq_none hletter "CL-".toList (blanks ++ rest)
    rw [afterKeyword?, show "DCL-".toList = 'D' :: "CL-".toList from rfl, hnone]
  obtain ⟨b, blanks, rfl⟩ := List.exists_cons_of_ne_nil hne
  have hname : identifierBeforeBlank? ([letter] ++ b :: (blanks ++ rest)) = some [letter] := by
    apply identifierBeforeBlank?_append
    · exact List.cons_ne_nil _ _
    · rcases hletter with rfl | rfl
      · exact List.forall_mem_singleton.2 (by decide)
      · exact List.forall_mem_singleton.2 (by decide)
    · exact hblanks b List.mem_cons_self
  have hstart :
      (isFoldedLetter letter || letter == '$' || letter == '#' || letter == '@') = true := by
    rcases hletter with rfl | rfl
    · decide
    · decide
  rw [looseForm?, hkeyword, Option.bind_none, Option.none_or, looseName?, if_pos hstart]
  exact hname

/-- A specification is read twice: for its identifier, and then for its letter. -/
theorem resolveHead?_of_fixedForm (expected : ExpectedNames)
    (hletter : letter = 'P' ∨ letter = 'p') (hne : blanks ≠ [])
    (hblanks : ∀ c ∈ blanks, isBlank c = true) (hdeclared : declared ≠ [])
    (hall : ∀ c ∈ declared, isIdentifier c = true) (hblank : isBlank blank = true) :
    resolveHead? expected (letter :: (blanks ++ (declared ++ blank :: rest))) =
      (expected.resolve? declared).or (expected.resolve? ['P']) := by
  have hfree : freeForm? (letter :: (blanks ++ (declared ++ blank :: rest))) = none := by
    have hnone := dropFolded?_keyword_eq_none hletter "CL-PROC".toList
      (blanks ++ (declared ++ blank :: rest))
    rw [freeForm?, show "DCL-PROC".toList = 'D' :: "CL-PROC".toList from rfl, hnone]
    rfl
  have hfixed : fixedForm? (letter :: (blanks ++ (declared ++ blank :: rest))) = some declared := by
    have hread : dropFolded? ['P'] (letter :: (blanks ++ (declared ++ blank :: rest))) =
        some (blanks ++ (declared ++ blank :: rest)) := by
      rcases hletter with rfl | rfl
      · exact if_pos (by decide)
      · exact if_pos (by decide)
    have hstart : ∀ c ∈ (declared ++ blank :: rest).head?, isBlank c = false :=
      head?_append_isBlank_eq_false hdeclared hall
    rw [fixedForm?, hread, Option.bind_some, afterBlanks?_append hne hblanks hstart,
      Option.bind_some, identifierBeforeBlank?_append hdeclared hall hblank]
  have hloose : expected.resolve? [letter] = expected.resolve? ['P'] := by
    apply resolve?_congr
    rcases hletter with rfl | rfl
    · rfl
    · decide
  rw [resolveHead?, hfree, hfixed, looseForm?_of_fixedForm hletter hne hblanks]
  dsimp only
  rw [Option.bind_some, Option.bind_some, hloose]

end FixedForm

/-- A specification declares the procedure that its identifier stands for, or else the one that its
letter stands for. -/
theorem declared?_of_isFixedForm (expected : ExpectedNames) {line declared : List Char}
    (h : IsFixedForm line declared) :
    declared? expected line = (expected.resolve? declared).or (expected.resolve? ['P']) := by
  obtain ⟨letter, blanks, blank, rest, hletter, hne, hblanks, hblank, hexport⟩ := h.parts
  rw [declared?, h.code]
  dsimp only
  rw [beforeExport_eq_some_iff.2 hexport, Option.bind_some,
    resolveHead?_of_fixedForm expected hletter hne hblanks h.ne_nil h.isIdentifier hblank]

/-- **When a fixed-form specification names its own procedure.** It does when its identifier stands
for an expected name, and when no expected name is `P` or ends in `_P`. In the remaining case the
letter of the specification is resolved as if it were the declared identifier. -/
theorem fixed_form_names_its_own_iff (expected : ExpectedNames) {line declared : List Char}
    (h : IsFixedForm line declared) :
    (∀ name, Resolves expected declared name → declared? expected line = some name) ∧
      ((∀ name ∈ expected.names, ¬ Means declared name) →
        declared? expected line = expected.resolve? ['P']) ∧
      (declared? expected line = expected.resolve? declared ↔
        (∃ name ∈ expected.names, Means declared name) ∨
          ∀ name ∈ expected.names, ¬ Means ['P'] name) := by
  have htrim := trim_eq_of_isIdentifier h.isIdentifier
  have hnone : expected.resolve? declared = none ↔ ∀ name ∈ expected.names, ¬ Means declared name :=
    resolve?_eq_none_iff h.ne_nil htrim
  have hletter : expected.resolve? ['P'] = none ↔ ∀ name ∈ expected.names, ¬ Means ['P'] name :=
    resolve?_eq_none_iff (List.cons_ne_nil _ _) (by decide)
  rw [declared?_of_isFixedForm expected h]
  refine ⟨?_, ?_, ?_⟩
  · intro name hname
    rw [(resolve?_eq_some_iff h.ne_nil htrim).2 hname, Option.some_or]
  · intro hmeans
    rw [hnone.2 hmeans, Option.none_or]
  · have hsome : (∃ name ∈ expected.names, Means declared name) ↔
        expected.resolve? declared ≠ none := by
      rw [Ne, hnone]
      push Not
      rfl
    rw [hsome, ← hletter]
    cases expected.resolve? declared with
    | none => simp
    | some name => simp

/-- A line of code is a specification when its parts are those of one. -/
theorem isFixedForm_of_beforeExport {line declared : List Char} (rest : List Char)
    (hcode : classify line = .code) (hne : declared ≠ []) (hall : declared.all isIdentifier = true)
    (hexport : beforeExport (trim line) = some ('P' :: ([' '] ++ (declared ++ ' ' :: rest)))) :
    IsFixedForm line declared := by
  refine ⟨hcode, hne, List.all_eq_true.1 hall, 'P', [' '], ' ', rest, .inl rfl, ?_, ?_, ?_, ?_⟩
  · exact List.cons_ne_nil _ _
  · exact List.forall_mem_singleton.2 (by decide)
  · decide
  · exact beforeExport_eq_some_iff.1 hexport

/-- Of two specifications one names its procedure, and the other, of a procedure that is not
expected, does not. -/
theorem fixed_form_names_its_own_iff_both :
    let expected := ExpectedNames.ofList ["SVPSIN_GETRECLAMO", "MOD_P"]
    let line := "     P getReclamo      B                   EXPORT".toList
    let internal := "     P interna         B                   EXPORT".toList
    IsFixedForm line "getReclamo".toList ∧ IsFixedForm internal "interna".toList ∧
      declared? expected line = some "SVPSIN_GETRECLAMO" ∧
      declared? expected internal ≠ expected.resolve? "interna".toList := by
  intro expected line internal
  have hline : IsFixedForm line "getReclamo".toList :=
    isFixedForm_of_beforeExport "     B                   ".toList
      (by decide +kernel) (by decide) (by decide +kernel) (by decide +kernel)
  have hinternal : IsFixedForm internal "interna".toList :=
    isFixedForm_of_beforeExport "        B                   ".toList
      (by decide +kernel) (by decide) (by decide +kernel) (by decide +kernel)
  obtain ⟨hnames, -, -⟩ := fixed_form_names_its_own_iff expected hline
  obtain ⟨-, -, hiff⟩ := fixed_form_names_its_own_iff expected hinternal
  refine ⟨hline, hinternal, hnames _ ?_, fun hsame => ?_⟩
  · have hexpected : expected.names = [] ++ "SVPSIN_GETRECLAMO" :: ["MOD_P"] := by decide +kernel
    exact .ending hexpected (by decide +kernel) (by decide +kernel) (by decide +kernel)
  · exact absurd (hiff.1 hsame) (by decide +kernel)

/-- The comments above a procedure that is not expected go to one whose name ends in `_P`. -/
theorem letter_of_specification_is_resolved :
    let expected := ExpectedNames.ofList ["MOD_P"]
    let line := "     P interna         B                   EXPORT".toList
    IsFixedForm line "interna".toList ∧ expected.resolve? "interna".toList = none ∧
      declared? expected line = some "MOD_P" := by
  intro expected line
  have hline : IsFixedForm line "interna".toList :=
    isFixedForm_of_beforeExport "        B                   ".toList
      (by decide +kernel) (by decide) (by decide +kernel) (by decide +kernel)
  exact ⟨hline, by decide +kernel, by decide +kernel⟩

end ProcedureCatalog.Declaration
