/-
# Quoted scalars read back

A text in single or double quotes is read as this text, whatever follows the closing quote.

* `quotedFrom?_gap`, `quotedFrom?_char`, `quotedFrom?_doubled`, `quotedFrom?_escape` : one step of
  the reader for each thing that may stand between quotes.
* `quotedFrom?_doubleQuoted_char`, `quotedFrom?_singleQuoted_char`, `quotedFrom?_singleQuoted_gap` :
  what is written for a character, or for a gap, is read as this.
* `quoted?_double` : every text, in double quotes.
* `quoted?_single` : a text without line feeds in which no space is beside an end of a line.
-/
import Mathlib.Data.List.Chain
import ProcedureCatalog.Proofs.Yaml.Numerals
import ProcedureCatalog.Proofs.Yaml.Places

namespace ProcedureCatalog.Yaml

/-! ## Characters and pairs of characters -/

/-- The gaps that need no escape are spaces and ends of lines. -/
theorem eq_space_or_isBreak {c : Char} (hc : isPrintable c = true) (hgap : isGap c = true) :
    c = ' ' ∨ isBreak c = true := by
  rw [isGap, isBlank, Bool.or_eq_true, Bool.or_eq_true, beq_iff_eq, beq_iff_eq] at hgap
  rcases hgap with (hspace | rfl) | hbreak
  · exact .inl hspace
  · exact absurd hc (by decide)
  · exact .inr hbreak

/-- A character that needs no escape is no gap if it is neither a space nor the end of a line. -/
theorem isGap_eq_false {c : Char} (hc : isPrintable c = true) (hspace : isSpace c = false)
    (hbreak : isBreak c = false) : isGap c = false := by
  rw [Bool.eq_false_iff]
  intro hgap
  rcases eq_space_or_isBreak hc hgap with rfl | hbreak'
  · exact absurd hspace (by decide)
  · rw [hbreak] at hbreak'
    exact Bool.noConfusion hbreak'

/-- No pair of neighbours satisfies the two conditions. -/
theorem hasPair_eq_false_iff {p q : Char → Bool} {cs : List Char} :
    hasPair p q cs = false ↔ cs.IsChain fun c d => p c = true → q d = false := by
  induction cs with
  | nil => simp [hasPair]
  | cons c cs ih =>
    cases cs with
    | nil => simp [hasPair]
    | cons d cs =>
      have hpair : hasPair p q (c :: d :: cs) = (p c && q d || hasPair p q (d :: cs)) := rfl
      rw [hpair, Bool.or_eq_false_iff, ih, List.isChain_cons_cons, Bool.and_eq_false_imp]

/-- The longest run at the start of a text. -/
theorem exists_run (q : Char → Bool) (cs : List Char) : ∃ run rest, cs = run ++ rest ∧
    (∀ c ∈ run, q c = true) ∧ ∀ c ∈ rest.head?, q c = false :=
  ⟨cs.takeWhile q, cs.dropWhile q, List.takeWhile_append_dropWhile.symm,
    fun _ hc => List.mem_takeWhile_imp hc, Text.head?_dropWhile_eq_false cs⟩

/-! ## Steps of the reader -/

/-- A text before what is read. -/
def prepend (text : List Char) (read : List Char × Cursor) : List Char × Cursor :=
  (text ++ read.1, read.2)

section Steps

variable {quote : Char} {fuel : Nat} {p : Position} {rest : List Char}

/-- A gap is read in one step. -/
theorem quotedFrom?_gap {gap : List Char} (hgap : ∀ c ∈ gap, isGap c = true) (hne : gap ≠ [])
    (hrest : StartsWord rest) (hp : p.column ≠ 0) :
    quotedFrom? quote (fuel + 1) ⟨gap ++ rest, p⟩ =
      (quotedFrom? quote fuel ⟨rest, p.behind gap⟩).map (prepend (foldGap gap)) := by
  obtain ⟨c, cs, rfl⟩ := List.exists_cons_of_ne_nil hne
  have hspan := Cursor.span_append hgap hrest p
  have hmark := Cursor.atDocumentMark_eq_false (c := ⟨(c :: cs) ++ rest, p⟩) hp
  rw [List.cons_append] at hspan hmark ⊢
  rw [quotedFrom?]
  simp only [hmark, hspan, hgap c List.mem_cons_self, if_true, Bool.false_eq_true, if_false]
  rfl

/-- A character without a meaning of its own is read as itself. -/
theorem quotedFrom?_char {c : Char} (hgap : isGap c = false) (hquote : c ≠ quote)
    (hback : quote = '"' → c ≠ '\\') (hp : p.column ≠ 0) :
    quotedFrom? quote (fuel + 1) ⟨c :: rest, p⟩ =
      (quotedFrom? quote fuel ⟨rest, p.past c⟩).map (prepend [c]) := by
  have hescape : (quote == '"' && c == '\\') = false := by
    rw [Bool.and_eq_false_imp, beq_iff_eq, beq_eq_false_iff_ne]
    exact hback
  rw [quotedFrom?]
  simp only [Cursor.atDocumentMark_eq_false (c := ⟨c :: rest, p⟩) hp, hgap, Bool.false_eq_true,
    if_false, beq_eq_false_iff_ne.2 hquote, hescape]
  rfl

/-- The closing quote. -/
theorem quotedFrom?_quote (hgap : isGap quote = false)
    (hrest : quote = '\x27' → rest.head? ≠ some quote) (hp : p.column ≠ 0) :
    quotedFrom? quote (fuel + 1) ⟨quote :: rest, p⟩ = some ([], ⟨rest, p.past quote⟩) := by
  have hdoubled : (quote == '\x27' && rest.head? == some quote) = false := by
    rw [Bool.and_eq_false_imp, beq_iff_eq, beq_eq_false_iff_ne]
    exact hrest
  rw [quotedFrom?]
  simp only [Cursor.atDocumentMark_eq_false (c := ⟨quote :: rest, p⟩) hp, hgap, Bool.false_eq_true,
    if_false, beq_self_eq_true, if_true, hdoubled]
  rfl

/-- Two single quotes in a row are one quote. -/
theorem quotedFrom?_doubled (hp : p.column ≠ 0) :
    quotedFrom? '\x27' (fuel + 1) ⟨'\x27' :: '\x27' :: rest, p⟩ =
      (quotedFrom? '\x27' fuel ⟨rest, p.behind ['\x27', '\x27']⟩).map (prepend ['\x27']) := by
  rw [quotedFrom?]
  simp only [Cursor.atDocumentMark_eq_false (c := ⟨'\x27' :: '\x27' :: rest, p⟩) hp]
  rfl

/-- An escape is read as its character. -/
theorem quotedFrom?_escape {c d : Char} {escape : List Char} (hd : isBreak d = false)
    (hescape : escape? (d :: (escape ++ rest)) = some (c, escape.length + 1)) (hp : p.column ≠ 0) :
    quotedFrom? '"' (fuel + 1) ⟨'\\' :: d :: (escape ++ rest), p⟩ =
      (quotedFrom? '"' fuel ⟨rest, p.behind ('\\' :: d :: escape)⟩).map (prepend [c]) := by
  have hmark := Cursor.atDocumentMark_eq_false (c := ⟨'\\' :: d :: (escape ++ rest), p⟩) hp
  have hskip : (Cursor.mk ('\\' :: d :: (escape ++ rest)) p).skip (escape.length + 1 + 1) =
      ⟨rest, p.behind ('\\' :: d :: escape)⟩ := Cursor.skip_append ('\\' :: d :: escape) rest p
  have hgap : isGap '\\' = false := by decide
  rw [quotedFrom?]
  simp only [hmark, hgap, List.head?_cons, Option.any_some, hd, hescape, Bool.false_eq_true,
    if_false, Option.bind_some, hskip]
  rfl

end Steps

/-! ## Double quotes -/

/-- The code point of a character is that of the character. -/
theorem charOf?_toNat (c : Char) : charOf? c.toNat = some c := by
  exact dif_pos c.valid

/-- The escapes with a letter are read by this letter. -/
theorem lookup_namedEscapes : ∀ e ∈ writtenEscapes, (isPrintable e.2 = true ∧ isBreak e.2 = false) ∧
    codeEscapes.lookup e.2 = none ∧ namedEscapes.lookup e.2 = some e.1 := by
  decide

/-- Letters and digits need no escape and stay on their line. -/
theorem isPrintable_of_isAlphanum {c : Char} (h : c.isAlphanum = true) :
    isPrintable c = true ∧ isBreak c = false :=
  Text.forall_ascii (P := fun c => c.isAlphanum = true → isPrintable c = true ∧ isBreak c = false)
    (by decide +kernel) (Text.isAscii_of_isAlphanum h) h

/-- The escapes with a code point are read by the number of their digits. -/
theorem escape?_upperHex {c letter : Char} {width : Nat} (hwidth : 0 < width)
    (hletter : codeEscapes.lookup letter = some width) (hc : c.toNat < 16 ^ width)
    (rest : List Char) : escape? (letter :: (upperHex width c.toNat ++ rest)) =
      some (c, (upperHex width c.toNat).length + 1) := by
  have hlength := length_upperHex hwidth hc
  have htake : (upperHex width c.toNat ++ rest).take width = upperHex width c.toNat := by
    rw [List.take_left' hlength]
  rw [escape?, hletter]
  simp only [htake, hlength, Nat.lt_irrefl, if_false, hexNumber?_upperHex]
  change (charOf? c.toNat).bind (fun char => some (char, width + 1)) = some (c, width + 1)
  rw [charOf?_toNat]
  rfl

/-- The marks of the escapes with a code point, and the digits behind them, stand as they are. -/
theorem isPrintable_of_mem_escape {letter : Char} (hletter : letter.isAlphanum = true)
    (width n : Nat) :
    ∀ e ∈ letter :: upperHex width n, isPrintable e = true ∧ isBreak e = false := by
  rw [List.forall_mem_cons]
  exact ⟨isPrintable_of_isAlphanum hletter, fun e he =>
    isPrintable_of_isAlphanum (isAlphanum_of_mem_upperHex he)⟩

/-- A character stands in double quotes as itself or as an escape. -/
theorem doubleQuotedChar_cases (c : Char) :
    (doubleQuotedChar c = [c] ∧ isPrintable c = true ∧ isBreak c = false ∧ c ≠ '"' ∧ c ≠ '\\') ∨
      ∃ d escape, doubleQuotedChar c = '\\' :: d :: escape ∧
        (∀ e ∈ d :: escape, isPrintable e = true ∧ isBreak e = false) ∧
        ∀ rest, escape? (d :: (escape ++ rest)) = some (c, escape.length + 1) := by
  rw [doubleQuotedChar]
  split
  · next h =>
    simp only [Bool.and_eq_true, Bool.not_eq_true', bne_iff_ne] at h
    exact .inl ⟨rfl, h.1.1.1, h.1.1.2, h.1.2, h.2⟩
  · refine .inr ?_
    split
    · next letter hletter =>
      obtain ⟨before, after, hwritten, -⟩ := List.lookup_eq_some_iff.1 hletter
      have hmem : (c, letter) ∈ writtenEscapes := by rw [hwritten]; simp
      obtain ⟨hplain, hcode, hnamed⟩ := lookup_namedEscapes _ hmem
      refine ⟨letter, [], rfl, by simpa using hplain, fun rest => ?_⟩
      rw [escape?, hcode, hnamed]
      rfl
    · split
      · next h =>
        refine ⟨'x', upperHex 2 c.toNat, rfl, isPrintable_of_mem_escape (by decide) _ _, ?_⟩
        exact escape?_upperHex (by decide) (by decide) (by omega)
      · split
        · next h =>
          refine ⟨'u', upperHex 4 c.toNat, rfl, isPrintable_of_mem_escape (by decide) _ _, ?_⟩
          exact escape?_upperHex (by decide) (by decide) (by omega)
        · refine ⟨'U', upperHex 8 c.toNat, rfl, isPrintable_of_mem_escape (by decide) _ _, ?_⟩
          have hvalid : c.toNat < 0x110000 := by
            rcases c.valid with h | h
            · exact Nat.lt_trans h (by decide)
            · exact h.2
          exact escape?_upperHex (by decide) (by decide) (by omega)

/-- In double quotes every character stands as one that needs no escape and stays on its line. -/
theorem isPrintable_of_mem_doubleQuotedChar {c e : Char} (h : e ∈ doubleQuotedChar c) :
    isPrintable e = true ∧ isBreak e = false := by
  rcases doubleQuotedChar_cases c with
    ⟨hwritten, hprintable, hbreak, -⟩ | ⟨d, escape, hwritten, hplain, -⟩
  · rw [hwritten, List.mem_singleton] at h
    exact h ▸ ⟨hprintable, hbreak⟩
  · rw [hwritten, List.mem_cons] at h
    rcases h with rfl | h
    · decide
    · exact hplain e h

/-- Spaces stand as they are. -/
theorem flatMap_doubleQuotedChar_spaces {run : List Char} (h : ∀ c ∈ run, isSpace c = true) :
    run.flatMap doubleQuotedChar = run := by
  induction run with
  | nil => rfl
  | cons c run ih =>
    have hc : c = ' ' := by simpa [isSpace] using h c List.mem_cons_self
    rw [List.flatMap_cons, ih fun d hd => h d (List.mem_cons_of_mem c hd), hc]
    rfl

/-- What is written for a text that does not start with a space starts no gap. -/
theorem startsWord_doubleQuoted {cs : List Char} (h : ∀ c ∈ cs.head?, isSpace c = false)
    (rest : List Char) : StartsWord (cs.flatMap doubleQuotedChar ++ '"' :: rest) := by
  cases cs with
  | nil =>
    intro c hc
    obtain rfl := Option.some.inj hc
    decide
  | cons c cs =>
    intro e he
    rcases doubleQuotedChar_cases c with
      ⟨hwritten, hprintable, hbreak, -⟩ | ⟨d, escape, hwritten, -⟩
    · rw [List.flatMap_cons, hwritten] at he
      obtain rfl := Option.some.inj he
      exact isGap_eq_false hprintable (h c rfl) hbreak
    · rw [List.flatMap_cons, hwritten] at he
      obtain rfl := Option.some.inj he
      decide

/-- Gaps without an end of a line are kept. -/
theorem foldGap_of_oneLine {gap : List Char} (h : OneLine gap) : foldGap gap = gap := by
  have hnone : gap.filter isBreak = [] := by
    rw [List.filter_eq_nil_iff]
    intro c hc
    rw [h c hc]
    exact Bool.false_ne_true
  rw [foldGap, hnone]

/-- A character that is no space is read from what is written for it. -/
theorem quotedFrom?_doubleQuoted_char {c : Char} (hc : isSpace c = false) {p : Position}
    (hp : p.column ≠ 0) (fuel : Nat) (rest : List Char) :
    (p.behind (doubleQuotedChar c)).column ≠ 0 ∧
      quotedFrom? '"' (fuel + 1) ⟨doubleQuotedChar c ++ rest, p⟩ =
        (quotedFrom? '"' fuel ⟨rest, p.behind (doubleQuotedChar c)⟩).map (prepend [c]) := by
  have hcolumn : (p.behind (doubleQuotedChar c)).column ≠ 0 := by
    rw [Position.column_behind fun e he => (isPrintable_of_mem_doubleQuotedChar he).2]
    omega
  refine ⟨hcolumn, ?_⟩
  rcases doubleQuotedChar_cases c with
    ⟨hwritten, hprintable, hbreak, hquote, hback⟩ | ⟨d, escape, hwritten, hplain, hescape⟩
  · -- the character stands as it is
    rw [hwritten]
    exact quotedFrom?_char (isGap_eq_false hprintable hc hbreak) hquote (fun _ => hback) hp
  · rw [hwritten]
    exact quotedFrom?_escape (hplain d List.mem_cons_self).2 (hescape rest) hp

/-- The characters behind an opening quote are read up to the closing one. -/
theorem quotedFrom?_flatMap (cs rest : List Char) {fuel : Nat} (hfuel : cs.length < fuel)
    {p : Position} (hp : p.column ≠ 0) :
    quotedFrom? '"' fuel ⟨cs.flatMap doubleQuotedChar ++ '"' :: rest, p⟩ =
      some (cs, ⟨rest, p.behind (cs.flatMap doubleQuotedChar ++ ['"'])⟩) := by
  induction fuel generalizing cs p with
  | zero => exact absurd hfuel (Nat.not_lt_zero _)
  | succ fuel ih =>
    obtain ⟨run, cs, rfl, hrun, hhead⟩ := exists_run isSpace cs
    have hspace : ∀ c ∈ run, c = ' ' := fun c hc => by simpa [isSpace] using hrun c hc
    rw [List.length_append] at hfuel
    rw [List.flatMap_append, flatMap_doubleQuotedChar_spaces hrun, List.append_assoc]
    by_cases hne : run = []
    · subst hne
      cases cs with
      | nil => exact quotedFrom?_quote (by decide) (fun h => absurd h (by decide)) hp
      | cons c cs =>
        have hlength : cs.length < fuel := by
          rw [List.length_nil, List.length_cons] at hfuel
          omega
        obtain ⟨hcolumn, hread⟩ := quotedFrom?_doubleQuoted_char (hhead c rfl) hp fuel
          (cs.flatMap doubleQuotedChar ++ '"' :: rest)
        rw [List.flatMap_cons, List.nil_append, List.nil_append, List.append_assoc, hread,
          ih cs hlength hcolumn, ← Position.behind_append, List.nil_append, List.append_assoc]
        rfl
    · -- the spaces are read in one step
      have hgap := isGap_of_forall_eq_space hspace
      have hone := oneLine_of_forall_eq_space hspace
      have hlength : cs.length < fuel := by
        have hpos := List.length_pos_iff.2 hne
        omega
      have hcolumn : (p.behind run).column ≠ 0 := by
        rw [Position.column_behind hone]
        omega
      rw [quotedFrom?_gap hgap hne (startsWord_doubleQuoted hhead rest) hp, ih cs hlength hcolumn,
        ← Position.behind_append, foldGap_of_oneLine hone, List.append_assoc]
      rfl

/-- Every text in double quotes is read as this text. -/
theorem quoted?_double (cs rest : List Char) (p : Position) :
    quoted? '"' ⟨'"' :: (cs.flatMap doubleQuotedChar ++ '"' :: rest), p⟩ =
      some (cs, ⟨rest, p.behind ('"' :: (cs.flatMap doubleQuotedChar ++ ['"']))⟩) := by
  have hlength : cs.length ≤ (cs.flatMap doubleQuotedChar).length := by
    induction cs with
    | nil => exact Nat.le_refl _
    | cons c cs ih =>
      have hpos : 0 < (doubleQuotedChar c).length := by
        rcases doubleQuotedChar_cases c with ⟨hwritten, -⟩ | ⟨d, escape, hwritten, -⟩ <;>
          simp [hwritten]
      rw [List.flatMap_cons, List.length_append, List.length_cons]
      omega
  have hcolumn : (p.past '"').column ≠ 0 := by
    rw [Position.column_past (by decide)]
    omega
  refine quotedFrom?_flatMap cs rest ?_ hcolumn
  simp only [List.length_cons, List.length_append]
  omega

/-! ## Single quotes -/

/-- The texts that may stand in single quotes: they need no escapes, have no line feeds, and no
space is beside an end of a line. -/
structure IsQuotable (cs : List Char) : Prop where
  printable : ∀ c ∈ cs, isPrintable c = true
  noLineFeed : '\n' ∉ cs
  noSpaceBefore : hasPair isSpace isBreak cs = false
  noSpaceBehind : hasPair isBreak isSpace cs = false

/-- A run of characters of one kind is not followed by one of the other kind. -/
theorem head?_eq_false_of_hasPair {p q : Char → Bool} {run cs : List Char}
    (h : hasPair p q (run ++ cs) = false) (hrun : ∀ c ∈ run, p c = true) (hne : run ≠ []) :
    ∀ c ∈ cs.head?, q c = false := by
  intro c hc
  have hlast := (List.isChain_append.1 (hasPair_eq_false_iff.1 h)).2.2
  exact hlast _ (List.getLast?_eq_some_getLast hne) c hc (hrun _ (List.getLast_mem hne))

theorem hasPair_eq_false_of_append {p q : Char → Bool} {run cs : List Char}
    (h : hasPair p q (run ++ cs) = false) : hasPair p q cs = false :=
  hasPair_eq_false_iff.2 (List.isChain_append.1 (hasPair_eq_false_iff.1 h)).2.1

namespace IsQuotable

variable {run cs : List Char}

theorem of_append (h : IsQuotable (run ++ cs)) : IsQuotable cs where
  printable c hc := h.printable c (List.mem_append_right _ hc)
  noLineFeed hmem := h.noLineFeed (List.mem_append_right _ hmem)
  noSpaceBefore := hasPair_eq_false_of_append h.noSpaceBefore
  noSpaceBehind := hasPair_eq_false_of_append h.noSpaceBehind

theorem startsWord (h : IsQuotable cs) (hspace : ∀ c ∈ cs.head?, isSpace c = false)
    (hbreak : ∀ c ∈ cs.head?, isBreak c = false) : StartsWord cs := fun c hc =>
  isGap_eq_false (h.printable c (List.mem_of_mem_head? hc)) (hspace c hc) (hbreak c hc)

end IsQuotable

variable {indent : Nat}

/-- Behind an end of a line the text is indented. -/
theorem singleQuotedFrom_true {cs : List Char} (h : ∀ c ∈ cs.head?, isBreak c = false) :
    singleQuotedFrom indent true cs = spaces indent ++ singleQuotedFrom indent false cs := by
  cases cs with
  | nil => rfl
  | cons c cs =>
    rw [singleQuotedFrom, singleQuotedFrom, h c rfl, if_neg Bool.false_ne_true, if_pos rfl,
      List.append_assoc]
    rfl

theorem singleQuotedFrom_spaces {run : List Char} (h : ∀ c ∈ run, c = ' ') (cs : List Char) :
    singleQuotedFrom indent false (run ++ cs) = run ++ singleQuotedFrom indent false cs := by
  induction run with
  | nil => rfl
  | cons c run ih =>
    rw [List.cons_append, h c List.mem_cons_self, singleQuotedFrom,
      ih fun d hd => h d (List.mem_cons_of_mem c hd)]
    rfl

theorem singleQuotedFrom_breaks {run cs : List Char} (h : ∀ c ∈ run, isBreak c = true)
    (hne : run ≠ []) (hcs : ∀ c ∈ cs.head?, isBreak c = false) (afterBreak : Bool) :
    singleQuotedFrom indent afterBreak (run ++ cs) =
      run ++ (spaces indent ++ singleQuotedFrom indent false cs) := by
  induction run generalizing afterBreak with
  | nil => exact absurd rfl hne
  | cons c run ih =>
    rw [List.cons_append, singleQuotedFrom, if_pos (h c List.mem_cons_self)]
    by_cases hrun : run = []
    · rw [hrun, List.nil_append, singleQuotedFrom_true hcs]
      rfl
    · rw [ih (fun d hd => h d (List.mem_cons_of_mem c hd)) hrun]
      rfl

/-- What is written for a text that starts a word starts a word. -/
theorem startsWord_singleQuoted {cs : List Char} (h : StartsWord cs) (rest : List Char) :
    StartsWord (singleQuotedFrom indent false cs ++ rest) := by
  have hquote : isGap '\x27' = false := by decide
  cases cs with
  | nil =>
    intro c hc
    obtain rfl := Option.some.inj hc
    exact hquote
  | cons c cs =>
    have hc : isGap c = false := h c rfl
    rw [singleQuotedFrom, isBreak_eq_false_of_isGap_eq_false hc, if_neg Bool.false_ne_true,
      if_neg Bool.false_ne_true, List.nil_append]
    intro d hd
    split at hd
    · obtain rfl := Option.some.inj hd
      exact hc
    · obtain rfl := Option.some.inj hd
      exact hc

/-- Of a gap with ends of lines these remain, unless the first is a line feed. -/
theorem foldGap_breaks {run : List Char} (h : ∀ c ∈ run, isBreak c = true) (hline : '\n' ∉ run)
    (hne : run ≠ []) (n : Nat) : foldGap (run ++ spaces n) = run := by
  have hspaces : (spaces n).filter isBreak = [] := by
    rw [List.filter_eq_nil_iff]
    intro c hc
    rw [oneLine_spaces n c hc]
    exact Bool.false_ne_true
  have hbreaks : (run ++ spaces n).filter isBreak = run := by
    rw [List.filter_append, hspaces, List.append_nil, List.filter_eq_self]
    exact h
  obtain ⟨c, cs, rfl⟩ := List.exists_cons_of_ne_nil hne
  have hc : c ≠ '\n' := fun heq => hline (heq ▸ List.mem_cons_self)
  rw [foldGap, hbreaks]
  split
  · next heq => exact absurd heq (List.cons_ne_nil _ _)
  · next heq => exact absurd (List.cons.inj heq).1 hc
  · next heq => exact absurd (List.cons.inj heq).1 hc
  · rfl

/-- A quotable text is empty, starts with a character of a word, or starts with a gap of one kind
behind which a word starts. -/
theorem IsQuotable.cases {cs : List Char} (h : IsQuotable cs) : cs = [] ∨
    (∃ c more, cs = c :: more ∧ isGap c = false ∧ IsQuotable more) ∨
    ∃ run more, cs = run ++ more ∧ run ≠ [] ∧ IsQuotable more ∧ StartsWord more ∧
      ((∀ c ∈ run, c = ' ') ∨ (∀ c ∈ run, isBreak c = true) ∧ '\n' ∉ run) := by
  obtain ⟨run, more, rfl, hrun, hspace⟩ := exists_run isSpace cs
  by_cases hne : run = []
  · subst hne
    rw [List.nil_append] at h ⊢
    obtain ⟨run, more, rfl, hrun, hbreak⟩ := exists_run isBreak more
    by_cases hne : run = []
    · subst hne
      rw [List.nil_append] at h hspace ⊢
      cases more with
      | nil => exact .inl rfl
      | cons c more =>
        have hmore : IsQuotable ([c] ++ more) := h
        exact .inr (.inl ⟨c, more, rfl, h.startsWord hspace hbreak c rfl, hmore.of_append⟩)
    · have hspace' := head?_eq_false_of_hasPair h.noSpaceBehind hrun hne
      exact .inr (.inr ⟨run, more, rfl, hne, h.of_append, h.of_append.startsWord hspace' hbreak,
        .inr ⟨hrun, fun hmem => h.noLineFeed (List.mem_append_left _ hmem)⟩⟩)
  · have hbreak := head?_eq_false_of_hasPair h.noSpaceBefore hrun hne
    exact .inr (.inr ⟨run, more, rfl, hne, h.of_append, h.of_append.startsWord hspace hbreak,
      .inl fun c hc => by simpa [isSpace] using hrun c hc⟩)

/-- A character of a word is read from what is written for it. -/
theorem quotedFrom?_singleQuoted_char {c : Char} (hgap : isGap c = false) {p : Position}
    (hp : p.column ≠ 0) (indent fuel : Nat) (cs rest : List Char) :
    ∃ written, singleQuotedFrom indent false (c :: cs) =
        written ++ singleQuotedFrom indent false cs ∧ (p.behind written).column ≠ 0 ∧
      quotedFrom? '\x27' (fuel + 1) ⟨singleQuotedFrom indent false (c :: cs) ++ rest, p⟩ =
        (quotedFrom? '\x27' fuel ⟨singleQuotedFrom indent false cs ++ rest,
          p.behind written⟩).map (prepend [c]) := by
  rw [singleQuotedFrom, isBreak_eq_false_of_isGap_eq_false hgap, if_neg Bool.false_ne_true,
    if_neg Bool.false_ne_true, List.nil_append]
  by_cases hquote : c = '\x27'
  · subst hquote
    refine ⟨['\x27', '\x27'], by rw [if_pos (beq_self_eq_true _)], ?_, ?_⟩
    · rw [Position.column_behind (by simp [OneLine, isBreak])]
      omega
    · rw [if_pos (beq_self_eq_true _), List.append_assoc, List.cons_append, List.cons_append,
        List.nil_append, quotedFrom?_doubled hp]
  · refine ⟨[c], by rw [if_neg (by simpa using hquote)], ?_, ?_⟩
    · rw [Position.behind_cons, Position.behind_nil,
        Position.column_past (isBreak_eq_false_of_isGap_eq_false hgap)]
      omega
    · rw [if_neg (by simpa using hquote), List.append_assoc, List.cons_append, List.nil_append,
        quotedFrom?_char hgap hquote (fun h => absurd h (by decide)) hp]
      rfl

/-- A gap is read in one step, with the indentation behind ends of lines. -/
theorem quotedFrom?_singleQuoted_gap (hindent : indent ≠ 0) {run cs : List Char} (hne : run ≠ [])
    (hrun : (∀ c ∈ run, c = ' ') ∨ (∀ c ∈ run, isBreak c = true) ∧ '\n' ∉ run)
    (hcs : StartsWord cs) {p : Position} (hp : p.column ≠ 0) (fuel : Nat) (rest : List Char) :
    ∃ written, singleQuotedFrom indent false (run ++ cs) =
        written ++ singleQuotedFrom indent false cs ∧ (p.behind written).column ≠ 0 ∧
      quotedFrom? '\x27' (fuel + 1) ⟨singleQuotedFrom indent false (run ++ cs) ++ rest, p⟩ =
        (quotedFrom? '\x27' fuel ⟨singleQuotedFrom indent false cs ++ rest,
          p.behind written⟩).map (prepend run) := by
  rcases hrun with hspaces | ⟨hbreaks, hline⟩
  · have hone := oneLine_of_forall_eq_space hspaces
    have hgap := isGap_of_forall_eq_space hspaces
    refine ⟨run, singleQuotedFrom_spaces hspaces cs, ?_, ?_⟩
    · rw [Position.column_behind hone]
      omega
    · rw [singleQuotedFrom_spaces hspaces, List.append_assoc,
        quotedFrom?_gap hgap hne (startsWord_singleQuoted hcs _) hp, foldGap_of_oneLine hone]
  · have hgap : ∀ c ∈ run ++ spaces indent, isGap c = true :=
      List.forall_mem_append.2 ⟨fun c hc => isGap_of_isBreak (hbreaks c hc),
        isGap_of_forall_eq_space fun _ => eq_space_of_mem_spaces⟩
    have hwritten : singleQuotedFrom indent false (run ++ cs) =
        (run ++ spaces indent) ++ singleQuotedFrom indent false cs := by
      rw [singleQuotedFrom_breaks hbreaks hne (fun c hc =>
        isBreak_eq_false_of_isGap_eq_false (hcs c hc)), List.append_assoc]
    refine ⟨run ++ spaces indent, hwritten, ?_, ?_⟩
    · rw [Position.column_behind_spaces hbreaks (.inr hne)]
      exact hindent
    · rw [hwritten, List.append_assoc _ _ rest, quotedFrom?_gap hgap (by simp [hne])
        (startsWord_singleQuoted hcs _) hp, foldGap_breaks hbreaks hline hne]

/-- The characters behind an opening quote are read up to the closing one. -/
theorem quotedFrom?_singleQuotedFrom (hindent : indent ≠ 0) {cs : List Char} (h : IsQuotable cs)
    {rest : List Char} (hrest : rest.head? ≠ some '\x27') {fuel : Nat} (hfuel : cs.length < fuel)
    {p : Position} (hp : p.column ≠ 0) :
    quotedFrom? '\x27' fuel ⟨singleQuotedFrom indent false cs ++ rest, p⟩ =
      some (cs, ⟨rest, p.behind (singleQuotedFrom indent false cs)⟩) := by
  induction fuel generalizing cs p with
  | zero => exact absurd hfuel (Nat.not_lt_zero _)
  | succ fuel ih =>
    rcases h.cases with rfl | ⟨c, more, rfl, hgap, hmore⟩ |
      ⟨run, more, rfl, hne, hmore, hstarts, hrun⟩
    · exact quotedFrom?_quote (by decide) (fun _ => hrest) hp
    · obtain ⟨written, hwritten, hcolumn, hread⟩ :=
        quotedFrom?_singleQuoted_char hgap hp indent fuel more rest
      rw [hread, ih hmore (Nat.lt_of_succ_lt_succ hfuel) hcolumn, hwritten, Position.behind_append]
      rfl
    · obtain ⟨written, hwritten, hcolumn, hread⟩ :=
        quotedFrom?_singleQuoted_gap hindent hne hrun hstarts hp fuel rest
      have hlength : more.length < fuel := by
        have hpos := List.length_pos_iff.2 hne
        rw [List.length_append] at hfuel
        omega
      rw [hread, ih hmore hlength hcolumn, hwritten, Position.behind_append]
      rfl

/-- A text that may stand in single quotes is read from them as this text. -/
theorem quoted?_single (hindent : indent ≠ 0) {cs : List Char} (h : IsQuotable cs)
    {rest : List Char} (hrest : rest.head? ≠ some '\x27') (p : Position) :
    quoted? '\x27' ⟨'\x27' :: (singleQuotedFrom indent false cs ++ rest), p⟩ =
      some (cs, ⟨rest, p.behind ('\x27' :: singleQuotedFrom indent false cs)⟩) := by
  have hlength : ∀ afterBreak, cs.length ≤ (singleQuotedFrom indent afterBreak cs).length := by
    clear h
    induction cs with
    | nil => exact fun _ => Nat.zero_le _
    | cons c cs ih =>
      intro afterBreak
      rw [singleQuotedFrom]
      split
      · exact Nat.succ_le_succ (ih true)
      · have hle := ih false
        split <;> simp only [List.length_append, List.length_cons, List.length_nil] <;>
          split <;> simp only [List.length_cons, List.length_nil] <;> omega
  have hcolumn : (p.past '\x27').column ≠ 0 := by
    rw [Position.column_past (by decide)]
    omega
  refine quotedFrom?_singleQuotedFrom hindent h hrest ?_ hcolumn
  have hle := hlength false
  simp only [List.length_cons, List.length_append]
  omega

end ProcedureCatalog.Yaml
