/-
# Plain scalars read back

A text that is written plainly is read up to the gap behind it, when this gap leads to a line that
is indented less, or up to the colon behind it, when it is a key.

* `plainWord?_append` : a word ends where its text does.
* `plainFrom?_word`, `plainFrom?_text` : one word with the gap behind it, and a text of words.
* `plain?_key`, `plain?_value` : a key and a value.
-/
import ProcedureCatalog.Proofs.Yaml.QuotedScalars

namespace ProcedureCatalog.Yaml

/-! ## Words -/

/-- A word ends where its text does, if what follows ends it and its last character is no colon. -/
theorem plainWord?_append {word tail : List Char} (hword : ∀ c ∈ word, isGap c = false)
    (hlast : word.getLast? ≠ some ':') (htail : plainWord? false tail = some []) :
    plainWord? false (word ++ tail) = some word := by
  induction word with
  | nil => exact htail
  | cons c word ih =>
    have hc : isGap c = false := hword c List.mem_cons_self
    have hword' : ∀ d ∈ word, isGap d = false := fun d hd => hword d (List.mem_cons_of_mem c hd)
    have hcolon : (c == ':' && atGap (word ++ tail)) = false := by
      rw [Bool.and_eq_false_imp, beq_iff_eq]
      rintro rfl
      cases word with
      | nil => exact absurd rfl hlast
      | cons d word => exact hword' d List.mem_cons_self
    have hlast' : word.getLast? ≠ some ':' := by
      cases word with
      | nil => simp
      | cons d word => rwa [List.getLast?_cons_cons] at hlast
    rw [List.cons_append, plainWord?, hc, hcolon, ih hword' hlast']
    rfl

/-- A gap ends a word. -/
theorem plainWord?_gap {gap : List Char} (hgap : ∀ c ∈ gap, isGap c = true) (hne : gap ≠ [])
    (rest : List Char) : plainWord? false (gap ++ rest) = some [] := by
  obtain ⟨c, cs, rfl⟩ := List.exists_cons_of_ne_nil hne
  rw [List.cons_append, plainWord?, hgap c List.mem_cons_self]
  rfl

/-- A colon before a gap ends a word. -/
theorem plainWord?_colon {rest : List Char} (h : atGap rest = true) :
    plainWord? false (':' :: rest) = some [] := by
  rw [plainWord?, h]
  rfl

/-- Without tabs there is none in the margin. -/
theorem hasTabInMargin_eq_false {gap : List Char} (h : '\t' ∉ gap) (margin : Nat)
    (afterBreak : Bool) (column : Nat) : hasTabInMargin margin afterBreak column gap = false := by
  induction gap generalizing afterBreak column with
  | nil => rfl
  | cons c gap ih =>
    have hc : (c == '\t') = false := by
      rw [beq_eq_false_iff_ne]
      rintro rfl
      exact h List.mem_cons_self
    have hgap : '\t' ∉ gap := fun hmem => h (List.mem_cons_of_mem c hmem)
    rw [hasTabInMargin, hc, Bool.and_false, Bool.false_and, Bool.false_or, ih hgap, ih hgap,
      ite_self]

/-! ## One word after another -/

/-- A word stands in front of a gap and a text that starts no gap. -/
structure IsWordBefore (word gap rest : List Char) : Prop where
  notGap : ∀ c ∈ word, isGap c = false
  ne_nil : word ≠ []
  last : word.getLast? ≠ some ':'
  first : word.head? ≠ some '#'
  isGap : ∀ c ∈ gap, isGap c = true
  noTab : '\t' ∉ gap
  starts : StartsWord rest
  ended : plainWord? false (gap ++ rest) = some []

/-- A word is read with the gap behind it. It is the last one if there is no gap, or if the gap
leads into the margin. -/
theorem plainFrom?_word {word gap rest : List Char} (h : IsWordBefore word gap rest)
    (margin fuel : Nat) (before : List Char) {p : Position}
    (hmark : (Cursor.mk (word ++ (gap ++ rest)) p).atDocumentMark = false) :
    plainFrom? false margin (fuel + 1) before ⟨word ++ (gap ++ rest), p⟩ =
      if gap.isEmpty || decide ((p.behind (word ++ gap)).column < margin) then
        some ⟨foldGap before ++ word, gap.any isBreak, ⟨rest, p.behind (word ++ gap)⟩⟩
      else (plainFrom? false margin fuel gap ⟨rest, p.behind (word ++ gap)⟩).map fun more =>
        { more with text := foldGap before ++ word ++ more.text } := by
  have hhash : ((word ++ (gap ++ rest)).head? == some '#') = false := by
    rw [List.head?_append_of_ne_nil _ h.ne_nil]
    simpa using h.first
  have hempty : word.isEmpty = false := by simpa using h.ne_nil
  have hskip := Cursor.skip_append word (gap ++ rest) p
  have hspan := Cursor.span_append h.isGap h.starts (p.behind word)
  rw [← Position.behind_append] at hspan
  rw [plainFrom?]
  simp only [hmark, hhash, Bool.or_self, Bool.false_eq_true, if_false,
    plainWord?_append h.notGap h.last h.ended, Option.bind_eq_bind, Option.bind_some, hempty, hskip,
    hspan, hasTabInMargin_eq_false h.noTab, Bool.not_false, Bool.true_and]
  rw [Option.map_eq_bind]
  rfl

/-! ## Texts of words -/

/-- A text that is written plainly: words with spaces between them. No word is cut off by a colon
at its end, and none starts a comment. -/
structure IsPlainText (cs : List Char) : Prop where
  ne_nil : cs ≠ []
  starts : StartsWord cs
  noHash : cs.head? ≠ some '#'
  spaces : ∀ c ∈ cs, isGap c = true → c = ' '
  lastSpace : cs.getLast? ≠ some ' '
  lastColon : cs.getLast? ≠ some ':'
  colons : hasPair (· == ':') isGap cs = false
  hashes : hasPair isGap (· == '#') cs = false

/-- Without its first word and the spaces behind it a text of words is one again. -/
theorem IsPlainText.of_append {front cs : List Char} (h : IsPlainText (front ++ cs))
    (hne : cs ≠ []) (hstarts : StartsWord cs) (hfront : ∀ c ∈ front.getLast?, isGap c = true)
    (hfrontNe : front ≠ []) : IsPlainText cs := by
  have hlast : (front ++ cs).getLast? = cs.getLast? := List.getLast?_append_of_ne_nil _ hne
  refine ⟨hne, hstarts, ?_, ?_, ?_, ?_, ?_, ?_⟩
  · intro hhash
    have hpair := (List.isChain_append.1 (hasPair_eq_false_iff.1 h.hashes)).2.2
    have hfirst := hpair _ (List.getLast?_eq_some_getLast hfrontNe) '#' hhash
      (hfront _ (List.getLast?_eq_some_getLast hfrontNe))
    exact absurd hfirst (by decide)
  · exact fun c hc => h.spaces c (List.mem_append_right _ hc)
  · rw [← hlast]
    exact h.lastSpace
  · rw [← hlast]
    exact h.lastColon
  · exact hasPair_eq_false_of_append h.colons
  · exact hasPair_eq_false_of_append h.hashes

/-- Words come first. -/
theorem IsPlainText.front_ne_nil {front more : List Char} (h : IsPlainText (front ++ more))
    (hmore : ∀ c ∈ more.head?, isGap c = true) : front ≠ [] := by
  rintro rfl
  obtain ⟨c, cs, rfl⟩ := List.exists_cons_of_ne_nil (l := more) h.ne_nil
  have hgap := hmore c rfl
  rw [h.starts c rfl] at hgap
  exact Bool.noConfusion hgap

/-- No colon stands before a gap. -/
theorem IsPlainText.last_ne_colon {front run : List Char} (h : IsPlainText (front ++ run))
    (hne : run ≠ []) (hrun : ∀ c ∈ run.head?, isGap c = true) : front.getLast? ≠ some ':' := by
  intro hcolon
  have hpair := (List.isChain_append.1 (hasPair_eq_false_iff.1 h.colons)).2.2
  obtain ⟨c, cs, rfl⟩ := List.exists_cons_of_ne_nil hne
  have hgap := hpair ':' hcolon c rfl (by decide)
  rw [hrun c rfl] at hgap
  exact Bool.noConfusion hgap

/-- A text of words is one word, or a word, spaces, and a text of words. -/
theorem IsPlainText.cases {cs : List Char} (h : IsPlainText cs) :
    ((∀ c ∈ cs, isGap c = false) ∧ cs.getLast? ≠ some ':') ∨
      ∃ word run rest, cs = word ++ (run ++ rest) ∧ IsWordBefore word run rest ∧ run ≠ [] ∧
        OneLine run ∧ IsPlainText rest := by
  obtain ⟨word, more, rfl, hword, hmore⟩ := exists_run (!isGap ·) cs
  obtain ⟨run, rest, rfl, hrun, hrest⟩ := exists_run isGap more
  have hnotGap : ∀ c ∈ word, isGap c = false := fun c hc => by simpa using hword c hc
  have hspace : ∀ c ∈ run, c = ' ' := fun c hc =>
    h.spaces c (List.mem_append_right _ (List.mem_append_left _ hc)) (hrun c hc)
  have hmoreGap : ∀ c ∈ (run ++ rest).head?, isGap c = true := fun c hc => by
    simpa using hmore c hc
  have hword : word ≠ [] := h.front_ne_nil hmoreGap
  by_cases hne : run = []
  · -- what follows the word would start a gap and start none
    subst hne
    cases rest with
    | nil =>
      have hlast := h.lastColon
      rw [List.append_nil, List.append_nil] at hlast ⊢
      exact .inl ⟨hnotGap, hlast⟩
    | cons c rest =>
      have hgap := hmore c rfl
      rw [hrest c rfl] at hgap
      exact Bool.noConfusion hgap
  · have hrestNe : rest ≠ [] := by
      rintro rfl
      have hlast := h.lastSpace
      rw [List.append_nil, List.getLast?_append_of_ne_nil _ hne,
        List.getLast?_eq_some_getLast hne] at hlast
      exact hlast (congrArg some (hspace _ (List.getLast_mem hne)))
    have hlast : word.getLast? ≠ some ':' := h.last_ne_colon (by simp [hne]) hmoreGap
    have hfirst : word.head? ≠ some '#' := by
      have hhash := h.noHash
      rwa [List.head?_append_of_ne_nil _ hword] at hhash
    have htail : IsPlainText rest := by
      rw [← List.append_assoc] at h
      refine h.of_append hrestNe hrest ?_ (by simp [hword])
      rw [List.getLast?_append_of_ne_nil _ hne]
      exact fun c hc => hrun c (List.mem_of_mem_getLast? hc)
    refine .inr ⟨word, run, rest, rfl, ⟨hnotGap, hword, hlast, hfirst, hrun, ?_, hrest,
      plainWord?_gap hrun hne rest⟩, hne, ?_, htail⟩
    · exact fun htab => absurd (hspace '\t' htab) (by decide)
    · exact oneLine_of_forall_eq_space hspace

/-! ## Keys and values -/

/-- A text of words is read up to the gap behind it, when this gap leads into the margin. -/
theorem plainFrom?_text {cs gap rest : List Char} (h : IsPlainText cs)
    (hgap : ∀ c ∈ gap, isGap c = true) (hne : gap ≠ []) (htab : '\t' ∉ gap)
    (hrest : StartsWord rest) {margin fuel : Nat} (hfuel : cs.length < fuel)
    {before : List Char} (hbefore : OneLine before) {p : Position} (hp : p.column ≠ 0)
    (hin : margin ≤ p.column) (hout : (p.behind (cs ++ gap)).column < margin) :
    plainFrom? false margin fuel before ⟨cs ++ (gap ++ rest), p⟩ =
      some ⟨before ++ cs, gap.any isBreak, ⟨rest, p.behind (cs ++ gap)⟩⟩ := by
  induction fuel generalizing cs before p with
  | zero => exact absurd hfuel (Nat.not_lt_zero _)
  | succ fuel ih =>
    rcases h.cases with ⟨hword, hlast⟩ | ⟨word, run, cs, rfl, hword, hrun, hone, hcs⟩
    · have hbeforeGap : IsWordBefore cs gap rest := ⟨hword, h.ne_nil, hlast, h.noHash, hgap, htab,
        hrest, plainWord?_gap hgap hne rest⟩
      rw [plainFrom?_word hbeforeGap margin fuel before (Cursor.atDocumentMark_eq_false hp), if_pos,
        foldGap_of_oneLine hbefore]
      rw [decide_eq_true hout, Bool.or_true]
    · have hcolumn : (p.behind (word ++ run)).column = p.column + (word ++ run).length :=
        Position.column_behind (oneLine_append.2
          ⟨fun c hc => isBreak_eq_false_of_isGap_eq_false (hword.notGap c hc), hone⟩) p
      have hlength : cs.length < fuel := by
        have hpos := List.length_pos_iff.2 hword.ne_nil
        rw [List.length_append, List.length_append] at hfuel
        omega
      have hinner : IsWordBefore word run (cs ++ (gap ++ rest)) := by
        have hstarts : StartsWord (cs ++ (gap ++ rest)) := by
          rw [StartsWord, List.head?_append_of_ne_nil _ hcs.ne_nil]
          exact hword.starts
        exact { hword with starts := hstarts, ended := plainWord?_gap hword.isGap hrun _ }
      have hgoesOn :
          (run.isEmpty || decide ((p.behind (word ++ run)).column < margin)) = false := by
        rw [Bool.or_eq_false_iff, decide_eq_false_iff_not]
        exact ⟨by simpa using hrun, by omega⟩
      have hout' : ((p.behind (word ++ run)).behind (cs ++ gap)).column < margin := by
        rw [← Position.behind_append, List.append_assoc]
        simpa only [List.append_assoc] using hout
      rw [List.append_assoc, List.append_assoc,
        plainFrom?_word hinner margin fuel before (Cursor.atDocumentMark_eq_false hp), hgoesOn,
        if_neg Bool.false_ne_true, ih hcs hlength hone (by omega) (by omega) hout',
        foldGap_of_oneLine hbefore, ← Position.behind_append]
      simp only [Option.map_some, List.append_assoc]

/-- A text of words is read as a value, with the gap behind it, which leads into the margin. -/
theorem plain?_value {cs gap rest : List Char} (h : IsPlainText cs)
    (hgap : ∀ c ∈ gap, isGap c = true) (hne : gap ≠ []) (htab : '\t' ∉ gap)
    (hrest : StartsWord rest) (margin : Nat) {p : Position} (hp : p.column ≠ 0)
    (hin : margin ≤ p.column) (hout : (p.behind (cs ++ gap)).column < margin) :
    plain? false margin ⟨cs ++ (gap ++ rest), p⟩ =
      some ⟨cs, gap.any isBreak, ⟨rest, p.behind (cs ++ gap)⟩⟩ := by
  have hfuel : cs.length < (cs ++ (gap ++ rest)).length + 1 := by
    rw [List.length_append]
    omega
  exact plainFrom?_text h hgap hne htab hrest hfuel oneLine_nil hp hin hout

/-- A word is read as a key, up to the colon behind it. -/
theorem plain?_key {word rest : List Char} (hword : ∀ c ∈ word, isGap c = false)
    (hne : word ≠ []) (hlast : word.getLast? ≠ some ':') (hfirst : word.head? ≠ some '#')
    (hrest : atGap rest = true) (margin : Nat) {p : Position}
    (hmark : (Cursor.mk (word ++ ':' :: rest) p).atDocumentMark = false) :
    plain? false margin ⟨word ++ ':' :: rest, p⟩ =
      some ⟨word, false, ⟨':' :: rest, p.behind word⟩⟩ := by
  have hstarts : StartsWord (':' :: rest) := by
    intro c hc
    obtain rfl := Option.some.inj hc
    decide
  have hbefore : IsWordBefore word [] (':' :: rest) := ⟨hword, hne, hlast, hfirst, by simp,
    by simp, hstarts, plainWord?_colon hrest⟩
  have hread := plainFrom?_word hbefore margin (word ++ ':' :: rest).length [] hmark
  rw [plain?]
  refine hread.trans ?_
  rw [List.append_nil]
  rfl

end ProcedureCatalog.Yaml
