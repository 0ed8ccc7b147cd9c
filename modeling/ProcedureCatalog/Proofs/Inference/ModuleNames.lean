/-
# Module names in inference

A module name of ASCII letters and digits is dropped from the name of a procedure before anything
is inferred. One with a sign or a dot in it is not: it counts as a part of the name.

* `infer_of_plain` : behind a module of letters and digits, the rest of the name says everything.
* `infer_of_not_plain` : any other module is described with the rest.
* `eq_of_describe_eq` : the descriptions of such modules tell the modules apart.
* `module_is_ignored_iff` : for which two modules the same is inferred.
-/
import ProcedureCatalog.Inference
import ProcedureCatalog.Proofs.Catalog.Space
import ProcedureCatalog.Proofs.ObjectName.Valid
import ProcedureCatalog.Proofs.Text.LineEnds
import ProcedureCatalog.Proofs.Text.Trimming

namespace ProcedureCatalog

namespace Text

/-! ## ASCII text in small letters -/

/-- The small form of an ASCII text is that of its characters. -/
theorem lowerAfter_of_isAscii (before : List Char) {cs : List Char} (h : ∀ c ∈ cs, IsAscii c) :
    lowerAfter before cs = cs.map Char.toLower := by
  induction cs generalizing before with
  | nil => rfl
  | cons c cs ih =>
    have hc : c.toNat < 0x80 := h c List.mem_cons_self
    have hsigma : (c.toNat == 0x3A3) = false := by
      rw [beq_eq_false_iff_ne]
      omega
    rw [lowerAfter, hsigma, if_neg Bool.false_ne_true, lowerChar, if_pos hc,
      ih _ fun d hd => h d (List.mem_cons_of_mem c hd)]
    rfl

/-- The capital of a character is an underscore only if the character is. -/
theorem toUpper_ne_underscore {c : Char} (h : c ≠ '_') : c.toUpper ≠ '_' := by
  by_cases hc : IsAscii c
  · exact forall_ascii (P := fun c => c ≠ '_' → c.toUpper ≠ '_') (by decide +kernel) hc h
  · rwa [toUpper_eq_self hc]

/-- The ASCII capital of a character is a letter or digit exactly when the character is. -/
theorem isAlphanum_toUpper (c : Char) : c.toUpper.isAlphanum = c.isAlphanum := by
  by_cases hc : IsAscii c
  · exact forall_ascii (P := fun c => c.toUpper.isAlphanum = c.isAlphanum) (by decide +kernel) hc
  · rw [toUpper_eq_self hc]

theorem underscore_notMem_upper {cs : List Char} (h : '_' ∉ cs) : '_' ∉ upper cs := by
  rw [upper, List.mem_map]
  rintro ⟨c, hc, heq⟩
  exact toUpper_ne_underscore (fun hunderscore => h (hunderscore ▸ hc)) heq

/-- Texts in capitals that have one small form are equal. -/
theorem eq_of_map_toLower_eq {cs ds : List Char} (hcs : upper cs = cs) (hds : upper ds = ds)
    (h : cs.map Char.toLower = ds.map Char.toLower) : cs = ds := by
  have hupper : ∀ text : List Char, upper (text.map Char.toLower) = upper text := by
    intro text
    rw [upper, List.map_map]
    exact List.map_congr_left fun c _ => toUpper_toLower c
  rw [← hcs, ← hds, ← hupper cs, ← hupper ds, h]

end Text

namespace Inference

open Text ObjectName

/-! ## Dropping a module -/

/-- A module of letters and digits is dropped with its underscore, another is not. -/
theorem dropModule_append {module : List Char} (hne : module ≠ []) (h : '_' ∉ module)
    (rest : List Char) : dropModule (module ++ '_' :: rest) =
      if module.all isAsciiAlphanum then rest else module ++ '_' :: rest := by
  have hmodule : ∀ c ∈ module, (c != '_') = true := by
    intro c hc
    simpa using fun heq : c = '_' => h (heq ▸ hc)
  have hrest : ∀ c ∈ ('_' :: rest).head?, (c != '_') = false := by
    intro c hc
    obtain rfl := Option.some.inj hc
    rfl
  have hnotEmpty : module.isEmpty = false := by simpa using hne
  rw [dropModule, takeWhile_append_eq hmodule hrest, dropWhile_append_eq hmodule hrest, hnotEmpty]
  rfl

/-- A module name of letters and digits. -/
def isPlainModule (module : String) : Bool := module.toList.all isAsciiAlphanum

theorem all_isAsciiAlphanum_upper (cs : List Char) :
    (upper cs).all isAsciiAlphanum = cs.all isAsciiAlphanum := by
  rw [upper, List.all_map]
  exact congrArg cs.all (funext isAlphanum_toUpper)

/-- What is inferred from the part of a name behind its module. -/
def inferPart (part : String) : Option String :=
  match upper (trimEnd part.toList) with
  | [] => none
  | c :: cs => some (.ofList (describe (c :: cs)))

section Modules

variable {module : String}

/-- A valid name is trimmed already, and blanks go at the end of the part behind it. -/
theorem trim_name (h : IsValid module.toList) (part : String) :
    trim (module ++ "_" ++ part).toList = module.toList ++ '_' :: trimEnd part.toList := by
  obtain ⟨c, cs, hname, -⟩ := h.exists_cons
  have hstart : trimStart (module.toList ++ '_' :: part.toList) =
      module.toList ++ '_' :: part.toList := by
    refine dropWhile_eq_self fun d hd => ?_
    rw [hname] at hd
    obtain rfl := Option.some.inj hd
    exact h.isBlank_eq_false c (by rw [hname]; exact List.mem_cons_self)
  have hlast : ∀ c ∈ (module.toList ++ ['_']).getLast?, isBlank c = false := by
    rw [List.getLast?_concat]
    rintro c hc
    obtain rfl := Option.some.inj hc
    decide
  have hsplit : (module ++ "_" ++ part).toList = module.toList ++ '_' :: part.toList := by
    rw [String.toList_append, String.toList_append, List.append_assoc]
    rfl
  rw [hsplit, trim, hstart, List.append_cons, trimEnd_append_of_getLast? hlast, ← List.append_cons]

/-- A name is what is left of it in capitals without its module. -/
theorem dropModule_upper_name (h : IsValid module.toList) (hunderscore : '_' ∉ module.toList)
    (part : String) : dropModule (upper (trim (module ++ "_" ++ part).toList)) =
      if isPlainModule module then upper (trimEnd part.toList)
      else upper module.toList ++ '_' :: upper (trimEnd part.toList) := by
  have hne : upper module.toList ≠ [] := by
    obtain ⟨c, cs, hname, -⟩ := h.exists_cons
    simp [hname]
  have hcapitals : upper (module.toList ++ '_' :: trimEnd part.toList) =
      upper module.toList ++ '_' :: upper (trimEnd part.toList) := by
    rw [upper_append, upper_cons]
    rfl
  rw [trim_name h, hcapitals, dropModule_append hne (underscore_notMem_upper hunderscore),
    all_isAsciiAlphanum_upper]
  rfl

/-- Behind a module of letters and digits, the rest of the name says everything. -/
theorem infer_of_plain (h : IsValid module.toList) (hunderscore : '_' ∉ module.toList)
    (hplain : isPlainModule module = true) (part : String) :
    infer (module ++ "_" ++ part) = inferPart part := by
  rw [infer, dropModule_upper_name h hunderscore, if_pos hplain]
  rfl

/-- A module with another character is described with the rest of the name. -/
theorem infer_of_not_plain (h : IsValid module.toList) (hunderscore : '_' ∉ module.toList)
    (hplain : isPlainModule module = false) (part : String) :
    infer (module ++ "_" ++ part) = some (.ofList (describe
      (upper module.toList ++ '_' :: upper (trimEnd part.toList)))) := by
  obtain ⟨c, cs, hname, -⟩ := h.exists_cons
  rw [infer, dropModule_upper_name h hunderscore, hplain, if_neg Bool.false_ne_true, hname]
  rfl

end Modules

/-! ## Descriptions of modules -/

/-- The tokens of the vocabulary hold letters only. -/
theorem tokens_hold_letters : ∀ p ∈ wholeNames ++ (verbs ++ irregular),
    ∀ c ∈ p.token.toList, isAsciiAlphanum c = true ∧ c ≠ '_' := by
  have hall : (wholeNames ++ (verbs ++ irregular)).all (fun p =>
      p.token.toList.all fun c => isAsciiAlphanum c && c != '_') = true := by decide +kernel
  simpa only [List.all_eq_true, Bool.and_eq_true, bne_iff_ne] using hall

/-- The words of a verb tell which one it is. -/
theorem token_eq_of_words_eq : ∀ verb ∈ verbs ++ irregular, ∀ verb' ∈ verbs ++ irregular,
    verb.words.toList = verb'.words.toList → verb.token.toList = verb'.token.toList := by
  decide +kernel

/-- Texts that are cut at their last spaces are equal only part by part. -/
theorem eq_of_append_space {a a' b b' : List Char} (hb : ' ' ∉ b) (hb' : ' ' ∉ b')
    (h : a ++ ' ' :: b = a' ++ ' ' :: b') : a = a' ∧ b = b' := by
  have hsuffix : ' ' :: b <:+ a' ++ ' ' :: b' := h ▸ List.suffix_append _ _
  have hsuffix' : ' ' :: b' <:+ a' ++ ' ' :: b' := List.suffix_append _ _
  have htail : b = b' := by
    rcases List.suffix_or_suffix_of_suffix hsuffix hsuffix' with hle | hle
    · rcases List.suffix_cons_iff.1 hle with heq | hin
      · exact (List.cons.inj heq).2
      · exact absurd (hin.subset List.mem_cons_self) hb'
    · rcases List.suffix_cons_iff.1 hle with heq | hin
      · exact (List.cons.inj heq).2.symm
      · exact absurd (hin.subset List.mem_cons_self) hb
  subst htail
  exact ⟨List.append_cancel_right h, rfl⟩

/-- The underscore behind a text without underscores is trimmed away. -/
theorem trimUnderscores_append {cs : List Char} (hne : cs ≠ []) (h : '_' ∉ cs) :
    trimUnderscores (cs ++ ['_']) = cs := by
  have hnot : ∀ c ∈ cs, (c == '_') = false := by
    intro c hc
    simpa using fun heq : c = '_' => h (heq ▸ hc)
  have hstart : (cs ++ ['_']).dropWhile (· == '_') = cs ++ ['_'] := by
    refine dropWhile_eq_self fun c hc => ?_
    rw [List.head?_append_of_ne_nil _ hne] at hc
    exact hnot c (List.mem_of_mem_head? hc)
  rw [trimUnderscores, hstart, dropEndWhile_append (by simp)]
  exact dropEndWhile_eq_self fun c hc => hnot c (List.mem_of_mem_getLast? hc)

/-- A module in capitals that is not dropped: ASCII characters, none of them a blank or an
underscore, and one that is neither a letter nor a digit. -/
structure IsSigned (module : List Char) : Prop where
  capital : upper module = module
  isAscii : ∀ c ∈ module, IsAscii c
  notBlank : ∀ c ∈ module, isBlank c = false
  notUnderscore : '_' ∉ module
  signed : module.all isAsciiAlphanum = false

namespace IsSigned

variable {module module' : List Char}

theorem of_isValid {name : String} (h : IsValid name.toList) (hunderscore : '_' ∉ name.toList)
    (hplain : isPlainModule name = false) : IsSigned (upper name.toList) where
  capital := upper_upper _
  isAscii := forall_isAscii_upper.2 h.isAscii
  notBlank := by
    intro c hc
    obtain ⟨d, hd, rfl⟩ := List.mem_map.1 hc
    rw [isBlank_toUpper, h.isBlank_eq_false d hd]
  notUnderscore := underscore_notMem_upper hunderscore
  signed := by rw [all_isAsciiAlphanum_upper]; exact hplain

/-- The name of such a module alone is described by its small form, or by a verb and the small form
of what follows the verb. -/
theorem describe_cases (h : IsSigned module) :
    describe (module ++ ['_']) = (module ++ ['_']).map Char.toLower ∨
      ∃ verb ∈ verbs ++ irregular, ∃ rest, module = verb.token.toList ++ rest ∧
        describe (module ++ ['_']) = verb.words.toList ++ ' ' :: rest.map Char.toLower := by
  have hwhole : wholeNames.find? (·.token.toList == module ++ ['_']) = none := by
    rw [List.find?_eq_none]
    intro p hp heq
    rw [beq_iff_eq] at heq
    have hmem : '_' ∈ p.token.toList := by rw [heq]; simp
    exact (tokens_hold_letters p (List.mem_append_left _ hp) '_' hmem).2 rfl
  rw [describe, hwhole]
  dsimp only
  split
  · next verb hverb =>
    have hmem : verb ∈ verbs ++ irregular := List.mem_of_find?_eq_some hverb
    have htoken := tokens_hold_letters verb (List.mem_append_right _ hmem)
    have hstarts := List.find?_some (p := fun p : Phrase => p.starts (module ++ ['_'])) hverb
    have hprefix : verb.token.toList <+: module := by
      rcases List.prefix_concat_iff.1 (List.isPrefixOf_iff_prefix.1 hstarts) with heq | hprefix
      · exact absurd rfl (htoken '_' (by rw [heq]; simp)).2
      · exact hprefix
    obtain ⟨rest, hrest⟩ := hprefix
    -- the sign of the module is behind the verb
    have hne : rest ≠ [] := by
      rintro rfl
      have hall : module.all isAsciiAlphanum = true := by
        rw [← hrest, List.append_nil, List.all_eq_true]
        exact fun c hc => (htoken c hc).1
      rw [h.signed] at hall
      exact Bool.noConfusion hall
    have hunderscore : '_' ∉ rest := fun hin =>
      h.notUnderscore (hrest ▸ List.mem_append_right _ hin)
    have hascii : ∀ c ∈ rest, IsAscii c := fun c hc =>
      h.isAscii c (hrest ▸ List.mem_append_right _ hc)
    have hdrop : (module ++ ['_']).drop verb.token.length = rest ++ ['_'] := by
      rw [← hrest, List.append_assoc, ← String.length_toList, List.drop_left]
    refine .inr ⟨verb, hmem, rest, hrest.symm, ?_⟩
    rw [hdrop, trimUnderscores_append hne hunderscore, lower, lowerAfter_of_isAscii [] hascii]
    cases rest with
    | nil => exact absurd rfl hne
    | cons c rest => rfl
  · refine .inl (lowerAfter_of_isAscii [] fun c hc => ?_)
    rcases List.mem_append.1 hc with hc | hc
    · exact h.isAscii c hc
    · rw [List.mem_singleton.1 hc]
      decide

/-- Small forms of such modules hold no space. -/
theorem space_notMem_map_toLower {cs : List Char} (hascii : ∀ c ∈ cs, IsAscii c)
    (hblank : ∀ c ∈ cs, isBlank c = false) : ' ' ∉ cs.map Char.toLower := by
  rw [List.mem_map]
  rintro ⟨c, hc, hspace⟩
  have hsame := isBlank_toLower (hascii c hc)
  rw [hspace, hblank c hc] at hsame
  exact absurd hsame (by decide)

theorem space_notMem_lower (h : IsSigned module) :
    ' ' ∉ (module ++ ['_']).map Char.toLower := by
  rw [List.map_append, List.mem_append, not_or]
  exact ⟨space_notMem_map_toLower h.isAscii h.notBlank, by decide⟩

/-- The descriptions of two such modules are different. -/
theorem eq_of_describe_eq (h : IsSigned module) (h' : IsSigned module')
    (heq : describe (module ++ ['_']) = describe (module' ++ ['_'])) : module = module' := by
  rcases h.describe_cases with hlower | ⟨verb, hverb, rest, hmodule, hwords⟩ <;>
    rcases h'.describe_cases with hlower' | ⟨verb', hverb', rest', hmodule', hwords'⟩
  · rw [hlower, hlower', List.map_append, List.map_append] at heq
    exact eq_of_map_toLower_eq h.capital h'.capital (List.append_cancel_right heq)
  · rw [hlower, hwords'] at heq
    exact absurd (by rw [heq]; simp) h.space_notMem_lower
  · rw [hlower', hwords] at heq
    exact absurd (by rw [← heq]; simp) h'.space_notMem_lower
  · have hspace : ' ' ∉ rest.map Char.toLower := by
      subst hmodule
      exact space_notMem_map_toLower (fun c hc => h.isAscii c (List.mem_append_right _ hc))
        fun c hc => h.notBlank c (List.mem_append_right _ hc)
    have hspace' : ' ' ∉ rest'.map Char.toLower := by
      subst hmodule'
      exact space_notMem_map_toLower (fun c hc => h'.isAscii c (List.mem_append_right _ hc))
        fun c hc => h'.notBlank c (List.mem_append_right _ hc)
    rw [hwords, hwords'] at heq
    obtain ⟨hverbs, hrests⟩ := eq_of_append_space hspace hspace' heq
    have htokens := token_eq_of_words_eq verb hverb verb' hverb' hverbs
    refine eq_of_map_toLower_eq h.capital h'.capital ?_
    rw [hmodule, hmodule', List.map_append, List.map_append, htokens, hrests]

end IsSigned

/-! ## Which modules are ignored -/

/-- **Which module names are ignored.** The same is inferred from every part behind two valid
module names without underscores exactly when both are made of letters and digits, or they are the
same up to case. Behind a module of letters and digits, what is inferred is said by the part alone.
Any other module is a part of what is described. -/
theorem module_is_ignored_iff {kind kind' : ObjectKind} {module module' : String}
    (hvalid : validate kind module = .ok ()) (hvalid' : validate kind' module' = .ok ())
    (hunderscore : '_' ∉ module.toList) (hunderscore' : '_' ∉ module'.toList) :
    ((∀ part, infer (module ++ "_" ++ part) = infer (module' ++ "_" ++ part)) ↔
      isPlainModule module = true ∧ isPlainModule module' = true ∨
        sameName module module' = true) ∧
    (isPlainModule module = true → ∀ part, infer (module ++ "_" ++ part) = inferPart part) ∧
    (isPlainModule module = false → ∀ part, infer (module ++ "_" ++ part) =
      some (.ofList (describe (upper module.toList ++ '_' :: upper (trimEnd part.toList))))) := by
  have h := validate_eq_ok_iff.1 hvalid
  have h' := validate_eq_ok_iff.1 hvalid'
  refine ⟨⟨?_, ?_⟩, infer_of_plain h hunderscore, infer_of_not_plain h hunderscore⟩
  · intro hsame
    have hempty := hsame ""
    cases hplain : isPlainModule module <;> cases hplain' : isPlainModule module'
    · -- neither is dropped, and the descriptions tell them apart
      rw [infer_of_not_plain h hunderscore hplain, infer_of_not_plain h' hunderscore' hplain',
        Option.some_inj, String.ofList_inj] at hempty
      refine .inr (sameName_iff.2 ?_)
      exact (IsSigned.of_isValid h hunderscore hplain).eq_of_describe_eq
        (.of_isValid h' hunderscore' hplain') hempty
    · rw [infer_of_not_plain h hunderscore hplain, infer_of_plain h' hunderscore' hplain'] at hempty
      exact absurd hempty (by simp [inferPart])
    · rw [infer_of_plain h hunderscore hplain, infer_of_not_plain h' hunderscore' hplain'] at hempty
      exact absurd hempty (by simp [inferPart])
    · exact .inl ⟨rfl, rfl⟩
  · rintro (⟨hplain, hplain'⟩ | hsame) part
    · rw [infer_of_plain h hunderscore hplain, infer_of_plain h' hunderscore' hplain']
    · rw [infer, infer, trim_name h, trim_name h', upper_append, upper_append,
        sameName_iff.1 hsame]

/-- Two modules of letters and digits in front of one verb. -/
theorem module_is_ignored_before_a_verb :
    (validate .object "SPVSPO" = .ok () ∧ validate .library "axa1" = .ok () ∧
      '_' ∉ "SPVSPO".toList ∧ '_' ∉ "axa1".toList ∧ isPlainModule "SPVSPO" = true) ∧
      infer ("SPVSPO" ++ "_" ++ "GET_CABECERA") = some "Obtiene cabecera" ∧
      infer ("axa1" ++ "_" ++ "GET_CABECERA") = some "Obtiene cabecera" := by
  have hvalid : validate .object "SPVSPO" = .ok () := by decide +kernel
  have hvalid' : validate .library "axa1" = .ok () := by decide +kernel
  have hplain : isPlainModule "SPVSPO" = true := by decide +kernel
  have hplain' : isPlainModule "axa1" = true := by decide +kernel
  have hunderscore : '_' ∉ "SPVSPO".toList := by decide +kernel
  have hunderscore' : '_' ∉ "axa1".toList := by decide +kernel
  obtain ⟨hsame, hpart, -⟩ := module_is_ignored_iff hvalid hvalid' hunderscore hunderscore'
  have hinferred : infer ("SPVSPO" ++ "_" ++ "GET_CABECERA") = some "Obtiene cabecera" := by
    rw [hpart hplain]
    decide +kernel
  refine ⟨⟨hvalid, hvalid', hunderscore, hunderscore', hplain⟩, hinferred, ?_⟩
  rw [← hsame.2 (.inl ⟨hplain, hplain'⟩), hinferred]

/-- A module with a dollar sign is valid and shows up in what is inferred; another one does not. -/
theorem signed_module_shows_up :
    (validate .object "A$B" = .ok () ∧ validate .object "AB" = .ok () ∧
      '_' ∉ "A$B".toList ∧ '_' ∉ "AB".toList) ∧
      infer ("A$B" ++ "_" ++ "GETX") = some "a$b_getx" ∧
      infer ("AB" ++ "_" ++ "GETX") = some "Obtiene x" ∧
      infer ("A$B" ++ "_" ++ "GETX") ≠ infer ("AB" ++ "_" ++ "GETX") := by
  decide +kernel

end Inference

end ProcedureCatalog
