/-
# The symbols of a listing

Which texts of a listing count as exported symbols of a program, compared with complete symbols:
the program's name in capitals, an underscore and capital letters or digits. Symbols are found
between word boundaries, and the signs `$`, `#` and `@` are no word characters although names may
hold them.

* `isSymbol_upper_iff` : a text is a complete symbol in capitals when it spells one in ASCII.
* `isBoundary_head?_iff` : the first character of the name decides what may stand before a symbol.
* `runs_are_symbols_iff` : symbols between blanks are found for names that start with a letter.
* `symbols_stand_bounded` : what is found stands between word boundaries, and when it is complete.
-/
import ProcedureCatalog.Proofs.Listing.Scan
import ProcedureCatalog.Proofs.ObjectName.Valid

namespace ProcedureCatalog.ExportListing

open Text ObjectName

/-! ## Complete symbols -/

/-- The name of the program in capitals, an underscore and at least one capital letter or digit. -/
def IsSymbol (program symbol : List Char) : Prop :=
  ∃ name, name ≠ [] ∧ (∀ c ∈ name, c.isUpper = true ∨ c.isDigit = true) ∧
    symbol = upper program ++ '_' :: name

section

variable {program text : List Char}

/-- The capitals of letters and digits are capital letters and digits. -/
theorem isUpper_or_isDigit_toUpper {c : Char} (h : c.isAlphanum = true) :
    c.toUpper.isUpper = true ∨ c.toUpper.isDigit = true :=
  forall_ascii (P := fun c => c.isAlphanum = true → c.toUpper.isUpper = true ∨
    c.toUpper.isDigit = true) (by decide +kernel) (isAscii_of_isAlphanum h) h

/-- Capital letters and digits are their own capitals. -/
theorem toUpper_eq_self_of_isUpper_or {c : Char} (h : c.isUpper = true ∨ c.isDigit = true) :
    c.isAlphanum = true ∧ c.toUpper = c := by
  have halphanum : c.isAlphanum = true := by
    unfold Char.isAlphanum Char.isAlpha
    rcases h with h | h <;> simp [h]
  exact ⟨halphanum, forall_ascii (P := fun c => c.isUpper = true ∨ c.isDigit = true →
    c.toUpper = c) (by decide +kernel) (isAscii_of_isAlphanum halphanum) h⟩

/-- In capitals a text is a complete symbol exactly when it spells one and is ASCII. -/
theorem isSymbol_upper_iff (hprogram : ∀ c ∈ program, IsAscii c) :
    IsSymbol program (upper text) ↔ Spells program text ∧ ∀ c ∈ text, IsAscii c := by
  have hstart : ∀ c ∈ program ++ ['_'], IsAscii c := by
    intro c hc
    rcases List.mem_append.1 hc with hc | hc
    · exact hprogram c hc
    · rw [List.mem_singleton.1 hc]
      decide
  constructor
  · rintro ⟨name, hname, hall, hupper⟩
    have hnameascii : ∀ c ∈ name, IsAscii c :=
      fun c hc => isAscii_of_isAlphanum (toUpper_eq_self_of_isUpper_or (hall c hc)).1
    have hcapitals : upper name = name :=
      (List.map_congr_left fun c hc => (toUpper_eq_self_of_isUpper_or (hall c hc)).2).trans
        (List.map_id name)
    have hwhole : ∀ c ∈ (program ++ ['_']) ++ name, IsAscii c :=
      List.forall_mem_append.2 ⟨hstart, hnameascii⟩
    have hsame : upper text = upper ((program ++ ['_']) ++ name) := by
      rw [hupper, upper_append, upper_append, hcapitals, List.append_assoc]
      rfl
    have hascii : ∀ c ∈ text, IsAscii c := by
      rw [← forall_isAscii_upper, hsame, forall_isAscii_upper]
      exact hwhole
    have hfold := (map_fold_eq_iff hascii hwhole).2 hsame
    rw [List.map_append] at hfold
    obtain ⟨head, rest, rfl, hhead, hrest⟩ := List.map_eq_append_iff.1 hfold
    refine ⟨⟨head, rest, rfl, hhead, ?_, ?_⟩, hascii⟩
    · rintro rfl
      exact hname (List.map_eq_nil_iff.1 hrest.symm)
    · intro c hc
      obtain ⟨d, hd, hfold⟩ := List.mem_map.1 (hrest ▸ List.mem_map_of_mem (f := fold) hc)
      have hd' := (toUpper_eq_self_of_isUpper_or (hall d hd)).1
      rw [isFoldedAlphanum, ← hfold]
      exact isFoldedAlphanum_iff.2 (.inl hd')
  · rintro ⟨⟨head, name, rfl, hhead, hname, hall⟩, hascii⟩
    obtain ⟨hheadascii, hnameascii⟩ := List.forall_mem_append.1 hascii
    have hcapitals := (map_fold_eq_iff hheadascii hstart).1 hhead
    refine ⟨upper name, by simpa [upper] using hname, ?_, ?_⟩
    · intro c hc
      obtain ⟨d, hd, rfl⟩ := List.mem_map.1 hc
      refine isUpper_or_isDigit_toUpper ?_
      rw [← isFoldedAlphanum_of_isAscii (hnameascii d hd)]
      exact hall d hd
    · rw [upper_append, hcapitals, upper_append, List.append_assoc]
      rfl

/-! ## The neighbours of a symbol -/

/-- A symbol starts with a word character exactly when the name of its program starts with a
letter. -/
theorem any_isWord_head? (hprogram : IsValid program) (hspells : Spells program text) :
    text.head?.any isWord = program.head?.any Char.isAlpha := by
  obtain ⟨c, cs, rfl, hstart⟩ := hprogram.exists_cons
  obtain ⟨d, hd, hfold⟩ := hspells.exists_head rfl
  rw [Option.mem_def.1 hd, List.head?_cons, Option.any_some, Option.any_some]
  cases halpha : c.isAlpha with
  | true =>
    have hc : isFoldedAlphanum c = true :=
      isFoldedAlphanum_iff.2 (.inl (by rw [Char.isAlphanum, halpha, Bool.true_or]))
    refine isWord_of_isFoldedAlphanum ?_
    rw [isFoldedAlphanum, hfold]
    exact hc
  | false =>
    have hsign : isSign c = true := by
      simpa [isNameStart, isSign, halpha] using hstart
    rw [eq_of_fold_eq_of_isSign hsign hfold]
    exact isWord_eq_false_of_isSign hsign

/-- Where a symbol starts at a boundary, it stands behind a word character exactly when the name of
its program does not start with a letter. -/
theorem isBoundary_head?_iff (hprogram : IsValid program) (hspells : Spells program text)
    (before : Option Char) :
    isBoundary before text.head? = true ↔
      before.any isWord = !program.head?.any Char.isAlpha := by
  rw [isBoundary, any_isWord_head? hprogram hspells, bne_iff_ne, ← Bool.eq_not]

/-- A symbol holds no blank. -/
theorem isBlank_eq_false_of_spells (hprogram : IsValid program) (h : Spells program text) :
    ∀ c ∈ text, isBlank c = false := by
  obtain ⟨head, name, rfl, hhead, -, hall⟩ := h
  refine List.forall_mem_append.2 ⟨fun c hc => ?_, fun c hc => ?_⟩
  · -- the character folds like one of the name or like the underscore
    obtain ⟨d, hd, hfold⟩ := List.mem_map.1 (hhead ▸ List.mem_map_of_mem (f := fold) hc)
    have hd' : IsAscii d ∧ isBlank d = false := by
      rcases List.mem_append.1 hd with hd | hd
      · exact ⟨hprogram.isAscii d hd, hprogram.isBlank_eq_false d hd⟩
      · rw [List.mem_singleton.1 hd]
        decide
    have hascii := isAscii_fold hd'.1
    rw [← isBlank_fold (hfold ▸ hascii), ← hfold, isBlank_fold hascii]
    exact hd'.2
  · by_contra hblank
    have hword := isWord_of_isFoldedAlphanum (hall c hc)
    rw [isWord_eq_false_of_isBlank (by simpa using hblank)] at hword
    exact Bool.noConfusion hword

end

/-! ## What is found -/

/-- For a valid name, the symbols of a listing are what the scan finds, in capitals. -/
theorem mem_symbols_iff {listing program symbol : String} (h : IsValid program.toList) :
    symbol ∈ symbols listing program ↔
      ∃ found ∈ scan program.toList none 0 listing.toList, symbol = .ofList (upper found) := by
  obtain ⟨c, cs, hname, -⟩ := h.exists_cons
  rw [mem_symbols_iff_scan, h.trim_eq_self, and_iff_right]
  exact hname ▸ List.cons_ne_nil c cs

/-- Each symbol of a listing stands there between word boundaries. -/
theorem exists_occurrence {listing program symbol : String} (h : IsValid program.toList)
    (hs : symbol ∈ symbols listing program) :
    ∃ o : Occurrence listing.toList, symbol = .ofList (upper o.text) ∧
      Spells program.toList o.text ∧ o.IsBounded := by
  obtain ⟨found, hfound, rfl⟩ := (mem_symbols_iff h).1 hs
  obtain ⟨before, after, hcs, hspells, hfirst, hlast⟩ := exists_of_mem_scan hfound
  rw [Option.or_none] at hfirst
  exact ⟨⟨before, found, after, hcs.symm⟩, rfl, hspells, ⟨hfirst, hlast⟩⟩

/-- A text that stands between word boundaries is no part of a longer identifier exactly when the
name of its program starts with a letter and no sign touches it. -/
theorem isComplete_iff {program cs : List Char} {o : Occurrence cs} (hprogram : IsValid program)
    (hspells : Spells program o.text) (hbounded : o.IsBounded) :
    o.IsComplete ↔ program.head?.any Char.isAlpha = true ∧ ¬ o.TouchesSign := by
  have hfirst := (isBoundary_head?_iff hprogram hspells _).1 hbounded.first
  have hlast : o.after.head?.any isWord = false := by
    have hbound := hbounded.last
    rwa [isBoundary_of_isWord hspells.getLast?_isWord, Bool.not_eq_true'] at hbound
  have hcomplete : o.IsComplete ↔
      o.before.getLast?.any isIdentifier = false ∧ o.after.head?.any isIdentifier = false :=
    ⟨fun h => ⟨h.first, h.last⟩, fun h => ⟨h.1, h.2⟩⟩
  rw [hcomplete, any_isIdentifier, any_isIdentifier, hfirst, hlast, Occurrence.TouchesSign]
  cases program.head?.any Char.isAlpha <;> simp

/-! ## What is complete -/

/-- **What counts as a symbol.** Each symbol of a listing stands there between word boundaries and
is, up to case, the name of the program, an underscore and letters or digits. It is a complete
symbol in a place of its own exactly when the name starts with a letter, the text is ASCII and no
sign touches it. -/
theorem symbols_stand_bounded {kind : ObjectKind} {listing program symbol : String}
    (hvalid : ObjectName.validate kind program = .ok ())
    (hs : symbol ∈ symbols listing program) :
    ∃ o : Occurrence listing.toList, symbol = .ofList (upper o.text) ∧
      Spells program.toList o.text ∧ o.IsBounded ∧
      (IsSymbol program.toList symbol.toList ∧ o.IsComplete ↔
        program.toList.head?.any Char.isAlpha = true ∧ (∀ c ∈ o.text, IsAscii c) ∧
          ¬ o.TouchesSign) := by
  have hprogram := validate_eq_ok_iff.1 hvalid
  obtain ⟨o, hsymbol, hspells, hbounded⟩ := exists_occurrence hprogram hs
  refine ⟨o, hsymbol, hspells, hbounded, ?_⟩
  have hform : IsSymbol program.toList symbol.toList ↔ ∀ c ∈ o.text, IsAscii c := by
    rw [hsymbol, String.toList_ofList, isSymbol_upper_iff hprogram.isAscii]
    exact and_iff_right hspells
  rw [hform, isComplete_iff hprogram hspells hbounded]
  exact and_left_comm

/-- A listing with one complete symbol. -/
theorem symbol_between_spaces :
    ObjectName.validate .object "SPV" = .ok () ∧
      "SPV_GET" ∈ symbols "  Spv_Get  *YES" "SPV" ∧
      ∃ o : Occurrence "  Spv_Get  *YES".toList, "SPV_GET" = .ofList (upper o.text) ∧
        Spells "SPV".toList o.text ∧ o.IsBounded ∧
        (IsSymbol "SPV".toList "SPV_GET".toList ∧ o.IsComplete ↔
          "SPV".toList.head?.any Char.isAlpha = true ∧ (∀ c ∈ o.text, IsAscii c) ∧
            ¬ o.TouchesSign) :=
  have hvalid : ObjectName.validate .object "SPV" = .ok () := by decide
  have hs : "SPV_GET" ∈ symbols "  Spv_Get  *YES" "SPV" := by decide +kernel
  ⟨hvalid, hs, symbols_stand_bounded hvalid hs⟩

/-- A longer identifier is cut short at a sign, and the Kelvin sign is taken for a letter. -/
theorem cut_and_lookalike_are_symbols :
    ObjectName.validate .object "SPV" = .ok () ∧
      ("SPV_GET" ∈ symbols "SPV_GET$" "SPV" ∧
        ¬ ∃ o : Occurrence "SPV_GET$".toList, upper o.text = "SPV_GET".toList ∧ o.IsComplete) ∧
      ("SPV_\u212A" ∈ symbols "SPV_\u212A" "SPV" ∧
        ¬ IsSymbol "SPV".toList "SPV_\u212A".toList) := by
  refine ⟨by decide, ⟨by decide +kernel, ?_⟩, ⟨by decide +kernel, ?_⟩⟩
  · rintro ⟨⟨before, text, after, hjoined⟩, hupper, -, hlast⟩
    dsimp only at hupper hlast
    have htext : text.length = 7 := by
      simpa using congrArg List.length hupper
    have hlength := congrArg List.length hjoined
    simp only [List.length_append, htext] at hlength
    cases before with
    | nil =>
      -- the sign is right behind the text
      have hafter : after = ['$'] :=
        (List.drop_left' htext).symm.trans (congrArg (List.drop 7) hjoined)
      rw [hafter] at hlast
      exact absurd hlast (by decide)
    | cons c before =>
      -- the text starts too late
      have hshort : before.length + 1 + (7 + after.length) = 8 := hlength
      obtain rfl : before = [] := List.length_eq_zero_iff.1 (by omega)
      obtain rfl : after = [] := List.length_eq_zero_iff.1 (by omega)
      have hrest : text = "SPV_GET$".toList.tail :=
        (List.append_nil text).symm.trans (congrArg List.tail hjoined)
      rw [hrest] at hupper
      exact absurd hupper (by decide)
  · rintro ⟨name, -, hall, hname⟩
    have hcut : "SPV_".toList ++ ['\u212A'] = "SPV_".toList ++ name := hname
    rw [← List.append_cancel_left hcut] at hall
    exact absurd (hall _ (List.mem_singleton_self _)) (by decide)

/-! ## What is found everywhere -/

/-- In a listing without room for a character beside the symbol, a symbol is found only when the
name of the program starts with a letter. -/
theorem isAlpha_of_mem_symbols {listing program symbol : String} (hprogram : IsValid program.toList)
    (hs : symbol ∈ symbols listing program)
    (hroom : listing.toList.length ≤ program.toList.length + 2) :
    program.toList.head?.any Char.isAlpha = true := by
  obtain ⟨o, -, hspells, hbounded⟩ := exists_occurrence hprogram hs
  have hfirst := (isBoundary_head?_iff hprogram hspells _).1 hbounded.first
  have hlength := congrArg List.length o.joined
  rw [List.length_append, List.length_append] at hlength
  have hle := hspells.length_le
  have hbefore : o.before = [] := List.length_eq_zero_iff.1 (by omega)
  rwa [hbefore, List.getLast?_nil, Option.any_none, eq_comm, Bool.not_eq_false'] at hfirst

/-- For a name that starts with a letter, a symbol between blanks is found. -/
theorem mem_symbols_of_isRun {listing program : String} (hprogram : IsValid program.toList)
    (hletter : program.toList.head?.any Char.isAlpha = true) {o : Occurrence listing.toList}
    (hrun : o.IsRun) (hspells : Spells program.toList o.text) :
    String.ofList (upper o.text) ∈ symbols listing program := by
  have hfirst : isBoundary o.before.getLast? o.text.head? = true := by
    rw [isBoundary_head?_iff hprogram hspells, hletter, any_isWord_of_all_isBlank hrun.first]
    rfl
  have hlast : isBoundary o.text.getLast? o.after.head? = true := by
    rw [isBoundary_of_isWord hspells.getLast?_isWord, any_isWord_of_all_isBlank hrun.last]
    rfl
  have hfound : symbolAt? program.toList o.before.getLast? (o.text ++ o.after) = some o.text :=
    symbolAt?_eq_some_iff.2 ⟨o.after, rfl, hspells, hfirst, hlast⟩
  -- the blank before the symbol separates it from what the scan found earlier
  have hfront : ∀ sep ∈ o.before.getLast?, isWord sep = false ∧
      ∀ text, Spells program.toList text → sep ∉ text := by
    intro sep hsep
    have hblank : isBlank sep = true := by
      have := hrun.first
      rwa [Option.mem_def.1 hsep] at this
    refine ⟨isWord_eq_false_of_isBlank hblank, fun text htext hmem => ?_⟩
    have hsolid := isBlank_eq_false_of_spells hprogram htext sep hmem
    rw [hblank] at hsolid
    exact Bool.noConfusion hsolid
  have hmem := mem_scan_behind_separator hfront hfound
  rw [o.joined] at hmem
  exact (mem_symbols_iff hprogram).2 ⟨o.text, hmem, rfl⟩

/-- **Which programs have all their symbols found.** A symbol that stands between blanks is found
in every listing exactly when the name of its program starts with a letter. -/
theorem runs_are_symbols_iff {kind : ObjectKind} {program : String}
    (hvalid : ObjectName.validate kind program = .ok ()) :
    (∀ (listing : String) (o : Occurrence listing.toList), o.IsRun →
        IsSymbol program.toList (upper o.text) →
        String.ofList (upper o.text) ∈ symbols listing program) ↔
      program.toList.head?.any Char.isAlpha = true := by
  have hprogram := validate_eq_ok_iff.1 hvalid
  constructor
  · intro h
    -- the listing that is one symbol
    let text := program.toList ++ ['_', 'A']
    let whole : Occurrence (String.ofList text).toList := ⟨[], text, [], by simp⟩
    have hrun : whole.IsRun := by
      refine ⟨by simp [whole, text], ?_, rfl, rfl⟩
      exact List.forall_mem_append.2
        ⟨hprogram.isBlank_eq_false, List.forall_iff_forall_mem.1 (by decide)⟩
    have hsymbol : IsSymbol program.toList (upper whole.text) :=
      ⟨['A'], by simp, List.forall_iff_forall_mem.1 (by decide), upper_append _ _⟩
    exact isAlpha_of_mem_symbols hprogram (h _ whole hrun hsymbol) (by simp [text])
  · intro hletter listing o hrun hsymbol
    exact mem_symbols_of_isRun hprogram hletter hrun
      ((isSymbol_upper_iff hprogram.isAscii).1 hsymbol).1

/-- Symbols between blanks of a program whose name holds a dot and an underscore are found. -/
theorem dotted_name_is_found_everywhere :
    ObjectName.validate .object "S.V_1" = .ok () ∧
      ∀ (listing : String) (o : Occurrence listing.toList), o.IsRun →
        IsSymbol "S.V_1".toList (upper o.text) →
        String.ofList (upper o.text) ∈ symbols listing "S.V_1" :=
  have hvalid : ObjectName.validate .object "S.V_1" = .ok () := by decide
  ⟨hvalid, (runs_are_symbols_iff hvalid).2 (by decide)⟩

/-- A symbol of a program whose name starts with a sign is not found between blanks. -/
theorem sign_led_symbol_is_missed :
    ObjectName.validate .object "$A" = .ok () ∧
      ∃ o : Occurrence "  $A_X  *YES".toList, o.IsRun ∧ IsSymbol "$A".toList (upper o.text) ∧
        String.ofList (upper o.text) ∉ symbols "  $A_X  *YES" "$A" := by
  refine ⟨by decide, ⟨"  ".toList, "$A_X".toList, "  *YES".toList, by decide⟩, ?_, ?_, ?_⟩
  · exact ⟨by decide, List.forall_iff_forall_mem.1 (by decide), by decide, by decide⟩
  · exact ⟨['X'], by decide, List.forall_iff_forall_mem.1 (by decide), by decide⟩
  · decide +kernel

end ProcedureCatalog.ExportListing
