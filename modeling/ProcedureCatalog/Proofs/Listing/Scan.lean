/-
# The scan of a listing

What the scan for the symbols of a program finds, and how it passes over characters that no symbol
holds.

* `Spells` : the text spells a symbol of the program, up to case.
* `symbolAt?_eq_some_iff` : a symbol is found exactly where a text that spells one stands between
  word boundaries.
* `exists_of_mem_scan` : what the scan finds stands so in the listing.
* `scan_append_separator` : what stands behind a separator is scanned by itself.
* `mem_scan_behind_separator` : so a symbol behind one is found.
-/
import ProcedureCatalog.ExportListing
import ProcedureCatalog.Proofs.Text.Occurrence
import ProcedureCatalog.Proofs.Text.Trimming

namespace ProcedureCatalog.ExportListing

open Text

/-! ## Spelling -/

/-- Up to case the text is the name of the program, an underscore and at least one letter or
digit. -/
def Spells (program text : List Char) : Prop :=
  ∃ head name, text = head ++ name ∧ head.map fold = (program ++ ['_']).map fold ∧
    name ≠ [] ∧ ∀ c ∈ name, isFoldedAlphanum c = true

namespace Spells

variable {program text : List Char}

theorem length_le (h : Spells program text) : program.length + 2 ≤ text.length := by
  obtain ⟨head, name, rfl, hhead, hname, -⟩ := h
  have hlength := congrArg List.length hhead
  simp only [List.length_map, List.length_append, List.length_singleton] at hlength
  have := List.length_pos_of_ne_nil hname
  rw [List.length_append]
  omega

theorem ne_nil (h : Spells program text) : text ≠ [] := by
  have := h.length_le
  rintro rfl
  simp at this

/-- A symbol ends with a word character. -/
theorem getLast?_isWord (h : Spells program text) : text.getLast?.any isWord = true := by
  obtain ⟨head, name, rfl, -, hname, hall⟩ := h
  rw [List.getLast?_append_of_ne_nil _ hname, List.getLast?_eq_some_getLast hname]
  exact isWord_of_isFoldedAlphanum (hall _ (List.getLast_mem hname))

/-- A symbol starts like the name of its program. -/
theorem exists_head (h : Spells program text) {c : Char} (hc : c ∈ program.head?) :
    ∃ d ∈ text.head?, fold d = fold c := by
  obtain ⟨head, name, rfl, hhead, -⟩ := h
  cases program with
  | nil => simp at hc
  | cons p program =>
    obtain rfl := Option.some.inj hc
    cases head with
    | nil => simp at hhead
    | cons d head => exact ⟨d, rfl, (List.cons.inj hhead).1⟩

end Spells

/-! ## One symbol -/

/-- A symbol is found exactly where a text that spells one stands between word boundaries. -/
theorem symbolAt?_eq_some_iff {program cs symbol : List Char} {before : Option Char} :
    symbolAt? program before cs = some symbol ↔
      ∃ after, cs = symbol ++ after ∧ Spells program symbol ∧
        isBoundary before symbol.head? = true ∧ isBoundary symbol.getLast? after.head? = true := by
  constructor
  · intro h
    unfold symbolAt? at h
    split at h
    · simp at h
    · next rest hrest =>
      obtain ⟨read, rfl, hread⟩ := dropFolded?_eq_some_iff.1 hrest
      have hlength : read.length = program.length + 1 := by
        simpa using congrArg List.length hread
      have hreadne : read ≠ [] := List.ne_nil_of_length_pos (by omega)
      dsimp only at h
      split at h
      · simp at h
      · next hbounds =>
        simp only [Bool.or_eq_true, Bool.not_eq_true', not_or, Bool.not_eq_false,
          List.isEmpty_iff] at hbounds
        obtain ⟨⟨hname, hfirst⟩, hlast⟩ := hbounds
        have hsplit : rest.takeWhile isFoldedAlphanum ++ rest.dropWhile isFoldedAlphanum = rest :=
          List.takeWhile_append_dropWhile
        have hall : ∀ c ∈ rest.takeWhile isFoldedAlphanum, isFoldedAlphanum c = true :=
          fun c hc => List.mem_takeWhile_imp hc
        generalize rest.takeWhile isFoldedAlphanum = name at h hname hlast hsplit hall
        generalize rest.dropWhile isFoldedAlphanum = after at hlast hsplit
        subst hsplit
        have hsymbol : read ++ name = symbol := by
          rw [← Option.some.inj h, ← List.append_assoc]
          exact (List.take_left' (by rw [List.length_append, hlength])).symm
        subst hsymbol
        refine ⟨after, (List.append_assoc _ _ _).symm, ⟨read, name, rfl, hread, hname, hall⟩,
          ?_, ?_⟩
        · rw [List.head?_append_of_ne_nil _ hreadne]
          rwa [List.head?_append_of_ne_nil _ hreadne] at hfirst
        · rwa [List.getLast?_append_of_ne_nil _ hname]
  · rintro ⟨after, rfl, hspells, hfirst, hlast⟩
    have hafter : after.head?.any isWord = false := by
      rwa [isBoundary_of_isWord hspells.getLast?_isWord, Bool.not_eq_true'] at hlast
    have hstop : ∀ c ∈ after.head?, isFoldedAlphanum c = false := by
      intro c hc
      rw [Option.mem_def.1 hc] at hafter
      by_contra hfolded
      have hword := isWord_of_isFoldedAlphanum (Bool.not_eq_false _ ▸ hfolded)
      rw [Option.any_some, hword] at hafter
      exact Bool.noConfusion hafter
    obtain ⟨head, name, rfl, hhead, hname, hall⟩ := hspells
    have hread : dropFolded? (program ++ ['_']) (head ++ name ++ after) = some (name ++ after) :=
      dropFolded?_eq_some_iff.2 ⟨head, List.append_assoc _ _ _, hhead⟩
    have hlength : head.length = program.length + 1 := by
      simpa using congrArg List.length hhead
    have hheadne : head ≠ [] := List.ne_nil_of_length_pos (by omega)
    rw [List.getLast?_append_of_ne_nil _ hname] at hlast
    rw [List.head?_append_of_ne_nil _ hheadne] at hfirst
    have htext : (head ++ name ++ after).head? = head.head? := by
      rw [List.append_assoc, List.head?_append_of_ne_nil _ hheadne]
    unfold symbolAt?
    rw [hread]
    dsimp only
    rw [takeWhile_append_eq hall hstop, dropWhile_append_eq hall hstop, htext, hfirst, hlast,
      List.isEmpty_eq_false_iff.2 hname, ← hlength]
    exact congrArg some (List.take_left' (List.length_append ..))

/-- A symbol is a part of what it was found in. -/
theorem spells_of_symbolAt? {program cs symbol : List Char} {before : Option Char}
    (h : symbolAt? program before cs = some symbol) :
    Spells program symbol ∧ ∃ after, cs = symbol ++ after := by
  obtain ⟨after, hcs, hspells, -⟩ := symbolAt?_eq_some_iff.1 h
  exact ⟨hspells, after, hcs⟩

/-! ## The scan -/

/-- What the scan finds spells a symbol and stands between word boundaries. -/
theorem exists_of_mem_scan {program cs symbol : List Char} {before : Option Char} {skip : Nat}
    (h : symbol ∈ scan program before skip cs) :
    ∃ front after, cs = front ++ (symbol ++ after) ∧ Spells program symbol ∧
      isBoundary (front.getLast?.or before) symbol.head? = true ∧
      isBoundary symbol.getLast? after.head? = true := by
  induction cs generalizing before skip with
  | nil => simp [scan] at h
  | cons c cs ih =>
    -- what is found further on has this character in front of it
    have hlater : ∀ {skip : Nat}, symbol ∈ scan program (some c) skip cs →
        ∃ front after, c :: cs = front ++ (symbol ++ after) ∧ Spells program symbol ∧
          isBoundary (front.getLast?.or before) symbol.head? = true ∧
          isBoundary symbol.getLast? after.head? = true := by
      intro skip hmem
      obtain ⟨front, after, rfl, hspells, hfirst, hlast⟩ := ih hmem
      exact ⟨c :: front, after, rfl, hspells, by rwa [getLast?_cons_or], hlast⟩
    cases skip with
    | succ skip => exact hlater h
    | zero =>
      rw [scan] at h
      split at h
      · next found hfound =>
        rcases List.mem_cons.1 h with rfl | h
        · obtain ⟨after, hcs, hspells, hfirst, hlast⟩ := symbolAt?_eq_some_iff.1 hfound
          exact ⟨[], after, hcs, hspells, hfirst, hlast⟩
        · exact hlater h
      · exact hlater h

/-- A symbol at the start is found. -/
theorem mem_scan_of_symbolAt? {program cs symbol : List Char} {before : Option Char}
    (h : symbolAt? program before cs = some symbol) : symbol ∈ scan program before 0 cs := by
  cases cs with
  | nil =>
    obtain ⟨hspells, after, hcs⟩ := spells_of_symbolAt? h
    exact absurd (List.append_eq_nil_iff.1 hcs.symm).1 hspells.ne_nil
  | cons c cs =>
    rw [scan, h]
    exact List.mem_cons_self

/-! ## Separators -/

section

variable {program : List Char} {sep : Char}

/-- A symbol before a separator is found as if the text ended there. -/
theorem symbolAt?_append_separator (hword : isWord sep = false)
    (hsep : ∀ text, Spells program text → sep ∉ text) (before : Option Char)
    (cs rest : List Char) :
    symbolAt? program before (cs ++ sep :: rest) = symbolAt? program before cs := by
  refine Option.ext fun symbol => ?_
  rw [symbolAt?_eq_some_iff, symbolAt?_eq_some_iff]
  constructor
  · rintro ⟨after, hcs, hspells, hfirst, hlast⟩
    obtain ⟨after', rfl, rfl⟩ := exists_of_append_separator hcs (hsep symbol hspells)
    rw [isBoundary_head?_append_cons hword] at hlast
    exact ⟨after', rfl, hspells, hfirst, hlast⟩
  · rintro ⟨after, rfl, hspells, hfirst, hlast⟩
    refine ⟨after ++ sep :: rest, List.append_assoc _ _ _, hspells, hfirst, ?_⟩
    rwa [isBoundary_head?_append_cons hword]

/-- No symbol starts at a separator. -/
theorem symbolAt?_separator (hsep : ∀ text, Spells program text → sep ∉ text)
    (before : Option Char) (rest : List Char) : symbolAt? program before (sep :: rest) = none := by
  refine Option.eq_none_iff_forall_ne_some.2 fun symbol h => ?_
  obtain ⟨hspells, after, hcs⟩ := spells_of_symbolAt? h
  obtain ⟨c, symbol, rfl⟩ := List.exists_cons_of_ne_nil hspells.ne_nil
  obtain ⟨rfl, -⟩ := List.cons.inj hcs
  exact hsep _ hspells List.mem_cons_self

/-- What stands behind a separator is scanned by itself. -/
theorem scan_append_separator (hword : isWord sep = false)
    (hsep : ∀ text, Spells program text → sep ∉ text) (before : Option Char) {skip : Nat}
    (front rest : List Char) (hskip : skip ≤ front.length) :
    scan program before skip (front ++ sep :: rest) =
      scan program before skip front ++ scan program (some sep) 0 rest := by
  induction front generalizing before skip with
  | nil =>
    obtain rfl := Nat.le_zero.1 hskip
    simp only [scan, symbolAt?_separator hsep, List.nil_append]
  | cons c front ih =>
    rw [List.cons_append]
    cases skip with
    | succ skip =>
      rw [scan, scan]
      exact ih _ (Nat.le_of_succ_le_succ hskip)
    | zero =>
      rw [scan, scan, ← List.cons_append, symbolAt?_append_separator hword hsep]
      split
      · next symbol hsymbol =>
        -- the symbol lies before the separator, so the skip ends before it
        obtain ⟨-, after, hcs⟩ := spells_of_symbolAt? hsymbol
        have hlength := congrArg List.length hcs
        rw [List.length_cons, List.length_append] at hlength
        rw [ih _ (by omega), List.cons_append]
      · exact ih _ (Nat.zero_le _)

/-- A symbol at the start of the text or right behind a separator is found. -/
theorem mem_scan_behind_separator {front cs symbol : List Char}
    (hfront : ∀ sep ∈ front.getLast?, isWord sep = false ∧
      ∀ text, Spells program text → sep ∉ text)
    (h : symbolAt? program front.getLast? cs = some symbol) :
    symbol ∈ scan program none 0 (front ++ cs) := by
  rcases List.eq_nil_or_concat front with rfl | ⟨start, sep, rfl⟩
  · exact mem_scan_of_symbolAt? h
  · rw [List.concat_eq_append, List.getLast?_concat] at h hfront
    obtain ⟨hword, hsep⟩ := hfront sep rfl
    rw [List.concat_eq_append, List.append_assoc, List.singleton_append,
      scan_append_separator hword hsep none start cs (Nat.zero_le _)]
    exact List.mem_append_right _ (mem_scan_of_symbolAt? h)

end

/-! ## Symbols -/

/-- The symbols of a listing are what the scan finds, in capitals. -/
theorem mem_symbols_iff_scan {listing program symbol : String} :
    symbol ∈ symbols listing program ↔ trim program.toList ≠ [] ∧
      ∃ found ∈ scan (trim program.toList) none 0 listing.toList,
        symbol = .ofList (upper found) := by
  unfold symbols
  cases trim program.toList with
  | nil => simp
  | cons c cs =>
    rw [mem_orderedSet, List.mem_map, and_iff_right (List.cons_ne_nil c cs)]
    exact exists_congr fun found => and_congr_right fun _ => eq_comm

end ProcedureCatalog.ExportListing
