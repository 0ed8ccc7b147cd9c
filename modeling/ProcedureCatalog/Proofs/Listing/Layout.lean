/-
# The layout of a listing

The symbols of a listing are those of its lines: no symbol runs over a line end, and beside a line
end a symbol stands as it does at an end of the text. So the order of the lines, repeated lines and
the way in which lines end do not matter.

* `scan_append_newline` : the two sides of a line feed are scanned by themselves.
* `scan_append_nonword` : a character at the end that is no word character changes nothing.
* `scan_joinWith`, `scan_eq_flatMap_lines` : a text is scanned line by line.
* `layout_does_not_matter` : the symbols of listings with the same lines.
-/
import Mathlib.Data.List.Sort
import ProcedureCatalog.Proofs.Listing.Scan
import ProcedureCatalog.Proofs.Text.Collapsed
import ProcedureCatalog.Proofs.Text.LineEnds
import ProcedureCatalog.Proofs.Text.Order

namespace ProcedureCatalog.ExportListing

open Text

/-! ## Line feeds -/

section

variable {program cs symbol : List Char} {before before' : Option Char} {c : Char}

/-- A symbol holds no line feed when the name of its program holds none. -/
theorem newline_notMem_of_spells (hprogram : '\n' ∉ program) {text : List Char}
    (h : Spells program text) : '\n' ∉ text := by
  obtain ⟨head, name, rfl, hhead, -, hall⟩ := h
  rw [List.mem_append, not_or]
  constructor
  · intro hmem
    have hfolded : fold '\n' ∈ (program ++ ['_']).map fold :=
      hhead ▸ List.mem_map_of_mem hmem
    obtain ⟨d, hd, hfold⟩ := List.mem_map.1 hfolded
    obtain rfl : d = '\n' := eq_of_fold_eq (by decide) (by decide) hfold
    rcases List.mem_append.1 hd with hd | hd
    · exact hprogram hd
    · exact absurd (List.mem_singleton.1 hd) (by decide)
  · exact fun hmem => absurd (hall _ hmem) (by decide)

/-- Of the character before it, a symbol depends on whether that is a word character. -/
theorem symbolAt?_congr (h : before.any isWord = before'.any isWord) (cs : List Char) :
    symbolAt? program before cs = symbolAt? program before' cs := by
  unfold symbolAt? isBoundary
  rw [h]

/-- So does what a scan finds. -/
theorem scan_zero_congr (h : before.any isWord = before'.any isWord) (cs : List Char) :
    scan program before 0 cs = scan program before' 0 cs := by
  cases cs with
  | nil => rfl
  | cons c cs => rw [scan, scan, symbolAt?_congr h]

/-- **No symbol runs over a line feed.** The two sides of a line feed are scanned by themselves. -/
theorem scan_append_newline (hprogram : '\n' ∉ program) (front rest : List Char) :
    scan program none 0 (front ++ '\n' :: rest) =
      scan program none 0 front ++ scan program none 0 rest := by
  rw [scan_append_separator (by decide) (fun _ => newline_notMem_of_spells hprogram) none front rest
    (Nat.zero_le _)]
  exact congrArg _ (scan_zero_congr (by decide) rest)

/-! ## The end of a text -/

/-- A symbol is found before a last character that is no word character as if the text ended
there. -/
theorem symbolAt?_append_nonword (hc : isWord c = false) (before : Option Char) (cs : List Char) :
    symbolAt? program before (cs ++ [c]) = symbolAt? program before cs := by
  refine Option.ext fun symbol => ?_
  rw [symbolAt?_eq_some_iff, symbolAt?_eq_some_iff]
  constructor
  · rintro ⟨after, hcs, hspells, hfirst, hlast⟩
    rcases List.eq_nil_or_concat after with rfl | ⟨after, d, rfl⟩
    · -- the symbol would end with the last character
      rw [List.append_nil] at hcs
      have hend := hspells.getLast?_isWord
      rw [← hcs, List.getLast?_append_of_ne_nil _ (List.cons_ne_nil _ _), List.getLast?_singleton,
        Option.any_some, hc] at hend
      exact absurd hend Bool.false_ne_true
    · rw [List.concat_eq_append, ← List.append_assoc] at hcs
      obtain ⟨rfl, hd⟩ := List.append_inj' hcs rfl
      obtain rfl := List.singleton_inj.1 hd
      rw [List.concat_eq_append, isBoundary_head?_append_cons hc] at hlast
      exact ⟨after, rfl, hspells, hfirst, hlast⟩
  · rintro ⟨after, rfl, hspells, hfirst, hlast⟩
    refine ⟨after ++ [c], List.append_assoc _ _ _, hspells, hfirst, ?_⟩
    rwa [isBoundary_head?_append_cons hc]

/-- A last character that is no word character changes nothing in what a scan finds. -/
theorem scan_append_nonword (hc : isWord c = false) (before : Option Char) {skip : Nat}
    (cs : List Char) (hskip : skip ≤ cs.length) :
    scan program before skip (cs ++ [c]) = scan program before skip cs := by
  induction cs generalizing before skip with
  | nil =>
    obtain rfl := Nat.le_zero.1 hskip
    have hnone : symbolAt? program before ([] ++ [c]) = none := by
      rw [symbolAt?_append_nonword hc]
      refine Option.eq_none_iff_forall_ne_some.2 fun symbol h => ?_
      obtain ⟨hspells, after, hnil⟩ := spells_of_symbolAt? h
      exact hspells.ne_nil (List.append_eq_nil_iff.1 hnil.symm).1
    rw [List.nil_append] at hnone ⊢
    rw [scan, scan, hnone]
    rfl
  | cons d cs ih =>
    rw [List.cons_append]
    cases skip with
    | succ skip =>
      rw [scan, scan]
      exact ih _ (Nat.le_of_succ_le_succ hskip)
    | zero =>
      rw [scan, scan, ← List.cons_append, symbolAt?_append_nonword hc]
      split
      · next symbol hsymbol =>
        -- the symbol lies before the last character, so the skip ends before it
        obtain ⟨-, after, hcs⟩ := spells_of_symbolAt? hsymbol
        have hlength := congrArg List.length hcs
        rw [List.length_cons, List.length_append] at hlength
        rw [ih _ (by omega)]
      · exact ih _ (Nat.zero_le _)

/-- A carriage return at the end of a line changes nothing in what a scan finds. -/
theorem scan_append_carriageReturn (line : List Char) :
    scan program none 0 (line ++ ['\r']) = scan program none 0 line :=
  scan_append_nonword (by decide) none line (Nat.zero_le _)

theorem scan_dropCarriageReturn (line : List Char) :
    scan program none 0 (dropCarriageReturn line) = scan program none 0 line := by
  unfold dropCarriageReturn
  split
  · next rest hrest =>
    have hline : line = rest.reverse ++ ['\r'] := by
      rw [← List.reverse_reverse line, hrest, List.reverse_cons]
    rw [hline, scan_append_carriageReturn]
  · rfl

/-! ## Lines -/

/-- What ends a line: a line feed, with or without a carriage return before it. -/
def IsLineEnd (sep : List Char) : Prop := sep = ['\n'] ∨ sep = ['\r', '\n']

/-- The two sides of a line end are scanned by themselves. -/
theorem scan_append_lineEnd (hprogram : '\n' ∉ program) {sep : List Char} (hsep : IsLineEnd sep)
    (front rest : List Char) :
    scan program none 0 (front ++ sep ++ rest) =
      scan program none 0 front ++ scan program none 0 rest := by
  rcases hsep with rfl | rfl
  · rw [List.append_assoc, List.singleton_append, scan_append_newline hprogram]
  · rw [List.append_cons front '\r', List.append_assoc (front ++ ['\r']), List.singleton_append,
      scan_append_newline hprogram, scan_append_carriageReturn]

/-- Texts with a line end between each two are scanned one by one. -/
theorem scan_joinWith (hprogram : '\n' ∉ program) {sep : List Char} (hsep : IsLineEnd sep)
    (texts : List (List Char)) :
    scan program none 0 (joinWith sep texts) = texts.flatMap (scan program none 0) := by
  induction texts with
  | nil => rfl
  | cons text texts ih =>
    cases texts with
    | nil => rw [joinWith, List.flatMap_singleton]
    | cons second texts =>
      rw [joinWith_cons_cons, scan_append_lineEnd hprogram hsep, ih]
      rfl

/-- The pieces of a text are scanned like its lines. -/
theorem flatMap_scan_linesOfPieces (pieces : List (List Char)) :
    (linesOfPieces pieces).flatMap (scan program none 0) =
      pieces.flatMap (scan program none 0) := by
  fun_induction linesOfPieces pieces with
  | case1 => rfl
  | case2 last hempty =>
    rw [List.isEmpty_iff.1 hempty]
    rfl
  | case3 => rfl
  | case4 piece pieces _ ih =>
    rw [List.flatMap_cons, List.flatMap_cons, scan_dropCarriageReturn, ih]

/-- **A text is scanned line by line.** -/
theorem scan_eq_flatMap_lines (hprogram : '\n' ∉ program) (cs : List Char) :
    scan program none 0 cs = (lines cs).flatMap (scan program none 0) := by
  have hpieces : joinWith ['\n'] (splitAtEach (· == '\n') cs) = cs :=
    joinWith_splitAtEach fun c _ hc => beq_iff_eq.1 hc
  rw [lines, flatMap_scan_linesOfPieces, ← scan_joinWith hprogram (.inl rfl), hpieces]

end

/-! ## Symbols -/

theorem pairwise_symbols (listing program : String) :
    (symbols listing program).Pairwise (· < ·) := by
  unfold symbols
  split
  · exact List.Pairwise.nil
  · exact pairwise_orderedSet _

/-- Listings in which the scan finds the same texts have the same symbols. -/
theorem symbols_congr {a b program : String}
    (h : ∀ found, found ∈ scan (trim program.toList) none 0 a.toList ↔
      found ∈ scan (trim program.toList) none 0 b.toList) :
    symbols a program = symbols b program := by
  refine List.Pairwise.eq_of_mem_iff (pairwise_symbols a program) (pairwise_symbols b program) ?_
  intro symbol
  rw [mem_symbols_iff_scan, mem_symbols_iff_scan]
  exact and_congr_right fun _ => exists_congr fun found => and_congr_left fun _ => h found

/-- **The layout of a listing does not matter.** For a program without a line feed in its name, the
symbols of two texts with a line feed between them are the union of the symbols of both. So listings
of the same lines have the same symbols, in whatever order and how often they have them, and
whichever line ends stand between them. -/
theorem layout_does_not_matter {program : String} (h : '\n' ∉ program.toList) :
    (∀ a b : String, symbols (a ++ "\n" ++ b) program =
        orderedSet (symbols a program ++ symbols b program)) ∧
      (∀ a b : String, (∀ line, line ∈ lines a.toList ↔ line ∈ lines b.toList) →
        symbols a program = symbols b program) ∧
      ∀ sep sep' : List Char, IsLineEnd sep → IsLineEnd sep' → ∀ texts texts' : List (List Char),
        (∀ text, text ∈ texts ↔ text ∈ texts') →
          symbols (.ofList (joinWith sep texts)) program =
            symbols (.ofList (joinWith sep' texts')) program := by
  have hname : '\n' ∉ trim program.toList := fun hmem => h (mem_of_mem_trim hmem)
  refine ⟨fun a b => ?_, fun a b hlines => symbols_congr fun found => ?_,
    fun sep sep' hsep hsep' texts texts' htexts => symbols_congr fun found => ?_⟩
  · refine List.Pairwise.eq_of_mem_iff (pairwise_symbols _ _) (pairwise_orderedSet _) ?_
    intro symbol
    have htext : (a ++ "\n" ++ b).toList = a.toList ++ '\n' :: b.toList := by simp
    rw [mem_orderedSet, List.mem_append, mem_symbols_iff_scan, mem_symbols_iff_scan,
      mem_symbols_iff_scan, htext, scan_append_newline hname, ← and_or_left, ← exists_or]
    refine and_congr_right fun _ => exists_congr fun found => ?_
    rw [List.mem_append, or_and_right]
  · rw [scan_eq_flatMap_lines hname, scan_eq_flatMap_lines hname b.toList, List.mem_flatMap,
      List.mem_flatMap]
    exact exists_congr fun line => and_congr_left fun _ => hlines line
  · rw [String.toList_ofList, String.toList_ofList, scan_joinWith hname hsep,
      scan_joinWith hname hsep', List.mem_flatMap, List.mem_flatMap]
    exact exists_congr fun text => and_congr_left fun _ => htexts text

/-- Two lines in another order, one of them twice and with other line ends. -/
theorem layout_does_not_matter_shuffled :
    '\n' ∉ "SPV".toList ∧
      symbols ("SPV_B" ++ "\n" ++ " Spv_A") "SPV" = ["SPV_A", "SPV_B"] ∧
      symbols " Spv_A\r\nSPV_B\n Spv_A" "SPV" = symbols "SPV_B\n Spv_A" "SPV" := by
  have hname : '\n' ∉ "SPV".toList := by decide
  obtain ⟨hunion, hlines, -⟩ := layout_does_not_matter hname
  refine ⟨hname, (hunion "SPV_B" " Spv_A").trans (by decide +kernel), hlines _ _ fun line => ?_⟩
  have hfirst : lines " Spv_A\r\nSPV_B\n Spv_A".toList =
      [" Spv_A".toList, "SPV_B".toList, " Spv_A".toList] := by decide
  have hsecond : lines "SPV_B\n Spv_A".toList = ["SPV_B".toList, " Spv_A".toList] := by decide
  rw [hfirst, hsecond]
  simp only [List.mem_cons, List.not_mem_nil, or_false]
  tauto

end ProcedureCatalog.ExportListing
