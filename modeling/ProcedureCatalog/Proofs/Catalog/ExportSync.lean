/-
# Synchronising the exports of a service program

A synchronisation replaces the procedures of a service program as a set: what is wanted and there
keeps its row, what is wanted and not there gets an empty one, everything else goes.

* `wantedNames` : the set of names that some symbols ask for.
* `row?_sync`, `program?_sync` : what is there for a name after a synchronisation.
* `report_sync` : the report counts the differences of the two sets of names.
* `isSynchronised_sync` : what a synchronisation makes of a catalog.
* `sync_replaces_exports` : the same for a database, with what a second synchronisation does.
-/
import Mathlib.Data.Finset.Sort
import ProcedureCatalog.Proofs.Catalog.Independence
import ProcedureCatalog.Proofs.Catalog.Lookup
import ProcedureCatalog.Proofs.Text.Order

namespace ProcedureCatalog

/-! ## Wanted names -/

/-- The names that some symbols ask for: the trimmed ones, but not the empty name. -/
def wantedNames (symbols : List String) : Finset String :=
  (symbols.map Text.trimmed).toFinset.erase ""

namespace Catalog

variable {c : Catalog} {library program name l q now : String} {symbols : List String}

theorem mem_exported : name ∈ exported symbols ↔ name ∈ wantedNames symbols := by
  simp only [exported, wantedNames, Text.mem_orderedSet, Text.trimmedNonempty, List.mem_filter,
    Finset.mem_erase, List.mem_toFinset, bne_iff_ne]
  exact and_comm

/-- A rising list of names is the set of its members in order. -/
theorem eq_sort_of_pairwise {names : List String} {wanted : Finset String}
    (h : names.Pairwise (· < ·)) (hmem : ∀ name, name ∈ names ↔ name ∈ wanted) :
    names = wanted.sort (· ≤ ·) := by
  refine List.Pairwise.eq_of_mem_iff h (Finset.sortedLT_sort wanted).pairwise fun name => ?_
  rw [hmem, Finset.mem_sort]

theorem exported_eq : exported symbols = (wantedNames symbols).sort (· ≤ ·) :=
  eq_sort_of_pairwise (Text.pairwise_orderedSet _) fun _ => mem_exported

/-- New are the wanted names without a row. -/
theorem mem_newNames : name ∈ c.newNames library program symbols ↔
    name ∈ wantedNames symbols ∧ c.row? library program name = none := by
  rw [newNames, List.mem_filter, mem_exported, row?_eq_none_iff]
  simp

/-- Nothing is new exactly when all wanted names are there. -/
theorem newNames_eq_nil_iff : c.newNames library program symbols = [] ↔
    wantedNames symbols ⊆ (c.procedureNames library program).toFinset := by
  rw [List.eq_nil_iff_forall_not_mem]
  refine forall_congr' fun name => ?_
  rw [mem_newNames, row?_eq_none_iff, List.mem_toFinset]
  tauto

/-! ## What is there afterwards -/

/-- The procedure of a name after a synchronisation: of the service program, a wanted one as it was or
new, and no other. -/
theorem row?_sync : (c.sync l q symbols now).1.row? library program name =
    if library = l ∧ program = q then
      if name ∈ wantedNames symbols then some ((c.row? l q name).getD (.new l q name now)) else none
    else c.row? library program name := by
  have hrows : (c.sync l q symbols now).1.row? library program name =
      ((c.grown l q now symbols).keepOnly l q (exported symbols)).row? library program name := by
    unfold row?
    rw [procedures_sync]
    rfl
  have htouched : (c.touchProgram l q now).row? library program name =
      c.row? library program name := by
    unfold row?
    rw [procedures_touchProgram]
  rw [hrows, row?_keepOnly, grown, row?_foldl_addProcedure, htouched]
  simp only [mem_exported, mem_newNames]
  by_cases hown : library = l ∧ program = q
  · obtain ⟨rfl, rfl⟩ := hown
    by_cases hwanted : name ∈ wantedNames symbols
    · cases hrow : c.row? library program name with
      | some r => simp [hwanted]
      | none => simp [hwanted]
    · simp [hwanted]
  · have hnone : ∀ P : Prop, ¬ (library = l ∧ program = q ∧ P) := fun P h => hown ⟨h.1, h.2.1⟩
    rw [if_neg (hnone _), if_neg (hnone _), if_neg hown]

/-- The service program of a name after a synchronisation: the synchronised one is there and stamped,
without its checksum when something is new. -/
theorem program?_sync : (c.sync l q symbols now).1.program? library program =
    if library = l ∧ program = q then
      let old := (c.program? l q).getD (.new l q)
      some { old with
        checksum :=
          if wantedNames symbols ⊆ (c.procedureNames l q).toFinset then old.checksum else none
        updatedAt := some now }
    else c.program? library program := by
  have hkept : ((c.grown l q now symbols).keepOnly l q (exported symbols)).program?
      library program = (c.touchProgram l q now).program? library program := by
    unfold program?
    rw [programs_keepOnly, programs_grown]
  dsimp only
  rw [sync_eq]
  by_cases hnew : c.newNames l q symbols = []
  · rw [if_pos (List.isEmpty_iff.2 hnew), hkept, program?_touchProgram,
      if_pos (newNames_eq_nil_iff.1 hnew)]
  · rw [if_neg fun hempty => hnew (List.isEmpty_iff.1 hempty), program?_setChecksum, hkept,
      program?_touchProgram, if_neg fun hsub => hnew (newNames_eq_nil_iff.2 hsub)]
    split <;> rfl

theorem isOrdered_sync (h : c.IsOrdered) : (c.sync library program symbols now).1.IsOrdered := by
  refine ⟨sorted_sync h.programs symbols, ?_⟩
  rw [procedures_sync]
  exact (h.grown symbols).procedures.filter _

/-- The names of the procedures after a synchronisation are the wanted ones in order. -/
theorem procedureNames_sync (h : c.IsOrdered) :
    (c.sync library program symbols now).1.procedureNames library program =
      (wantedNames symbols).sort (· ≤ ·) := by
  refine eq_sort_of_pairwise ((isOrdered_sync h).pairwise_procedureNames library program) ?_
  intro name
  rw [← isSome_row?_iff, row?_sync, if_pos ⟨rfl, rfl⟩]
  split
  · next hwanted => simpa using hwanted
  · next hwanted => simpa using hwanted

/-! ## The report -/

/-- Counting the members of one list that are not in another counts the difference of the sets. -/
theorem length_filter_notMem {names others : List String} (h : names.Nodup) :
    (names.filter (!others.contains ·)).length = (names.toFinset \ others.toFinset).card := by
  rw [← List.toFinset_card_of_nodup (h.filter _), List.toFinset_filter, Finset.sdiff_eq_filter]
  simp

/-- The report of a synchronisation counts the wanted names, those that are not there yet, and those
that are there and not wanted. -/
theorem report_sync (h : c.IsOrdered) :
    let wanted := wantedNames symbols
    let existing := (c.procedureNames library program).toFinset
    (c.sync library program symbols now).2 =
      ⟨wanted.card, (wanted \ existing).card, (existing \ wanted).card⟩ := by
  intro wanted existing
  have hset : (exported symbols).toFinset = wanted := by
    rw [exported_eq, Finset.sort_toFinset]
  have hnodup : (exported symbols).Nodup := (Text.pairwise_orderedSet _).imp ne_of_lt
  have htotal : (exported symbols).length = wanted.card := by
    rw [← hset, List.toFinset_card_of_nodup hnodup]
  have hadded : ((exported symbols).filter
      (!(c.procedureNames library program).contains ·)).length = (wanted \ existing).card := by
    rw [length_filter_notMem hnodup, hset]
  have hremoved : ((c.procedureNames library program).filter
      (!(exported symbols).contains ·)).length = (existing \ wanted).card := by
    rw [length_filter_notMem (h.nodup_procedureNames library program), hset]
  exact congr (congr (congrArg SyncReport.mk htotal) hadded) hremoved

/-! ## Synchronised catalogs -/

/-- The catalog `after` is `before` with the procedures of one service program made those of the wanted
names, at the time `now`. -/
structure IsSynchronised (before after : Catalog) (library program now : String)
    (wanted : Finset String) : Prop where
  /-- The names are the wanted ones in order. -/
  names_eq : after.procedureNames library program = wanted.sort (· ≤ ·)
  /-- That order is the order of their bytes. -/
  bytes_rise : (after.procedureNames library program).Pairwise fun a b =>
    Text.encodeUtf8 a.toList < Text.encodeUtf8 b.toList
  /-- What was there and is wanted keeps its row. -/
  kept : ∀ name ∈ wanted, ∀ r, before.row? library program name = some r →
    after.row? library program name = some r
  /-- What was not there and is wanted is undescribed. -/
  added : ∀ name ∈ wanted, before.row? library program name = none →
    after.row? library program name = some (.new library program name now)
  /-- The service program is there. It keeps its notes and its source file, and its checksum when all
  wanted names were there. -/
  program_eq :
    let old := (before.program? library program).getD (.new library program)
    after.program? library program = some { old with
      checksum := if wanted ⊆ (before.procedureNames library program).toFinset then old.checksum
        else none
      updatedAt := some now }
  /-- All rows of the other service programs are as before. -/
  others : ∀ l q, ¬ (l = library ∧ q = program) → after.part l q = before.part l q

/-- A synchronisation makes a catalog synchronised. -/
theorem isSynchronised_sync (h : c.IsOrdered) :
    c.IsSynchronised (c.sync library program symbols now).1 library program now
      (wantedNames symbols) where
  names_eq := procedureNames_sync h
  bytes_rise := ((isOrdered_sync h).pairwise_procedureNames library program).imp
    Text.encodeUtf8_lt_iff.2
  kept := by
    intro name hname r hr
    rw [row?_sync, if_pos ⟨rfl, rfl⟩, if_pos hname, hr, Option.getD_some]
  added := by
    intro name hname hr
    rw [row?_sync, if_pos ⟨rfl, rfl⟩, if_pos hname, hr, Option.getD_none]
  program_eq := by
    intro old
    rw [program?_sync, if_pos ⟨rfl, rfl⟩]
  others := fun l q hother => part_sync_of_other hother symbols

/-- Synchronising again with the same symbols reports no difference. -/
theorem report_sync_sync (h : c.IsOrdered) (later : String) :
    ((c.sync library program symbols now).1.sync library program symbols later).2 =
      ⟨(wantedNames symbols).card, 0, 0⟩ := by
  rw [report_sync (isOrdered_sync h), procedureNames_sync h, Finset.sort_toFinset,
    Finset.sdiff_self, Finset.card_empty]

/-- Synchronising with nothing to add or remove changes stamps only. -/
theorem stampAll_sync_of_same (hthere : (c.program? l q).isSome = true)
    (hnew : c.newNames l q symbols = []) (hremoved : (c.sync l q symbols now).2.removed = 0)
    (stamp : String) : (c.sync l q symbols now).1.stampAll stamp = c.stampAll stamp := by
  obtain ⟨old, hold⟩ := Option.isSome_iff_exists.1 hthere
  have hprograms : (c.sync l q symbols now).1.programs =
      Table.update ServiceProgram.key [l, q] (fun p => { p with updatedAt := some now })
        c.programs := by
    rw [sync_eq, if_pos (List.isEmpty_iff.2 hnew), programs_keepOnly, programs_grown, touchProgram,
      hold]
    rfl
  refine congrArg₂ Catalog.mk ?_ (congrArg _ (procedures_sync_of_same hnew hremoved))
  rw [hprograms, Table.update, List.map_map]
  refine List.map_congr_left fun p _ => ?_
  -- the touched service program differs in the stamp that is overwritten
  rw [Function.comp_apply]
  split <;> rfl

/-- Synchronising again with the same symbols changes stamps only. -/
theorem stampAll_sync_sync (h : c.IsOrdered) (later stamp : String) :
    ((c.sync library program symbols now).1.sync library program symbols later).1.stampAll stamp =
      (c.sync library program symbols now).1.stampAll stamp := by
  refine stampAll_sync_of_same ?_ ?_ ?_ stamp
  · rw [program?_sync, if_pos ⟨rfl, rfl⟩]
    rfl
  · rw [newNames_eq_nil_iff, procedureNames_sync h, Finset.sort_toFinset]
  · rw [report_sync_sync h]

end Catalog

/-! ## In a database -/

/-- Validates the names of a service program, that of its library first. -/
def ObjectName.validateProgram (library program : String) : Except NameError Unit := do
  validate .library library
  validate .object program

/-- A synchronisation is refused for the first of its names that is invalid, or it acts on the
rows. -/
theorem Change.act_sync_eq (library program : String) (symbols : List String) (now : String)
    (c : Catalog) :
    (sync library program symbols).act now c =
      match ObjectName.validateProgram library program with
      | .error e => .error (.invalidName e)
      | .ok _ => .ok (Prod.map id .synced (c.sync library program symbols now)) := by
  simp only [act, ObjectName.validateProgram]
  cases ObjectName.validate .library library with
  | error e => rfl
  | ok _ =>
    cases ObjectName.validate .object program with
    | error e => rfl
    | ok _ => rfl

namespace Database

variable {db : Database} {p : TablePrefix} {c : Catalog}

/-- **A synchronisation replaces the exports of a service program.** With an invalid name it fails and
leaves the database. With valid names it leaves a catalog in which the service program has the wanted
names, what stays is as it was and the other service programs are untouched, and it reports the sizes
of the differences. Repeated at any time, it reports no difference and changes stamps only. -/
theorem sync_replaces_exports (hdb : db.IsOrdered p) (hc : ∀ first, db.catalog p first = .ok c)
    (library program : String) (symbols : List String) (now : String) :
    let wanted := wantedNames symbols
    let existing := (c.procedureNames library program).toFinset
    let sync := Change.sync library program symbols
    (∀ e, ObjectName.validateProgram library program = .error e →
        db.respond p now sync = (db, .error (.invalidName e))) ∧
      (ObjectName.validateProgram library program = .ok () → ∃ db' c',
        db.respond p now sync = (db', .ok (.synced
          ⟨wanted.card, (wanted \ existing).card, (existing \ wanted).card⟩)) ∧
        (∀ first, db'.catalog p first = .ok c') ∧
        c.IsSynchronised c' library program now wanted ∧
        ∀ later, ∃ db'', db'.respond p later sync = (db'', .ok (.synced ⟨wanted.card, 0, 0⟩)) ∧
          ∀ stamp, db''.stamped p stamp = db'.stamped p stamp) := by
  intro wanted existing sync
  have hordered : c.IsOrdered := hdb .programs c (hc .programs)
  refine ⟨fun e he => ?_, fun hvalid => ?_⟩
  · unfold respond
    rw [ask_of_catalog hc, Change.act_sync_eq, he]
    rfl
  · have hact : ∀ (now : String) (d : Catalog), d.respond now sync =
        ((d.sync library program symbols now).1,
          .ok (.synced (d.sync library program symbols now).2)) := by
      intro now d
      unfold Catalog.respond
      rw [Change.act_sync_eq, hvalid]
      rfl
    obtain ⟨hanswer, hc', hstore⟩ := respond_eq_respond hc now sync
    rw [hact] at hanswer hc'
    refine ⟨_, _, Prod.ext rfl (hanswer.trans ?_), hc', Catalog.isSynchronised_sync hordered, ?_⟩
    · rw [Catalog.report_sync hordered]
    · intro later
      obtain ⟨hanswer', hc'', hstore'⟩ := respond_eq_respond hc' later sync
      rw [hact] at hanswer' hc''
      refine ⟨_, Prod.ext rfl (hanswer'.trans ?_), fun stamp => ?_⟩
      · rw [Catalog.report_sync_sync hordered]
      · rw [stamped_of_catalog hc'', stamped_of_catalog hc', hstore',
          Catalog.stampAll_sync_sync hordered]

/-- One of two exports stays with its description, one goes and one comes, from symbols with a blank,
an empty and a repeated one. -/
theorem sync_replaces_one_of_two :
    let db := empty.run [⟨.standard, .up, ""⟩,
      ⟨.standard, .change (.sync "AXA" "SPV" ["A_X", "B_X"]), "1"⟩,
      ⟨.standard, .change (.setDescription "AXA" "SPV" "B_X" "b"), "2"⟩]
    ∃ db' c', db.respond .standard "3" (.sync "AXA" "SPV" [" B_X ", "C_X", "", "C_X"]) =
        (db', .ok (.synced ⟨2, 1, 1⟩)) ∧
      (∀ first, db'.catalog .standard first = .ok c') ∧
      c'.procedureNames "AXA" "SPV" = ["B_X", "C_X"] ∧
      c'.row? "AXA" "SPV" "B_X" = some ⟨"AXA", "SPV", "B_X", some "b", some "manual", "2"⟩ := by
  intro db
  have hc : ∀ first, db.catalog .standard first =
      .ok ⟨[{ ServiceProgram.new "AXA" "SPV" with updatedAt := some "1" }],
        [⟨"AXA", "SPV", "A_X", none, none, "1"⟩,
          ⟨"AXA", "SPV", "B_X", some "b", some "manual", "2"⟩]⟩ := by
    intro first
    cases first <;> decide +kernel
  have hsync := sync_replaces_exports (isOrdered_run _ _) hc "AXA" "SPV"
    [" B_X ", "C_X", "", "C_X"] "3"
  obtain ⟨db', c', hanswer, hc', hsynchronised, -⟩ := hsync.2 (by decide +kernel)
  have hwanted : wantedNames [" B_X ", "C_X", "", "C_X"] = {"B_X", "C_X"} := by decide +kernel
  have hnames : ["B_X", "C_X"] = ({"B_X", "C_X"} : Finset String).sort (· ≤ ·) :=
    Catalog.eq_sort_of_pairwise (by decide) (by simp)
  rw [hwanted] at hanswer hsynchronised
  refine ⟨db', c', hanswer.trans (congrArg (Prod.mk db') ?_), hc',
    hsynchronised.names_eq.trans hnames.symm, ?_⟩
  · decide +kernel
  · exact hsynchronised.kept "B_X" (by decide) _ (by decide +kernel)

end Database

end ProcedureCatalog
