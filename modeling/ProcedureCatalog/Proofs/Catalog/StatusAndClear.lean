/-
# Status and clear

Every statement finds the tables of a catalog whatever the case of their letters. Status and clear
first ask whether the table of procedures is there under its exact name, and so they miss tables that
were created under another spelling of the prefix.

* `catalog_run_cases` : what a run leaves for a prefix, and what status and clear see of it.
* `status_and_clear_iff` : exactly when they speak about the tables that the queries find.
* `other_spelling_is_missed` : tables that are listed, not reported and not cleared.
-/
import Mathlib.Data.List.Pairwise
import ProcedureCatalog.Proofs.Catalog.CompleteSets
import ProcedureCatalog.Proofs.Catalog.Integrity

namespace ProcedureCatalog

namespace Database

variable {sets : List TableSet} {p : TablePrefix}

/-! ## Spellings -/

/-- The tables of the catalog are there, but were created under another spelling of its prefix. -/
def isRespelled (db : Database) (p : TablePrefix) : Bool :=
  (db.procedures.find? (isNamed p.procedureTable)).any (·.name != p.procedureTable)

/-- Tables are respelled when their set is. -/
theorem isRespelled_ofSets : (ofSets sets).isRespelled p =
    (sets.find? (TableSet.isOf p)).any (·.tables.procedureTable != p.procedureTable) := by
  simp only [isRespelled, ofSets, List.find?_map, Function.comp_def, isNamed_procedureTable_eq,
    Option.any_map]

/-- No two sets are of one prefix. -/
theorem eq_of_isOf (hapart : sets.Pairwise TableSet.IsApart) {s s' : TableSet} (hs : s ∈ sets)
    (hs' : s' ∈ sets) (hof : s.isOf p = true) (hof' : s'.isOf p = true) : s = s' := by
  by_contra hne
  have hsymm : Std.Symm TableSet.IsApart := ⟨fun a b hab => (sameName_comm _ _).trans hab⟩
  have hdiffer : s.IsApart s' := hapart.forall hs hs' hne
  have hsame : sameName s.tables.text s'.tables.text = true :=
    sameName_trans hof ((sameName_comm _ _).trans hof')
  exact Bool.false_ne_true (hdiffer.symm.trans hsame)

/-- The exact name of a table of procedures is that of a set of the prefix. -/
theorem tablesExist_ofSets (hapart : sets.Pairwise TableSet.IsApart) :
    (ofSets sets).tablesExist p =
      (sets.find? (TableSet.isOf p)).any (·.tables.procedureTable == p.procedureTable) := by
  have hexact : ∀ s : TableSet, s.tables.procedureTable = p.procedureTable → s.isOf p = true :=
    fun s hname => (s.tables.sameName_procedureTable p).symm.trans (sameName_iff.2 (by rw [hname]))
  simp only [tablesExist, ofSets, List.any_map, Function.comp_def]
  cases hfind : sets.find? (TableSet.isOf p) with
  | none =>
    refine List.any_eq_false.2 fun s hs hname => ?_
    exact List.find?_eq_none.1 hfind s hs (hexact s (by simpa using hname))
  | some s =>
    have hs := List.mem_of_find?_eq_some hfind
    rw [Bool.eq_iff_iff, List.any_eq_true, Option.any_some]
    constructor
    · rintro ⟨s', hs', hname⟩
      obtain rfl := eq_of_isOf hapart hs' hs (hexact s' (by simpa using hname))
        (List.find?_some hfind)
      exact hname
    · intro hname
      exact ⟨s, hs, hname⟩

/-- After a run, a prefix has no catalog, or it has one in which each procedure belongs to a service
program that is there. The tables exist under their exact names unless they are respelled. -/
theorem catalog_run_cases (steps : List Step) (p : TablePrefix) :
    ((∀ first c, (empty.run steps).catalog p first ≠ .ok c) ∧
        (empty.run steps).tablesExist p = false ∧ (empty.run steps).isRespelled p = false) ∨
      ∃ c, (∀ first, (empty.run steps).catalog p first = .ok c) ∧ c.IsOwned ∧
        (empty.run steps).tablesExist p = !(empty.run steps).isRespelled p := by
  obtain ⟨sets, hsets, hapart, hrows⟩ := isMadeOfSets_run Catalog.isOwned_empty
    (fun _ _ _ _ hc' h => Change.isOwned_onCatalog h hc') steps
  rw [hsets, tablesExist_ofSets hapart, isRespelled_ofSets]
  cases hfind : sets.find? (TableSet.isOf p) with
  | none =>
    refine .inl ⟨fun first c hc => ?_, rfl, rfl⟩
    obtain ⟨-, s, hs, -⟩ := exists_of_catalog_ofSets hc
    rw [hfind] at hs
    simp at hs
  | some s =>
    obtain ⟨hreadable, howned⟩ := hrows s (List.mem_of_find?_eq_some hfind)
    have hof : s.isOf p = true := List.find?_some hfind
    have hr : p.isReadable = true := (TablePrefix.isReadable_congr hof).symm.trans hreadable
    refine .inr ⟨s.rows, fun first => catalog_ofSets hr hfind, howned, ?_⟩
    simp [bne]

/-! ## What status and clear are to say -/

/-- Status says that the tables exist exactly when the catalog can be listed. -/
def StatusAgrees (db : Database) (p : TablePrefix) : Prop :=
  ∃ counts, db.status p = .ok counts ∧
    (counts.tablesExist = true ↔ ∃ listed, db.summaries p = .ok listed)

/-- Clearing succeeds, and after it nothing is listed and nothing is found. -/
def ClearEmpties (db : Database) (p : TablePrefix) : Prop :=
  ∃ db' removed, db.clear p = .ok (db', removed) ∧
    (∀ listed, db'.summaries p = .ok listed → listed = []) ∧
    ∀ text found, db'.search p text = .ok found → found = []

variable {db : Database} {c : Catalog}

/-- The service programs of a catalog that is there can be listed. -/
theorem summaries_eq_ok (hc : ∀ first, db.catalog p first = .ok c) :
    db.summaries p = .ok c.summaries := by
  unfold summaries read
  rw [hc]
  rfl

/-- Without a catalog nothing can be listed. -/
theorem summaries_ne_ok (hnone : ∀ first c, db.catalog p first ≠ .ok c)
    (listed : List ProgramSummary) : db.summaries p ≠ .ok listed := by
  intro h
  obtain ⟨c, hc, -⟩ := exists_of_bind_eq_ok h
  exact hnone _ c hc

/-- Without a catalog nothing can be found. -/
theorem search_ne_ok (hnone : ∀ first c, db.catalog p first ≠ .ok c) (text : String)
    (found : List ProcedureRecord) : db.search p text ≠ .ok found := by
  intro h
  obtain ⟨c, hc, -⟩ := exists_of_bind_eq_ok h
  exact hnone _ c hc

/-- In a catalog without rows nothing is listed and nothing is found. -/
theorem nothing_of_empty (hc : ∀ first, db.catalog p first = .ok .empty) :
    (∀ listed, db.summaries p = .ok listed → listed = []) ∧
      ∀ text found, db.search p text = .ok found → found = [] := by
  constructor
  · intro listed h
    rw [summaries_eq_ok hc] at h
    exact (Except.ok.inj h).symm
  · intro text found h
    have hsearch : Catalog.empty.search text = .ok [] := by
      unfold Catalog.search Catalog.empty
      simp
      rfl
    unfold search read at h
    simp only [hc, hsearch, bind, Except.bind, Except.ok.injEq] at h
    exact h.symm

/-! ## What they do say -/

/-- When the tables exist under their exact names, status agrees and clear empties them. -/
theorem agrees_and_empties_of_exact (hc : ∀ first, db.catalog p first = .ok c)
    (hexist : db.tablesExist p = true) : db.StatusAgrees p ∧ db.ClearEmpties p := by
  constructor
  · refine ⟨⟨true, c.programs.length, c.procedures.length, c.procedures.countP (·.hasText)⟩, ?_, ?_⟩
    · unfold status read
      rw [hexist, hc]
      rfl
    · exact ⟨fun _ => ⟨_, summaries_eq_ok hc⟩, fun _ => rfl⟩
  · refine ⟨db.store p .empty, c.programs.length, ?_, nothing_of_empty fun first => ?_⟩
    · unfold clear
      rw [if_pos hexist]
      exact write_eq_ok_iff.2 ⟨c, .empty, hc _, rfl, rfl⟩
    · exact catalog_store_of_same (sameName_iff.2 rfl) (hc first)

/-- When there is no catalog, status agrees and clear has nothing to do. -/
theorem agrees_and_empties_of_none (hnone : ∀ first c, db.catalog p first ≠ .ok c)
    (hexist : db.tablesExist p = false) : db.StatusAgrees p ∧ db.ClearEmpties p := by
  constructor
  · refine ⟨.absent, by simp [status, hexist], ?_⟩
    constructor
    · intro h
      simp [Status.absent] at h
    · rintro ⟨listed, h⟩
      exact absurd h (summaries_ne_ok hnone listed)
  · refine ⟨db, 0, by simp [clear, hexist], ?_, ?_⟩
    · intro listed h
      exact absurd h (summaries_ne_ok hnone listed)
    · intro text found h
      exact absurd h (search_ne_ok hnone text found)

/-- When a catalog is there and status does not see it, status disagrees. -/
theorem not_statusAgrees (hc : ∀ first, db.catalog p first = .ok c)
    (hexist : db.tablesExist p = false) : ¬ db.StatusAgrees p := by
  rintro ⟨counts, hstatus, hiff⟩
  obtain rfl : Status.absent = counts := by
    simpa [status, hexist] using hstatus
  have hexists := hiff.2 ⟨_, summaries_eq_ok hc⟩
  simp [Status.absent] at hexists

/-- When a catalog is there and clear does not see it, clear leaves all rows. -/
theorem clearEmpties_iff_of_unseen (hc : ∀ first, db.catalog p first = .ok c) (h : c.IsOwned)
    (hexist : db.tablesExist p = false) : db.ClearEmpties p ↔ db.summaries p = .ok [] := by
  have hclear : db.clear p = .ok (db, 0) := by simp [clear, hexist]
  constructor
  · rintro ⟨db', removed, heq, hlist, -⟩
    obtain ⟨rfl, -⟩ := Prod.mk.inj (Except.ok.inj (hclear.symm.trans heq))
    rw [summaries_eq_ok hc, hlist _ (summaries_eq_ok hc)]
  · intro hlist
    refine ⟨db, 0, hclear, nothing_of_empty fun first => ?_⟩
    -- without service programs there are no procedures
    rw [summaries_eq_ok hc] at hlist
    have hprograms : c.programs = [] := List.map_eq_nil_iff.1 (Except.ok.inj hlist)
    have hprocedures : c.procedures = [] := by
      refine List.eq_nil_iff_forall_not_mem.2 fun r hr => ?_
      obtain ⟨q, hq, -⟩ := h r hr
      simp [hprograms] at hq
    rw [hc, Catalog.empty, ← hprograms, ← hprocedures]

/-- **Status and clear follow the spelling.** After any run under any prefixes, status says that the
tables of a prefix exist exactly when the catalog can be listed, unless they were created under
another spelling of it. Clear leaves nothing that is listed or found, unless they were and service
programs are listed. -/
theorem status_and_clear_iff (steps : List Step) (p : TablePrefix) :
    ((empty.run steps).StatusAgrees p ↔ (empty.run steps).isRespelled p = false) ∧
      ((empty.run steps).ClearEmpties p ↔
        (empty.run steps).isRespelled p = false ∨ (empty.run steps).summaries p = .ok []) := by
  rcases catalog_run_cases steps p with ⟨hnone, hexist, hspelling⟩ | ⟨c, hc, howned, hexist⟩
  · obtain ⟨hstatus, hclear⟩ := agrees_and_empties_of_none hnone hexist
    exact ⟨iff_of_true hstatus hspelling, iff_of_true hclear (.inl hspelling)⟩
  · cases hspelling : (empty.run steps).isRespelled p with
    | false =>
      rw [hspelling] at hexist
      obtain ⟨hstatus, hclear⟩ := agrees_and_empties_of_exact hc hexist
      exact ⟨iff_of_true hstatus rfl, iff_of_true hclear (.inl rfl)⟩
    | true =>
      rw [hspelling] at hexist
      refine ⟨iff_of_false (not_statusAgrees hc hexist) (by simp), ?_⟩
      rw [clearEmpties_iff_of_unseen hc howned hexist]
      simp

/-- Tables that were created under another spelling are listed, while status does not report them
and clear leaves their rows. -/
theorem other_spelling_is_missed :
    let db := empty.run [⟨.standard, .up, ""⟩, ⟨.standard, .change (.sync "AXA" "SPV" ["A_X"]), ""⟩]
    let p : TablePrefix := ⟨"SVP_", by decide⟩
    ¬ db.StatusAgrees p ∧ ¬ db.ClearEmpties p := by
  intro db p
  have hstatus : db.status p = .ok .absent := by decide +kernel
  have hclear : db.clear p = .ok (db, 0) := by decide +kernel
  have hlist : (db.summaries p).map List.length = .ok 1 := by decide +kernel
  obtain ⟨listed, hlisted, hlength⟩ := exists_of_map_eq_ok hlist
  constructor
  · rintro ⟨counts, hcounts, hiff⟩
    obtain rfl := Except.ok.inj (hstatus.symm.trans hcounts)
    have hexists := hiff.2 ⟨listed, hlisted⟩
    simp [Status.absent] at hexists
  · rintro ⟨db', removed, heq, hempty, -⟩
    obtain ⟨rfl, -⟩ := Prod.mk.inj (Except.ok.inj (hclear.symm.trans heq))
    rw [hempty listed hlisted] at hlength
    simp at hlength

end Database

end ProcedureCatalog
