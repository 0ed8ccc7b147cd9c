/-
# Counters

The status of a catalog, the counts in its listing and the records themselves agree, although
each of them tells in its own way which procedures are described.

* `sum_countP_filter` : what is counted in each group is counted altogether.
* `StoredProcedure.IsConsistent.hasText_eq` : the two tests for a description agree.
* `counters_agree` : so do the counters, after every run that drops no tables.
-/
import Mathlib
import ProcedureCatalog.Proofs.Catalog.Integrity
import ProcedureCatalog.Proofs.Catalog.Reached

namespace ProcedureCatalog

/-! ## Counting in groups -/

section Groups

variable {σ τ : Type}

theorem sum_map_ite_eq_countP (p : σ → Bool) (groups : List σ) :
    (groups.map fun g => if p g then 1 else 0).sum = groups.countP p := by
  induction groups with
  | nil => rfl
  | cons g groups ih => rw [List.map_cons, List.sum_cons, ih, List.countP_cons, Nat.add_comm]

/-- When every row is in one group, counting in each group counts every row once. -/
theorem sum_countP_filter {groups : List σ} {rows : List τ} {own : σ → τ → Bool}
    (P : τ → Bool) (h : ∀ r ∈ rows, groups.countP (own · r) = 1) :
    (groups.map fun g => (rows.filter (own g)).countP P).sum = rows.countP P := by
  simp only [List.countP_filter]
  -- by induction on the rows: one more row counts in the one group that it is in
  induction rows with
  | nil => simp
  | cons r rows ih =>
    simp only [List.countP_cons, List.sum_map_add]
    rw [ih fun r' hr' => h r' (List.mem_cons_of_mem _ hr')]
    congr 1
    cases hP : P r with
    | false => simp
    | true =>
      simp only [Bool.true_and, if_true]
      rw [sum_map_ite_eq_countP]
      exact h r List.mem_cons_self

end Groups

/-- Reading each of some rows succeeds when reading any of them does. -/
theorem mapM_eq_ok {ε α β : Type} {f : α → Except ε β} {g : α → β} {rows : List α}
    (h : ∀ r ∈ rows, f r = .ok (g r)) : rows.mapM f = .ok (rows.map g) := by
  induction rows with
  | nil => rfl
  | cons r rows ih =>
    rw [List.mapM_cons, h r List.mem_cons_self,
      ih fun r' hr' => h r' (List.mem_cons_of_mem _ hr')]
    rfl

/-! ## Records -/

namespace StoredProcedure

/-- The record of a row; an unknown source is left out. -/
def record (r : StoredProcedure) : ProcedureRecord :=
  ⟨r.library, r.program, r.name, r.description, r.source.bind DescriptionSource.ofIdentifier?,
    some r.updatedAt⟩

/-- The record of a row with a known source can be read. -/
theorem toRecord_eq_of_known {r : StoredProcedure} (h : Catalog.hasKnownSource r = true) :
    r.toRecord = .ok r.record := by
  unfold toRecord record
  cases hsource : r.source with
  | none => rfl
  | some text =>
    rw [Catalog.hasKnownSource, hsource, Option.all_some] at h
    obtain ⟨source, hknown⟩ := Option.isSome_iff_exists.1 h
    simp [hknown]

/-- The source of a consistent row is known. -/
theorem IsConsistent.hasKnownSource {r : StoredProcedure} (h : r.IsConsistent) :
    Catalog.hasKnownSource r = true := by
  unfold Catalog.hasKnownSource
  rcases h with ⟨-, hsource⟩ | ⟨_, source, -, hsource, -⟩
  · rw [hsource]; rfl
  · rw [hsource]
    simp [DescriptionSource.ofIdentifier?_identifier]

/-- The record of a consistent row can be read. -/
theorem IsConsistent.toRecord_eq {r : StoredProcedure} (h : r.IsConsistent) :
    r.toRecord = .ok r.record :=
  toRecord_eq_of_known h.hasKnownSource

/-- A description that is not blank has a character other than a space. -/
theorem IsConsistent.hasText_eq {r : StoredProcedure} (h : r.IsConsistent) :
    r.hasText = r.record.isDescribed := by
  unfold hasText ProcedureRecord.isDescribed record
  rcases h with ⟨htext, -⟩ | ⟨text, _, htext, -, hblank⟩
  · rw [htext]; rfl
  · obtain ⟨c, hc, hnot⟩ : ∃ c ∈ text.toList, Text.isBlank c = false := by
      simpa [Text.allBlank] using hblank
    have hspace : c ≠ ' ' := fun heq => by simp [heq, Text.isBlank] at hnot
    rw [htext]
    simp only [Option.any_some, hblank, Bool.not_false]
    exact List.any_eq_true.2 ⟨c, hc, by simpa using hspace⟩

end StoredProcedure

/-! ## Listings -/

namespace Catalog

variable {c : Catalog}

/-- The service programs, each with its counts and its records. -/
def listing (c : Catalog) : List (ProgramSummary × List ProcedureRecord) :=
  c.programs.map fun q =>
    (c.summary q, (c.proceduresOf q.library q.name).map StoredProcedure.record)

theorem map_fst_listing : c.listing.map (·.1) = c.summaries := by
  simp [listing, summaries]

/-- A procedure belongs to one of the service programs, once. -/
theorem WellFormed.countP_owner (h : c.WellFormed) {r : StoredProcedure} (hr : r ∈ c.procedures) :
    c.programs.countP (fun q => r.belongsTo q.library q.name) = 1 := by
  obtain ⟨owner, howner, hkey⟩ := h.owned r hr
  rw [← h.programs_sorted.countP_key_eq_one howner, hkey]
  congr 1
  funext q
  rw [Bool.eq_iff_iff, StoredProcedure.belongsTo_iff, beq_iff_eq]
  simp only [ServiceProgram.key, List.cons.injEq, and_true]
  exact and_congr eq_comm eq_comm

/-- Counting in the listing counts every procedure once. -/
theorem WellFormed.sum_listing (h : c.WellFormed) (P : StoredProcedure → Bool) :
    (c.programs.map fun q => (c.proceduresOf q.library q.name).countP P).sum =
      c.procedures.countP P := by
  unfold proceduresOf
  exact sum_countP_filter P fun r hr => h.countP_owner hr

/-- The counts in the listing add up to the number of procedures. -/
theorem WellFormed.sum_procedureCount (h : c.WellFormed) :
    (c.listing.map (·.1.procedureCount)).sum = c.procedures.length := by
  have hsum := h.sum_listing fun _ => true
  simpa [listing, Function.comp_def, summary] using hsum

/-- The listing has as many records as there are procedures. -/
theorem WellFormed.length_records (h : c.WellFormed) :
    (c.listing.flatMap (·.2)).length = c.procedures.length := by
  have hsum := h.sum_listing fun _ => true
  simpa [listing, List.length_flatMap, Function.comp_def] using hsum

/-- The counts of described procedures in the listing add up to their number. -/
theorem WellFormed.sum_describedCount (h : c.WellFormed) :
    (c.listing.map (·.1.describedCount)).sum = c.procedures.countP (·.hasText) := by
  have hsum := h.sum_listing (·.hasText)
  simpa [listing, Function.comp_def, summary] using hsum

/-- The listing has as many described records as there are described procedures. -/
theorem WellFormed.countP_records (h : c.WellFormed) :
    (c.listing.flatMap (·.2)).countP (·.isDescribed) = c.procedures.countP (·.hasText) := by
  have hsum := h.sum_listing fun r => r.record.isDescribed
  have hsame : c.procedures.countP (·.hasText) = c.procedures.countP (·.record.isDescribed) :=
    List.countP_congr fun r hr => by rw [(h.consistent r hr).hasText_eq]
  rw [hsame]
  simpa [listing, List.countP_flatMap, List.countP_map, Function.comp_def] using hsum

end Catalog

/-! ## The counters of a database -/

namespace Database

/-- The listing, the contents and the status can be read, and their counters agree. -/
structure CountersAgree (db : Database) (p : TablePrefix)
    (listing : List (ProgramSummary × List ProcedureRecord)) (counts : Status) : Prop where
  summaries_eq : db.summaries p = .ok (listing.map (·.1))
  contents_eq : db.contents p = .ok listing
  status_eq : db.status p = .ok counts
  tablesExist_eq : counts.tablesExist = true
  programCount_eq : counts.programCount = listing.length
  procedureCount_eq : counts.procedureCount = (listing.map (·.1.procedureCount)).sum
  length_records : counts.procedureCount = (listing.flatMap (·.2)).length
  describedCount_eq : counts.describedCount = (listing.map (·.1.describedCount)).sum
  countP_records : counts.describedCount = (listing.flatMap (·.2)).countP (·.isDescribed)

/-- The contents of a well-formed catalog can be read. -/
theorem contents_eq_ok {db : Database} {p : TablePrefix} {c : Catalog}
    (hc : db.catalog p .programs = .ok c) (h : c.WellFormed) :
    db.contents p = .ok c.listing := by
  have hrecords : ∀ library program, c.records library program =
      .ok ((c.proceduresOf library program).map StoredProcedure.record) := fun _ _ =>
    mapM_eq_ok fun r hr => (h.consistent r (List.mem_filter.1 hr).1).toRecord_eq
  have hlisting : c.summaries.mapM (fun s => do
      return (s, ← c.records s.program.library s.program.name)) = .ok (c.summaries.map fun s =>
        (s, (c.proceduresOf s.program.library s.program.name).map StoredProcedure.record)) :=
    mapM_eq_ok fun s _ => by rw [hrecords]; rfl
  unfold contents read
  rw [hc]
  refine hlisting.trans (congrArg Except.ok ?_)
  simp [Catalog.summaries, Catalog.listing, Catalog.summary]

/-- The counters of a well-formed catalog agree. -/
theorem countersAgree_of_wellFormed {db : Database} {p : TablePrefix} {c : Catalog}
    (hc : db.catalog p .programs = .ok c) (hexist : db.tablesExist p = true)
    (h : c.WellFormed) : ∃ counts, db.CountersAgree p c.listing counts := by
  refine ⟨⟨true, c.programs.length, c.procedures.length, c.procedures.countP (·.hasText)⟩,
    ?_, contents_eq_ok hc h, ?_, rfl, ?_, h.sum_procedureCount.symm, h.length_records.symm,
    h.sum_describedCount.symm, h.countP_records.symm⟩
  · unfold summaries read
    rw [hc, Catalog.map_fst_listing]
    rfl
  · unfold status read
    rw [hexist, hc]
    rfl
  · simp [Catalog.listing]

variable {p : TablePrefix} {steps : List Step}

/-- **The counters agree.** A run of ordinary operations under one prefix leaves the database
without tables, because the prefix is not usable or the run creates none, or it leaves a catalog in
which each procedure belongs to one service program, a description comes with a source and is not
blank, and status, listing and records count the same. -/
theorem counters_agree (htables : ∀ s ∈ steps, s.tables = p)
    (hops : ∀ s ∈ steps, s.operation.IsOrdinary) :
    (empty.run steps = empty ∧ (empty.run steps).status p = .ok .absent ∧
        (p.isUsable = false ∨ ∀ s ∈ steps, s.operation ≠ .up)) ∨
      ∃ c counts, (∀ first, (empty.run steps).catalog p first = .ok c) ∧
        (∀ r ∈ c.procedures, c.programs.countP (fun q => r.belongsTo q.library q.name) = 1) ∧
        (∀ r ∈ c.procedures, r.description = none ↔ r.source = none) ∧
        (∀ r ∈ c.procedures, ∀ text, r.description = some text →
          ∃ ch ∈ text.toList, Text.isBlank ch = false) ∧
        (empty.run steps).CountersAgree p c.listing counts := by
  have hcases := run_empty_cases (fun s hs => ⟨htables s hs, hops s hs⟩) Catalog.wellFormed_empty
    fun _ _ _ _ hchange hc' h => Change.wellFormed_onCatalog h hchange hc'
  rcases hcases with ⟨hrun, hwhy⟩ | ⟨c, hc, hexist, h⟩
  · left
    rw [hrun]
    exact ⟨rfl, rfl, hwhy⟩
  · right
    obtain ⟨counts, hagree⟩ := countersAgree_of_wellFormed (hc .programs) hexist h
    refine ⟨c, counts, hc, fun r hr => h.countP_owner hr, fun r hr => ?_, fun r hr text htext => ?_,
      hagree⟩
    · rcases h.consistent r hr with ⟨hnone, hsource⟩ | ⟨text, source, hsome, hsource, -⟩
      · simp [hnone, hsource]
      · simp [hsome, hsource]
    · rcases h.consistent r hr with ⟨hnone, -⟩ | ⟨_, _, hsome, -, hblank⟩
      · simp [hnone] at htext
      · obtain rfl := Option.some.inj (hsome.symm.trans htext)
        simpa [Text.allBlank] using hblank

/-- A run with every kind of ordinary operation. -/
theorem counters_agree_after_each_kind :
    let steps : List Step := [
      ⟨.standard, .up, ""⟩,
      ⟨.standard, .change (.sync "AXA" "SPV" ["A_GET", "A_X", "B_X"]), ""⟩,
      ⟨.standard, .change (.sync "AXA" "SPW" ["C_X"]), ""⟩,
      ⟨.standard, .clear, ""⟩,
      ⟨.standard, .change (.sync "AXA" "SPV" ["A_GET", "A_X", "B_X"]), ""⟩,
      ⟨.standard, .change (.sync "AXA" "SPW" ["C_X"]), ""⟩,
      ⟨.standard, .change (.applyDescriptions "AXA" "SPV"
        (extract (.ofList ["A_X"]) Strategy.all "// A_X : hola")), ""⟩,
      ⟨.standard, .change (.setDescription "AXA" "SPV" "B_X" " -- by hand "), ""⟩,
      ⟨.standard, .change (.fillFromNames "AXA" "SPV" false), ""⟩,
      ⟨.standard, .change (.fillFromSource "AXA" "SPV" "// A_X : hola" false), ""⟩,
      ⟨.standard, .change (.shorten none), ""⟩,
      ⟨.standard, .change (.delete "AXA" "SPW"), ""⟩]
    ∃ c, (empty.run steps).catalog .standard .programs = .ok c ∧
      (empty.run steps).CountersAgree .standard c.listing ⟨true, 1, 3, 3⟩ := by
  intro steps
  have htables : ∀ s ∈ steps, s.tables = .standard := by simp [steps]
  have hops : ∀ s ∈ steps, s.operation.IsOrdinary := by
    simp [steps, Operation.IsOrdinary, Change.AppliesExtractions]
  have hstatus : (empty.run steps).status .standard = .ok ⟨true, 1, 3, 3⟩ := by decide +kernel
  rcases counters_agree htables hops with ⟨-, habsent, -⟩ | ⟨c, counts, hc, -, -, -, hagree⟩
  · rw [hstatus] at habsent
    simp [Status.absent] at habsent
  · obtain rfl := Except.ok.inj (hstatus.symm.trans hagree.status_eq)
    exact ⟨c, hc .programs, hagree⟩

end Database

end ProcedureCatalog
