/-
# Isolation of catalogs

Catalogs whose prefixes differ in more than the case of letters share a database without touching
each other.

* `other_catalogs_untouched` : a run under other prefixes leaves both tables of a catalog, whether
  they are there, how they are spelled, and all of their rows.
-/
import ProcedureCatalog.Proofs.Catalog.Space

namespace ProcedureCatalog.Database

variable {q : TablePrefix} {steps : List Step}

/-- A run under prefixes that have no table of a name leaves all tables of that name. -/
theorem tablesNamed_run_of_avoids {db : Database} {name : String}
    (h : ∀ s ∈ steps, s.tables.Avoids name) :
    (db.run steps).tablesNamed name = db.tablesNamed name := by
  refine run_invariant (I := fun next => next.tablesNamed name = db.tablesNamed name) rfl ?_
  intro s hs next hnext
  rw [tablesNamed_after_of_avoids (h s hs), hnext]

/-- Whether the tables are there under their exact names depends on the tables of that name. -/
theorem tablesExist_congr {db db' : Database}
    (h : db'.tablesNamed q.procedureTable = db.tablesNamed q.procedureTable) :
    db'.tablesExist q = db.tablesExist q := by
  have hfilter : ∀ tables : List (NamedTable StoredProcedure),
      tables.any (·.name == q.procedureTable) =
        (tables.filter (isNamed q.procedureTable)).any (·.name == q.procedureTable) := by
    intro tables
    rw [List.any_filter]
    congr 1
    funext t
    -- the exact name is one of the spellings
    by_cases hname : t.name = q.procedureTable
    · simp [hname, isNamed, sameName_iff]
    · simp [hname]
  have hsame : db'.procedures.filter (isNamed q.procedureTable) =
      db.procedures.filter (isNamed q.procedureTable) := congrArg Prod.snd h
  unfold tablesExist
  rw [hfilter db'.procedures, hfilter db.procedures, hsame]

/-- **Catalogs are isolated.** Whatever the database holds, a run of steps under prefixes that
differ from one in more than case, each of which succeeds or fails, leaves the tables of that prefix
and their rows. Queries give back no database, so they are no steps; those under the prefix answer
the same before and after the run. -/
theorem other_catalogs_untouched (hother : ∀ s ∈ steps, sameName s.tables.text q.text = false)
    (db : Database) :
    (db.run steps).tablesNamed q.programTable = db.tablesNamed q.programTable ∧
      (db.run steps).tablesNamed q.procedureTable = db.tablesNamed q.procedureTable ∧
      (∀ first, (db.run steps).catalog q first = db.catalog q first) ∧
      (db.run steps).status q = db.status q := by
  have hprograms : (db.run steps).tablesNamed q.programTable = db.tablesNamed q.programTable :=
    tablesNamed_run_of_avoids fun s hs => (TablePrefix.avoids_of_other (hother s hs)).1
  have hprocedures :
      (db.run steps).tablesNamed q.procedureTable = db.tablesNamed q.procedureTable :=
    tablesNamed_run_of_avoids fun s hs => (TablePrefix.avoids_of_other (hother s hs)).2
  have hcatalog : ∀ first, (db.run steps).catalog q first = db.catalog q first := fun _ =>
    catalog_congr hprograms hprocedures
  refine ⟨hprograms, hprocedures, hcatalog, ?_⟩
  unfold status read
  rw [hcatalog, tablesExist_congr hprocedures]

/-- A run of every kind of step under a prefix that spells the names of other tables, and one that
creates nothing because a table would have the name of an index. -/
theorem other_catalogs_untouched_by_each_kind :
    let db := empty.run [⟨.standard, .up, ""⟩,
      ⟨.standard, .change (.sync "AXA" "SPV" ["A_GET", "A_X"]), ""⟩,
      ⟨.standard, .change (.fillFromNames "AXA" "SPV" false), ""⟩]
    let p : TablePrefix := ⟨"svp_srvpgm_", by decide⟩
    let steps : List Step := [
      ⟨p, .up, ""⟩,
      ⟨p, .change (.sync "AXA" "SPV" ["B_GET", "B_X"]), ""⟩,
      ⟨p, .change (.applyDescriptions "AXA" "SPV"
        (extract (.ofList ["B_X"]) Strategy.all "// B_X : hola")), ""⟩,
      ⟨p, .change (.setDescription "AXA" "SPV" "A_X" "by hand"), ""⟩,
      ⟨p, .change (.fillFromNames "AXA" "SPV" true), ""⟩,
      ⟨p, .change (.fillFromSource "AXA" "SPV" "// A_X : hola" true), ""⟩,
      ⟨p, .change (.shorten none), ""⟩,
      ⟨p, .change (.delete "AXA" "SPV"), ""⟩,
      ⟨p, .clear, ""⟩,
      ⟨p, .down, ""⟩,
      ⟨⟨"idx_svp_srvpgm_method_", by decide⟩, .up, ""⟩]
    (∀ s ∈ steps, sameName s.tables.text TablePrefix.standard.text = false) ∧
      (db.run steps).tablesNamed TablePrefix.standard.programTable =
        db.tablesNamed TablePrefix.standard.programTable ∧
      (db.run steps).tablesNamed TablePrefix.standard.procedureTable =
        db.tablesNamed TablePrefix.standard.procedureTable := by
  intro db p steps
  have hother : ∀ s ∈ steps, sameName s.tables.text TablePrefix.standard.text = false := by
    simp only [steps, p, List.forall_mem_cons]
    decide +kernel
  obtain ⟨hprograms, hprocedures, -⟩ := other_catalogs_untouched hother db
  exact ⟨hother, hprograms, hprocedures⟩

end ProcedureCatalog.Database
