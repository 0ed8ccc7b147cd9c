/-
# Catalogs reached from an empty database

The runs of ordinary operations under one prefix that start without tables.

* `up_empty` : under a usable prefix the tables of a catalog are created.
* `run_empty_cases` : a run leaves the database empty, or it leaves tables whose rows have what
  every change keeps.
-/
import ProcedureCatalog.Proofs.Catalog.Space

namespace ProcedureCatalog

/-! ## Names of one length -/

/-- Names that differ at most in case have the same length. -/
theorem length_eq_of_sameName {a b : String} (h : sameName a b = true) :
    a.toList.length = b.toList.length := by
  have hlength := congrArg List.length (sameName_iff.1 h)
  simpa [Text.upper] using hlength

/-- Tables can be created with the prefix. -/
def TablePrefix.isUsable (p : TablePrefix) : Bool := p.isReadable && !p.isReserved

theorem TablePrefix.isUsable_iff {p : TablePrefix} :
    p.isUsable = true ↔ p.isReadable = true ∧ p.isReserved = false := by
  simp [isUsable]

namespace Database

variable {p : TablePrefix}

/-- The database with the tables and indexes of one catalog, without rows. -/
def fresh (p : TablePrefix) : Database where
  programs := [⟨p.programTable, []⟩]
  procedures := [⟨p.procedureTable, []⟩]
  indexes := [⟨p.programIndex, p.procedureTable⟩, ⟨p.nameIndex, p.procedureTable⟩]

/-! ## Creating the tables -/

/-- Names of different lengths are different. -/
theorem sameName_eq_false_of_length {a b : String} (h : a.toList.length ≠ b.toList.length) :
    sameName a b = false := by
  rw [Bool.eq_false_iff]
  exact fun hsame => h (length_eq_of_sameName hsame)

/-- Under a usable prefix, the tables of a catalog are created in the empty database. -/
theorem up_empty (hp : p.isUsable = true) : empty.up p = .ok (fresh p) := by
  obtain ⟨hreadable, hreserved⟩ := TablePrefix.isUsable_iff.1 hp
  have htables : sameName p.programTable p.procedureTable = false :=
    p.sameName_programTable_procedureTable p
  have h1 : sameName p.programTable p.programIndex = false :=
    sameName_eq_false_of_length (by simp [TablePrefix.programTable, TablePrefix.programIndex])
  have h2 : sameName p.procedureTable p.programIndex = false :=
    sameName_eq_false_of_length (by simp [TablePrefix.procedureTable, TablePrefix.programIndex])
  have h3 : sameName p.programTable p.nameIndex = false :=
    sameName_eq_false_of_length (by simp [TablePrefix.programTable, TablePrefix.nameIndex])
  have h4 : sameName p.procedureTable p.nameIndex = false :=
    sameName_eq_false_of_length (by simp [TablePrefix.procedureTable, TablePrefix.nameIndex])
  have h5 : sameName p.programIndex p.nameIndex = false :=
    sameName_eq_false_of_length (by simp [TablePrefix.programIndex, TablePrefix.nameIndex])
  simp [up, createPrograms, createProcedures, createIndex, claim, empty, fresh, hasTable, hasIndex,
    isNamed, hreadable, hreserved, htables, h1, h2, h3, h4, h5, bind, Except.bind]

/-- No tables are created under a prefix that is not usable. -/
theorem up_empty_of_unusable (hp : p.isUsable = false) : empty.up p = .error createFailure := by
  unfold up
  split
  · next hreadable =>
    have hreserved : p.isReserved = true := by simpa [TablePrefix.isUsable, hreadable] using hp
    simp [createPrograms, claim, hreserved, bind, Except.bind]
  · rfl

@[simp] theorem tablesExist_empty : empty.tablesExist p = false := rfl

@[simp] theorem tablesExist_fresh : (fresh p).tablesExist p = true := by
  simp [tablesExist, fresh]

/-- The new tables have no rows. -/
theorem catalog_fresh (hp : p.isReadable = true) (first : FirstTable) :
    (fresh p).catalog p first = .ok .empty := by
  refine catalog_eq_ok_iff.2 ⟨hp, ⟨p.programTable, []⟩, ⟨p.procedureTable, []⟩, ?_, ?_, rfl⟩
  · simp [fresh, isNamed, sameName_iff]
  · simp [fresh, isNamed, sameName_iff]

/-- The empty database has no catalog. -/
theorem catalog_empty_ne_ok {first : FirstTable} {c : Catalog} :
    empty.catalog p first ≠ .ok c := by
  intro h
  obtain ⟨-, a, b, ha, -⟩ := catalog_eq_ok_iff.1 h
  simp [empty] at ha

/-! ## Tables stay -/

/-- Storing rows keeps the names of the tables. -/
@[simp] theorem tablesExist_store (db : Database) (q : TablePrefix) (c : Catalog) :
    (db.store q c).tablesExist p = db.tablesExist p := by
  unfold tablesExist store
  rw [List.any_map]
  congr 1
  funext t
  simp

/-- A step that does not drop tables keeps them. -/
theorem tablesExist_after {db : Database} {s : Step} (hdown : s.operation ≠ .down)
    (h : db.tablesExist p = true) : (db.after s).tablesExist p = true := by
  rcases after_cases db s with hafter | hafter
  · rw [hafter]; exact h
  · cases hop : s.operation with
    | up =>
      rw [hop] at hafter
      unfold tablesExist at h ⊢
      rcases (up_eq_ok hafter).2 with hsame | hnew
      · rw [hsame]; exact h
      · rw [hnew, List.any_append, h, Bool.true_or]
    | down => exact absurd hop hdown
    | clear =>
      rw [hop] at hafter
      rcases perform_clear_eq_ok hafter with hsame | ⟨_, -, hstore⟩
      · rw [hsame]; exact h
      · rw [hstore, tablesExist_store]; exact h
    | change change =>
      rw [hop] at hafter
      obtain ⟨_, _, -, -, hstore⟩ := perform_change_eq_ok_iff.1 hafter
      rw [hstore, tablesExist_store]; exact h

/-! ## Runs -/

/-- The catalog of a prefix is there, `status` sees it, and its rows have the property. -/
def HasCatalog (db : Database) (p : TablePrefix) (P : Catalog → Prop) : Prop :=
  ∃ c, (∀ first, db.catalog p first = .ok c) ∧ db.tablesExist p = true ∧ P c

variable {P : Catalog → Prop} {steps : List Step}

/-- A step keeps what changes keep and what catalogs without rows have. -/
theorem HasCatalog.after {db : Database} {s : Step} (h : db.HasCatalog p P)
    (htables : s.tables = p) (hop : s.operation.IsOrdinary) (hempty : P .empty)
    (hchange : ∀ now change c c', Change.AppliesExtractions change →
      change.onCatalog now c = .ok c' → P c → P c') : (db.after s).HasCatalog p P := by
  obtain ⟨c, hc, hexist, hP⟩ := h
  have hsame : sameName s.tables.text p.text = true := sameName_iff.2 (by rw [htables])
  have hexist' := tablesExist_after hop.ne_down hexist
  rcases catalog_after_of_same hsame hop.ne_down (hc .programs) with h | ⟨-, h⟩ |
    ⟨change, c', heq, hc', h⟩
  · exact ⟨c, fun first => catalog_eq_ok h, hexist', hP⟩
  · exact ⟨.empty, fun first => catalog_eq_ok h, hexist', hempty⟩
  · rw [heq] at hop
    exact ⟨c', fun first => catalog_eq_ok h, hexist', hchange s.now change c c' hop hc' hP⟩

/-- A first step leaves the empty database, or it creates the tables. -/
theorem after_empty_cases {s : Step} (htables : s.tables = p) (hdown : s.operation ≠ .down) :
    (empty.after s = empty ∧ (p.isUsable = false ∨ s.operation ≠ .up)) ∨
      (p.isUsable = true ∧ empty.after s = fresh p) := by
  subst htables
  cases hop : s.operation with
  | up =>
    cases hp : s.tables.isUsable with
    | false =>
      refine .inl ⟨?_, .inl rfl⟩
      exact after_eq_of_error (by rw [hop]; exact up_empty_of_unusable hp)
    | true =>
      refine .inr ⟨rfl, ?_⟩
      exact after_eq_of_ok (by rw [hop]; exact up_empty hp)
  | down => exact absurd hop hdown
  | clear =>
    refine .inl ⟨?_, .inr (by simp)⟩
    exact after_eq_of_ok (by rw [hop]; rfl)
  | change change =>
    refine .inl ⟨?_, .inr (by simp)⟩
    rcases after_cases empty s with h | h
    · exact h
    · rw [hop] at h
      obtain ⟨c, _, hc, -⟩ := perform_change_eq_ok_iff.1 h
      exact absurd hc catalog_empty_ne_ok

/-- A run of ordinary operations under one prefix leaves the empty database, because the prefix is
not usable or the run creates no tables, or it leaves a catalog with what changes keep. -/
theorem run_empty_cases (hsteps : ∀ s ∈ steps, s.tables = p ∧ s.operation.IsOrdinary)
    (hempty : P .empty) (hchange : ∀ now change c c', Change.AppliesExtractions change →
      change.onCatalog now c = .ok c' → P c → P c') :
    (empty.run steps = empty ∧ (p.isUsable = false ∨ ∀ s ∈ steps, s.operation ≠ .up)) ∨
      (empty.run steps).HasCatalog p P := by
  -- the induction goes on while there are no tables; from then on the invariant carries the run
  induction steps with
  | nil => exact .inl ⟨rfl, .inr (by simp)⟩
  | cons s steps ih =>
    obtain ⟨htables, hop⟩ := hsteps s List.mem_cons_self
    have hrest : ∀ t ∈ steps, t.tables = p ∧ t.operation.IsOrdinary := fun t ht =>
      hsteps t (List.mem_cons_of_mem _ ht)
    rcases after_empty_cases htables hop.ne_down with ⟨hafter, hnot⟩ | ⟨hp, hafter⟩
    · rw [run_cons, hafter]
      refine (ih hrest).imp_left fun ⟨hrun, hnone⟩ => ⟨hrun, ?_⟩
      rcases hnot with hnot | hnot
      · exact .inl hnot
      · exact hnone.imp_right fun hnone => by simpa using ⟨hnot, hnone⟩
    · right
      rw [run_cons, hafter]
      refine run_invariant (I := fun db => db.HasCatalog p P) ⟨.empty,
        catalog_fresh (TablePrefix.isUsable_iff.1 hp).1, tablesExist_fresh, hempty⟩ ?_
      exact fun t ht db h => h.after (hrest t ht).1 (hrest t ht).2 hempty hchange

end Database

end ProcedureCatalog
