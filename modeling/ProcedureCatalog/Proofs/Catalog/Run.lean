/-
# Runs of operations

The operations on the catalogs of a database as data, and what a run of them leaves.

* `Change` is a change to the rows of one catalog, `Operation` also creates, drops and clears.
* `Database.run` carries out a list of steps; a step that fails leaves the database as it was.
* `perform_change_eq_ok_iff` : a change reads the rows of the catalog and stores other rows.
-/
import ProcedureCatalog.Catalog.Operations

namespace ProcedureCatalog

/-- The prefix of the default settings. -/
def TablePrefix.standard : TablePrefix := ⟨"svp_", by decide⟩

/-! ## Successes -/

/-- What is mapped to a success was one. -/
theorem exists_of_map_eq_ok {ε α β : Type} {f : α → β} {x : Except ε α} {b : β}
    (h : x.map f = .ok b) : ∃ a, x = .ok a ∧ f a = b := by
  cases x with
  | error e => simp [Except.map] at h
  | ok a => exact ⟨a, rfl, Except.ok.inj h⟩

/-- What is bound to a success was one. -/
theorem exists_of_bind_eq_ok {ε α β : Type} {x : Except ε α} {f : α → Except ε β} {b : β}
    (h : x >>= f = .ok b) : ∃ a, x = .ok a ∧ f a = .ok b := by
  cases x with
  | error e => simp [bind, Except.bind] at h
  | ok a => exact ⟨a, rfl, h⟩

/-! ## Changes -/

/-- A change to the rows of a catalog. -/
inductive Change where
  | sync (library program : String) (symbols : List String)
  | applyDescriptions (library program : String) (result : ExtractionResult)
  | setDescription (library program name text : String)
  | fillFromNames (library program : String) (force : Bool)
  | fillFromSource (library program source : String) (force : Bool)
  | shorten (filter : Option (String × String))
  | delete (library program : String)

namespace Change

/-- The rows after a change. -/
def onCatalog (now : String) (c : Catalog) : Change → Except CatalogError Catalog
  | sync library program symbols => do
    (ObjectName.validate .library library).mapError .invalidName
    (ObjectName.validate .object program).mapError .invalidName
    return (c.sync library program symbols now).1
  | applyDescriptions library program result =>
    return (c.applyDescriptions library program result now).1
  | setDescription library program name text =>
    return (c.setDescription library program name text now).1
  | fillFromNames library program force =>
    (c.fillFromNames library program force now).map (·.1)
  | fillFromSource library program source force =>
    (c.fillFromSource Digest.sha256Hex library program source force now).map (·.1)
  | shorten filter => (c.shorten filter now).map (·.1)
  | delete library program => return (c.delete library program).1

/-- The table that the change asks for first. -/
def firstTable : Change → Database.FirstTable
  | sync .. | fillFromSource .. | delete .. => .programs
  | applyDescriptions .. | setDescription .. | fillFromNames .. | shorten .. => .procedures

/-- The database after a change to one of its catalogs. -/
def onDatabase (db : Database) (p : TablePrefix) (now : String) :
    Change → Except CatalogError Database
  | sync library program symbols => (db.syncExports p library program symbols now).map (·.1)
  | applyDescriptions library program result =>
    (db.applyDescriptions p library program result now).map (·.1)
  | setDescription library program name text =>
    (db.setDescription p library program name text now).map (·.1)
  | fillFromNames library program force => (db.fillFromNames p library program force now).map (·.1)
  | fillFromSource library program source force =>
    (db.fillFromSource p library program source force now).map (·.1)
  | shorten filter => (db.shortenDescriptions p filter now).map (·.1)
  | delete library program => (db.deleteProgram p library program).map (·.1)

/-- A result that the change applies is that of an extraction. -/
def AppliesExtractions : Change → Prop
  | applyDescriptions _ _ result =>
    ∃ expected strategies source, result = extract expected strategies source
  | _ => True

end Change

/-! ## Steps -/

/-- An operation on a catalog. -/
inductive Operation where
  | up
  | down
  | clear
  | change (change : Change)

/-- The operation drops no tables, and a result that it applies is that of an extraction. -/
def Operation.IsOrdinary : Operation → Prop
  | .up | .clear => True
  | .down => False
  | .change ch => ch.AppliesExtractions

theorem Operation.IsOrdinary.ne_down {op : Operation} (h : op.IsOrdinary) : op ≠ .down := by
  rintro rfl
  exact h

/-- An operation on the catalog of a prefix at a time. -/
structure Step where
  tables : TablePrefix
  operation : Operation
  now : String

namespace Database

/-- The database after an operation that succeeds. -/
def perform (db : Database) (p : TablePrefix) (now : String) :
    Operation → Except CatalogError Database
  | .up => db.up p
  | .down => db.down p
  | .clear => (db.clear p).map (·.1)
  | .change change => change.onDatabase db p now

/-- The database after a step; one that fails leaves it as it was. -/
def after (db : Database) (s : Step) : Database :=
  match db.perform s.tables s.now s.operation with
  | .ok next => next
  | .error _ => db

/-- The database after a run of steps. -/
def run (db : Database) (steps : List Step) : Database := steps.foldl after db

@[simp] theorem run_nil (db : Database) : db.run [] = db := rfl

@[simp] theorem run_cons (db : Database) (s : Step) (steps : List Step) :
    db.run (s :: steps) = (db.after s).run steps := rfl

/-- A step either fails and changes nothing, or succeeds. -/
theorem after_cases (db : Database) (s : Step) :
    db.after s = db ∨ db.perform s.tables s.now s.operation = .ok (db.after s) := by
  unfold after
  cases h : db.perform s.tables s.now s.operation with
  | error e => exact .inl rfl
  | ok next => exact .inr rfl

/-- A step that succeeds leaves what its operation makes. -/
theorem after_eq_of_ok {db db' : Database} {s : Step}
    (h : db.perform s.tables s.now s.operation = .ok db') : db.after s = db' := by
  rw [after, h]

/-- A step that fails leaves the database. -/
theorem after_eq_of_error {db : Database} {s : Step} {e : CatalogError}
    (h : db.perform s.tables s.now s.operation = .error e) : db.after s = db := by
  rw [after, h]

/-- What every step keeps, a run keeps. -/
theorem run_invariant {I : Database → Prop} {steps : List Step} {db : Database} (h : I db)
    (hstep : ∀ s ∈ steps, ∀ db, I db → I (db.after s)) : I (db.run steps) := by
  induction steps generalizing db with
  | nil => exact h
  | cons s steps ih =>
    refine ih (hstep s List.mem_cons_self db h) fun t ht => hstep t (List.mem_cons_of_mem _ ht)

/-! ## Changes store rows -/

/-- A writing operation that succeeds reads rows and stores what the operation makes of them. -/
theorem write_eq_ok_iff {α : Type} {db db' : Database} {p : TablePrefix} {first : FirstTable}
    {operation : Catalog → Except CatalogError (Catalog × α)} {answer : α} :
    db.write p first operation = .ok (db', answer) ↔
      ∃ c c', db.catalog p first = .ok c ∧ operation c = .ok (c', answer) ∧
        db' = db.store p c' := by
  unfold write
  cases hc : db.catalog p first with
  | error e => simp [bind, Except.bind]
  | ok c =>
    cases ho : operation c with
    | error e => simp [bind, Except.bind, ho]
    | ok result =>
      simp only [bind, Except.bind, ho, pure, Except.pure, Except.ok.injEq, Prod.ext_iff]
      constructor
      · rintro ⟨rfl, rfl⟩
        exact ⟨c, result.1, rfl, ho.trans rfl, rfl⟩
      · rintro ⟨d, c', rfl, hd, rfl⟩
        obtain rfl := Except.ok.inj (ho.symm.trans hd)
        exact ⟨rfl, rfl⟩

/-- The rows that a writing operation stores, whatever its answer. -/
theorem map_fst_write_eq_ok_iff {α : Type} {db db' : Database} {p : TablePrefix}
    {first : FirstTable} {operation : Catalog → Except CatalogError (Catalog × α)} :
    (db.write p first operation).map (·.1) = .ok db' ↔
      ∃ c c', db.catalog p first = .ok c ∧ (operation c).map (·.1) = .ok c' ∧
        db' = db.store p c' := by
  constructor
  · intro h
    obtain ⟨⟨db'', answer⟩, hwrite, rfl⟩ := exists_of_map_eq_ok h
    obtain ⟨c, c', hc, ho, rfl⟩ := write_eq_ok_iff.1 hwrite
    exact ⟨c, c', hc, by rw [ho]; rfl, rfl⟩
  · rintro ⟨c, c', hc, ho, rfl⟩
    obtain ⟨⟨stored, answer⟩, hresult, rfl⟩ := exists_of_map_eq_ok ho
    rw [write_eq_ok_iff.2 ⟨c, stored, hc, hresult, rfl⟩]
    rfl

/-- A change that succeeds reads the rows of the catalog and stores other rows. -/
theorem perform_change_eq_ok_iff {db db' : Database} {p : TablePrefix} {now : String}
    {change : Change} :
    db.perform p now (.change change) = .ok db' ↔
      ∃ c c', db.catalog p change.firstTable = .ok c ∧ change.onCatalog now c = .ok c' ∧
        db' = db.store p c' := by
  cases change with
  | sync library program symbols =>
    -- both sides validate the names first
    simp only [perform, Change.onDatabase, syncExports, Change.onCatalog, Change.firstTable]
    cases (ObjectName.validate .library library).mapError CatalogError.invalidName with
    | error e => simp [bind, Except.bind, Except.map]
    | ok _ =>
      cases (ObjectName.validate .object program).mapError CatalogError.invalidName with
      | error e => simp [bind, Except.bind, Except.map]
      | ok _ => exact map_fst_write_eq_ok_iff
  | applyDescriptions => exact map_fst_write_eq_ok_iff
  | setDescription => exact map_fst_write_eq_ok_iff
  | fillFromNames => exact map_fst_write_eq_ok_iff
  | fillFromSource => exact map_fst_write_eq_ok_iff
  | shorten => exact map_fst_write_eq_ok_iff
  | delete => exact map_fst_write_eq_ok_iff

end Database

end ProcedureCatalog
