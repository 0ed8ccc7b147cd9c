/-
# Answers

What a change tells its caller, beside the rows that it leaves.

* `Change.act` : the rows after a change and its answer, `Change.ask` : the same in a database.
* `respond` : the state after a change, which an error leaves as it was, and the answer or the error.
* `fst_respond` : the state that a response leaves is that of the step of a run.
* `ask_cases` : a change is refused for its names, or reads the rows and writes others.
* `respond_eq_respond` : a change of a catalog that is there responds as it does on the rows alone.
-/
import ProcedureCatalog.Catalog.Edit
import ProcedureCatalog.Proofs.Catalog.Space

namespace ProcedureCatalog

/-! ## Outcomes -/

/-- What a change answers when it succeeds. -/
inductive Answer where
  | synced (report : SyncReport)
  | filled (report : FillReport)
  | found (wasThere : Bool)
  | shortened (count : Nat)
  deriving DecidableEq, Repr

/-- The state after an outcome, and the answer or the error. An error leaves the state. -/
def stateAndAnswer {σ : Type} (s : σ) :
    Except CatalogError (σ × Answer) → σ × Except CatalogError Answer
  | .ok (s', answer) => (s', .ok answer)
  | .error e => (s, .error e)

/-- A map of states may be applied before or after. -/
theorem stateAndAnswer_map {σ τ : Type} (f : σ → τ) (s : σ)
    (outcome : Except CatalogError (σ × Answer)) :
    stateAndAnswer (f s) (outcome.map (Prod.map f id)) =
      Prod.map f id (stateAndAnswer s outcome) := by
  cases outcome with
  | error e => rfl
  | ok result => rfl

/-! ## Changes and their answers -/

namespace Change

/-- The rows after a change, and its answer. -/
def act (now : String) (c : Catalog) : Change → Except CatalogError (Catalog × Answer)
  | sync library program symbols => do
    (ObjectName.validate .library library).mapError .invalidName
    (ObjectName.validate .object program).mapError .invalidName
    return (c.sync library program symbols now).map id .synced
  | applyDescriptions library program result =>
    return (c.applyDescriptions library program result now).map id .filled
  | setDescription library program name text =>
    return (c.setDescription library program name text now).map id .found
  | fillFromNames library program force =>
    (c.fillFromNames library program force now).map (Prod.map id .filled)
  | fillFromSource library program source force =>
    (c.fillFromSource Digest.sha256Hex library program source force now).map (Prod.map id .filled)
  | shorten filter => (c.shorten filter now).map (Prod.map id .shortened)
  | delete library program => return (c.delete library program).map id .found

/-- The database after a change to one of its catalogs, and the answer of the change. -/
def ask (db : Database) (p : TablePrefix) (now : String) :
    Change → Except CatalogError (Database × Answer)
  | sync library program symbols =>
    (db.syncExports p library program symbols now).map (Prod.map id .synced)
  | applyDescriptions library program result =>
    (db.applyDescriptions p library program result now).map (Prod.map id .filled)
  | setDescription library program name text =>
    (db.setDescription p library program name text now).map (Prod.map id .found)
  | fillFromNames library program force =>
    (db.fillFromNames p library program force now).map (Prod.map id .filled)
  | fillFromSource library program source force =>
    (db.fillFromSource p library program source force now).map (Prod.map id .filled)
  | shorten filter => (db.shortenDescriptions p filter now).map (Prod.map id .shortened)
  | delete library program => (db.deleteProgram p library program).map (Prod.map id .found)

end Change

/-- What is mapped twice and cut to its first part. -/
theorem map_fst_map {ε α β γ : Type} (x : Except ε (α × β)) (f : β → γ) :
    (x.map (Prod.map id f)).map (·.1) = x.map (·.1) := by
  cases x with
  | error e => rfl
  | ok a => rfl

/-- The two parts of a result may be mapped in any order. -/
theorem map_snd_map_fst {ε α β γ δ : Type} (x : Except ε (α × β)) (f : α → γ) (g : β → δ) :
    (x.map (Prod.map f id)).map (Prod.map id g) = (x.map (Prod.map id g)).map (Prod.map f id) := by
  cases x with
  | error e => rfl
  | ok a => rfl

namespace Change

/-- Without its answer, a change is the one of the rows. -/
theorem map_fst_act (now : String) (c : Catalog) (change : Change) :
    (change.act now c).map (·.1) = change.onCatalog now c := by
  cases change with
  | sync library program symbols =>
    simp only [act, onCatalog]
    cases (ObjectName.validate .library library).mapError CatalogError.invalidName with
    | error e => rfl
    | ok _ =>
      cases (ObjectName.validate .object program).mapError CatalogError.invalidName with
      | error e => rfl
      | ok _ => rfl
  | applyDescriptions => rfl
  | setDescription => rfl
  | fillFromNames => exact map_fst_map _ _
  | fillFromSource => exact map_fst_map _ _
  | shorten => exact map_fst_map _ _
  | delete => rfl

/-- A synchronisation is refused for its names, whatever the rows are, or it acts on the rows. -/
theorem act_sync_cases (library program : String) (symbols : List String) :
    (∃ e, ∀ now c, (sync library program symbols).act now c = .error e) ∨
      ∀ now c, (sync library program symbols).act now c =
        .ok (Prod.map id .synced (c.sync library program symbols now)) := by
  simp only [act]
  cases (ObjectName.validate .library library).mapError CatalogError.invalidName with
  | error e => exact .inl ⟨e, fun _ _ => rfl⟩
  | ok _ =>
    cases (ObjectName.validate .object program).mapError CatalogError.invalidName with
    | error e => exact .inl ⟨e, fun _ _ => rfl⟩
    | ok _ => exact .inr fun _ _ => rfl

/-- Without its answer, a change is the one of the database. -/
theorem map_fst_ask (db : Database) (p : TablePrefix) (now : String) (change : Change) :
    (change.ask db p now).map (·.1) = change.onDatabase db p now := by
  cases change <;> exact map_fst_map _ _

end Change

/-- The rows after a change, and its answer or error. -/
def Catalog.respond (c : Catalog) (now : String) (change : Change) :
    Catalog × Except CatalogError Answer := stateAndAnswer c (change.act now c)

namespace Database

/-- The database after a change, and the answer or the error of the change. -/
def respond (db : Database) (p : TablePrefix) (now : String) (change : Change) :
    Database × Except CatalogError Answer := stateAndAnswer db (change.ask db p now)

variable {db : Database} {p : TablePrefix} {c : Catalog}

/-- What a response leaves is what a step of a run leaves. -/
theorem fst_respond (db : Database) (p : TablePrefix) (now : String) (change : Change) :
    (db.respond p now change).1 = db.after ⟨p, .change change, now⟩ := by
  simp only [respond, after, perform, ← Change.map_fst_ask]
  cases change.ask db p now with
  | error e => rfl
  | ok result => rfl

/-! ## Changes of a catalog that is there -/

/-- Rows that are stored twice are those of the second time. -/
theorem store_store (db : Database) (p : TablePrefix) (c d : Catalog) :
    (db.store p c).store p d = db.store p d := by
  have hset : ∀ {ρ : Type} (name : String) (rows rows' : List ρ),
      setRows name rows' ∘ setRows name rows = setRows name rows' := by
    intro ρ name rows rows'
    funext t
    show setRows name rows' (setRows name rows t) = setRows name rows' t
    by_cases ht : isNamed name t = true
    · rw [setRows, isNamed_setRows, if_pos ht, name_setRows, setRows, if_pos ht]
    · rw [setRows, isNamed_setRows, if_neg ht, setRows, if_neg ht, setRows, if_neg ht]
  unfold store
  simp only [List.map_map, hset]

/-- On a catalog that is there, a writing operation acts on the rows. -/
theorem write_of_catalog {α : Type} {first : FirstTable} (hc : db.catalog p first = .ok c)
    (operation : Catalog → Except CatalogError (Catalog × α)) :
    db.write p first operation = (operation c).map (Prod.map (db.store p) id) := by
  unfold write
  rw [hc]
  cases h : operation c with
  | error e => simp [bind, Except.bind, Except.map, h]
  | ok result => simp [bind, Except.bind, Except.map, h, pure, Except.pure, Prod.map]

/-- On a catalog that is there, a writing operation that succeeds on the rows leaves what it makes of
them. -/
theorem exists_write_eq_ok {α : Type} {first : FirstTable} {c' : Catalog} {answer : α}
    (operation : Catalog → Except CatalogError (Catalog × α)) (hc : db.catalog p first = .ok c)
    (h : operation c = .ok (c', answer)) :
    ∃ db', db.write p first operation = .ok (db', answer) ∧
      ∀ first, db'.catalog p first = .ok c' :=
  ⟨db.store p c', write_eq_ok_iff.2 ⟨c, c', hc, h, rfl⟩,
    fun _ => catalog_store_of_same (sameName_iff.2 rfl) hc⟩

/-- The answer of a writing operation may be mapped before or after. -/
theorem map_write {α : Type} (first : FirstTable) (answer : α → Answer)
    (operation : Catalog → Except CatalogError (Catalog × α)) :
    (db.write p first operation).map (Prod.map id answer) =
      db.write p first fun c => (operation c).map (Prod.map id answer) := by
  unfold write
  cases db.catalog p first with
  | error e => rfl
  | ok c =>
    cases h : operation c with
    | error e => simp [bind, Except.bind, Except.map, h]
    | ok result => simp [bind, Except.bind, Except.map, h, pure, Except.pure, Prod.map]

/-- A change is refused for the names in it before anything is read, or it writes what it makes of
the rows. -/
theorem ask_cases (change : Change) :
    (∃ e, ∀ db p now c, change.ask db p now = .error e ∧ change.act now c = .error e) ∨
      ∀ db p now, change.ask db p now = db.write p change.firstTable fun c => change.act now c := by
  cases change with
  | sync library program symbols =>
    simp only [Change.ask, Change.act, syncExports]
    cases (ObjectName.validate .library library).mapError CatalogError.invalidName with
    | error e => exact .inl ⟨e, fun _ _ _ _ => ⟨rfl, rfl⟩⟩
    | ok _ =>
      cases (ObjectName.validate .object program).mapError CatalogError.invalidName with
      | error e => exact .inl ⟨e, fun _ _ _ _ => ⟨rfl, rfl⟩⟩
      | ok _ => exact .inr fun _ _ _ => map_write _ _ _
  | applyDescriptions => exact .inr fun _ _ _ => map_write _ _ _
  | setDescription => exact .inr fun _ _ _ => map_write _ _ _
  | fillFromNames => exact .inr fun _ _ _ => map_write _ _ _
  | fillFromSource => exact .inr fun _ _ _ => map_write _ _ _
  | shorten => exact .inr fun _ _ _ => map_write _ _ _
  | delete => exact .inr fun _ _ _ => map_write _ _ _

/-- On a catalog that is there, a change acts on the rows. -/
theorem ask_of_catalog (hc : ∀ first, db.catalog p first = .ok c) (now : String)
    (change : Change) :
    change.ask db p now = (change.act now c).map (Prod.map (db.store p) id) := by
  rcases ask_cases change with ⟨e, hrefused⟩ | hwrite
  · obtain ⟨hask, hact⟩ := hrefused db p now c
    rw [hask, hact]
    rfl
  · rw [hwrite, write_of_catalog (hc _)]

/-- A change of a catalog that is there leaves and answers what it does on the rows alone, and
leaves no other table. -/
theorem respond_eq_respond (hc : ∀ first, db.catalog p first = .ok c) (now : String)
    (change : Change) :
    (db.respond p now change).2 = (c.respond now change).2 ∧
      (∀ first, (db.respond p now change).1.catalog p first = .ok (c.respond now change).1) ∧
        ∀ d, (db.respond p now change).1.store p d = db.store p d := by
  unfold respond Catalog.respond
  rw [ask_of_catalog hc]
  cases change.act now c with
  | error e => exact ⟨rfl, hc, fun _ => rfl⟩
  | ok result =>
    refine ⟨rfl, fun first => ?_, store_store db p result.1⟩
    exact catalog_store_of_same (sameName_iff.2 rfl) (hc first)

/-! ## Changes of a catalog that is not there -/

/-- Without the catalog, a change fails with the same error at all times. -/
theorem respond_of_no_catalog (hnone : ∀ first c, db.catalog p first ≠ .ok c) (change : Change) :
    ∃ e, ∀ now, db.respond p now change = (db, .error e) := by
  have hfails : ∃ e, ∀ now, change.ask db p now = .error e := by
    rcases ask_cases change with ⟨e, hrefused⟩ | hwrite
    · exact ⟨e, fun now => (hrefused db p now .empty).1⟩
    · cases hc : db.catalog p change.firstTable with
      | ok c => exact absurd hc (hnone _ c)
      | error e =>
        refine ⟨e, fun now => ?_⟩
        rw [hwrite, write, hc]
        rfl
  obtain ⟨e, he⟩ := hfails
  refine ⟨e, fun now => ?_⟩
  rw [respond, he]
  rfl

/-! ## Stamps -/

/-- The database with the same stamp on all rows of a catalog. -/
def stamped (db : Database) (p : TablePrefix) (stamp : String) : Database :=
  match db.stampAll p stamp with
  | .ok (db', _) => db'
  | .error _ => db

/-- The rows of a catalog that is there are stamped. -/
theorem stamped_of_catalog (hc : ∀ first, db.catalog p first = .ok c) (stamp : String) :
    db.stamped p stamp = db.store p (c.stampAll stamp) := by
  unfold stamped stampAll
  rw [write_of_catalog (hc _)]
  rfl

end Database

end ProcedureCatalog
