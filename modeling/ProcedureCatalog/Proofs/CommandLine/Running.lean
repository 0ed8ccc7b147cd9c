/-
# Activities on a machine

What parts of commands do when they run on a machine: their result, what has been printed after them
and the machine that they leave.

* `Machine.Keeps` : the database at a path, which is found again when the path is opened.
* `Activity.runOn` : an activity on a machine.
* `Activity.runOn_bind_of_ok`, `Activity.exists_of_runOn_bind` : activities one after the other.
* `keeps_of_openCatalog` : an open catalog is kept where it was opened, unless it is kept nowhere.
-/
import Mathlib.Data.List.Basic
import ProcedureCatalog.CommandLine.Machine

namespace ProcedureCatalog.CommandLine

/-! ## Places on a machine -/

namespace Machine

variable {machine : Machine} {place other : Place} {path : String} {db : Database}

@[simp] theorem entry?_nil (machine : Machine) : machine.entry? [] = some .directory := rfl

/-- What stands at a place after an entry was put at one. -/
theorem entry?_put (machine : Machine) (entry : Entry) (hother : other ≠ []) :
    Machine.entry? (machine.put place entry) other =
      if other = place then some entry else machine.entry? other := by
  have hlookup : ∀ entries : List (Place × Entry), other ≠ place →
      (entries.filter (·.1 != place)).lookup other = entries.lookup other := by
    intro entries hne
    induction entries with
    | nil => rfl
    | cons first entries ih =>
      by_cases hfirst : first.1 = place
      · have hdiffer : (other == first.1) = false := by simpa [hfirst] using hne
        rw [List.filter_cons_of_neg (by simp [hfirst]), ih, List.lookup_cons, hdiffer]
      · rw [List.filter_cons_of_pos (by simpa using hfirst), List.lookup_cons, List.lookup_cons, ih]
  have hnonempty : other.isEmpty = false := by simpa using hother
  simp only [ entry?, put, hnonempty, Bool.false_eq_true, if_false, List.lookup_cons]
  by_cases heq : other = place
  · rw [if_pos heq, beq_iff_eq.2 heq]
  · rw [if_neg heq, beq_false_of_ne heq]
    exact hlookup machine.entries heq

/-- A walk goes through directories only, so it leads to the same place after an entry was put where
no directory stands. -/
theorem walk_put (hplace : machine.entry? place ≠ some .directory) (entry : Entry)
    {components : List String} {start last : Place}
    (h : machine.walk start components = .ok last) :
    (machine.put place entry).walk start components = .ok last := by
  induction components generalizing start with
  | nil => exact h
  | cons component rest ih =>
    unfold walk at h ⊢
    have hdirectory : machine.entry? start = some .directory := by
      unfold requireDirectory at h
      cases hstart : machine.entry? start with
      | none => simp [hstart, bind, Except.bind] at h
      | some found => cases found <;> simp [hstart, bind, Except.bind] at h ⊢
    have hput : Machine.entry? (machine.put place entry) start = some .directory := by
      by_cases hroot : start = []
      · rw [hroot, entry?_nil]
      · have hdiffer : start ≠ place := by
          rintro rfl
          exact hplace hdirectory
        rw [entry?_put machine entry hroot, if_neg hdiffer, hdirectory]
    simp only [requireDirectory, hdirectory, hput] at h ⊢
    exact ih h

/-- The path names a place at which a database can be kept: no directory stands there. -/
def CanKeep (machine : Machine) (path : String) : Prop :=
  ∃ place, machine.locate path = .ok place ∧ machine.entry? place ≠ some .directory

/-- The path names a place at which the database stands. -/
def Keeps (machine : Machine) (path : String) (db : Database) : Prop :=
  ∃ place, machine.locate path = .ok place ∧ machine.entry? place = some (.database db)

theorem Keeps.canKeep (h : machine.Keeps path db) : machine.CanKeep path := by
  obtain ⟨place, hplace, hentry⟩ := h
  refine ⟨place, hplace, ?_⟩
  rw [hentry]
  simp

/-- A database that is put where it can be kept is kept there. -/
theorem CanKeep.keeps_putDatabase (h : machine.CanKeep path) (db : Database) :
    (machine.putDatabase path db).Keeps path db := by
  obtain ⟨place, hplace, hentry⟩ := h
  have hne : place ≠ [] := by
    rintro rfl
    exact hentry rfl
  have hput : machine.putDatabase path db = machine.put place (.database db) := by
    rw [putDatabase, hplace]
  rw [hput]
  refine ⟨place, ?_, ?_⟩
  · unfold locate at hplace ⊢
    split at hplace
    · simp at hplace
    · next hpath =>
      rw [if_neg hpath]
      exact walk_put hentry _ hplace
  · rw [entry?_put machine _ hne, if_pos rfl]

/-- A database that is kept is found when its path is opened. -/
theorem Keeps.openDatabase (h : machine.Keeps path db) :
    machine.openDatabase path = (some (.database db), machine) := by
  obtain ⟨place, hplace, hentry⟩ := h
  have hfind : machine.find path = .ok (.database db) := by
    simp [find, hplace, hentry, bind, Except.bind]
  rw [Machine.openDatabase, hfind]
  rfl

/-- Where a database file was opened, one can be kept. -/
theorem canKeep_of_openDatabase {machine' : Machine} {file : DatabaseFile}
    (h : machine.openDatabase path = (some file, machine')) : machine'.CanKeep path := by
  unfold Machine.openDatabase at h
  cases hplace : machine.locate path with
  | error e =>
    have hfind : machine.find path = .error e := by simp [find, hplace, bind, Except.bind]
    rw [hfind, hplace] at h
    split at h <;> simp_all
  | ok place =>
    cases hentry : machine.entry? place with
    | none =>
      have hfind : machine.find path = .error .notFound := by
        simp [find, hplace, hentry, bind, Except.bind]
      rw [hfind, hplace] at h
      obtain ⟨-, rfl⟩ := Prod.mk.inj h
      have hcan : machine.CanKeep path := ⟨place, hplace, by simp [hentry]⟩
      exact (hcan.keeps_putDatabase .empty).canKeep
    | some entry =>
      have hfind : machine.find path = .ok entry := by
        simp [find, hplace, hentry, bind, Except.bind]
      rw [hfind] at h
      obtain ⟨hfile, rfl⟩ := Prod.mk.inj h
      refine ⟨place, hplace, ?_⟩
      rw [hentry]
      intro heq
      rw [Option.some.inj heq] at hfile
      simp [databaseFile?] at hfile

/-- A machine on which more programs were run: nothing else has changed. -/
def IsLater (machine' machine : Machine) : Prop :=
  ∃ started, machine' = { machine with started := started }

theorem IsLater.refl (machine : Machine) : machine.IsLater machine := ⟨machine.started, rfl⟩

theorem IsLater.trans {first second third : Machine} (h : third.IsLater second)
    (h' : second.IsLater first) : third.IsLater first := by
  obtain ⟨started, rfl⟩ := h
  obtain ⟨started', rfl⟩ := h'
  exact ⟨started, rfl⟩

/-- Running a program gives what the machine says of it, and leaves a later machine. -/
theorem isLater_runProgram (machine : Machine) (invocation : Host.Invocation)
    (command : String) : (machine.runProgram invocation command).2.IsLater machine := by
  unfold runProgram
  cases machine.execute invocation command with
  | none => exact .refl machine
  | some completion => exact ⟨_, rfl⟩

/-- Programs give the same on a later machine. -/
theorem IsLater.fst_runProgram {machine' : Machine} (h : machine'.IsLater machine)
    (invocation : Host.Invocation) (command : String) :
    (machine'.runProgram invocation command).1 = (machine.runProgram invocation command).1 := by
  obtain ⟨started, rfl⟩ := h
  unfold runProgram
  dsimp only
  cases machine.execute invocation command with
  | none => rfl
  | some completion => rfl

theorem walk_started (machine : Machine) (started : List (Host.Invocation × String))
    (start : Place) (components : List String) :
    ({ machine with started := started } : Machine).walk start components =
      machine.walk start components := by
  induction components generalizing start with
  | nil => rfl
  | cons component rest ih =>
    unfold walk
    rw [ih]
    rfl

/-- Where a database can be kept, it can be kept later on. -/
theorem IsLater.canKeep {machine' : Machine} (h : machine'.IsLater machine)
    (hkeep : machine.CanKeep path) : machine'.CanKeep path := by
  obtain ⟨started, rfl⟩ := h
  obtain ⟨place, hplace, hentry⟩ := hkeep
  refine ⟨place, ?_, hentry⟩
  unfold locate at hplace ⊢
  rw [walk_started]
  exact hplace

end Machine

/-! ## Activities -/

namespace Activity

variable {α β : Type} {printed printed' : Printed} {machine machine' : Machine}

/-- The result of an activity on a machine, what has been printed after it, and the machine. -/
def runOn (activity : Activity (StateM Machine) α) (printed : Printed) (machine : Machine) :
    (Except CommandError α × Printed) × Machine :=
  (activity.run.run printed).run machine

theorem runOn_pure (a : α) (printed : Printed) (machine : Machine) :
    runOn (pure a) printed machine = ((.ok a, printed), machine) := rfl

theorem runOn_throw (error : CommandError) (printed : Printed) (machine : Machine) :
    runOn (throw error : Activity (StateM Machine) α) printed machine =
      ((.error error, printed), machine) := rfl

/-- An activity that goes on with the result of another, if that has one. -/
theorem runOn_bind (x : Activity (StateM Machine) α) (f : α → Activity (StateM Machine) β)
    (printed : Printed) (machine : Machine) :
    runOn (x >>= f) printed machine =
      match runOn x printed machine with
      | ((.ok a, printed), machine) => runOn (f a) printed machine
      | ((.error error, printed), machine) => ((.error error, printed), machine) := by
  rcases hx : runOn x printed machine with ⟨⟨result, printed'⟩, machine'⟩
  have hrun : (x.run.run printed).run machine = ((result, printed'), machine') := hx
  unfold runOn
  rw [ExceptT.run_bind, StateT.run_bind, StateT.run_bind, hrun]
  cases result with
  | error error => rfl
  | ok a => rfl

/-- After an activity that succeeds comes the next. -/
theorem runOn_bind_of_ok {x : Activity (StateM Machine) α}
    {f : α → Activity (StateM Machine) β} {a : α}
    (h : runOn x printed machine = ((.ok a, printed'), machine')) :
    runOn (x >>= f) printed machine = runOn (f a) printed' machine' := by
  rw [runOn_bind, h]

/-- Of two activities that succeed one after the other, the first succeeds. -/
theorem exists_of_runOn_bind {x : Activity (StateM Machine) α}
    {f : α → Activity (StateM Machine) β} {b : β}
    (h : runOn (x >>= f) printed machine = ((.ok b, printed'), machine')) :
    ∃ a between next, runOn x printed machine = ((.ok a, between), next) ∧
      runOn (f a) between next = ((.ok b, printed'), machine') := by
  rw [runOn_bind] at h
  split at h
  · next a between next heq => exact ⟨a, between, next, heq, h⟩
  · simp at h

theorem runOn_ask (step : StateM Machine α) (printed : Printed) (machine : Machine) :
    runOn (ask step) printed machine =
      ((.ok (step.run machine).1, printed), (step.run machine).2) := rfl

theorem runOn_settle {ε : Type} (wrap : ε → CommandError) (result : Except ε α)
    (printed : Printed) (machine : Machine) :
    runOn (settle wrap result) printed machine = ((result.mapError wrap, printed), machine) := by
  cases result with
  | error e => rfl
  | ok a => rfl

/-- A result that is settled with success was one. -/
theorem exists_of_runOn_settle {ε : Type} {wrap : ε → CommandError} {result : Except ε α} {a : α}
    (h : runOn (settle wrap result) printed machine = ((.ok a, printed'), machine')) :
    result = .ok a ∧ machine' = machine := by
  rw [runOn_settle] at h
  cases result with
  | error e => simp [Except.mapError] at h
  | ok b => simp_all [Except.mapError]

/-- Activities over a list whose results are known, on machines that more and more programs were run
on. -/
theorem exists_runOn_mapM {f : α → Activity (StateM Machine) β} {g : α → β} {items : List α}
    (h : ∀ a ∈ items, ∀ next : Machine, next.IsLater machine → ∃ last : Machine,
      last.IsLater next ∧ runOn (f a) printed next = ((.ok (g a), printed), last)) :
    ∃ last : Machine, last.IsLater machine ∧
      runOn (items.mapM f) printed machine = ((.ok (items.map g), printed), last) := by
  induction items generalizing machine with
  | nil => exact ⟨machine, .refl machine, rfl⟩
  | cons a items ih =>
    obtain ⟨next, hnext, hone⟩ := h a List.mem_cons_self machine (.refl machine)
    obtain ⟨last, hlast, hrest⟩ := ih fun b hb later hlater =>
      h b (List.mem_cons_of_mem _ hb) later (hlater.trans hnext)
    refine ⟨last, hlast.trans hnext, ?_⟩
    rw [List.mapM_cons, runOn_bind_of_ok hone, runOn_bind_of_ok hrest, List.map_cons]
    rfl

end Activity

/-! ## Open catalogs -/

section Opening

open Activity

variable {printed printed' : Printed} {machine machine' : Machine}

/-- Saving keeps the database, unless it is kept nowhere. -/
theorem runOn_save (c : OpenCatalog) (printed : Printed) (machine : Machine) :
    runOn (save Machine.system c) printed machine = ((.ok (), printed),
      if isTransient c.path then machine else machine.putDatabase c.path c.database) := by
  unfold save
  split
  · rfl
  · rfl

/-- Where a file was opened, a database can be kept. -/
theorem canKeep_of_openFile {path : String} {file : DatabaseFile}
    (hpath : isTransient path = false)
    (h : runOn (openFile Machine.system path) printed machine = ((.ok file, printed'), machine')) :
    machine'.CanKeep path := by
  unfold openFile at h
  rw [hpath] at h
  obtain ⟨found, between, next, hask, hrest⟩ := exists_of_runOn_bind h
  rw [runOn_ask] at hask
  cases found with
  | none => simp [runOn_throw] at hrest
  | some file' =>
    obtain ⟨hresult, rfl⟩ := Prod.mk.inj hrest
    obtain ⟨hanswer, rfl⟩ := Prod.mk.inj hask
    have hfound : (machine.openDatabase path).1 = some file' :=
      Except.ok.inj (Prod.mk.inj hanswer).1
    exact Machine.canKeep_of_openDatabase (Prod.ext hfound rfl)

/-- **An open catalog is kept where it was opened**, unless it is kept nowhere. -/
theorem keeps_of_openCatalog {s : CatalogSettings} {opened : OpenCatalog}
    (h : runOn (openCatalog Machine.system s) printed machine =
      ((.ok opened, printed'), machine')) :
    opened.path = s.path ∧
      (isTransient s.path = false → machine'.Keeps s.path opened.database) := by
  unfold openCatalog at h
  obtain ⟨_, _, _, -, hopen⟩ := exists_of_runOn_bind h
  obtain ⟨file, _, next, hfile, hcreate⟩ := exists_of_runOn_bind hopen
  obtain ⟨tables, _, next', htables, hmatch⟩ := exists_of_runOn_bind hcreate
  obtain ⟨-, hnext⟩ := exists_of_runOn_settle htables
  cases file with
  | foreign => simp [runOn_throw] at hmatch
  | database db =>
    obtain ⟨db', between, next'', hup, hsave⟩ := exists_of_runOn_bind hmatch
    obtain ⟨-, hnext'⟩ := exists_of_runOn_settle hup
    have hkeep := runOn_save ⟨s.path, tables, db'⟩ between next''
    obtain ⟨hresult, hmachine⟩ := Prod.mk.inj ((runOn_bind_of_ok hkeep).symm.trans hsave)
    obtain rfl := Except.ok.inj (Prod.mk.inj hresult).1
    refine ⟨rfl, fun hpath => ?_⟩
    have hput : machine' = next.putDatabase s.path db' := by
      rw [← hmachine, hnext', hnext, hpath]
      rfl
    rw [hput]
    exact (canKeep_of_openFile hpath hfile).keeps_putDatabase db'

/-- A catalog whose database is kept is opened, and kept again with its tables created. -/
theorem runOn_openCatalog_of_keeps {s : CatalogSettings} {tables : TablePrefix} {db db' : Database}
    (hdirectory : runOn (prepareDirectory Machine.system s.path) printed machine =
      ((.ok (), printed), machine))
    (hpath : isTransient s.path = false) (hkeeps : machine.Keeps s.path db)
    (htables : TablePrefix.ofString s.tablePrefix = .ok tables) (hup : db.up tables = .ok db') :
    runOn (openCatalog Machine.system s) printed machine =
      ((.ok ⟨s.path, tables, db'⟩, printed), machine.putDatabase s.path db') := by
  have hfile : runOn (openFile Machine.system s.path) printed machine =
      ((.ok (.database db), printed), machine) := by
    have hask := runOn_ask (Machine.system.openDatabase s.path) printed machine
    have hanswer : (Machine.system.openDatabase s.path).run machine =
        (some (.database db), machine) := hkeeps.openDatabase
    rw [hanswer] at hask
    rw [openFile, hpath]
    exact (runOn_bind_of_ok hask).trans rfl
  have hprefix : runOn (settle .prepareTables (TablePrefix.ofString s.tablePrefix)) printed
      machine = ((.ok tables, printed), machine) := by
    rw [htables]
    rfl
  have hcreate : runOn (settle .createTables (db.up tables)) printed machine =
      ((.ok db', printed), machine) := by
    rw [hup]
    rfl
  have hsave := runOn_save ⟨s.path, tables, db'⟩ printed machine
  rw [hpath] at hsave
  exact (runOn_bind_of_ok hdirectory).trans ((runOn_bind_of_ok hfile).trans
    ((runOn_bind_of_ok hprefix).trans ((runOn_bind_of_ok hcreate).trans (runOn_bind_of_ok hsave))))

end Opening

end ProcedureCatalog.CommandLine
