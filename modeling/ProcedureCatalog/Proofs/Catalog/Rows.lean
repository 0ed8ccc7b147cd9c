/-
# What changes do to single rows

Every stored procedure after a change is one that was stored before, as it was or with another
description, or a new one without description.

* `StoredProcedure.Rewrites` lists what a change can make of a stored procedure.
* `rewrites_of_mem_onCatalog` : nothing else happens to a row.
* `forall_onCatalog` : what new rows have and no rewriting breaks, all rows keep.
-/
import ProcedureCatalog.Proofs.Catalog.Run
import ProcedureCatalog.Proofs.Catalog.Table

namespace ProcedureCatalog

/-! ## Keys stay -/

namespace StoredProcedure

@[simp] theorem key_describe (text : String) (source : DescriptionSource) (now : String)
    (r : StoredProcedure) : (r.describe text source now).key = r.key := rfl

@[simp] theorem key_clear (now : String) (r : StoredProcedure) : (r.clear now).key = r.key := rfl

/-- A row belongs to a service program exactly when its key starts with that. -/
theorem belongsTo_iff {library program : String} {r : StoredProcedure} :
    r.belongsTo library program = true ↔ r.library = library ∧ r.program = program := by
  simp [belongsTo]

/-- A row of one service program does not belong to another. -/
theorem belongsTo_eq_false_of_other {library program l q : String} {r : StoredProcedure}
    (hother : ¬ (library = l ∧ program = q)) (h : r.belongsTo library program = true) :
    r.belongsTo l q = false := by
  obtain ⟨rfl, rfl⟩ := belongsTo_iff.1 h
  rw [Bool.eq_false_iff, ne_eq, belongsTo_iff]
  exact hother

theorem key_eq_iff {library program name : String} {r : StoredProcedure} :
    r.key = [library, program, name] ↔
      r.library = library ∧ r.program = program ∧ r.name = name := by
  simp [key]

/-- Rows of one key belong to the same service programs. -/
theorem belongsTo_congr {library program : String} {r r' : StoredProcedure}
    (h : r'.key = r.key) : r'.belongsTo library program = r.belongsTo library program := by
  obtain ⟨hl, hp, -⟩ := key_eq_iff.1 h
  rw [belongsTo, belongsTo, hl, hp]

end StoredProcedure

namespace Catalog

@[simp] theorem key_writeByHand (text now : String) (r : StoredProcedure) :
    (writeByHand text now r).key = r.key := by
  unfold writeByHand
  split <;> rfl

@[simp] theorem key_replaceText (text now : String) (r : StoredProcedure) :
    (replaceText text now r).key = r.key := by
  unfold replaceText
  split <;> rfl

@[simp] theorem key_applyTo (result : ExtractionResult) (now : String) (r : StoredProcedure) :
    (applyTo result now r).key = r.key := by
  unfold applyTo
  split
  · split <;> rfl
  · rfl

@[simp] theorem key_inferFor (force : Bool) (now : String) (r : StoredProcedure) :
    (inferFor force now r).key = r.key := by
  unfold inferFor
  split <;> rfl

@[simp] theorem key_shortenRow (now : String) (r : StoredProcedure) :
    (shortenRow now r).key = r.key := by
  unfold shortenRow
  split <;> simp

end Catalog

/-! ## Rewriting a row -/

/-- What a change can make of a stored procedure. -/
inductive StoredProcedure.Rewrites (now : String) :
    Change → StoredProcedure → StoredProcedure → Prop
  /-- The row stays as it is. -/
  | same {change : Change} (r : StoredProcedure) : Rewrites now change r r
  /-- The row named by the change gets a text written by hand. -/
  | byHand {library program name text : String} {r : StoredProcedure}
      (hkey : r.key = [library, program, name]) :
      Rewrites now (.setDescription library program name text) r
        (Catalog.writeByHand (Description.normalize (Text.trimmed text)) now r)
  /-- The row gets the description that a given result has for it. -/
  | applied {library program : String} {result : ExtractionResult} {r : StoredProcedure}
      {found : FoundDescription} (hget : result.get? r.name = some found)
      (hauto : r.isManual = false) :
      Rewrites now (.applyDescriptions library program result) r
        (r.describe found.text found.strategy.source now)
  /-- The row gets the description found for it in a source. -/
  | extracted {library program source : String} {force : Bool} {r : StoredProcedure}
      {expected : ExpectedNames} {found : FoundDescription}
      (hget : (extract expected Strategy.fromSource source).get? r.name = some found)
      (hauto : r.isManual = false) :
      Rewrites now (.fillFromSource library program source force) r
        (r.describe found.text found.strategy.source now)
  /-- The row gets the description inferred from its name. -/
  | inferred {library program text : String} {force : Bool} {r : StoredProcedure}
      (hinfer : Inference.infer r.name = some text) (hauto : r.isManual = false) :
      Rewrites now (.fillFromNames library program force) r (r.describe text .nameInference now)
  /-- The description of the row is shortened. -/
  | shortened {filter : Option (String × String)} {r : StoredProcedure} {text : String}
      (hshort : Catalog.shorterText? r = some text) :
      Rewrites now (.shorten filter) r (Catalog.replaceText text now r)

/-- A rewritten row keeps its key. -/
theorem StoredProcedure.Rewrites.key_eq {now : String} {change : Change} {r r' : StoredProcedure}
    (h : r.Rewrites now change r') : r'.key = r.key := by
  cases h <;> simp

/-- The name of the row is trimmed and not empty. -/
def StoredProcedure.HasPlainName (r : StoredProcedure) : Prop :=
  Text.trimmed r.name = r.name ∧ r.name ≠ ""

/-- A rewritten row keeps its plain name. -/
theorem StoredProcedure.Rewrites.hasPlainName {now : String} {change : Change}
    {r r' : StoredProcedure} (h : r.Rewrites now change r') (hr : r.HasPlainName) :
    r'.HasPlainName := by
  obtain ⟨-, -, hname⟩ := StoredProcedure.key_eq_iff.1 h.key_eq
  rw [HasPlainName, hname]
  exact hr

namespace Catalog

/-! ## One change after the other -/

/-- The names that a synchronisation keeps or adds are trimmed and not empty. -/
theorem mem_trimmedNonempty {symbols : List String} {name : String}
    (h : name ∈ Text.trimmedNonempty symbols) : Text.trimmed name = name ∧ name ≠ "" := by
  obtain ⟨hmem, hne⟩ := List.mem_filter.1 h
  obtain ⟨symbol, -, rfl⟩ := List.mem_map.1 hmem
  exact ⟨Text.trimmed_trimmed symbol, by simpa using hne⟩

/-- The rows after some procedures were added are the new ones and those that were there. -/
theorem mem_foldl_addProcedure {c : Catalog} {library program now : String} {names : List String}
    {r : StoredProcedure}
    (h : r ∈ (names.foldl (fun c name => c.addProcedure library program name now) c).procedures) :
    r ∈ c.procedures ∨ ∃ name ∈ names, r = .new library program name now := by
  induction names generalizing c with
  | nil => exact .inl h
  | cons name names ih =>
    rcases ih h with h | ⟨other, hother, rfl⟩
    · rcases Table.mem_of_mem_insert h with rfl | h
      · exact .inr ⟨name, List.mem_cons_self, rfl⟩
      · exact .inl h
    · exact .inr ⟨other, List.mem_cons_of_mem _ hother, rfl⟩

@[simp] theorem programs_foldl_addProcedure {c : Catalog} {library program now : String}
    (names : List String) :
    (names.foldl (fun c name => c.addProcedure library program name now) c).programs =
      c.programs := by
  induction names generalizing c with
  | nil => rfl
  | cons name names ih => exact ih

@[simp] theorem procedures_touchProgram (c : Catalog) (library program now : String) :
    (c.touchProgram library program now).procedures = c.procedures := by
  unfold touchProgram
  split <;> rfl

/-- The names that a service program has after it was synchronised with some symbols. -/
def exported (symbols : List String) : List String :=
  Text.orderedSet (Text.trimmedNonempty symbols)

/-- The exported names that the service program does not have yet. -/
def newNames (c : Catalog) (library program : String) (symbols : List String) : List String :=
  (exported symbols).filter (!(c.procedureNames library program).contains ·)

/-- The catalog with the new procedures of a synchronisation and all old ones. -/
def grown (c : Catalog) (library program now : String) (symbols : List String) : Catalog :=
  (c.newNames library program symbols).foldl
    (fun c name => c.addProcedure library program name now) (c.touchProgram library program now)

/-- A synchronisation adds what is new, removes what is not exported, and makes the checksum void
when something is new. -/
theorem sync_eq (c : Catalog) (library program now : String) (symbols : List String) :
    (c.sync library program symbols now).1 =
      if (c.newNames library program symbols).isEmpty then
        (c.grown library program now symbols).keepOnly library program (exported symbols)
      else
        ((c.grown library program now symbols).keepOnly library program
          (exported symbols)).setChecksum library program none := rfl

/-- A name belongs to a service program exactly when a row has its key. -/
theorem mem_procedureNames {c : Catalog} {library program name : String} :
    name ∈ c.procedureNames library program ↔
      ∃ r ∈ c.procedures, r.key = [library, program, name] := by
  simp only [procedureNames, proceduresOf, List.mem_map, List.mem_filter,
    StoredProcedure.belongsTo_iff, StoredProcedure.key_eq_iff]
  constructor
  · rintro ⟨r, ⟨hr, hl, hp⟩, hn⟩
    exact ⟨r, hr, hl, hp, hn⟩
  · rintro ⟨r, hr, hl, hp, hn⟩
    exact ⟨r, ⟨hr, hl, hp⟩, hn⟩

/-- The rows after a synchronisation. -/
theorem procedures_sync (c : Catalog) (library program now : String) (symbols : List String) :
    (c.sync library program symbols now).1.procedures =
      (c.grown library program now symbols).procedures.filter fun r =>
        !r.belongsTo library program || (exported symbols).contains r.name := by
  rw [sync_eq]
  split <;> rfl

/-- A row after a synchronisation was there before, or is new under a key that had no row. -/
theorem mem_procedures_sync {c : Catalog} {library program now : String} {symbols : List String}
    {r : StoredProcedure} (h : r ∈ (c.sync library program symbols now).1.procedures) :
    r ∈ c.procedures ∨ ∃ name, r = .new library program name now ∧ Text.trimmed name = name ∧
      name ≠ "" ∧ ∀ old ∈ c.procedures, old.key ≠ r.key := by
  rw [procedures_sync] at h
  rcases mem_foldl_addProcedure (List.mem_filter.1 h).1 with h | ⟨name, hname, rfl⟩
  · exact .inl (by simpa using h)
  · obtain ⟨hexported, habsent⟩ := List.mem_filter.1 hname
    obtain ⟨htrim, hne⟩ := mem_trimmedNonempty (Text.mem_orderedSet.1 hexported)
    refine .inr ⟨name, rfl, htrim, hne, fun old hold hkey => ?_⟩
    -- a row of its key would make the name an existing one
    have hmem : name ∈ c.procedureNames library program :=
      mem_procedureNames.2 ⟨old, hold, hkey⟩
    simp [hmem] at habsent

/-- A row that is applied to stays or gets what was found for it. -/
theorem applyTo_cases (result : ExtractionResult) (now : String) (r : StoredProcedure) :
    applyTo result now r = r ∨ ∃ found, result.get? r.name = some found ∧ r.isManual = false ∧
      applyTo result now r = r.describe found.text found.strategy.source now := by
  unfold applyTo
  split
  · next found hget =>
    cases hm : r.isManual with
    | true => exact .inl rfl
    | false => exact .inr ⟨found, hget, rfl, rfl⟩
  · exact .inl rfl

/-- A row that is inferred for stays or gets what its name says. -/
theorem inferFor_cases (force : Bool) (now : String) (r : StoredProcedure) :
    inferFor force now r = r ∨ ∃ text, Inference.infer r.name = some text ∧
      r.isManual = false ∧ inferFor force now r = r.describe text .nameInference now := by
  unfold inferFor
  split
  · next text htext =>
    unfold inferredText? at htext
    split at htext
    · simp at htext
    · next hskip =>
      refine .inr ⟨text, htext, ?_, rfl⟩
      unfold isSkipped at hskip
      simp only [Bool.or_eq_true, not_or] at hskip
      simpa using hskip.1
  · exact .inl rfl

/-- The extraction that a fill from a source stores. -/
def sourceResult (c : Catalog) (library program source : String) : ExtractionResult :=
  extract (ExpectedNames.ofList (c.procedureNames library program)) Strategy.fromSource source

/-- The catalog after the extraction from a source was stored with a checksum. -/
def extracted (c : Catalog) (library program source checksum now : String) : Catalog :=
  (c.changeProcedures library program
    (applyTo (c.sourceResult library program source) now)).setChecksum library program
    (some checksum)

/-- A fill from a source that succeeds is skipped because the checksum is the stored one, finds no
names to extract for, or stores the extraction. -/
theorem fillFromSource_cases {checksum : String → String} {c c' : Catalog}
    {library program source now : String} {force : Bool} {report : FillReport}
    (h : c.fillFromSource checksum library program source force now = .ok (c', report)) :
    ∃ p, c.program? library program = some p ∧
      ((force = false ∧ p.checksum = some (checksum source) ∧ c' = c ∧ report = .unchanged) ∨
        (report.sourceUnchanged = false ∧
          (ExpectedNames.ofList (c.procedureNames library program)).names = [] ∧ c' = c) ∨
        (report.sourceUnchanged = false ∧
          (ExpectedNames.ofList (c.procedureNames library program)).names ≠ [] ∧
          c' = c.extracted library program source (checksum source) now)) := by
  unfold fillFromSource at h
  split at h
  · simp at h
  · next p hp =>
    refine ⟨p, hp, ?_⟩
    split at h
    · next hskip =>
      obtain ⟨rfl, rfl⟩ := Prod.mk.inj (Except.ok.inj h)
      simp only [Bool.and_eq_true, Bool.not_eq_true', beq_iff_eq] at hskip
      exact .inl ⟨hskip.1, hskip.2, rfl, rfl⟩
    · dsimp only at h
      split at h
      · next hempty =>
        obtain ⟨rfl, rfl⟩ := Prod.mk.inj (Except.ok.inj h)
        exact .inr (.inl ⟨rfl, List.isEmpty_iff.1 hempty, rfl⟩)
      · next hsome =>
        obtain ⟨rfl, rfl⟩ := Prod.mk.inj (Except.ok.inj h)
        exact .inr (.inr ⟨rfl, fun hnil => hsome (List.isEmpty_iff.2 hnil), rfl⟩)

/-- The shorter text of a row is the normal form of its description, and another text. -/
theorem shorterText?_eq_some {r : StoredProcedure} {text : String}
    (h : shorterText? r = some text) : ∃ old, r.description = some old ∧
      text = Description.normalize old ∧ Description.normalize old ≠ old := by
  unfold shorterText? at h
  split at h
  · simp at h
  · next old hold =>
    split at h
    · next hlooks =>
      refine ⟨old, hold, (Option.some.inj h).symm, ?_⟩
      simpa using (Bool.and_eq_true_iff.1 hlooks).2
    · simp at h

/-- A fill from a source succeeds for a service program that is there. -/
theorem exists_fillFromSource_eq_ok {c : Catalog} {library program : String} {p : ServiceProgram}
    (checksum : String → String) (source : String) (force : Bool) (now : String)
    (hp : c.program? library program = some p) :
    ∃ result, c.fillFromSource checksum library program source force now = .ok result := by
  unfold fillFromSource
  rw [hp]
  dsimp only
  split
  · exact ⟨_, rfl⟩
  · split
    · exact ⟨_, rfl⟩
    · exact ⟨_, rfl⟩

/-- A fill from names that succeeds infers for the rows of the service program. -/
theorem eq_of_fillFromNames {c : Catalog} {library program now : String} {force : Bool}
    {result : Catalog × FillReport}
    (h : c.fillFromNames library program force now = .ok result) :
    result.1 = c.changeProcedures library program (inferFor force now) := by
  unfold fillFromNames at h
  cases hr : c.records library program with
  | error e => simp [hr, bind, Except.bind] at h
  | ok records =>
    simp only [hr, bind, Except.bind, pure, Except.pure] at h
    rw [← Except.ok.inj h]

/-- Shortening that succeeds shortens the covered rows. -/
theorem eq_of_shorten {c : Catalog} {filter : Option (String × String)} {now : String}
    {result : Catalog × Nat} (h : c.shorten filter now = .ok result) :
    result.1 = { c with
      procedures := c.procedures.map fun r => if isCovered filter r then shortenRow now r else r }
    := by
  unfold shorten at h
  dsimp only at h
  split at h
  · rw [← Except.ok.inj h]
  · simp at h

/-- A row after a change of all rows of a service program. -/
theorem mem_changeProcedures {c : Catalog} {library program : String}
    {f : StoredProcedure → StoredProcedure} {r' : StoredProcedure}
    (h : r' ∈ (c.changeProcedures library program f).procedures) :
    ∃ r ∈ c.procedures, r' = if r.belongsTo library program then f r else r := by
  obtain ⟨r, hr, rfl⟩ := List.mem_map.1 h
  exact ⟨r, hr, rfl⟩

end Catalog

/-! ## All changes -/

/-- A synchronisation that succeeds has valid names. -/
theorem Change.eq_of_onCatalog_sync {now : String} {c c' : Catalog} {library program : String}
    {symbols : List String} (h : (sync library program symbols).onCatalog now c = .ok c') :
    c' = (c.sync library program symbols now).1 := by
  unfold onCatalog at h
  cases hl : (ObjectName.validate .library library).mapError CatalogError.invalidName with
  | error e => simp [hl, bind, Except.bind] at h
  | ok _ =>
    cases hp : (ObjectName.validate .object program).mapError CatalogError.invalidName with
    | error e => simp [hl, hp, bind, Except.bind] at h
    | ok _ =>
      simp only [hl, hp, bind, Except.bind, pure, Except.pure] at h
      exact (Except.ok.inj h).symm

namespace Change

/-- Every row after a change is a rewritten row, or a new one under a key that had no row. -/
theorem rewrites_of_mem_onCatalog {now : String} {change : Change} {c c' : Catalog}
    (h : change.onCatalog now c = .ok c') {r' : StoredProcedure} (hr' : r' ∈ c'.procedures) :
    (∃ r ∈ c.procedures, r.Rewrites now change r') ∨
      ∃ library program name, r' = .new library program name now ∧ Text.trimmed name = name ∧
        name ≠ "" ∧ ∀ old ∈ c.procedures, old.key ≠ r'.key := by
  cases change with
  | sync library program symbols =>
    obtain rfl := eq_of_onCatalog_sync h
    rcases Catalog.mem_procedures_sync hr' with hr | ⟨name, hnew⟩
    · exact .inl ⟨r', hr, .same r'⟩
    · exact .inr ⟨library, program, name, hnew⟩
  | applyDescriptions library program result =>
    obtain rfl := Except.ok.inj h
    obtain ⟨r, hr, rfl⟩ := Catalog.mem_changeProcedures hr'
    refine .inl ⟨r, hr, ?_⟩
    split
    · rcases Catalog.applyTo_cases result now r with heq | ⟨found, hget, hauto, heq⟩
      · rw [heq]; exact .same r
      · rw [heq]; exact .applied hget hauto
    · exact .same r
  | setDescription library program name text =>
    obtain rfl := Except.ok.inj h
    obtain ⟨r, hr, rfl⟩ := List.mem_map.1 hr'
    refine .inl ⟨r, hr, ?_⟩
    split
    · next hkey => exact .byHand hkey
    · exact .same r
  | fillFromNames library program force =>
    obtain ⟨result, hfill, rfl⟩ := exists_of_map_eq_ok h
    rw [Catalog.eq_of_fillFromNames hfill] at hr'
    obtain ⟨r, hr, rfl⟩ := Catalog.mem_changeProcedures hr'
    refine .inl ⟨r, hr, ?_⟩
    split
    · rcases Catalog.inferFor_cases force now r with heq | ⟨text, hinfer, hauto, heq⟩
      · rw [heq]; exact .same r
      · rw [heq]; exact .inferred hinfer hauto
    · exact .same r
  | fillFromSource library program source force =>
    obtain ⟨⟨c', report⟩, hfill, rfl⟩ := exists_of_map_eq_ok h
    obtain ⟨p, -, hcases⟩ := Catalog.fillFromSource_cases hfill
    rcases hcases with ⟨-, -, rfl, -⟩ | ⟨-, -, rfl⟩ | ⟨-, -, rfl⟩
    · exact .inl ⟨r', hr', .same r'⟩
    · exact .inl ⟨r', hr', .same r'⟩
    · obtain ⟨r, hr, rfl⟩ := Catalog.mem_changeProcedures hr'
      refine .inl ⟨r, hr, ?_⟩
      split
      · rcases Catalog.applyTo_cases _ now r with heq | ⟨found, hget, hauto, heq⟩
        · rw [heq]; exact .same r
        · rw [heq]; exact .extracted hget hauto
      · exact .same r
  | shorten filter =>
    obtain ⟨result, hshort, rfl⟩ := exists_of_map_eq_ok h
    rw [Catalog.eq_of_shorten hshort] at hr'
    obtain ⟨r, hr, rfl⟩ := List.mem_map.1 hr'
    refine .inl ⟨r, hr, ?_⟩
    split
    · unfold Catalog.shortenRow
      split
      · next text htext => exact .shortened htext
      · exact .same r
    · exact .same r
  | delete library program =>
    obtain rfl := Except.ok.inj h
    exact .inl ⟨r', (List.mem_filter.1 hr').1, .same r'⟩

/-- A change synchronises or deletes a service program, or it keeps all rows under their keys. -/
theorem onCatalog_cases {now : String} {change : Change} {c c' : Catalog}
    (h : change.onCatalog now c = .ok c') :
    (∃ library program symbols, change = .sync library program symbols ∧
      c' = (c.sync library program symbols now).1) ∨
    (∃ library program, change = .delete library program ∧
      c' = (c.delete library program).1) ∨
    ∃ (f : StoredProcedure → StoredProcedure) (g : ServiceProgram → ServiceProgram),
      (∀ r, (f r).key = r.key) ∧ (∀ q, (g q).key = q.key) ∧
        c' = ⟨c.programs.map g, c.procedures.map f⟩ := by
  -- only a fill from a source changes service programs, the other changes map them by `id`
  have hid : ∀ q : ServiceProgram, (id q).key = q.key := fun _ => rfl
  have hprograms : c.programs = c.programs.map id := (List.map_id _).symm
  cases change with
  | sync library program symbols =>
    exact .inl ⟨library, program, symbols, rfl, eq_of_onCatalog_sync h⟩
  | delete library program =>
    exact .inr (.inl ⟨library, program, rfl, (Except.ok.inj h).symm⟩)
  | applyDescriptions library program result =>
    refine .inr (.inr ⟨_, id, Table.key_ite (Catalog.key_applyTo result now)
      fun r => r.belongsTo library program, hid, ?_⟩)
    rw [← hprograms]
    exact (Except.ok.inj h).symm
  | setDescription library program name text =>
    refine .inr (.inr ⟨_, id, Table.key_ite
      (Catalog.key_writeByHand (Description.normalize (Text.trimmed text)) now)
      fun r => r.key = [library, program, name], hid, ?_⟩)
    rw [← hprograms]
    exact (Except.ok.inj h).symm
  | fillFromNames library program force =>
    obtain ⟨result, hfill, rfl⟩ := exists_of_map_eq_ok h
    refine .inr (.inr ⟨_, id, Table.key_ite (Catalog.key_inferFor force now)
      fun r => r.belongsTo library program, hid, ?_⟩)
    rw [← hprograms]
    exact Catalog.eq_of_fillFromNames hfill
  | fillFromSource library program source force =>
    obtain ⟨⟨c', report⟩, hfill, rfl⟩ := exists_of_map_eq_ok h
    obtain ⟨p, -, hcases⟩ := Catalog.fillFromSource_cases hfill
    rcases hcases with ⟨-, -, rfl, -⟩ | ⟨-, -, rfl⟩ | ⟨-, -, rfl⟩
    · exact .inr (.inr ⟨id, id, fun _ => rfl, hid, by simp⟩)
    · exact .inr (.inr ⟨id, id, fun _ => rfl, hid, by simp⟩)
    · refine .inr (.inr ⟨_, _, Table.key_ite (Catalog.key_applyTo _ now)
        fun r => r.belongsTo library program, Table.key_ite (f := fun q =>
          { q with checksum := some (Digest.sha256Hex source) }) (fun _ => rfl)
        fun q => q.key = [library, program], rfl⟩)
  | shorten filter =>
    obtain ⟨result, hshort, rfl⟩ := exists_of_map_eq_ok h
    refine .inr (.inr ⟨_, id, Table.key_ite (Catalog.key_shortenRow now)
      fun r => Catalog.isCovered filter r, hid, ?_⟩)
    rw [← hprograms]
    exact Catalog.eq_of_shorten hshort

/-- What all rows have, new rows have, and no rewriting breaks, all rows have after a change. -/
theorem forall_onCatalog {P : StoredProcedure → Prop} {now : String} {change : Change}
    {c c' : Catalog} (h : change.onCatalog now c = .ok c') (hold : ∀ r ∈ c.procedures, P r)
    (hnew : ∀ library program name, Text.trimmed name = name → name ≠ "" →
      P (.new library program name now))
    (hrewrites : ∀ r r', P r → r.Rewrites now change r' → P r') : ∀ r ∈ c'.procedures, P r := by
  intro r' hr'
  rcases rewrites_of_mem_onCatalog h hr' with ⟨r, hr, hrw⟩ |
    ⟨library, program, name, rfl, ht, hne, -⟩
  · exact hrewrites r r' (hold r hr) hrw
  · exact hnew library program name ht hne

end Change

end ProcedureCatalog
