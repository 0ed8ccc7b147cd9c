/-
# Complete sets of tables

The two tables of a catalog and the two indexes of its procedures come and go together. A prefix may
spell the name of a table or an index of another catalog, so their creation can fail half way; then
nothing of it stays.

* `ofSets` : the database with the tables and indexes of some catalogs.
* `up_ofSets`, `down_ofSets`, `store_ofSets` : what each way of writing does to the sets.
* `isMadeOfSets_run` : every database that a run reaches from the empty one consists of sets.
* `tables_come_in_sets` : of a prefix everything is there, or nothing.
-/
import ProcedureCatalog.Proofs.Catalog.Space
import ProcedureCatalog.Proofs.Text.AsciiCase

namespace ProcedureCatalog

/-! ## Names of indexes -/

namespace TablePrefix

variable (p q : TablePrefix)

theorem sameName_programIndex : sameName p.programIndex q.programIndex = sameName p.text q.text := by
  unfold programIndex
  rw [sameName_append, sameName_prepend]

theorem sameName_nameIndex : sameName p.nameIndex q.nameIndex = sameName p.text q.text := by
  unfold nameIndex
  rw [sameName_append, sameName_prepend]

/-- No index by service program goes by the name of an index by name. -/
theorem sameName_programIndex_nameIndex : sameName p.programIndex q.nameIndex = false :=
  sameName_eq_false_of_last (x := 'M') (y := 'E') (by decide +kernel) (by decide +kernel)
    (by decide) _ _

variable {p q}

/-- Whether a prefix starts with a digit does not depend on the case of its letters. -/
theorem isReadable_congr (h : sameName p.text q.text = true) : p.isReadable = q.isReadable := by
  have hdigit : ∀ cs : List Char, cs.head?.any Char.isDigit =
      (Text.upper cs).head?.any Char.isDigit := by
    intro cs
    cases cs with
    | nil => rfl
    | cons c cs => simp [Text.isDigit_toUpper]
  unfold isReadable
  rw [hdigit p.text.toList, hdigit q.text.toList, sameName_iff.1 h]

end TablePrefix

/-! ## Sets -/

/-- The tables of a catalog, under the prefix that they were created with, and their rows. -/
structure TableSet where
  tables : TablePrefix
  rows : Catalog

namespace TableSet

/-- The tables go by the names that the prefix makes. -/
def isOf (p : TablePrefix) (s : TableSet) : Bool := sameName s.tables.text p.text

/-- The set with other rows, if its tables go by the names that the prefix makes. -/
def withRows (p : TablePrefix) (c : Catalog) (s : TableSet) : TableSet :=
  if s.isOf p then { s with rows := c } else s

/-- The two sets have no table in common. -/
def IsApart (s s' : TableSet) : Prop := sameName s.tables.text s'.tables.text = false

@[simp] theorem tables_withRows (p : TablePrefix) (c : Catalog) (s : TableSet) :
    (s.withRows p c).tables = s.tables := by
  unfold withRows
  split <;> rfl

end TableSet

namespace Database

/-- The database with the tables and indexes of some catalogs. -/
def ofSets (sets : List TableSet) : Database where
  programs := sets.map fun s => ⟨s.tables.programTable, s.rows.programs⟩
  procedures := sets.map fun s => ⟨s.tables.procedureTable, s.rows.procedures⟩
  indexes := sets.flatMap fun s =>
    [⟨s.tables.programIndex, s.tables.procedureTable⟩, ⟨s.tables.nameIndex, s.tables.procedureTable⟩]

variable {sets : List TableSet} {p : TablePrefix}

/-! ## What is there -/

theorem isNamed_programTable_eq (rows : List ServiceProgram) (s : TableSet) :
    isNamed p.programTable ⟨s.tables.programTable, rows⟩ = s.isOf p :=
  s.tables.sameName_programTable p

theorem isNamed_procedureTable_eq (rows : List StoredProcedure) (s : TableSet) :
    isNamed p.procedureTable ⟨s.tables.procedureTable, rows⟩ = s.isOf p :=
  s.tables.sameName_procedureTable p

/-- The table of service programs is there exactly when the set is. -/
theorem hasTable_programTable_ofSets :
    (ofSets sets).hasTable p.programTable = sets.any (TableSet.isOf p) := by
  have hother : ∀ s : TableSet, isNamed p.programTable
      (⟨s.tables.procedureTable, s.rows.procedures⟩ : NamedTable StoredProcedure) = false :=
    fun s => (sameName_comm _ _).trans (p.sameName_programTable_procedureTable s.tables)
  simp [hasTable, ofSets, List.any_map, Function.comp_def, isNamed_programTable_eq, hother]

/-- The table of procedures is there exactly when the set is. -/
theorem hasTable_procedureTable_ofSets :
    (ofSets sets).hasTable p.procedureTable = sets.any (TableSet.isOf p) := by
  have hother : ∀ s : TableSet, isNamed p.procedureTable
      (⟨s.tables.programTable, s.rows.programs⟩ : NamedTable ServiceProgram) = false :=
    fun s => s.tables.sameName_programTable_procedureTable p
  simp [hasTable, ofSets, List.any_map, Function.comp_def, isNamed_procedureTable_eq, hother]

/-- The index by service program is there exactly when the set is. -/
theorem hasIndex_programIndex_ofSets :
    (ofSets sets).hasIndex p.programIndex = sets.any (TableSet.isOf p) := by
  have hother : ∀ s : TableSet, sameName s.tables.nameIndex p.programIndex = false :=
    fun s => (sameName_comm _ _).trans (p.sameName_programIndex_nameIndex s.tables)
  have hsame : ∀ s : TableSet, sameName s.tables.programIndex p.programIndex = s.isOf p :=
    fun s => s.tables.sameName_programIndex p
  simp [hasIndex, ofSets, List.any_flatMap, hother, hsame]

/-- The index by name is there exactly when the set is. -/
theorem hasIndex_nameIndex_ofSets :
    (ofSets sets).hasIndex p.nameIndex = sets.any (TableSet.isOf p) := by
  have hother : ∀ s : TableSet, sameName s.tables.programIndex p.nameIndex = false :=
    fun s => s.tables.sameName_programIndex_nameIndex p
  have hsame : ∀ s : TableSet, sameName s.tables.nameIndex p.nameIndex = s.isOf p :=
    fun s => s.tables.sameName_nameIndex p
  simp [hasIndex, ofSets, List.any_flatMap, hother, hsame]

/-- The rows of a catalog are those of its set. -/
theorem catalog_ofSets {first : FirstTable} {s : TableSet} (hr : p.isReadable = true)
    (hs : sets.find? (TableSet.isOf p) = some s) : (ofSets sets).catalog p first = .ok s.rows := by
  refine catalog_eq_ok_iff.2 ⟨hr, ⟨s.tables.programTable, s.rows.programs⟩,
    ⟨s.tables.procedureTable, s.rows.procedures⟩, ?_, ?_, rfl⟩
  · simp only [ofSets, List.find?_map, Function.comp_def, isNamed_programTable_eq]
    rw [show (sets.find? fun s => s.isOf p) = some s from hs]
    rfl
  · simp only [ofSets, List.find?_map, Function.comp_def, isNamed_procedureTable_eq]
    rw [show (sets.find? fun s => s.isOf p) = some s from hs]
    rfl

/-- A catalog that is there is that of a set. -/
theorem exists_of_catalog_ofSets {first : FirstTable} {c : Catalog}
    (h : (ofSets sets).catalog p first = .ok c) :
    p.isReadable = true ∧ ∃ s, sets.find? (TableSet.isOf p) = some s ∧ s.rows = c := by
  obtain ⟨hr, a, -, ha, -, -⟩ := catalog_eq_ok_iff.1 h
  simp only [ofSets, List.find?_map, Function.comp_def, isNamed_programTable_eq] at ha
  obtain ⟨s, hs, -⟩ := Option.map_eq_some_iff.1 ha
  exact ⟨hr, s, hs, Except.ok.inj ((catalog_ofSets hr hs).symm.trans h)⟩

/-! ## What the steps do to sets -/

/-- A new table of service programs takes one name only. -/
theorem hasTable_append_programs {db : Database} {new name : String}
    (h : db.hasTable name = false) (hnew : sameName new name = false) :
    ({ db with programs := db.programs ++ [⟨new, []⟩] } : Database).hasTable name = false := by
  have hnamed : isNamed name (⟨new, []⟩ : NamedTable ServiceProgram) = false := hnew
  simp only [hasTable, Bool.or_eq_false_iff] at h
  simp [hasTable, h, hnamed]

/-- A new index takes one name only. -/
theorem hasIndex_append {db : Database} {new name table : String}
    (h : db.hasIndex name = false) (hnew : sameName new name = false) :
    ({ db with indexes := db.indexes ++ [⟨new, table⟩] } : Database).hasIndex name = false := by
  simp only [hasIndex] at h
  simp [hasIndex, h, hnew]

/-- Creating the tables of a prefix changes nothing when the set is there, and adds an empty set
when it is not. -/
theorem up_ofSets {db' : Database} (h : (ofSets sets).up p = .ok db') :
    (sets.any (TableSet.isOf p) = true ∧ db' = ofSets sets) ∨
      (sets.any (TableSet.isOf p) = false ∧ p.isReadable = true ∧
        db' = ofSets (sets ++ [⟨p, .empty⟩])) := by
  obtain ⟨hr, db1, db2, db3, h1, h2, h3, h4⟩ := up_eq_ok_iff.1 h
  obtain ⟨-, h1⟩ := claim_eq_ok_iff.1 h1
  obtain ⟨-, h2⟩ := claim_eq_ok_iff.1 h2
  obtain ⟨-, h3⟩ := createIndex_eq_ok_iff.1 h3
  obtain ⟨-, h4⟩ := createIndex_eq_ok_iff.1 h4
  rw [hasTable_programTable_ofSets] at h1
  cases hany : sets.any (TableSet.isOf p) with
  | true =>
    -- each of the four is found where it is
    left
    obtain ⟨-, rfl⟩ := h1.resolve_right (by simp [hany])
    obtain ⟨-, rfl⟩ := h2.resolve_right (by simp [hasTable_procedureTable_ofSets, hany])
    obtain ⟨-, rfl⟩ := h3.resolve_right (by simp [hasIndex_programIndex_ofSets, hany])
    obtain ⟨-, rfl⟩ := h4.resolve_right (by simp [hasIndex_nameIndex_ofSets, hany])
    exact ⟨rfl, rfl⟩
  | false =>
    -- each of the four is created
    right
    have hprocedures : (ofSets sets).hasTable p.procedureTable = false := by
      rw [hasTable_procedureTable_ofSets, hany]
    have hprogramIndex : (ofSets sets).hasIndex p.programIndex = false := by
      rw [hasIndex_programIndex_ofSets, hany]
    have hnameIndex : (ofSets sets).hasIndex p.nameIndex = false := by
      rw [hasIndex_nameIndex_ofSets, hany]
    obtain ⟨-, -, rfl⟩ := h1.resolve_left (by simp [hany])
    obtain ⟨-, -, rfl⟩ := h2.resolve_left fun hthere => Bool.false_ne_true
      ((hasTable_append_programs hprocedures (p.sameName_programTable_procedureTable p)).symm.trans
        hthere.1)
    obtain ⟨-, rfl⟩ := h3.resolve_left fun hthere => Bool.false_ne_true
      (hprogramIndex.symm.trans hthere.1)
    obtain ⟨-, rfl⟩ := h4.resolve_left fun hthere => Bool.false_ne_true
      ((hasIndex_append hnameIndex (p.sameName_programIndex_nameIndex p)).symm.trans hthere.1)
    exact ⟨rfl, hr, by simp [ofSets, Catalog.empty]⟩

/-- Dropping the table of procedures drops the indexes of the set. -/
theorem indexes_dropTable_ofSets :
    ((ofSets sets).dropTable p.procedureTable).indexes =
      (ofSets (sets.filter fun s => !s.isOf p)).indexes := by
  have htable : ∀ s : TableSet, sameName s.tables.procedureTable p.procedureTable = s.isOf p :=
    fun s => s.tables.sameName_procedureTable p
  induction sets with
  | nil => rfl
  | cons s sets ih =>
    simp only [dropTable, ofSets, List.flatMap_cons, List.filter_append] at ih ⊢
    rw [ih]
    cases hs : s.isOf p with
    | true => simp [htable, hs]
    | false => simp [htable, hs]

/-- Dropping the tables of a prefix removes its set. -/
theorem down_ofSets {db' : Database} (h : (ofSets sets).down p = .ok db') :
    db' = ofSets (sets.filter fun s => !s.isOf p) := by
  have hpm : ∀ s : TableSet, sameName s.tables.programTable p.procedureTable = false :=
    fun s => s.tables.sameName_programTable_procedureTable p
  have hmp : ∀ s : TableSet, sameName s.tables.procedureTable p.programTable = false :=
    fun s => (sameName_comm _ _).trans (p.sameName_programTable_procedureTable s.tables)
  unfold down at h
  split at h
  · rw [← Except.ok.inj h, dropTable, indexes_dropTable_ofSets]
    simp only [dropTable, ofSets, List.filter_map, Function.comp_def, isNamed_programTable_eq,
      isNamed_procedureTable_eq]
    congr 1
    · simp [isNamed, hpm]
    · simp [isNamed, hmp]
    · -- no index is on a table of service programs
      refine List.filter_eq_self.2 fun i hi => ?_
      obtain ⟨s, -, hi⟩ := List.mem_flatMap.1 hi
      have htable : i.table = s.tables.procedureTable := by
        rcases List.mem_pair.1 hi with rfl | rfl <;> rfl
      simp [htable, hmp]
  · simp at h

/-- Storing rows gives them to the set of the prefix. -/
theorem store_ofSets (c : Catalog) :
    (ofSets sets).store p c = ofSets (sets.map (TableSet.withRows p c)) := by
  have hprograms : ∀ s : TableSet, setRows p.programTable c.programs
      ⟨s.tables.programTable, s.rows.programs⟩ =
        ⟨(s.withRows p c).tables.programTable, (s.withRows p c).rows.programs⟩ := by
    intro s
    unfold setRows TableSet.withRows
    rw [isNamed_programTable_eq]
    split <;> rfl
  have hprocedures : ∀ s : TableSet, setRows p.procedureTable c.procedures
      ⟨s.tables.procedureTable, s.rows.procedures⟩ =
        ⟨(s.withRows p c).tables.procedureTable, (s.withRows p c).rows.procedures⟩ := by
    intro s
    unfold setRows TableSet.withRows
    rw [isNamed_procedureTable_eq]
    split <;> rfl
  simp [store, ofSets, Function.comp_def, hprograms, hprocedures, List.flatMap_map]

/-! ## Runs -/

/-- The database consists of complete sets of tables under readable prefixes, no two of which have
a table in common, and the rows of each have the property. -/
def IsMadeOfSets (P : Catalog → Prop) (db : Database) : Prop :=
  ∃ sets : List TableSet, db = ofSets sets ∧ sets.Pairwise TableSet.IsApart ∧
    ∀ s ∈ sets, s.tables.isReadable = true ∧ P s.rows

variable {P : Catalog → Prop}

/-- Storing rows that have the property keeps the sets. -/
theorem IsMadeOfSets.store {db : Database} {c : Catalog} (h : db.IsMadeOfSets P) (hc : P c) :
    (db.store p c).IsMadeOfSets P := by
  obtain ⟨sets, rfl, hapart, hsets⟩ := h
  refine ⟨sets.map (TableSet.withRows p c), store_ofSets c, ?_, ?_⟩
  · refine List.pairwise_map.2 (hapart.imp ?_)
    intro s s' hss'
    simpa [TableSet.IsApart] using hss'
  · intro s' hs'
    obtain ⟨s, hs, rfl⟩ := List.mem_map.1 hs'
    refine ⟨by simpa using (hsets s hs).1, ?_⟩
    unfold TableSet.withRows
    split
    · exact hc
    · exact (hsets s hs).2

/-- Every step keeps the sets, and of their rows what every change keeps and empty tables have. -/
theorem IsMadeOfSets.after {db : Database} {s : Step} (h : db.IsMadeOfSets P) (hempty : P .empty)
    (hchange : ∀ now change c c', Change.onCatalog now c change = .ok c' → P c → P c') :
    (db.after s).IsMadeOfSets P := by
  rcases after_cases db s with hafter | hafter
  · rw [hafter]; exact h
  · cases hop : s.operation with
    | up =>
      rw [hop] at hafter
      obtain ⟨sets, rfl, hapart, hsets⟩ := h
      rcases up_ofSets hafter with ⟨-, heq⟩ | ⟨hnew, hr, heq⟩
      · exact ⟨sets, heq, hapart, hsets⟩
      · refine ⟨_, heq, List.pairwise_append.2 ⟨hapart, List.pairwise_singleton _ _, ?_⟩, ?_⟩
        · intro s₁ hs₁ s₂ hs₂
          obtain rfl := List.mem_singleton.1 hs₂
          exact Bool.eq_false_iff.2 (List.any_eq_false.1 hnew s₁ hs₁)
        · intro s' hs'
          rcases List.mem_append.1 hs' with hs' | hs'
          · exact hsets s' hs'
          · obtain rfl := List.mem_singleton.1 hs'
            exact ⟨hr, hempty⟩
    | down =>
      rw [hop] at hafter
      obtain ⟨sets, rfl, hapart, hsets⟩ := h
      exact ⟨_, down_ofSets hafter, hapart.filter _, fun s' hs' =>
        hsets s' (List.mem_filter.1 hs').1⟩
    | clear =>
      rw [hop] at hafter
      rcases perform_clear_eq_ok hafter with heq | ⟨_, -, heq⟩
      · rw [heq]; exact h
      · rw [heq]; exact h.store hempty
    | change change =>
      rw [hop] at hafter
      obtain ⟨c, c', hc, hc', heq⟩ := perform_change_eq_ok_iff.1 hafter
      rw [heq]
      refine h.store (hchange _ _ c c' hc' ?_)
      obtain ⟨sets, rfl, -, hsets⟩ := h
      obtain ⟨-, s', hs', rfl⟩ := exists_of_catalog_ofSets hc
      exact (hsets s' (List.mem_of_find?_eq_some hs')).2

/-- Every run from the empty database leaves complete sets of tables. -/
theorem isMadeOfSets_run (hempty : P .empty)
    (hchange : ∀ now change c c', Change.onCatalog now c change = .ok c' → P c → P c')
    (steps : List Step) : (empty.run steps).IsMadeOfSets P :=
  run_invariant ⟨[], rfl, List.Pairwise.nil, by simp⟩ fun _ _ _ h => h.after hempty hchange

/-- What catalogs without rows have and every change keeps, the catalogs of every run have. -/
theorem of_catalog_run {steps : List Step} {first : FirstTable} {c : Catalog} (hempty : P .empty)
    (hchange : ∀ now change c c', Change.onCatalog now c change = .ok c' → P c → P c')
    (hc : (empty.run steps).catalog p first = .ok c) : P c := by
  obtain ⟨sets, hsets, -, hrows⟩ := isMadeOfSets_run hempty hchange steps
  rw [hsets] at hc
  obtain ⟨-, s, hs, rfl⟩ := exists_of_catalog_ofSets hc
  exact (hrows s (List.mem_of_find?_eq_some hs)).2

/-! ## All or nothing -/

/-- Both tables of the prefix are there, and both indexes of its table of procedures. -/
structure HasSet (db : Database) (p : TablePrefix) : Prop where
  programs : ∃ t ∈ db.programs, sameName t.name p.programTable = true
  procedures : ∃ t ∈ db.procedures, sameName t.name p.procedureTable = true
  programIndex : ∃ i ∈ db.indexes,
    sameName i.name p.programIndex = true ∧ sameName i.table p.procedureTable = true
  nameIndex : ∃ i ∈ db.indexes,
    sameName i.name p.nameIndex = true ∧ sameName i.table p.procedureTable = true

/-- Neither a table of the prefix is there nor an index. -/
structure LacksSet (db : Database) (p : TablePrefix) : Prop where
  programs : db.hasTable p.programTable = false
  procedures : db.hasTable p.procedureTable = false
  programIndex : db.hasIndex p.programIndex = false
  nameIndex : db.hasIndex p.nameIndex = false

/-- A prefix that has a set has all of it. -/
theorem hasSet_ofSets (h : sets.any (TableSet.isOf p) = true) : (ofSets sets).HasSet p := by
  obtain ⟨s, hs, hof⟩ := List.any_eq_true.1 h
  have htable : sameName s.tables.procedureTable p.procedureTable = true :=
    (s.tables.sameName_procedureTable p).trans hof
  have hprograms : (⟨s.tables.programTable, s.rows.programs⟩ : NamedTable ServiceProgram) ∈
      (ofSets sets).programs := List.mem_map.2 ⟨s, hs, rfl⟩
  have hprocedures : (⟨s.tables.procedureTable, s.rows.procedures⟩ : NamedTable StoredProcedure) ∈
      (ofSets sets).procedures := List.mem_map.2 ⟨s, hs, rfl⟩
  have hindexes : ∀ name ∈ [s.tables.programIndex, s.tables.nameIndex],
      (⟨name, s.tables.procedureTable⟩ : TableIndex) ∈ (ofSets sets).indexes := by
    intro name hname
    refine List.mem_flatMap.2 ⟨s, hs, ?_⟩
    rcases List.mem_pair.1 hname with rfl | rfl
    · exact List.mem_cons_self
    · exact List.mem_cons_of_mem _ List.mem_cons_self
  constructor
  · exact ⟨_, hprograms, (s.tables.sameName_programTable p).trans hof⟩
  · exact ⟨_, hprocedures, htable⟩
  · refine ⟨_, hindexes s.tables.programIndex (by simp), ?_, htable⟩
    exact (s.tables.sameName_programIndex p).trans hof
  · refine ⟨_, hindexes s.tables.nameIndex (by simp), ?_, htable⟩
    exact (s.tables.sameName_nameIndex p).trans hof

/-- A prefix that has no set has nothing of it. -/
theorem lacksSet_ofSets (h : sets.any (TableSet.isOf p) = false) : (ofSets sets).LacksSet p where
  programs := hasTable_programTable_ofSets.trans h
  procedures := hasTable_procedureTable_ofSets.trans h
  programIndex := hasIndex_programIndex_ofSets.trans h
  nameIndex := hasIndex_nameIndex_ofSets.trans h

/-- **Tables come in complete sets.** After any run of steps under any prefixes, those that failed
included, both tables and both indexes of a prefix are there or none of them is, whatever the case of
letters. Creating them makes them complete, or it fails and leaves the database as it was. -/
theorem tables_come_in_sets (steps : List Step) (p : TablePrefix) :
    ((empty.run steps).HasSet p ∨ (empty.run steps).LacksSet p) ∧
      ∀ now, ((empty.run steps).after ⟨p, .up, now⟩).HasSet p ∨
        ((∃ e, (empty.run steps).perform p now .up = .error e) ∧
          (empty.run steps).after ⟨p, .up, now⟩ = empty.run steps) := by
  obtain ⟨sets, hsets, -⟩ :=
    isMadeOfSets_run (P := fun _ => True) trivial (fun _ _ _ _ _ _ => trivial) steps
  rw [hsets]
  constructor
  · cases hany : sets.any (TableSet.isOf p) with
    | true => exact .inl (hasSet_ofSets hany)
    | false => exact .inr (lacksSet_ofSets hany)
  · intro now
    cases hup : (ofSets sets).perform p now .up with
    | error e => exact .inr ⟨⟨e, rfl⟩, after_eq_of_error hup⟩
    | ok db' =>
      left
      rw [after_eq_of_ok hup]
      rcases up_ofSets hup with ⟨hany, rfl⟩ | ⟨-, -, rfl⟩
      · exact hasSet_ofSets hany
      · refine hasSet_ofSets ?_
        simp [TableSet.isOf, sameName_iff]

-- both tables are created before the index meets a table of its name, and are gone again
example :
    let p : TablePrefix := ⟨"a_", by decide⟩
    let db := empty.run [⟨⟨"idx_a_srvpgm_method_", by decide⟩, .up, ""⟩]
    (db.createPrograms p >>= createProcedures p).isOk = true ∧
      db.perform p "" .up = .error createFailure ∧ db.after ⟨p, .up, ""⟩ = db := by
  decide +kernel

end Database

end ProcedureCatalog
