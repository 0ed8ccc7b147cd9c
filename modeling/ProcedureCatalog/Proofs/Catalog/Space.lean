/-
# Catalogs in one space of names

How the steps under one prefix act on the catalog of another, and of the same, prefix.

* `tablesNamed_after_of_avoids` : a step changes no table that goes by another name than its own two.
* `catalog_after_of_other` : a step under a prefix that differs in more than case changes nothing.
* `catalog_after_of_same` : a step under the same prefix, dropping apart, leaves the rows, clears
  them, or makes one change.
* `catalog_after_change` : after a change that succeeds, the catalog has the changed rows.
-/
import Mathlib.Data.List.Basic
import ProcedureCatalog.Proofs.Catalog.Run

namespace ProcedureCatalog

/-! ## Names up to case -/

theorem sameName_iff {a b : String} :
    sameName a b = true ↔ Text.upper a.toList = Text.upper b.toList :=
  Text.sameLetters_iff

theorem sameName_comm (a b : String) : sameName a b = sameName b a := by
  rw [Bool.eq_iff_iff, sameName_iff, sameName_iff, eq_comm]

theorem sameName_trans {a b c : String} (hab : sameName a b = true) (hbc : sameName b c = true) :
    sameName a c = true :=
  sameName_iff.2 ((sameName_iff.1 hab).trans (sameName_iff.1 hbc))

/-- A common ending does not matter. -/
theorem sameName_append (a b ending : String) :
    sameName (a ++ ending) (b ++ ending) = sameName a b := by
  rw [Bool.eq_iff_iff, sameName_iff, sameName_iff, String.toList_append, String.toList_append,
    Text.upper_append, Text.upper_append, List.append_left_inj]

/-- A common beginning does not matter. -/
theorem sameName_prepend (beginning a b : String) :
    sameName (beginning ++ a) (beginning ++ b) = sameName a b := by
  rw [Bool.eq_iff_iff, sameName_iff, sameName_iff, String.toList_append, String.toList_append,
    Text.upper_append, Text.upper_append, List.append_right_inj]

/-- Names with endings that differ in their last letter are different. -/
theorem sameName_eq_false_of_last {ending ending' : String} {x y : Char}
    (hx : (Text.upper ending.toList).getLast? = some x)
    (hy : (Text.upper ending'.toList).getLast? = some y) (hne : x ≠ y) (a b : String) :
    sameName (a ++ ending) (b ++ ending') = false := by
  rw [Bool.eq_false_iff]
  intro h
  have hlast := congrArg List.getLast? (sameName_iff.1 h)
  rw [String.toList_append, String.toList_append, Text.upper_append, Text.upper_append,
    List.getLast?_append, List.getLast?_append, hx, hy] at hlast
  exact hne (by simpa using hlast)

namespace TablePrefix

variable (p q : TablePrefix)

theorem sameName_programTable : sameName p.programTable q.programTable = sameName p.text q.text :=
  sameName_append ..

theorem sameName_procedureTable :
    sameName p.procedureTable q.procedureTable = sameName p.text q.text :=
  sameName_append ..

/-- No table of service programs goes by the name of a table of procedures. -/
theorem sameName_programTable_procedureTable :
    sameName p.programTable q.procedureTable = false :=
  sameName_eq_false_of_last (x := 'M') (y := 'D') (by decide +kernel) (by decide +kernel)
    (by decide) _ _

/-- Neither table of the prefix goes by the name. -/
def Avoids (name : String) : Prop :=
  sameName p.programTable name = false ∧ sameName p.procedureTable name = false

variable {p q}

/-- Prefixes that differ in more than case have no table in common. -/
theorem avoids_of_other (h : sameName p.text q.text = false) :
    p.Avoids q.programTable ∧ p.Avoids q.procedureTable := by
  have hmp : sameName p.procedureTable q.programTable = false :=
    (sameName_comm _ _).trans (q.sameName_programTable_procedureTable p)
  have hpm : sameName p.programTable q.procedureTable = false :=
    p.sameName_programTable_procedureTable q
  exact ⟨⟨(p.sameName_programTable q).trans h, hmp⟩, hpm, (p.sameName_procedureTable q).trans h⟩

end TablePrefix

namespace Database

/-! ## Looking up tables -/

section Tables

variable {ρ : Type} {name other : String}

theorem isNamed_iff {t : NamedTable ρ} : isNamed name t = true ↔ sameName t.name name = true :=
  Iff.rfl

/-- A table of one name does not go by a name that differs in more than case. -/
theorem isNamed_eq_false (h : sameName name other = false) {t : NamedTable ρ}
    (ht : isNamed other t = true) : isNamed name t = false := by
  rw [Bool.eq_false_iff] at h ⊢
  intro hn
  exact h (sameName_trans ((sameName_comm _ _).trans hn) ht)

@[simp] theorem isNamed_setRows (rows : List ρ) (t : NamedTable ρ) :
    isNamed other (setRows name rows t) = isNamed other t := by
  unfold setRows
  split <;> rfl

@[simp] theorem name_setRows (rows : List ρ) (t : NamedTable ρ) :
    (setRows name rows t).name = t.name := by
  unfold setRows
  split <;> rfl

/-- The table of a name after other rows were stored in a table. -/
theorem find?_map_setRows (rows : List ρ) (tables : List (NamedTable ρ)) :
    (tables.map (setRows name rows)).find? (isNamed other) =
      (tables.find? (isNamed other)).map (setRows name rows) := by
  rw [List.find?_map]
  congr 2
  funext t
  exact isNamed_setRows rows t

/-- The first table of a name is the same when all tables of the name are. -/
theorem find?_eq_of_filter_eq {tables tables' : List (NamedTable ρ)}
    (h : tables'.filter (isNamed name) = tables.filter (isNamed name)) :
    tables'.find? (isNamed name) = tables.find? (isNamed name) := by
  rw [← List.head?_filter, ← List.head?_filter, h]

/-- Rows that are stored under another name leave the tables of a name alone. -/
theorem filter_map_setRows_of_other (h : sameName name other = false) (rows : List ρ)
    (tables : List (NamedTable ρ)) :
    (tables.map (setRows name rows)).filter (isNamed other) = tables.filter (isNamed other) := by
  have hnamed : isNamed other ∘ setRows name rows = isNamed other := by
    funext t
    exact isNamed_setRows rows t
  rw [List.filter_map, hnamed]
  refine (List.map_congr_left fun t ht => ?_).trans (List.map_id _)
  have hother : isNamed name t = false := isNamed_eq_false h (List.mem_filter.1 ht).2
  simp [setRows, hother]

/-- A new table of another name does not matter. -/
theorem filter_append_of_other (h : sameName name other = false) (tables : List (NamedTable ρ)) :
    (tables ++ [(⟨name, []⟩ : NamedTable ρ)]).filter (isNamed other) =
      tables.filter (isNamed other) := by
  have hnew : isNamed other (⟨name, []⟩ : NamedTable ρ) = false := h
  rw [List.filter_append, List.filter_cons_of_neg (by simp [hnew]), List.filter_nil,
    List.append_nil]

/-- Dropping a table of another name does not matter. -/
theorem filter_filter_of_other (h : sameName name other = false) (tables : List (NamedTable ρ)) :
    (tables.filter fun t => !isNamed name t).filter (isNamed other) =
      tables.filter (isNamed other) := by
  rw [List.filter_filter]
  refine List.filter_congr fun t _ => ?_
  cases ht : isNamed other t with
  | true => simp [isNamed_eq_false h ht]
  | false => rfl

end Tables

/-! ## The rows of a catalog -/

variable {db : Database} {p q : TablePrefix} {c : Catalog}

/-- The catalog of a prefix is there exactly when both of its tables are. -/
theorem catalog_eq_ok_iff {first : FirstTable} :
    db.catalog p first = .ok c ↔ p.isReadable = true ∧
      ∃ a b, db.programs.find? (isNamed p.programTable) = some a ∧
        db.procedures.find? (isNamed p.procedureTable) = some b ∧ c = ⟨a.rows, b.rows⟩ := by
  unfold catalog
  cases p.isReadable with
  | false => simp
  | true =>
    cases db.programs.find? (isNamed p.programTable) <;>
      cases db.procedures.find? (isNamed p.procedureTable) <;> cases first <;>
      simp [eq_comm]

/-- Which table is asked for first does not matter when the catalog is there. -/
theorem catalog_eq_ok {first second : FirstTable} (h : db.catalog p first = .ok c) :
    db.catalog p second = .ok c :=
  catalog_eq_ok_iff.2 (catalog_eq_ok_iff.1 h)

/-- The tables that go by a name, with their spelling and all rows: those of service programs and
those of procedures. -/
def tablesNamed (db : Database) (name : String) :
    List (NamedTable ServiceProgram) × List (NamedTable StoredProcedure) :=
  (db.programs.filter (isNamed name), db.procedures.filter (isNamed name))

/-- The catalog of a prefix depends on its two tables only. -/
theorem catalog_congr {db' : Database} {first : FirstTable}
    (hprograms : db'.tablesNamed p.programTable = db.tablesNamed p.programTable)
    (hprocedures : db'.tablesNamed p.procedureTable = db.tablesNamed p.procedureTable) :
    db'.catalog p first = db.catalog p first := by
  have h1 := find?_eq_of_filter_eq (congrArg Prod.fst hprograms)
  have h2 := find?_eq_of_filter_eq (congrArg Prod.snd hprocedures)
  unfold catalog
  rw [h1, h2]

/-- Prefixes of the same tables have the same catalog. -/
theorem eq_of_catalog_eq_ok {first second : FirstTable} {c' : Catalog}
    (hsame : sameName q.text p.text = true) (hp : db.catalog p first = .ok c)
    (hq : db.catalog q second = .ok c') : c' = c := by
  have hnamed : ∀ {ρ : Type} {a b : String}, sameName a b = true →
      (isNamed a : NamedTable ρ → Bool) = isNamed b := by
    intro ρ a b hab
    funext t
    rw [Bool.eq_iff_iff, isNamed_iff, isNamed_iff]
    exact ⟨fun h => sameName_trans h hab,
      fun h => sameName_trans h ((sameName_comm _ _).trans hab)⟩
  obtain ⟨-, a, b, ha, hb, rfl⟩ := catalog_eq_ok_iff.1 hp
  obtain ⟨-, a', b', ha', hb', rfl⟩ := catalog_eq_ok_iff.1 hq
  rw [hnamed ((q.sameName_programTable p).trans hsame)] at ha'
  rw [hnamed ((q.sameName_procedureTable p).trans hsame)] at hb'
  rw [ha] at ha'
  rw [hb] at hb'
  rw [Option.some.inj ha', Option.some.inj hb']

/-- Rows stored under a prefix of the same tables are the catalog. -/
theorem catalog_store_of_same {first second : FirstTable} {c' : Catalog}
    (hsame : sameName q.text p.text = true) (h : db.catalog p first = .ok c) :
    (db.store q c').catalog p second = .ok c' := by
  obtain ⟨hr, a, b, ha, hb, -⟩ := catalog_eq_ok_iff.1 h
  have hsame' : sameName p.text q.text = true := (sameName_comm _ _).trans hsame
  have hna : isNamed q.programTable a = true :=
    sameName_trans (isNamed_iff.1 (List.find?_some ha))
      ((p.sameName_programTable q).trans hsame')
  have hnb : isNamed q.procedureTable b = true :=
    sameName_trans (isNamed_iff.1 (List.find?_some hb))
      ((p.sameName_procedureTable q).trans hsame')
  refine catalog_eq_ok_iff.2 ⟨hr, setRows q.programTable c'.programs a,
    setRows q.procedureTable c'.procedures b, ?_, ?_, ?_⟩
  · rw [store, find?_map_setRows, ha]; rfl
  · rw [store, find?_map_setRows, hb]; rfl
  · simp [setRows, hna, hnb]

/-! ## Creating, dropping and clearing -/

/-- A table can be claimed under a name that is not reserved: it is there already, or no index has
the name and its creation goes ahead. -/
theorem claim_eq_ok_iff {db create db' : Database} {name : String} :
    db.claim q name create = .ok db' ↔ q.isReserved = false ∧
      ((db.hasTable name = true ∧ db' = db) ∨
        (db.hasTable name = false ∧ db.hasIndex name = false ∧ db' = create)) := by
  unfold claim
  cases q.isReserved <;> cases db.hasTable name <;> cases db.hasIndex name <;> simp [eq_comm]

/-- An index can be created when no table has its name: it is there already, or it is added. -/
theorem createIndex_eq_ok_iff {db' : Database} {name : String} :
    db.createIndex q name = .ok db' ↔ db.hasTable name = false ∧
      ((db.hasIndex name = true ∧ db' = db) ∨ (db.hasIndex name = false ∧
        db' = { db with indexes := db.indexes ++ [⟨name, q.procedureTable⟩] })) := by
  unfold createIndex
  cases db.hasTable name <;> cases db.hasIndex name <;> simp [eq_comm]

/-- The tables and indexes of a catalog are created one after the other. -/
theorem up_eq_ok_iff {db' : Database} :
    db.up q = .ok db' ↔ q.isReadable = true ∧ ∃ db1 db2 db3,
      db.createPrograms q = .ok db1 ∧ db1.createProcedures q = .ok db2 ∧
        db2.createIndex q q.programIndex = .ok db3 ∧ db3.createIndex q q.nameIndex = .ok db' := by
  unfold up
  cases q.isReadable with
  | false => simp
  | true =>
    constructor
    · intro h
      obtain ⟨db1, h1, h⟩ := exists_of_bind_eq_ok h
      obtain ⟨db2, h2, h⟩ := exists_of_bind_eq_ok h
      obtain ⟨db3, h3, h4⟩ := exists_of_bind_eq_ok h
      exact ⟨rfl, db1, db2, db3, h1, h2, h3, h4⟩
    · rintro ⟨-, db1, db2, db3, h1, h2, h3, h4⟩
      simp [h1, h2, h3, h4, bind, Except.bind]

/-- An index changes no table. -/
theorem createIndex_eq_ok {db' : Database} {name : String}
    (h : db.createIndex q name = .ok db') :
    db'.programs = db.programs ∧ db'.procedures = db.procedures := by
  obtain ⟨-, ⟨-, rfl⟩ | ⟨-, rfl⟩⟩ := createIndex_eq_ok_iff.1 h
  · exact ⟨rfl, rfl⟩
  · exact ⟨rfl, rfl⟩

/-- Creating the tables of a catalog adds empty tables at most. -/
theorem up_eq_ok {db' : Database} (h : db.up q = .ok db') :
    (db'.programs = db.programs ∨ db'.programs = db.programs ++ [⟨q.programTable, []⟩]) ∧
      (db'.procedures = db.procedures ∨
        db'.procedures = db.procedures ++ [⟨q.procedureTable, []⟩]) := by
  obtain ⟨-, db1, db2, db3, h1, h2, h3, h4⟩ := up_eq_ok_iff.1 h
  rw [(createIndex_eq_ok h4).1, (createIndex_eq_ok h4).2, (createIndex_eq_ok h3).1,
    (createIndex_eq_ok h3).2]
  obtain ⟨-, ⟨-, rfl⟩ | ⟨-, -, rfl⟩⟩ := claim_eq_ok_iff.1 h1 <;>
    obtain ⟨-, ⟨-, rfl⟩ | ⟨-, -, rfl⟩⟩ := claim_eq_ok_iff.1 h2 <;> simp

/-- Creating a table leaves one alone that is there. -/
theorem find?_of_new {ρ : Type} {name other : String} {tables tables' : List (NamedTable ρ)}
    {t : NamedTable ρ} (hnew : tables' = tables ∨ tables' = tables ++ [⟨name, []⟩])
    (ht : tables.find? (isNamed other) = some t) : tables'.find? (isNamed other) = some t := by
  rcases hnew with rfl | rfl
  · exact ht
  · rw [List.find?_append, ht, Option.some_or]

/-- Creating the tables of any catalog leaves the rows of a catalog that is there. -/
theorem catalog_up_of_ok {db' : Database} {first : FirstTable} (hc : db.catalog p first = .ok c)
    (h : db.up q = .ok db') : db'.catalog p first = .ok c := by
  obtain ⟨hr, a, b, ha, hb, hrows⟩ := catalog_eq_ok_iff.1 hc
  obtain ⟨hprograms, hprocedures⟩ := up_eq_ok h
  exact catalog_eq_ok_iff.2
    ⟨hr, a, b, find?_of_new hprograms ha, find?_of_new hprocedures hb, hrows⟩

/-- Clearing either finds no tables or stores a catalog without rows. -/
theorem perform_clear_eq_ok {db' : Database} {now : String}
    (h : db.perform q now .clear = .ok db') :
    db' = db ∨ ∃ c, db.catalog q .procedures = .ok c ∧ db' = db.store q .empty := by
  change (db.clear q).map (·.1) = .ok db' at h
  unfold clear at h
  split at h
  · obtain ⟨c, c', hc, hc', rfl⟩ := map_fst_write_eq_ok_iff.1 h
    obtain rfl : Catalog.empty = c' := Except.ok.inj hc'
    exact .inr ⟨c, hc, rfl⟩
  · exact .inl (Except.ok.inj h).symm

/-! ## Steps -/

/-- Storing rows leaves the tables of other names alone. -/
theorem tablesNamed_store_of_avoids {name : String} (h : q.Avoids name) (c : Catalog) :
    (db.store q c).tablesNamed name = db.tablesNamed name :=
  Prod.ext (filter_map_setRows_of_other h.1 _ _) (filter_map_setRows_of_other h.2 _ _)

/-- Creating the tables of a catalog leaves the tables of other names alone. -/
theorem tablesNamed_up_of_avoids {name : String} {db' : Database} (h : q.Avoids name)
    (hup : db.up q = .ok db') : db'.tablesNamed name = db.tablesNamed name := by
  obtain ⟨hprograms, hprocedures⟩ := up_eq_ok hup
  refine Prod.ext ?_ ?_
  · rcases hprograms with heq | heq
    · simp only [tablesNamed, heq]
    · simp only [tablesNamed, heq, filter_append_of_other h.1]
  · rcases hprocedures with heq | heq
    · simp only [tablesNamed, heq]
    · simp only [tablesNamed, heq, filter_append_of_other h.2]

/-- Dropping the tables of a catalog leaves the tables of other names alone. -/
theorem tablesNamed_down_of_avoids {name : String} {db' : Database} (h : q.Avoids name)
    (hdown : db.down q = .ok db') : db'.tablesNamed name = db.tablesNamed name := by
  unfold down at hdown
  split at hdown
  · rw [← Except.ok.inj hdown]
    simp only [tablesNamed, dropTable, filter_filter_of_other h.1, filter_filter_of_other h.2]
  · simp at hdown

/-- A step leaves the tables of other names alone, whether it succeeds or fails. -/
theorem tablesNamed_after_of_avoids {s : Step} {name : String} (h : s.tables.Avoids name) :
    (db.after s).tablesNamed name = db.tablesNamed name := by
  rcases after_cases db s with hafter | hafter
  · rw [hafter]
  · cases hop : s.operation with
    | up => rw [hop] at hafter; exact tablesNamed_up_of_avoids h hafter
    | down => rw [hop] at hafter; exact tablesNamed_down_of_avoids h hafter
    | clear =>
      rw [hop] at hafter
      rcases perform_clear_eq_ok hafter with heq | ⟨_, -, heq⟩
      · rw [heq]
      · rw [heq]; exact tablesNamed_store_of_avoids h _
    | change change =>
      rw [hop] at hafter
      obtain ⟨_, _, -, -, heq⟩ := perform_change_eq_ok_iff.1 hafter
      rw [heq]
      exact tablesNamed_store_of_avoids h _

/-- A step under another prefix leaves the catalog alone. -/
theorem catalog_after_of_other {s : Step} {first : FirstTable}
    (hother : sameName s.tables.text p.text = false) :
    (db.after s).catalog p first = db.catalog p first := by
  obtain ⟨hprograms, hprocedures⟩ := TablePrefix.avoids_of_other hother
  exact catalog_congr (tablesNamed_after_of_avoids hprograms)
    (tablesNamed_after_of_avoids hprocedures)

/-- A step under the same prefix that does not drop the tables leaves the rows, clears them, or
makes one change. -/
theorem catalog_after_of_same {s : Step} {first : FirstTable}
    (hsame : sameName s.tables.text p.text = true) (hdown : s.operation ≠ .down)
    (hc : db.catalog p first = .ok c) :
    (db.after s).catalog p first = .ok c ∨
      (s.operation = .clear ∧ (db.after s).catalog p first = .ok .empty) ∨
      ∃ change c', s.operation = .change change ∧ change.onCatalog s.now c = .ok c' ∧
        (db.after s).catalog p first = .ok c' := by
  rcases after_cases db s with h | h
  · exact .inl (by rw [h]; exact hc)
  · cases hop : s.operation with
    | up => rw [hop] at h; exact .inl (catalog_up_of_ok hc h)
    | down => exact absurd hop hdown
    | clear =>
      rw [hop] at h
      rcases perform_clear_eq_ok h with h | ⟨_, -, h⟩
      · exact .inl (by rw [h]; exact hc)
      · exact .inr (.inl ⟨rfl, by rw [h]; exact catalog_store_of_same hsame hc⟩)
    | change change =>
      rw [hop] at h
      obtain ⟨d, c', hd, hc', h⟩ := perform_change_eq_ok_iff.1 h
      obtain rfl := eq_of_catalog_eq_ok hsame hc hd
      exact .inr (.inr ⟨change, c', rfl, hc', by rw [h]; exact catalog_store_of_same hsame hc⟩)

/-- After a change that succeeds, the catalog has the changed rows. -/
theorem catalog_after_change {change : Change} {c' : Catalog} {now : String}
    (hc : ∀ first, db.catalog p first = .ok c) (hc' : change.onCatalog now c = .ok c') :
    ∀ first, (db.after ⟨p, .change change, now⟩).catalog p first = .ok c' := by
  intro first
  rw [after_eq_of_ok (perform_change_eq_ok_iff.2 ⟨c, c', hc _, hc', rfl⟩)]
  exact catalog_store_of_same (sameName_iff.2 rfl) (hc first)

end Database

end ProcedureCatalog
