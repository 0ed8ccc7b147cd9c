/-
# Looking up rows

What a catalog has for the name of a procedure and for that of a service program. A change is read
off these two views: what is there for a name afterwards, by what was there before.

* `Catalog.row?` : the stored procedure of a name.
* `row?_changeProcedures`, `row?_foldl_addProcedure`, `row?_keepOnly` : the view after each way of
  writing procedures.
* `IsOrdered.mem_proceduresOf_iff` : the procedures of a service program are the rows of their names.
* `IsOrdered.pairwise_procedureNames` : their names rise.
-/
import ProcedureCatalog.Proofs.Catalog.Parts

namespace ProcedureCatalog

namespace Table

variable {ρ : Type} {key : ρ → Key} {rows : List ρ} {k : Key}

/-- The row of a key after a change that leaves the keys alone. -/
theorem find?_map {f : ρ → ρ} (hf : ∀ r, key (f r) = key r) (rows : List ρ) (k : Key) :
    find? key (rows.map f) k = (find? key rows k).map f := by
  have hcomp : (fun row => key row == k) ∘ f = fun row => key row == k := by
    funext r
    exact congrArg (· == k) (hf r)
  rw [find?, List.find?_map, hcomp, find?]

/-- The row of a key among the rows under a condition that all rows of the key fulfil, or none. -/
theorem find?_filter_of_key {p : ρ → Bool} {b : Bool} (hp : ∀ r, key r = k → p r = b)
    (rows : List ρ) : find? key (rows.filter p) k = if b then find? key rows k else none := by
  induction rows with
  | nil => simp
  | cons first rows ih =>
    rw [List.filter_cons, find?_cons]
    by_cases hkey : key first = k
    · rw [hp first hkey]
      cases b with
      | true => rw [if_pos rfl, find?_cons, if_pos hkey]; simp [hkey]
      | false => simpa using ih
    · rw [if_neg hkey, ← ih]
      split
      · rw [find?_cons, if_neg hkey]
      · rfl

/-- In ordered rows, the row of a key is the one that has it. -/
theorem Sorted.find?_eq_some_iff (h : Sorted key rows) {r : ρ} :
    find? key rows k = some r ↔ r ∈ rows ∧ key r = k := by
  refine ⟨mem_of_find?_eq_some, ?_⟩
  rintro ⟨hmem, rfl⟩
  induction rows with
  | nil => simp at hmem
  | cons first rows ih =>
    obtain ⟨hfirst, hrows⟩ := List.pairwise_cons.1 h
    rw [find?_cons]
    rcases List.mem_cons.1 hmem with rfl | hmem
    · exact if_pos rfl
    · rw [if_neg (ne_of_lt (hfirst r hmem)), ih hrows hmem]

end Table

namespace Catalog

variable {c : Catalog} {library program name l q now : String} {r : StoredProcedure}

/-! ## Procedures -/

/-- The stored procedure of a name. -/
def row? (c : Catalog) (library program name : String) : Option StoredProcedure :=
  Table.find? StoredProcedure.key c.procedures [library, program, name]

/-- What is found for a name is a stored procedure of that name. -/
theorem mem_of_row? (h : c.row? library program name = some r) :
    r ∈ c.procedures ∧ r.library = library ∧ r.program = program ∧ r.name = name := by
  obtain ⟨hmem, hkey⟩ := Table.mem_of_find?_eq_some h
  exact ⟨hmem, StoredProcedure.key_eq_iff.1 hkey⟩

/-- A procedure is found for the names of the service program. -/
theorem isSome_row?_iff :
    (c.row? library program name).isSome = true ↔ name ∈ c.procedureNames library program :=
  Table.isSome_find?_iff.trans mem_procedureNames.symm

/-- Nothing is found for any other name. -/
theorem row?_eq_none_iff :
    c.row? library program name = none ↔ name ∉ c.procedureNames library program := by
  rw [← isSome_row?_iff, Bool.not_eq_true, Option.isSome_eq_false_iff, Option.isNone_iff_eq_none]

/-- The procedure of a name after the procedures of a service program were changed. -/
theorem row?_changeProcedures {f : StoredProcedure → StoredProcedure}
    (hf : ∀ r, (f r).key = r.key) :
    (c.changeProcedures l q f).row? library program name =
      (c.row? library program name).map fun r =>
        if library = l ∧ program = q then f r else r := by
  have hrows := Table.find?_map (Table.key_ite hf fun r => r.belongsTo l q) c.procedures
    [library, program, name]
  refine hrows.trans (Option.map_congr fun r hr => ?_)
  obtain ⟨-, rfl, rfl, -⟩ := mem_of_row? hr
  simp only [StoredProcedure.belongsTo_iff]

/-- The procedure of a name after procedures were added. -/
theorem row?_foldl_addProcedure (names : List String) :
    (names.foldl (fun c name => c.addProcedure l q name now) c).row? library program name =
      if library = l ∧ program = q ∧ name ∈ names then some (.new l q name now)
      else c.row? library program name := by
  induction names generalizing c with
  | nil => simp
  | cons first names ih =>
    rw [List.foldl_cons, ih]
    have hfirst : (c.addProcedure l q first now).row? library program name =
        if library = l ∧ program = q ∧ name = first then some (.new l q first now)
        else c.row? library program name := by
      refine (Table.find?_insert _ _ _ _).trans (if_congr ?_ rfl rfl)
      rw [StoredProcedure.key_eq_iff]
      exact and_congr eq_comm (and_congr eq_comm eq_comm)
    rw [hfirst]
    by_cases hown : library = l ∧ program = q
    · obtain ⟨rfl, rfl⟩ := hown
      by_cases hname : name = first
      · subst hname
        simp
      · simp [hname]
    · have hnone : ∀ P : Prop, ¬ (library = l ∧ program = q ∧ P) := fun P h =>
        hown ⟨h.1, h.2.1⟩
      rw [if_neg (hnone _), if_neg (hnone _), if_neg (hnone _)]

/-- The procedure of a name after only some procedures of a service program were kept. -/
theorem row?_keepOnly (wanted : List String) :
    (c.keepOnly l q wanted).row? library program name =
      if library = l ∧ program = q ∧ name ∉ wanted then none
      else c.row? library program name := by
  have hstays : ∀ r : StoredProcedure, r.key = [library, program, name] →
      (!r.belongsTo l q || wanted.contains r.name) =
        !decide (library = l ∧ program = q ∧ name ∉ wanted) := by
    intro r hkey
    obtain ⟨rfl, rfl, rfl⟩ := StoredProcedure.key_eq_iff.1 hkey
    rw [Bool.eq_iff_iff]
    simp only [Bool.or_eq_true, Bool.not_eq_true', Bool.eq_false_iff, ne_eq,
      StoredProcedure.belongsTo_iff, List.contains_iff_mem, decide_eq_true_eq]
    tauto
  refine (Table.find?_filter_of_key hstays c.procedures).trans ?_
  by_cases hgone : library = l ∧ program = q ∧ name ∉ wanted
  · rw [if_pos hgone, decide_eq_true hgone]
    rfl
  · rw [if_neg hgone, decide_eq_false hgone]
    rfl

/-! ## Catalogs in order -/

/-- The procedures of a service program are the rows that are found for their names. -/
theorem IsOrdered.mem_proceduresOf_iff (h : c.IsOrdered) :
    r ∈ c.proceduresOf library program ↔ c.row? library program r.name = some r := by
  rw [row?, h.procedures.find?_eq_some_iff, proceduresOf, List.mem_filter,
    StoredProcedure.belongsTo_iff, StoredProcedure.key_eq_iff]
  simp

/-- The names of the procedures of a service program rise. -/
theorem IsOrdered.pairwise_procedureNames (h : c.IsOrdered) (library program : String) :
    (c.procedureNames library program).Pairwise (· < ·) := by
  have hrows : (c.proceduresOf library program).Pairwise fun a b => a.key < b.key :=
    h.procedures.filter _
  refine List.pairwise_map.2 (hrows.imp_of_mem fun {a b} ha hb hab => ?_)
  obtain ⟨hla, hqa⟩ := StoredProcedure.belongsTo_iff.1 (List.mem_filter.1 ha).2
  obtain ⟨hlb, hqb⟩ := StoredProcedure.belongsTo_iff.1 (List.mem_filter.1 hb).2
  -- the keys agree but for the names
  simpa [StoredProcedure.key, hla, hqa, hlb, hqb, List.cons_lt_cons_iff] using hab

/-- The names of the procedures of a service program do not repeat. -/
theorem IsOrdered.nodup_procedureNames (h : c.IsOrdered) (library program : String) :
    (c.procedureNames library program).Nodup :=
  (h.pairwise_procedureNames library program).imp ne_of_lt

/-! ## Service programs -/

/-- The service program of a name after that of a name was touched. -/
theorem program?_touchProgram :
    (c.touchProgram l q now).program? library program =
      if library = l ∧ program = q then
        some { (c.program? l q).getD (.new l q) with updatedAt := some now }
      else c.program? library program := by
  unfold touchProgram
  cases hold : c.program? l q with
  | some old =>
    refine Eq.trans (program?_changeProgram ?_) ?_
    · exact fun _ => rfl
    · refine if_ctx_congr Iff.rfl (fun hown => ?_) fun _ => rfl
      rw [hown.1, hown.2, hold]
      rfl
  | none =>
    refine (Table.find?_insert _ _ _ _).trans (if_congr ?_ rfl rfl)
    simp only [ServiceProgram.key, ServiceProgram.new, List.cons.injEq, and_true]
    exact and_congr eq_comm eq_comm

/-- The service program of a name after a checksum was stored for that of a name. -/
theorem program?_setChecksum (checksum : Option String) :
    (c.setChecksum l q checksum).program? library program =
      if library = l ∧ program = q then
        (c.program? library program).map fun p => { p with checksum := checksum }
      else c.program? library program :=
  program?_changeProgram fun _ => rfl

end Catalog

end ProcedureCatalog
