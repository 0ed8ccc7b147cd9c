/-
# What changes do to service programs

How the changes act on the table of service programs, and on the procedures of one service program
among the others.

* `sorted_sync`, `exists_key_sync` : a synchronisation keeps the order and all service programs.
* `checksum?_sync` : it makes a checksum void only when it adds procedures.
* `proceduresOf_sync_of_other` : it leaves the procedures of the other service programs.
-/
import ProcedureCatalog.Proofs.Catalog.Rows

namespace ProcedureCatalog.Catalog

variable {c : Catalog} {library program l q now : String} {k : Table.Key}

/-! ## Order and keys -/

/-- Changing a service program keeps the order. -/
theorem sorted_changeProgram {f : ServiceProgram → ServiceProgram}
    (h : Table.Sorted ServiceProgram.key c.programs) (hf : ∀ q, (f q).key = q.key) :
    Table.Sorted ServiceProgram.key (c.changeProgram library program f).programs :=
  h.map (Table.key_ite hf fun q => q.key = [library, program])

/-- Changing a service program keeps all service programs. -/
theorem exists_key_changeProgram {f : ServiceProgram → ServiceProgram}
    (h : ∃ q ∈ c.programs, q.key = k) (hf : ∀ q, (f q).key = q.key) :
    ∃ q ∈ (c.changeProgram library program f).programs, q.key = k :=
  Table.exists_key_map (Table.key_ite hf fun q => q.key = [library, program]) h

/-- Touching a service program keeps the order. -/
theorem sorted_touchProgram (h : Table.Sorted ServiceProgram.key c.programs) :
    Table.Sorted ServiceProgram.key (c.touchProgram library program now).programs := by
  unfold touchProgram
  split
  · exact sorted_changeProgram h fun _ => rfl
  · exact h.insert _

/-- After a service program was touched it is there, and those that were there are. -/
theorem exists_key_touchProgram (h : k = [library, program] ∨ ∃ q ∈ c.programs, q.key = k) :
    ∃ q ∈ (c.touchProgram library program now).programs, q.key = k := by
  unfold touchProgram
  split
  · next old hold =>
    refine exists_key_changeProgram ?_ fun _ => rfl
    rcases h with rfl | h
    · exact ⟨old, Table.mem_of_find?_eq_some hold⟩
    · exact h
  · by_cases hk : k = [library, program]
    · exact ⟨_, Table.mem_insert_self _ _, hk.symm⟩
    · obtain ⟨q, hq, hkey⟩ := h.resolve_left hk
      exact ⟨q, Table.mem_insert_of_mem hq fun hsame => hk (hkey.symm.trans hsame), hkey⟩

@[simp] theorem programs_grown (symbols : List String) :
    (c.grown library program now symbols).programs =
      (c.touchProgram library program now).programs := programs_foldl_addProcedure _

@[simp] theorem programs_keepOnly (wanted : List String) :
    (c.keepOnly library program wanted).programs = c.programs := rfl

/-- A synchronisation keeps the order. -/
theorem sorted_sync (h : Table.Sorted ServiceProgram.key c.programs) (symbols : List String) :
    Table.Sorted ServiceProgram.key (c.sync library program symbols now).1.programs := by
  have htouched : Table.Sorted ServiceProgram.key ((c.grown library program now symbols).keepOnly
      library program (exported symbols)).programs := by
    rw [programs_keepOnly, programs_grown]
    exact sorted_touchProgram h
  rw [sync_eq]
  split
  · exact htouched
  · exact sorted_changeProgram htouched fun _ => rfl

/-- After a synchronisation its service program is there, and those that were there are. -/
theorem exists_key_sync (h : k = [library, program] ∨ ∃ q ∈ c.programs, q.key = k)
    (symbols : List String) :
    ∃ q ∈ (c.sync library program symbols now).1.programs, q.key = k := by
  have htouched : ∃ q ∈ ((c.grown library program now symbols).keepOnly library program
      (exported symbols)).programs, q.key = k := by
    rw [programs_keepOnly, programs_grown]
    exact exists_key_touchProgram h
  rw [sync_eq]
  split
  · exact htouched
  · exact exists_key_changeProgram htouched fun _ => rfl

/-! ## Checksums -/

/-- The stored checksum of a service program. -/
def checksum? (c : Catalog) (library program : String) : Option String :=
  (c.program? library program).bind (·.checksum)

/-- The service program of a name after a change of one. -/
theorem program?_changeProgram {f : ServiceProgram → ServiceProgram}
    (hf : ∀ p, (f p).key = p.key) :
    (c.changeProgram l q f).program? library program =
      if library = l ∧ program = q then (c.program? library program).map f
      else c.program? library program := by
  unfold program? changeProgram
  dsimp only
  rw [Table.find?_update _ hf]
  simp

/-- Touching a service program leaves all checksums. -/
theorem checksum?_touchProgram :
    (c.touchProgram l q now).checksum? library program = c.checksum? library program := by
  unfold touchProgram
  split
  · unfold checksum?
    rw [program?_changeProgram]
    · split
      · rw [Option.bind_map]; rfl
      · rfl
    · exact fun _ => rfl
  · next hp =>
    unfold checksum? program? addProgram at *
    dsimp only
    rw [Table.find?_insert]
    split
    · next hkey =>
      have habsent : Table.find? ServiceProgram.key c.programs [library, program] = none := by
        rw [← hkey]; exact hp
      rw [habsent]; rfl
    · rfl

/-- Storing a checksum changes that of one service program. -/
theorem checksum?_setChecksum (checksum : Option String) :
    (c.setChecksum l q checksum).checksum? library program =
      if library = l ∧ program = q then (c.program? library program).bind fun _ => checksum
      else c.checksum? library program := by
  unfold setChecksum checksum?
  rw [program?_changeProgram]
  · split
    · rw [Option.bind_map]; rfl
    · rfl
  · exact fun _ => rfl

/-- Growing the procedures leaves all checksums. -/
theorem checksum?_grown (symbols : List String) :
    (c.grown l q now symbols).checksum? library program = c.checksum? library program := by
  have htouch : (c.touchProgram l q now).checksum? library program = c.checksum? library program :=
    checksum?_touchProgram
  rw [← htouch]
  simp only [checksum?, program?, programs_grown]

/-- A synchronisation makes the checksum of its service program void when something is new, and
leaves all others. -/
theorem checksum?_sync {symbols : List String}
    (h : ¬ (library = l ∧ program = q ∧ c.newNames l q symbols ≠ [])) :
    (c.sync l q symbols now).1.checksum? library program = c.checksum? library program := by
  have hkeep : ∀ wanted, ((c.grown l q now symbols).keepOnly l q wanted).checksum?
      library program = c.checksum? library program := fun _ => checksum?_grown symbols
  rw [sync_eq]
  split
  · exact hkeep _
  · next hnew =>
    rw [checksum?_setChecksum, if_neg fun hsame => h ⟨hsame.1, hsame.2, by simpa using hnew⟩]
    exact hkeep _

/-- A synchronisation that adds something makes the checksum void. -/
theorem checksum?_sync_of_new {symbols : List String} (h : c.newNames l q symbols ≠ []) :
    (c.sync l q symbols now).1.checksum? l q = none := by
  rw [sync_eq, if_neg (by simpa using h), checksum?_setChecksum, if_pos ⟨rfl, rfl⟩]
  cases ((c.grown l q now symbols).keepOnly l q (exported symbols)).program? l q <;> rfl

/-! ## Procedures of a service program -/

/-- Adding procedures to one service program leaves those of the others. -/
theorem proceduresOf_foldl_addProcedure (hother : ¬ (library = l ∧ program = q))
    (names : List String) :
    (names.foldl (fun c name => c.addProcedure l q name now) c).proceduresOf library program =
      c.proceduresOf library program := by
  induction names generalizing c with
  | nil => rfl
  | cons name names ih =>
    rw [List.foldl_cons, ih]
    refine Table.filter_insert_of_key (fun r hkey => ?_) _
    rw [Bool.eq_false_iff, ne_eq, StoredProcedure.belongsTo_iff]
    obtain ⟨hl, hq, -⟩ := StoredProcedure.key_eq_iff.1 hkey
    exact fun hbelongs => hother ⟨hbelongs.1.symm.trans hl, hbelongs.2.symm.trans hq⟩

/-- Keeping only some procedures of one service program leaves those of the others. -/
theorem proceduresOf_keepOnly_of_other (hother : ¬ (library = l ∧ program = q))
    (wanted : List String) :
    (c.keepOnly l q wanted).proceduresOf library program = c.proceduresOf library program := by
  unfold proceduresOf keepOnly
  rw [List.filter_filter]
  refine List.filter_congr fun r _ => ?_
  cases hown : r.belongsTo library program with
  | false => rfl
  | true => simp [StoredProcedure.belongsTo_eq_false_of_other hother hown]

/-- A synchronisation of one service program leaves the procedures of the others. -/
theorem proceduresOf_sync_of_other (hother : ¬ (library = l ∧ program = q))
    (symbols : List String) :
    (c.sync l q symbols now).1.proceduresOf library program = c.proceduresOf library program := by
  have hsync : (c.sync l q symbols now).1.proceduresOf library program =
      ((c.grown l q now symbols).keepOnly l q (exported symbols)).proceduresOf library program := by
    rw [sync_eq]
    split <;> rfl
  rw [hsync, proceduresOf_keepOnly_of_other hother, grown,
    proceduresOf_foldl_addProcedure hother]
  simp [proceduresOf]

/-- A synchronisation that neither adds nor removes leaves all rows. -/
theorem procedures_sync_of_same {symbols : List String} (hnew : c.newNames l q symbols = [])
    (hremoved : (c.sync l q symbols now).2.removed = 0) :
    (c.sync l q symbols now).1.procedures = c.procedures := by
  have hkept : (c.procedureNames l q).filter (!(exported symbols).contains ·) = [] :=
    List.length_eq_zero_iff.1 hremoved
  rw [procedures_sync, grown, hnew]
  simp only [List.foldl_nil, procedures_touchProgram]
  refine List.filter_eq_self.2 fun r hr => ?_
  cases hown : r.belongsTo l q with
  | false => rfl
  | true =>
    have hname : r.name ∈ c.procedureNames l q :=
      mem_procedureNames.2 ⟨r, hr, StoredProcedure.key_eq_iff.2
        ⟨(StoredProcedure.belongsTo_iff.1 hown).1, (StoredProcedure.belongsTo_iff.1 hown).2, rfl⟩⟩
    have hwanted := List.filter_eq_nil_iff.1 hkept r.name hname
    simpa using hwanted

/-- The procedures of a service program after a change of rows that keeps the keys. -/
theorem proceduresOf_map {f : StoredProcedure → StoredProcedure} (hf : ∀ r, (f r).key = r.key) :
    ({ c with procedures := c.procedures.map f } : Catalog).proceduresOf library program =
      (c.proceduresOf library program).map f :=
  Table.filter_map_of_key (fun r => StoredProcedure.belongsTo_congr (hf r)) c.procedures

/-- The procedures of a service program after those of one were changed. -/
theorem proceduresOf_changeProcedures {f : StoredProcedure → StoredProcedure}
    (hf : ∀ r, (f r).key = r.key) :
    (c.changeProcedures l q f).proceduresOf library program =
      (c.proceduresOf library program).map fun r => if r.belongsTo l q then f r else r :=
  proceduresOf_map (Table.key_ite hf fun r => r.belongsTo l q)

/-- A change of the procedures of one service program leaves those of the others. -/
theorem proceduresOf_changeProcedures_of_other (hother : ¬ (library = l ∧ program = q))
    {f : StoredProcedure → StoredProcedure} (hf : ∀ r, (f r).key = r.key) :
    (c.changeProcedures l q f).proceduresOf library program = c.proceduresOf library program := by
  rw [proceduresOf_changeProcedures hf]
  refine (List.map_congr_left fun r hr => ?_).trans (List.map_id _)
  refine if_neg (Bool.eq_false_iff.1 ?_)
  exact StoredProcedure.belongsTo_eq_false_of_other hother (List.mem_filter.1 hr).2

/-- A change of the procedures of one service program changes each of them. -/
theorem proceduresOf_changeProcedures_of_same {f : StoredProcedure → StoredProcedure}
    (hf : ∀ r, (f r).key = r.key) :
    (c.changeProcedures l q f).proceduresOf l q = (c.proceduresOf l q).map f := by
  rw [proceduresOf_changeProcedures hf]
  exact List.map_congr_left fun r hr => if_pos (List.mem_filter.1 hr).2

/-- Writing a description by hand changes one procedure of the service program. -/
theorem setDescription_fst (c : Catalog) (library program name text now : String) :
    (c.setDescription library program name text now).1 =
      c.changeProcedures library program fun r =>
        if r.name = name then writeByHand (Description.normalize (Text.trimmed text)) now r
        else r := by
  refine congrArg (Catalog.mk _) (List.map_congr_left fun r _ => ?_)
  simp only [StoredProcedure.key_eq_iff, StoredProcedure.belongsTo_iff]
  by_cases hown : r.library = library ∧ r.program = program
  · simp [hown]
  · have hnot : ¬ (r.library = library ∧ r.program = program ∧ r.name = name) :=
      fun h => hown ⟨h.1, h.2.1⟩
    rw [if_neg hnot, if_neg hown]

end ProcedureCatalog.Catalog
