/-
# Parts of a catalog

The part of a service program consists of its own row and those of its procedures. A change that
names a service program reads and writes this part only.

* `Change.act_part` : on the part alone, a change does what it does to the part in the catalog.
* `Change.part_onCatalog_of_other` : it leaves the parts of all other service programs.
* `eq_of_part_eq` : catalogs in order are known by their parts.
-/
import ProcedureCatalog.Proofs.Catalog.Answers
import ProcedureCatalog.Proofs.Catalog.Integrity

namespace ProcedureCatalog

namespace Catalog

/-! ## Order -/

/-- Both tables stand in rising order of their keys, so that no two rows share a key. -/
structure IsOrdered (c : Catalog) : Prop where
  programs : Table.Sorted ServiceProgram.key c.programs
  procedures : Table.Sorted StoredProcedure.key c.procedures

theorem isOrdered_empty : empty.IsOrdered := ⟨List.Pairwise.nil, List.Pairwise.nil⟩

variable {c d : Catalog} {library program l q now : String}

/-- Adding procedures keeps the order. -/
theorem IsOrdered.addProcedure (h : c.IsOrdered) (name : String) :
    (c.addProcedure library program name now).IsOrdered :=
  ⟨h.programs, h.procedures.insert _⟩

theorem IsOrdered.foldl_addProcedure (h : c.IsOrdered) (names : List String) :
    (names.foldl (fun c name => c.addProcedure library program name now) c).IsOrdered := by
  induction names generalizing c with
  | nil => exact h
  | cons name names ih => exact ih (h.addProcedure name)

theorem IsOrdered.touchProgram (h : c.IsOrdered) : (c.touchProgram library program now).IsOrdered :=
  ⟨sorted_touchProgram h.programs, by rw [procedures_touchProgram]; exact h.procedures⟩

theorem IsOrdered.grown (h : c.IsOrdered) (symbols : List String) :
    (c.grown library program now symbols).IsOrdered :=
  h.touchProgram.foldl_addProcedure _

/-- Every change keeps the order. -/
theorem IsOrdered.onCatalog {change : Change} {c' : Catalog} (h : c.IsOrdered)
    (hc' : change.onCatalog now c = .ok c') : c'.IsOrdered := by
  refine ⟨Change.sorted_programs_onCatalog h.programs hc', ?_⟩
  rcases Change.onCatalog_cases hc' with ⟨library, program, symbols, -, rfl⟩ |
    ⟨library, program, -, rfl⟩ | ⟨f, g, hf, -, rfl⟩
  · rw [procedures_sync]
    exact (h.grown symbols).procedures.filter _
  · exact h.procedures.filter _
  · exact h.procedures.map hf

/-! ## Parts -/

/-- The rows of one service program: its own and those of its procedures. -/
def part (c : Catalog) (library program : String) : Catalog where
  programs := c.programs.filter fun p => p.key == [library, program]
  procedures := c.proceduresOf library program

/-- Catalogs in order are known by their parts. -/
theorem eq_of_part_eq (hc : c.IsOrdered) (hd : d.IsOrdered)
    (h : ∀ library program, c.part library program = d.part library program) : c = d := by
  have hprograms : c.programs = d.programs := by
    refine hc.programs.ext hd.programs fun p => ?_
    have hpart := congrArg programs (h p.library p.name)
    have hmem : ∀ e : Catalog, p ∈ (e.part p.library p.name).programs ↔ p ∈ e.programs := by
      intro e
      simp [part, ServiceProgram.key]
    rw [← hmem c, hpart, hmem d]
  have hprocedures : c.procedures = d.procedures := by
    refine hc.procedures.ext hd.procedures fun r => ?_
    have hpart := congrArg procedures (h r.library r.program)
    have hmem : ∀ e : Catalog, r ∈ (e.part r.library r.program).procedures ↔ r ∈ e.procedures := by
      intro e
      simp [part, proceduresOf, StoredProcedure.belongsTo]
    rw [← hmem c, hpart, hmem d]
  cases c
  cases d
  simp only at hprograms hprocedures
  rw [hprograms, hprocedures]

/-! ## What a part shows -/

@[simp] theorem program?_part :
    (c.part library program).program? library program = c.program? library program := by
  simp only [program?, Table.find?, part, List.find?_filter, and_self, Bool.decide_eq_true]

@[simp] theorem proceduresOf_part :
    (c.part library program).proceduresOf library program = c.proceduresOf library program := by
  simp [proceduresOf, part, List.filter_filter]

@[simp] theorem procedureNames_part :
    (c.part library program).procedureNames library program =
      c.procedureNames library program := by
  simp [procedureNames]

@[simp] theorem newNames_part (symbols : List String) :
    (c.part library program).newNames library program symbols =
      c.newNames library program symbols := by
  simp [newNames]

@[simp] theorem records_part :
    (c.part library program).records library program = c.records library program := by
  simp [records]

/-! ## The part after a change of the catalog -/

/-- Changing the service program changes it in its part. -/
theorem part_changeProgram {f : ServiceProgram → ServiceProgram} (hf : ∀ p, (f p).key = p.key) :
    (c.changeProgram library program f).part library program =
      (c.part library program).changeProgram library program f := by
  have hp : ∀ p : ServiceProgram, ((if p.key = [library, program] then f p else p).key ==
      [library, program]) = (p.key == [library, program]) := fun p => by
    rw [Table.key_ite hf (fun p => p.key = [library, program])]
  exact congrArg (Catalog.mk · _) (Table.filter_map_of_key hp c.programs)

/-- Changing a service program leaves the parts of the others. -/
theorem part_changeProgram_of_other (hother : ¬ (library = l ∧ program = q))
    {f : ServiceProgram → ServiceProgram} (hf : ∀ p, (f p).key = p.key) :
    (c.changeProgram l q f).part library program = c.part library program := by
  have hp : ∀ p : ServiceProgram, ((if p.key = [l, q] then f p else p).key ==
      [library, program]) = (p.key == [library, program]) := fun p => by
    rw [Table.key_ite hf (fun p => p.key = [l, q])]
  refine congrArg (Catalog.mk · _) ((Table.filter_map_of_key hp c.programs).trans ?_)
  refine (List.map_congr_left fun p hmem => ?_).trans (List.map_id _)
  have hkey : p.key = [library, program] := by simpa using (List.mem_filter.1 hmem).2
  exact if_neg fun hsame => hother (by simpa using hkey.symm.trans hsame)

/-- Storing a checksum of the service program stores it in its part. -/
theorem part_setChecksum (checksum : Option String) :
    (c.setChecksum library program checksum).part library program =
      (c.part library program).setChecksum library program checksum :=
  part_changeProgram fun _ => rfl

/-- Storing a checksum of a service program leaves the parts of the others. -/
theorem part_setChecksum_of_other (hother : ¬ (library = l ∧ program = q))
    (checksum : Option String) :
    (c.setChecksum l q checksum).part library program = c.part library program :=
  part_changeProgram_of_other hother fun _ => rfl

/-- Changing the procedures of the service program changes them in its part. -/
theorem part_changeProcedures {f : StoredProcedure → StoredProcedure}
    (hf : ∀ r, (f r).key = r.key) :
    (c.changeProcedures library program f).part library program =
      (c.part library program).changeProcedures library program f :=
  congrArg (Catalog.mk _) (proceduresOf_changeProcedures hf)

/-- Changing the procedures of a service program leaves the parts of the others. -/
theorem part_changeProcedures_of_other (hother : ¬ (library = l ∧ program = q))
    {f : StoredProcedure → StoredProcedure} (hf : ∀ r, (f r).key = r.key) :
    (c.changeProcedures l q f).part library program = c.part library program :=
  congrArg (Catalog.mk _) (proceduresOf_changeProcedures_of_other hother hf)

/-- Touching the service program touches it in its part. -/
theorem part_touchProgram (h : c.IsOrdered) :
    (c.touchProgram library program now).part library program =
      (c.part library program).touchProgram library program now := by
  unfold touchProgram
  rw [program?_part]
  cases c.program? library program with
  | some p => exact part_changeProgram fun _ => rfl
  | none =>
    refine congrArg (Catalog.mk · _) (h.programs.filter_insert fun p hkey => ?_)
    exact beq_iff_eq.2 hkey

/-- Touching a service program leaves the parts of the others. -/
theorem part_touchProgram_of_other (hother : ¬ (library = l ∧ program = q)) :
    (c.touchProgram l q now).part library program = c.part library program := by
  unfold touchProgram
  cases c.program? l q with
  | some p => exact part_changeProgram_of_other hother fun _ => rfl
  | none =>
    refine congrArg (Catalog.mk · _) (Table.filter_insert_of_key (fun p hkey => ?_) _)
    have hnew : p.key = [l, q] := hkey
    have hne : ¬ (l = library ∧ q = program) := fun hsame => hother ⟨hsame.1.symm, hsame.2.symm⟩
    simpa [hnew] using hne

/-- Adding procedures of the service program adds them in its part. -/
theorem part_foldl_addProcedure (h : c.IsOrdered) (names : List String) :
    (names.foldl (fun c name => c.addProcedure library program name now) c).part library program =
      names.foldl (fun c name => c.addProcedure library program name now)
        (c.part library program) := by
  induction names generalizing c with
  | nil => rfl
  | cons name names ih =>
    have hadd : (c.addProcedure library program name now).part library program =
        (c.part library program).addProcedure library program name now := by
      refine congrArg (Catalog.mk _) (h.procedures.filter_insert fun r hkey => ?_)
      exact StoredProcedure.belongsTo_iff.2
        ⟨(StoredProcedure.key_eq_iff.1 hkey).1, (StoredProcedure.key_eq_iff.1 hkey).2.1⟩
    rw [List.foldl_cons, List.foldl_cons, ih (h.addProcedure name), hadd]

/-- Growing the procedures of the service program grows its part. -/
theorem part_grown (h : c.IsOrdered) (symbols : List String) :
    (c.grown library program now symbols).part library program =
      (c.part library program).grown library program now symbols := by
  unfold grown
  rw [part_foldl_addProcedure h.touchProgram, part_touchProgram h, newNames_part]

/-! ## Operations on a part -/

/-- Synchronising the part is synchronising the catalog. -/
theorem sync_part (h : c.IsOrdered) (symbols : List String) :
    (c.part library program).sync library program symbols now =
      Prod.map (·.part library program) id (c.sync library program symbols now) := by
  have hkeep : ∀ d : Catalog, ∀ wanted, (d.keepOnly library program wanted).part library program =
      (d.part library program).keepOnly library program wanted := fun d wanted =>
    congrArg (Catalog.mk _) (List.filter_comm _ _ _)
  refine Prod.ext ?_ ?_
  · rw [Prod.map_fst, sync_eq, sync_eq, newNames_part]
    split
    · rw [hkeep, part_grown h]
    · rw [part_setChecksum, hkeep, part_grown h]
  · unfold sync
    simp

/-- Synchronising a service program leaves the parts of the others. -/
theorem part_sync_of_other (hother : ¬ (library = l ∧ program = q)) (symbols : List String) :
    (c.sync l q symbols now).1.part library program = c.part library program := by
  have hprograms : ((c.grown l q now symbols).keepOnly l q (exported symbols)).programs =
      (c.touchProgram l q now).programs := programs_grown symbols
  have htouched : ((c.touchProgram l q now).part library program).programs =
      (c.part library program).programs := congrArg programs (part_touchProgram_of_other hother)
  refine congrArg₂ Catalog.mk ?_ (proceduresOf_sync_of_other hother symbols)
  -- of the service programs, one is touched and may lose its checksum
  rw [sync_eq]
  split
  · rw [hprograms]
    exact htouched
  · refine (congrArg programs (part_setChecksum_of_other hother none)).trans ?_
    simp only [part, hprograms]
    exact htouched

/-- Deleting from the part is deleting from the catalog. -/
theorem delete_part : (c.part library program).delete library program =
    Prod.map (·.part library program) id (c.delete library program) := by
  unfold delete
  rw [program?_part]
  refine Prod.ext (congrArg₂ Catalog.mk ?_ ?_) rfl
  · exact List.filter_comm _ _ _
  · exact List.filter_comm _ _ _

/-- Deleting a service program leaves the parts of the others. -/
theorem part_delete_of_other (hother : ¬ (library = l ∧ program = q)) :
    (c.delete l q).1.part library program = c.part library program := by
  refine congrArg₂ Catalog.mk ?_ ?_
  · refine (List.filter_filter).trans (List.filter_congr fun p _ => ?_)
    cases hkey : p.key == [library, program] with
    | false => rfl
    | true =>
      rw [beq_iff_eq.1 hkey]
      simpa using hother
  · refine (List.filter_filter).trans (List.filter_congr fun r _ => ?_)
    cases hown : r.belongsTo library program with
    | false => rfl
    | true => simp [StoredProcedure.belongsTo_eq_false_of_other hother hown]

/-- Storing descriptions in the part is storing them in the catalog. -/
theorem applyDescriptions_part (result : ExtractionResult) :
    (c.part library program).applyDescriptions library program result now =
      Prod.map (·.part library program) id
        (c.applyDescriptions library program result now) := by
  have haccepts : (c.part library program).accepts library program =
      c.accepts library program := by
    funext entry
    unfold accepts
    rw [proceduresOf_part]
  unfold applyDescriptions
  rw [haccepts]
  exact Prod.ext (part_changeProcedures (key_applyTo result now)).symm rfl

theorem key_setDescription (name text now : String) (r : StoredProcedure) :
    (if r.name = name then writeByHand text now r else r).key = r.key :=
  Table.key_ite (key_writeByHand text now) (fun r => r.name = name) r

/-- Writing by hand in the part is writing by hand in the catalog. -/
theorem setDescription_part (name text : String) :
    (c.part library program).setDescription library program name text now =
      Prod.map (·.part library program) id
        (c.setDescription library program name text now) := by
  refine Prod.ext ?_ ?_
  · rw [Prod.map_fst, setDescription_fst, setDescription_fst,
      part_changeProcedures (key_setDescription name _ now)]
  · have hfind : Table.find? StoredProcedure.key (c.proceduresOf library program)
        [library, program, name] =
          Table.find? StoredProcedure.key c.procedures [library, program, name] := by
      unfold Table.find? proceduresOf
      rw [List.find?_filter]
      congr 1
      funext r
      cases hkey : r.key == [library, program, name] with
      | false => simp
      | true =>
        obtain ⟨hl, hp, -⟩ := StoredProcedure.key_eq_iff.1 (beq_iff_eq.1 hkey)
        simp [StoredProcedure.belongsTo_iff.2 ⟨hl, hp⟩]
    -- the answer is whether the row is found
    exact congrArg Option.isSome hfind

/-- Inferring for the part is inferring for the catalog. -/
theorem fillFromNames_part (force : Bool) :
    (c.part library program).fillFromNames library program force now =
      (c.fillFromNames library program force now).map
        (Prod.map (·.part library program) id) := by
  unfold fillFromNames
  rw [records_part, proceduresOf_part]
  cases c.records library program with
  | error e => rfl
  | ok records =>
    -- the counts are over the same rows
    refine congrArg Except.ok (Prod.ext ?_ rfl)
    exact (part_changeProcedures (key_inferFor force now)).symm

/-- Extracting for the part is extracting for the catalog. -/
theorem fillFromSource_part (checksum : String → String) (source : String) (force : Bool) :
    (c.part library program).fillFromSource checksum library program source force now =
      (c.fillFromSource checksum library program source force now).map
        (Prod.map (·.part library program) id) := by
  unfold fillFromSource
  rw [program?_part, procedureNames_part]
  cases c.program? library program with
  | none => rfl
  | some p =>
    dsimp only
    split
    · rfl
    · split
      · rfl
      · rw [applyDescriptions_part]
        refine congrArg Except.ok (Prod.ext ?_ rfl)
        exact (part_setChecksum _).symm

/-- Shortening in the part is shortening in the catalog. -/
theorem shorten_part :
    (c.part library program).shorten (some (library, program)) now =
      (c.shorten (some (library, program)) now).map (Prod.map (·.part library program) id) := by
  have hchanged : (c.part library program).procedures.filter (fun r =>
      isCovered (some (library, program)) r && (shorterText? r).isSome) =
        c.procedures.filter fun r =>
          isCovered (some (library, program)) r && (shorterText? r).isSome := by
    refine (List.filter_filter).trans (List.filter_congr fun r _ => ?_)
    show ((r.belongsTo library program && (shorterText? r).isSome) &&
      r.belongsTo library program) = (r.belongsTo library program && (shorterText? r).isSome)
    cases r.belongsTo library program <;> simp
  unfold shorten
  rw [hchanged]
  dsimp only
  split
  · refine congrArg Except.ok (Prod.ext ?_ rfl)
    exact (part_changeProcedures (key_shortenRow now)).symm
  · rfl

end Catalog

/-! ## Changes of one service program -/

namespace Change

/-- The service program that the change names. Shortening may name none. -/
def target? : Change → Option (String × String)
  | sync library program _ => some (library, program)
  | applyDescriptions library program _ => some (library, program)
  | setDescription library program _ _ => some (library, program)
  | fillFromNames library program _ => some (library, program)
  | fillFromSource library program _ _ => some (library, program)
  | shorten filter => filter
  | delete library program => some (library, program)

variable {change : Change} {c c' : Catalog} {library program l q now : String}

/-- **Changes are local.** What a change does to the part of its service program, and its answer or
error, depend on this part only. -/
theorem act_part (h : c.IsOrdered) (htarget : change.target? = some (library, program)) :
    change.act now (c.part library program) =
      (change.act now c).map (Prod.map (·.part library program) id) := by
  cases change with
  | sync library program symbols =>
    obtain ⟨rfl, rfl⟩ := Prod.mk.inj (Option.some.inj htarget)
    rcases act_sync_cases library program symbols with ⟨e, hrefused⟩ | hsync
    · rw [hrefused, hrefused]
      rfl
    · rw [hsync, hsync, Catalog.sync_part h]
      rfl
  | applyDescriptions library program result =>
    obtain ⟨rfl, rfl⟩ := Prod.mk.inj (Option.some.inj htarget)
    simp only [act, Catalog.applyDescriptions_part]
    rfl
  | setDescription library program name text =>
    obtain ⟨rfl, rfl⟩ := Prod.mk.inj (Option.some.inj htarget)
    simp only [act, Catalog.setDescription_part]
    rfl
  | fillFromNames library program force =>
    obtain ⟨rfl, rfl⟩ := Prod.mk.inj (Option.some.inj htarget)
    simp only [act, Catalog.fillFromNames_part]
    exact map_snd_map_fst _ _ _
  | fillFromSource library program source force =>
    obtain ⟨rfl, rfl⟩ := Prod.mk.inj (Option.some.inj htarget)
    simp only [act, Catalog.fillFromSource_part]
    exact map_snd_map_fst _ _ _
  | shorten filter =>
    obtain rfl : filter = some (library, program) := htarget
    simp only [act, Catalog.shorten_part]
    exact map_snd_map_fst _ _ _
  | delete library program =>
    obtain ⟨rfl, rfl⟩ := Prod.mk.inj (Option.some.inj htarget)
    simp only [act, Catalog.delete_part]
    rfl

/-- A change leaves the parts of the service programs that it does not name. -/
theorem part_onCatalog_of_other (htarget : change.target? = some (l, q))
    (hother : ¬ (library = l ∧ program = q)) (h : change.onCatalog now c = .ok c') :
    c'.part library program = c.part library program := by
  cases change with
  | sync l q symbols =>
    obtain ⟨rfl, rfl⟩ := Prod.mk.inj (Option.some.inj htarget)
    obtain rfl := eq_of_onCatalog_sync h
    exact Catalog.part_sync_of_other hother symbols
  | applyDescriptions l q result =>
    obtain ⟨rfl, rfl⟩ := Prod.mk.inj (Option.some.inj htarget)
    obtain rfl := Except.ok.inj h
    exact Catalog.part_changeProcedures_of_other hother (Catalog.key_applyTo result now)
  | setDescription l q name text =>
    obtain ⟨rfl, rfl⟩ := Prod.mk.inj (Option.some.inj htarget)
    obtain rfl := Except.ok.inj h
    rw [Catalog.setDescription_fst]
    exact Catalog.part_changeProcedures_of_other hother (Catalog.key_setDescription name _ now)
  | fillFromNames l q force =>
    obtain ⟨rfl, rfl⟩ := Prod.mk.inj (Option.some.inj htarget)
    obtain ⟨result, hfill, rfl⟩ := exists_of_map_eq_ok h
    rw [Catalog.eq_of_fillFromNames hfill]
    exact Catalog.part_changeProcedures_of_other hother (Catalog.key_inferFor force now)
  | fillFromSource l q source force =>
    obtain ⟨rfl, rfl⟩ := Prod.mk.inj (Option.some.inj htarget)
    obtain ⟨⟨c', report⟩, hfill, rfl⟩ := exists_of_map_eq_ok h
    obtain ⟨p, -, hcases⟩ := Catalog.fillFromSource_cases hfill
    rcases hcases with ⟨-, -, rfl, -⟩ | ⟨-, -, rfl⟩ | ⟨-, -, rfl⟩
    · rfl
    · rfl
    · exact (Catalog.part_setChecksum_of_other hother _).trans
        (Catalog.part_changeProcedures_of_other hother (Catalog.key_applyTo _ now))
  | shorten filter =>
    obtain rfl : filter = some (l, q) := htarget
    obtain ⟨result, hshort, rfl⟩ := exists_of_map_eq_ok h
    rw [Catalog.eq_of_shorten hshort]
    exact Catalog.part_changeProcedures_of_other hother (Catalog.key_shortenRow now)
  | delete l q =>
    obtain ⟨rfl, rfl⟩ := Prod.mk.inj (Option.some.inj htarget)
    obtain rfl := Except.ok.inj h
    exact Catalog.part_delete_of_other hother

end Change

end ProcedureCatalog
