/-
# Stamps

A change writes stamps and does not read them: two catalogs that differ in stamps only stay so, and
answer alike, at whatever times they are changed.

* `Change.act_stampAll` : a change of a stamped catalog at the time of the stamp is the stamped outcome
  of the change at any time.
-/
import ProcedureCatalog.Proofs.Catalog.Answers
import ProcedureCatalog.Proofs.Catalog.Programs

namespace ProcedureCatalog

/-! ## Rows -/

/-- The service program with another stamp. -/
def ServiceProgram.stamped (stamp : String) (p : ServiceProgram) : ServiceProgram :=
  { p with updatedAt := some stamp }

theorem ServiceProgram.key_stamped (stamp : String) (p : ServiceProgram) :
    (p.stamped stamp).key = p.key := rfl

/-- The record with another stamp. -/
def ProcedureRecord.stamped (stamp : String) (r : ProcedureRecord) : ProcedureRecord :=
  { r with updatedAt := some stamp }

namespace StoredProcedure

/-- The procedure with another stamp. -/
def stamped (stamp : String) (r : StoredProcedure) : StoredProcedure :=
  { r with updatedAt := stamp }

variable (s now : String) (r : StoredProcedure)

theorem key_stamped : (r.stamped s).key = r.key := rfl

/-- A stamped row is read as a stamped record, or fails for the same source. -/
theorem toRecord_stamped : (r.stamped s).toRecord = r.toRecord.map (.stamped s) := by
  obtain ⟨library, program, name, description, source, updatedAt⟩ := r
  cases source with
  | none => rfl
  | some text =>
    simp only [toRecord, stamped]
    cases DescriptionSource.ofIdentifier? text with
    | none => rfl
    | some source => rfl

theorem writeByHand_stamped (text : String) :
    Catalog.writeByHand text s (r.stamped s) = (Catalog.writeByHand text now r).stamped s := by
  unfold Catalog.writeByHand
  split <;> rfl

theorem applyTo_stamped (result : ExtractionResult) :
    Catalog.applyTo result s (r.stamped s) = (Catalog.applyTo result now r).stamped s := by
  have hmanual : (r.stamped s).isManual = r.isManual := rfl
  have hname : (r.stamped s).name = r.name := rfl
  unfold Catalog.applyTo
  rw [hname, hmanual]
  cases result.get? r.name with
  | none => rfl
  | some found => cases r.isManual <;> rfl

theorem inferFor_stamped (force : Bool) :
    Catalog.inferFor force s (r.stamped s) = (Catalog.inferFor force now r).stamped s := by
  have htext : Catalog.inferredText? force (r.stamped s) = Catalog.inferredText? force r := rfl
  unfold Catalog.inferFor
  rw [htext]
  cases Catalog.inferredText? force r with
  | none => rfl
  | some text => rfl

theorem shortenRow_stamped :
    Catalog.shortenRow s (r.stamped s) = (Catalog.shortenRow now r).stamped s := by
  have htext : Catalog.shorterText? (r.stamped s) = Catalog.shorterText? r := rfl
  unfold Catalog.shortenRow
  rw [htext]
  cases Catalog.shorterText? r with
  | none => rfl
  | some text =>
    show Catalog.replaceText text s (r.stamped s) = (Catalog.replaceText text now r).stamped s
    unfold Catalog.replaceText
    split <;> rfl

end StoredProcedure

namespace Catalog

variable {c : Catalog} {library program s : String}

/-! ## What a stamped catalog shows -/

@[simp] theorem program?_stampAll : (c.stampAll s).program? library program =
    (c.program? library program).map (.stamped s) := by
  unfold program? Table.find? stampAll
  rw [List.find?_map]
  rfl

@[simp] theorem proceduresOf_stampAll : (c.stampAll s).proceduresOf library program =
    (c.proceduresOf library program).map (.stamped s) :=
  proceduresOf_map (c := c) (f := .stamped s) fun _ => rfl

@[simp] theorem procedureNames_stampAll : (c.stampAll s).procedureNames library program =
    c.procedureNames library program := by
  unfold procedureNames
  rw [proceduresOf_stampAll, List.map_map]
  rfl

@[simp] theorem newNames_stampAll (symbols : List String) :
    (c.stampAll s).newNames library program symbols = c.newNames library program symbols := by
  unfold newNames
  rw [procedureNames_stampAll]

/-- Stamped rows are read as stamped records, or fail for the same source. -/
theorem records_stampAll : (c.stampAll s).records library program =
    (c.records library program).map (List.map (.stamped s)) := by
  unfold records
  rw [proceduresOf_stampAll]
  -- the first row with an unknown source decides, stamped or not
  induction c.proceduresOf library program with
  | nil => rfl
  | cons r rows ih =>
    rw [List.map_cons, List.mapM_cons, List.mapM_cons, ih, r.toRecord_stamped s]
    cases r.toRecord with
    | error e => rfl
    | ok record =>
      cases rows.mapM StoredProcedure.toRecord with
      | error e => rfl
      | ok records => rfl

/-! ## Operations on a stamped catalog -/

/-- Changing a stamped service program is stamping the changed one. -/
theorem changeProgram_stampAll {f g : ServiceProgram → ServiceProgram}
    (h : ∀ p, g (p.stamped s) = (f p).stamped s) :
    (c.stampAll s).changeProgram library program g =
      (c.changeProgram library program f).stampAll s := by
  have hkey : ∀ p : ServiceProgram,
      (p.stamped s).key = [library, program] ↔ p.key = [library, program] := fun _ => Iff.rfl
  exact congrArg (Catalog.mk · _) (Table.map_ite_map hkey h c.programs)

/-- Changing stamped procedures is stamping the changed ones. -/
theorem changeProcedures_stampAll {f g : StoredProcedure → StoredProcedure}
    (h : ∀ r, g (r.stamped s) = (f r).stamped s) :
    (c.stampAll s).changeProcedures library program g =
      (c.changeProcedures library program f).stampAll s := by
  have hown : ∀ r : StoredProcedure, (r.stamped s).belongsTo library program = true ↔
      r.belongsTo library program = true := fun _ => Iff.rfl
  exact congrArg (Catalog.mk _) (Table.map_ite_map hown h c.procedures)

theorem setChecksum_stampAll (checksum : Option String) :
    (c.stampAll s).setChecksum library program checksum =
      (c.setChecksum library program checksum).stampAll s :=
  changeProgram_stampAll fun _ => rfl

theorem touchProgram_stampAll (now : String) : (c.stampAll s).touchProgram library program s =
    (c.touchProgram library program now).stampAll s := by
  unfold touchProgram
  rw [program?_stampAll]
  cases c.program? library program with
  | some p => exact changeProgram_stampAll fun _ => rfl
  | none =>
    refine congrArg (Catalog.mk · _) (Eq.symm ?_)
    exact Table.map_insert (ServiceProgram.key_stamped s)
      { ServiceProgram.new library program with updatedAt := some now } c.programs

theorem foldl_addProcedure_stampAll (now : String) (names : List String) :
    names.foldl (fun c name => c.addProcedure library program name s) (c.stampAll s) =
      (names.foldl (fun c name => c.addProcedure library program name now) c).stampAll s := by
  induction names generalizing c with
  | nil => rfl
  | cons name names ih =>
    have hadd : (c.stampAll s).addProcedure library program name s =
        (c.addProcedure library program name now).stampAll s := by
      refine congrArg (Catalog.mk _) (Eq.symm ?_)
      exact Table.map_insert (StoredProcedure.key_stamped s)
        (.new library program name now) c.procedures
    rw [List.foldl_cons, List.foldl_cons, hadd, ih]

theorem keepOnly_stampAll (wanted : List String) :
    (c.stampAll s).keepOnly library program wanted =
      (c.keepOnly library program wanted).stampAll s :=
  congrArg (Catalog.mk _)
    (Table.filter_map_of_key (f := StoredProcedure.stamped s) (fun _ => rfl) c.procedures)

theorem sync_stampAll (now : String) (symbols : List String) :
    (c.stampAll s).sync library program symbols s =
      Prod.map (·.stampAll s) id (c.sync library program symbols now) := by
  have hgrown : (c.stampAll s).grown library program s symbols =
      (c.grown library program now symbols).stampAll s := by
    unfold grown
    rw [newNames_stampAll, touchProgram_stampAll now, foldl_addProcedure_stampAll now]
  refine Prod.ext ?_ ?_
  · rw [Prod.map_fst, sync_eq, sync_eq, newNames_stampAll, hgrown, keepOnly_stampAll]
    split
    · rfl
    · exact setChecksum_stampAll none
  · -- the report counts names only
    unfold sync
    simp

theorem applyDescriptions_stampAll (now : String) (result : ExtractionResult) :
    (c.stampAll s).applyDescriptions library program result s =
      Prod.map (·.stampAll s) id (c.applyDescriptions library program result now) := by
  have haccepts : (c.stampAll s).accepts library program = c.accepts library program := by
    funext entry
    unfold accepts
    rw [proceduresOf_stampAll, List.any_map]
    rfl
  unfold applyDescriptions
  rw [haccepts]
  exact Prod.ext (changeProcedures_stampAll fun r => r.applyTo_stamped s now result) rfl

theorem setDescription_stampAll (now name text : String) :
    (c.stampAll s).setDescription library program name text s =
      Prod.map (·.stampAll s) id (c.setDescription library program name text now) := by
  refine Prod.ext ?_ ?_
  · rw [Prod.map_fst, setDescription_fst, setDescription_fst]
    refine changeProcedures_stampAll fun r => ?_
    show (if r.name = name then _ else r.stamped s) = (if r.name = name then _ else r).stamped s
    rw [r.writeByHand_stamped s now]
    split <;> rfl
  · unfold setDescription Table.find? stampAll
    simp only [List.find?_map, Option.isSome_map]
    rfl

theorem fillFromNames_stampAll (now : String) (force : Bool) :
    (c.stampAll s).fillFromNames library program force s =
      (c.fillFromNames library program force now).map (Prod.map (·.stampAll s) id) := by
  unfold fillFromNames
  rw [records_stampAll, proceduresOf_stampAll]
  cases c.records library program with
  | error e => rfl
  | ok records =>
    refine congrArg Except.ok (Prod.ext ?_ ?_)
    · exact changeProcedures_stampAll fun r => r.inferFor_stamped s now force
    · simp only [List.length_map, List.countP_map]
      rfl

theorem fillFromSource_stampAll (now : String) (checksum : String → String) (source : String)
    (force : Bool) :
    (c.stampAll s).fillFromSource checksum library program source force s =
      (c.fillFromSource checksum library program source force now).map
        (Prod.map (·.stampAll s) id) := by
  unfold fillFromSource
  rw [program?_stampAll, procedureNames_stampAll]
  cases c.program? library program with
  | none => rfl
  | some p =>
    have hchecksum : (p.stamped s).checksum = p.checksum := rfl
    simp only [Option.map_some, hchecksum]
    split
    · rfl
    · split
      · rfl
      · rw [applyDescriptions_stampAll now]
        refine congrArg Except.ok (Prod.ext ?_ rfl)
        exact setChecksum_stampAll _

theorem shorten_stampAll (now : String) (filter : Option (String × String)) :
    (c.stampAll s).shorten filter s =
      (c.shorten filter now).map (Prod.map (·.stampAll s) id) := by
  have hcovered : ∀ r : StoredProcedure, isCovered filter (r.stamped s) = true ↔
      isCovered filter r = true := by
    intro r
    cases filter <;> exact Iff.rfl
  have hchanged : (c.stampAll s).procedures.filter (fun r =>
      isCovered filter r && (shorterText? r).isSome) =
        (c.procedures.filter fun r => isCovered filter r && (shorterText? r).isSome).map
          (.stamped s) := by
    refine Table.filter_map_of_key (f := StoredProcedure.stamped s) (fun r => ?_) c.procedures
    cases filter <;> rfl
  have hknown : ∀ r : StoredProcedure, hasKnownSource (shortenRow s (r.stamped s)) =
      hasKnownSource (shortenRow now r) := by
    intro r
    rw [r.shortenRow_stamped s now]
    rfl
  unfold shorten
  rw [hchanged]
  simp only [List.all_map, Function.comp_def, hknown, List.length_map]
  split
  · refine congrArg Except.ok (Prod.ext (congrArg (Catalog.mk _) ?_) rfl)
    exact Table.map_ite_map hcovered (fun r => r.shortenRow_stamped s now) c.procedures
  · rfl

theorem delete_stampAll : (c.stampAll s).delete library program =
    Prod.map (·.stampAll s) id (c.delete library program) := by
  unfold delete
  rw [program?_stampAll]
  refine Prod.ext (congrArg₂ Catalog.mk ?_ ?_) (by simp)
  · exact Table.filter_map_of_key (f := ServiceProgram.stamped s) (fun _ => rfl) c.programs
  · exact Table.filter_map_of_key (f := StoredProcedure.stamped s) (fun _ => rfl) c.procedures

end Catalog

/-! ## Changes of a stamped catalog -/

/-- **Changes do not read stamps.** A change of a stamped catalog at the time of the stamp leaves the
stamped rows of the change at any time, and answers alike. -/
theorem Change.act_stampAll (change : Change) (c : Catalog) (s now : String) :
    change.act s (c.stampAll s) =
      (change.act now c).map (Prod.map (·.stampAll s) id) := by
  cases change with
  | sync library program symbols =>
    rcases act_sync_cases library program symbols with ⟨e, hrefused⟩ | hsync
    · rw [hrefused, hrefused]
      rfl
    · rw [hsync, hsync, Catalog.sync_stampAll now]
      rfl
  | applyDescriptions library program result =>
    simp only [act, Catalog.applyDescriptions_stampAll now]
    rfl
  | setDescription library program name text =>
    simp only [act, Catalog.setDescription_stampAll now]
    rfl
  | fillFromNames library program force =>
    simp only [act, Catalog.fillFromNames_stampAll now]
    exact map_snd_map_fst _ _ _
  | fillFromSource library program source force =>
    simp only [act, Catalog.fillFromSource_stampAll now]
    exact map_snd_map_fst _ _ _
  | shorten filter =>
    simp only [act, Catalog.shorten_stampAll now]
    exact map_snd_map_fst _ _ _
  | delete library program =>
    simp only [act, Catalog.delete_stampAll]
    rfl

end ProcedureCatalog
