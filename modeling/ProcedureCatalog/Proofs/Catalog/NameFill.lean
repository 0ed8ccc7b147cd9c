/-
# Filling from names

A fill from names describes the procedures that have no description, or all with `force`, those by
hand apart, as far as a description can be inferred from their names.

* `FillsGaps` : what a fill makes of a row.
* `inferredText?_inferFor` : a row that was inferred for is not inferred for again.
* `countP_fill` : a row is written, passed over, or nothing can be inferred for it.
* `name_fill_fills_gaps` : the rows and the report of a fill, and of a second one.
-/
import Mathlib.Data.List.Forall2
import ProcedureCatalog.Proofs.Catalog.Answers
import ProcedureCatalog.Proofs.Catalog.Counts

namespace ProcedureCatalog

variable {library program now : String} {force : Bool} {r : StoredProcedure}

/-! ## Rows -/

namespace Catalog

/-- The row `after` is `before` filled from its name, if there is a gap to fill. -/
structure FillsGaps (library program now : String) (force : Bool)
    (before after : StoredProcedure) : Prop where
  /-- A row of the service program that is not described by hand, and without `force` not described at
  all, takes the description that is inferred from its name. -/
  filled : before.belongsTo library program = true → before.isManual = false →
    (force = true ∨ before.isDescribed = false) →
      ∀ text, Inference.infer before.name = some text →
        after = before.describe text .nameInference now
  /-- Every other row is as before. -/
  kept : before.belongsTo library program = false ∨ before.isManual = true ∨
    (force = false ∧ before.isDescribed = true) ∨ Inference.infer before.name = none →
      after = before

theorem isSkipped_eq_false_iff :
    isSkipped force r = false ↔ r.isManual = false ∧ (force = true ∨ r.isDescribed = false) := by
  cases force <;> simp [isSkipped]

theorem isSkipped_eq_true_iff :
    isSkipped force r = true ↔ r.isManual = true ∨ (force = false ∧ r.isDescribed = true) := by
  cases force <;> simp [isSkipped]

/-- Inferring for the rows of a service program fills their gaps. -/
theorem fillsGaps_inferFor (library program now : String) (force : Bool) (r : StoredProcedure) :
    FillsGaps library program now force r
      (if r.belongsTo library program then inferFor force now r else r) where
  filled := by
    intro hown hauto hgap text htext
    rw [if_pos hown, inferFor, inferredText?, isSkipped_eq_false_iff.2 ⟨hauto, hgap⟩]
    simp [htext]
  kept := by
    intro hkept
    split
    · next hown =>
      rw [inferFor, inferredText?]
      rcases hkept with hother | hmanual | hdescribed | hnone
      · rw [hother] at hown
        cases hown
      · simp [isSkipped_eq_true_iff.2 (.inl hmanual)]
      · simp [isSkipped_eq_true_iff.2 (.inr hdescribed)]
      · simp [hnone]
    · rfl

/-- An inferred description is one. -/
theorem isDescribed_describe {text : String} (h : Inference.infer r.name = some text) :
    (r.describe text .nameInference now).isDescribed = true := by
  simp [StoredProcedure.isDescribed, StoredProcedure.describe, Inference.not_allBlank_of_infer h]

/-- Without `force`, nothing is inferred for a row that was inferred for. -/
theorem inferredText?_inferFor (force : Bool) (now : String) (r : StoredProcedure) :
    inferredText? false (inferFor force now r) = none := by
  unfold inferFor
  cases htext : inferredText? force r with
  | some text =>
    have hinfer : Inference.infer r.name = some text := by
      unfold inferredText? at htext
      split at htext
      · cases htext
      · exact htext
    -- now the row is described
    exact if_pos (isSkipped_eq_true_iff.2 (.inr ⟨rfl, isDescribed_describe hinfer⟩))
  | none =>
    unfold inferredText? at htext ⊢
    split at htext
    · next hskipped =>
      refine if_pos ?_
      rw [isSkipped_eq_true_iff] at hskipped ⊢
      exact hskipped.imp_right fun hdescribed => ⟨rfl, hdescribed.2⟩
    · rw [htext, ite_self]

/-- A known source is known after a row was inferred for. -/
theorem hasKnownSource_inferFor (h : hasKnownSource r = true) :
    hasKnownSource (inferFor force now r) = true := by
  rcases inferFor_cases force now r with heq | ⟨text, -, -, heq⟩
  · rw [heq]
    exact h
  · rw [heq]
    rfl

/-! ## Counts -/

/-- The number of rows that a fill writes. -/
def countFilled (force : Bool) (rows : List StoredProcedure) : Nat :=
  rows.countP fun r => !isSkipped force r && (Inference.infer r.name).isSome

/-- The number of rows that a fill considers, and for whose names nothing is inferred. -/
def countUninferred (force : Bool) (rows : List StoredProcedure) : Nat :=
  rows.countP fun r => !isSkipped force r && (Inference.infer r.name).isNone

/-- A row is written, passed over, or considered without an inference. -/
theorem countP_fill (force : Bool) (rows : List StoredProcedure) :
    countFilled force rows + rows.countP (isSkipped force) + countUninferred force rows =
      rows.length := by
  induction rows with
  | nil => rfl
  | cons r rows ih =>
    unfold countFilled countUninferred at ih ⊢
    simp only [List.countP_cons, List.length_cons]
    cases isSkipped force r with
    | true => simp; omega
    | false =>
      cases Inference.infer r.name with
      | none => simp; omega
      | some text => simp; omega

/-! ## The fill -/

variable {c : Catalog}

/-- A fill of a service program with known sources infers for its procedures. -/
theorem fillFromNames_eq_ok
    (h : ∀ r ∈ c.proceduresOf library program, hasKnownSource r = true) (force : Bool)
    (now : String) :
    let own := c.proceduresOf library program
    c.fillFromNames library program force now =
      .ok (c.changeProcedures library program (inferFor force now),
        ⟨own.length, countFilled force own, own.countP (isSkipped force), false⟩) := by
  intro own
  have hrecords : c.records library program = .ok (own.map StoredProcedure.record) :=
    mapM_eq_ok fun r hr => StoredProcedure.toRecord_eq_of_known (h r hr)
  have hfilled : own.countP (fun r => (inferredText? force r).isSome) = countFilled force own := by
    refine List.countP_congr fun r _ => ?_
    unfold inferredText?
    cases isSkipped force r <;> simp
  rw [← hfilled, fillFromNames, hrecords]
  rfl

/-- A change that leaves the procedures of the service program leaves the catalog. -/
theorem changeProcedures_eq_self {f : StoredProcedure → StoredProcedure}
    (h : ∀ r ∈ c.proceduresOf library program, f r = r) :
    c.changeProcedures library program f = c := by
  refine congrArg (Catalog.mk _) ((List.map_congr_left fun r hr => ?_).trans (List.map_id _))
  split
  · next hown => exact h r (List.mem_filter.2 ⟨hr, hown⟩)
  · rfl

/-- A second fill without `force` changes nothing. -/
theorem fillFromNames_again (h : ∀ r ∈ c.proceduresOf library program, hasKnownSource r = true)
    (force : Bool) (now later : String) :
    let filled := c.changeProcedures library program (inferFor force now)
    ∃ skipped, filled.fillFromNames library program false later =
      .ok (filled, ⟨(c.proceduresOf library program).length, 0, skipped, false⟩) := by
  intro filled
  have hown : filled.proceduresOf library program =
      (c.proceduresOf library program).map (inferFor force now) :=
    proceduresOf_changeProcedures_of_same (key_inferFor force now)
  have hrows : ∀ r ∈ filled.proceduresOf library program,
      hasKnownSource r = true ∧ inferredText? false r = none := by
    intro r hr
    rw [hown] at hr
    obtain ⟨old, hold, rfl⟩ := List.mem_map.1 hr
    exact ⟨hasKnownSource_inferFor (h old hold), inferredText?_inferFor force now old⟩
  have hsame : filled.changeProcedures library program (inferFor false later) = filled := by
    refine changeProcedures_eq_self fun r hr => ?_
    rw [inferFor, (hrows r hr).2]
  have hcount : countFilled false (filled.proceduresOf library program) = 0 := by
    refine List.countP_eq_zero.2 fun r hr => ?_
    have hnone := (hrows r hr).2
    unfold inferredText? at hnone
    split at hnone
    · next hskipped => simp [hskipped]
    · simp [hnone]
  have hagain := fillFromNames_eq_ok (c := filled) (fun r hr => (hrows r hr).1) false later
  dsimp only at hagain
  rw [hsame, hcount, hown, List.length_map] at hagain
  exact ⟨_, hagain⟩

end Catalog

/-! ## In a database -/

namespace Database

variable {db : Database} {p : TablePrefix} {c : Catalog}

/-- **A fill from names fills the gaps and converges.** On a catalog whose descriptions have known
sources it succeeds. It fills the gaps of the service program and leaves every other row. Its report
counts the procedures, those it writes and those it passes over, which with those for whose names
nothing is inferred are all. A second fill without `force`, at any time, writes nothing. -/
theorem name_fill_fills_gaps (hc : ∀ first, db.catalog p first = .ok c)
    (hknown : ∀ r ∈ c.procedures, Catalog.hasKnownSource r = true)
    (library program : String) (force : Bool) (now : String) :
    let own := c.proceduresOf library program
    let written := Catalog.countFilled force own
    let skipped := own.countP (Catalog.isSkipped force)
    ∃ db' c', db.fillFromNames p library program force now =
        .ok (db', ⟨own.length, written, skipped, false⟩) ∧
      (∀ first, db'.catalog p first = .ok c') ∧
      c'.programs = c.programs ∧
      List.Forall₂ (Catalog.FillsGaps library program now force) c.procedures c'.procedures ∧
      written + skipped + Catalog.countUninferred force own = own.length ∧
      ∀ later, ∃ db'' skipped', db'.fillFromNames p library program false later =
          .ok (db'', ⟨own.length, 0, skipped', false⟩) ∧
        ∀ first, db''.catalog p first = .ok c' := by
  intro own written skipped
  have hown : ∀ r ∈ c.proceduresOf library program, Catalog.hasKnownSource r = true :=
    fun r hr => hknown r (List.mem_filter.1 hr).1
  obtain ⟨db', hfill, hc'⟩ := exists_write_eq_ok
    (fun c => c.fillFromNames library program force now) (hc .procedures)
    (Catalog.fillFromNames_eq_ok hown force now)
  refine ⟨db', _, hfill, hc', rfl, ?_, Catalog.countP_fill force own, fun later => ?_⟩
  · refine List.forall₂_map_right_iff.2 (List.forall₂_same.2 fun r _ => ?_)
    exact Catalog.fillsGaps_inferFor library program now force r
  · obtain ⟨skipped', hagain⟩ := Catalog.fillFromNames_again hown force now later
    obtain ⟨db'', hagain, hc''⟩ := exists_write_eq_ok
      (fun c => c.fillFromNames library program false later) (hc' .procedures) hagain
    exact ⟨db'', skipped', hagain, hc''⟩

/-- A procedure described by hand, one without description and one without inference. -/
theorem name_fill_fills_one_gap :
    let db := empty.run [⟨.standard, .up, ""⟩,
      ⟨.standard, .change (.sync "AXA" "SPV" ["A_", "A_GetName", "B_X"]), "1"⟩,
      ⟨.standard, .change (.setDescription "AXA" "SPV" "B_X" "by hand"), "2"⟩]
    ∃ db' db'' skipped, db.fillFromNames .standard "AXA" "SPV" false "3" =
        .ok (db', ⟨3, 1, 1, false⟩) ∧
      db'.fillFromNames .standard "AXA" "SPV" false "4" = .ok (db'', ⟨3, 0, skipped, false⟩) := by
  intro db
  have hc : ∀ first, db.catalog .standard first =
      .ok ⟨[{ ServiceProgram.new "AXA" "SPV" with updatedAt := some "1" }],
        [⟨"AXA", "SPV", "A_", none, none, "1"⟩, ⟨"AXA", "SPV", "A_GetName", none, none, "1"⟩,
          ⟨"AXA", "SPV", "B_X", some "by hand", some "manual", "2"⟩]⟩ := by
    intro first
    cases first <;> decide +kernel
  obtain ⟨db', c', hfill, -, -, -, -, hagain⟩ :=
    name_fill_fills_gaps hc (by decide) "AXA" "SPV" false "3"
  obtain ⟨db'', skipped, hsecond, -⟩ := hagain "4"
  refine ⟨db', db'', skipped, hfill.trans ?_, hsecond⟩
  exact congrArg (Except.ok ∘ Prod.mk db') (by decide +kernel)

end Database

end ProcedureCatalog
