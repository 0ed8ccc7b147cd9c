/-
# Independence of service programs

Changes of two different service programs may be made in any order. The one leaves all rows of the
other, both answer as they do alone, and the tables are the same up to the stamps.

* `Catalog.respond_congr` : a change depends on the part of its service program, and not on the time.
* `Catalog.independent` : two changes of the rows of a catalog.
* `Database.isOrdered_run` : every run leaves tables in order.
* `Database.other_programs_are_independent` : two operations on a catalog in a database.
-/
import ProcedureCatalog.Proofs.Catalog.CompleteSets
import ProcedureCatalog.Proofs.Catalog.Parts
import ProcedureCatalog.Proofs.Catalog.Stamps

namespace ProcedureCatalog

namespace Catalog

variable {c d : Catalog} {a b change : Change} {library program l q : String}

/-! ## Responses -/

/-- Every response leaves a catalog in order. -/
theorem IsOrdered.respond (h : c.IsOrdered) (now : String) (change : Change) :
    (c.respond now change).1.IsOrdered := by
  unfold Catalog.respond
  cases hact : change.act now c with
  | error e => exact h
  | ok result =>
    have hnext : change.onCatalog now c = .ok result.1 := by
      rw [← Change.map_fst_act, hact]
      rfl
    exact h.onCatalog hnext

/-- A change leaves the parts of the service programs that it does not name, also when it fails. -/
theorem part_respond_of_other (htarget : change.target? = some (l, q))
    (hother : ¬ (library = l ∧ program = q)) (now : String) :
    (c.respond now change).1.part library program = c.part library program := by
  unfold respond
  cases hact : change.act now c with
  | error e => rfl
  | ok result =>
    have hnext : change.onCatalog now c = .ok result.1 := by
      rw [← Change.map_fst_act, hact]
      rfl
    exact Change.part_onCatalog_of_other htarget hother hnext

/-- The part of a stamped catalog is the stamped part. -/
theorem part_stampAll (stamp : String) :
    (c.stampAll stamp).part library program = (c.part library program).stampAll stamp :=
  congrArg₂ Catalog.mk
    (Table.filter_map_of_key (f := .stamped stamp) (fun _ => rfl) c.programs)
    proceduresOf_stampAll

/-- Stamping keeps the order. -/
theorem IsOrdered.stampAll (h : c.IsOrdered) (stamp : String) : (c.stampAll stamp).IsOrdered :=
  ⟨h.programs.map fun _ => rfl, h.procedures.map fun _ => rfl⟩

/-- On the part alone, a change responds as it does to the part in the catalog. -/
theorem respond_part (h : c.IsOrdered) (htarget : change.target? = some (l, q)) (now : String) :
    (c.part l q).respond now change = Prod.map (·.part l q) id (c.respond now change) := by
  unfold respond
  rw [Change.act_part h htarget]
  exact stateAndAnswer_map (·.part l q) c _

/-- On stamped rows, a change at the time of the stamp responds as it does at any time. -/
theorem respond_stampAll (c : Catalog) (change : Change) (stamp now : String) :
    (c.stampAll stamp).respond stamp change =
      Prod.map (·.stampAll stamp) id (c.respond now change) := by
  unfold respond
  rw [change.act_stampAll c stamp now]
  exact stateAndAnswer_map (·.stampAll stamp) c _

/-- A change answers alike at any times when the parts of its service program agree, and leaves parts
that agree up to stamps. -/
theorem respond_congr (hc : c.IsOrdered) (hd : d.IsOrdered)
    (htarget : change.target? = some (l, q)) (hpart : c.part l q = d.part l q)
    (now now' : String) :
    (c.respond now change).2 = (d.respond now' change).2 ∧
      ∀ stamp, ((c.respond now change).1.part l q).stampAll stamp =
        ((d.respond now' change).1.part l q).stampAll stamp := by
  -- both responses are those of the common part, stamped
  have hsame : ∀ stamp, Prod.map (·.stampAll stamp) id
      (Prod.map (·.part l q) id (c.respond now change)) =
        Prod.map (·.stampAll stamp) id (Prod.map (·.part l q) id (d.respond now' change)) := by
    intro stamp
    rw [← respond_part hc htarget, ← respond_part hd htarget, ← respond_stampAll,
      ← respond_stampAll, hpart]
  constructor
  · have hanswer := congrArg Prod.snd (hsame "")
    exact hanswer
  · intro stamp
    exact congrArg Prod.fst (hsame stamp)

/-- Two changes that name different service programs: the first leaves the part of the second, each
answers the same whether it comes first or last, and the tables agree up to stamps. -/
theorem independent (hc : c.IsOrdered) (ha : a.target? = some (library, program))
    (hb : b.target? = some (l, q)) (hother : ¬ (l = library ∧ q = program))
    (t₁ t₂ t₃ t₄ : String) :
    (c.respond t₁ a).1.part l q = c.part l q ∧
      (c.respond t₁ a).2 = ((c.respond t₃ b).1.respond t₄ a).2 ∧
      ((c.respond t₁ a).1.respond t₂ b).2 = (c.respond t₃ b).2 ∧
      ∀ stamp, ((c.respond t₁ a).1.respond t₂ b).1.stampAll stamp =
        ((c.respond t₃ b).1.respond t₄ a).1.stampAll stamp := by
  have hother' : ¬ (library = l ∧ program = q) := fun hsame => hother ⟨hsame.1.symm, hsame.2.symm⟩
  have hca : (c.respond t₁ a).1.IsOrdered := hc.respond t₁ a
  have hcb : (c.respond t₃ b).1.IsOrdered := hc.respond t₃ b
  have hparta : (c.respond t₁ a).1.part l q = c.part l q := part_respond_of_other ha hother t₁
  have hpartb : (c.respond t₃ b).1.part library program = c.part library program :=
    part_respond_of_other hb hother' t₃
  obtain ⟨hanswera, htablesa⟩ := respond_congr hc hcb ha hpartb.symm t₁ t₄
  obtain ⟨hanswerb, htablesb⟩ := respond_congr hca hc hb hparta t₂ t₃
  refine ⟨hparta, hanswera, hanswerb, fun stamp => ?_⟩
  -- part by part: the two that are named, and all others
  refine eq_of_part_eq ((hca.respond t₂ b).stampAll stamp) ((hcb.respond t₄ a).stampAll stamp) ?_
  intro library' program'
  rw [part_stampAll, part_stampAll]
  by_cases hisa : library' = library ∧ program' = program
  · obtain ⟨rfl, rfl⟩ := hisa
    rw [part_respond_of_other hb hother' t₂]
    exact htablesa stamp
  · rw [part_respond_of_other (c := (c.respond t₃ b).1) ha hisa t₄]
    by_cases hisb : library' = l ∧ program' = q
    · obtain ⟨rfl, rfl⟩ := hisb
      exact htablesb stamp
    · rw [part_respond_of_other hb hisb t₂, part_respond_of_other ha hisa t₁,
        part_respond_of_other hb hisb t₃]

end Catalog

namespace Database

variable {db : Database} {p : TablePrefix} {a b : Change} {library program l q : String}

/-! ## In a database -/

/-- The rows of one service program, or why the catalog cannot be read. -/
def part (db : Database) (p : TablePrefix) (library program : String) :
    Except CatalogError Catalog :=
  db.read p .programs fun c => .ok (c.part library program)

/-- The tables of a catalog, if they are there, stand in rising order of their keys. -/
def IsOrdered (db : Database) (p : TablePrefix) : Prop :=
  ∀ first c, db.catalog p first = .ok c → c.IsOrdered

/-- Every run leaves tables in order. -/
theorem isOrdered_run (steps : List Step) (p : TablePrefix) : (empty.run steps).IsOrdered p :=
  fun _ _ hc => of_catalog_run Catalog.isOrdered_empty (fun _ _ _ _ hc' h => h.onCatalog hc') hc

/-- **Operations on different service programs are independent.** In any database whose tables are in
order, take two operations that name different service programs. The first leaves every row of the
other service program. Each answers the same, or fails with the same error, whether it comes first or
last. In both orders the database is the same in the end, up to the stamps of the catalog. -/
theorem other_programs_are_independent (hdb : db.IsOrdered p)
    (ha : a.target? = some (library, program)) (hb : b.target? = some (l, q))
    (hother : ¬ (l = library ∧ q = program)) (t₁ t₂ t₃ t₄ : String) :
    let afterA := db.respond p t₁ a
    let afterAB := afterA.1.respond p t₂ b
    let afterB := db.respond p t₃ b
    let afterBA := afterB.1.respond p t₄ a
    afterA.1.part p l q = db.part p l q ∧ afterA.2 = afterBA.2 ∧ afterAB.2 = afterB.2 ∧
      ∀ stamp, afterAB.1.stamped p stamp = afterBA.1.stamped p stamp := by
  intro afterA afterAB afterB afterBA
  by_cases hthere : ∃ first c, db.catalog p first = .ok c
  · obtain ⟨_, c, hfirst⟩ := hthere
    have hc : ∀ first, db.catalog p first = .ok c := fun first => catalog_eq_ok hfirst
    obtain ⟨hpart, hanswera, hanswerb, htables⟩ :=
      Catalog.independent (hdb _ c hfirst) ha hb hother t₁ t₂ t₃ t₄
    obtain ⟨hA, hcA, hsA⟩ := respond_eq_respond hc t₁ a
    obtain ⟨hB, hcB, hsB⟩ := respond_eq_respond hc t₃ b
    obtain ⟨hAB, hcAB, hsAB⟩ := respond_eq_respond hcA t₂ b
    obtain ⟨hBA, hcBA, hsBA⟩ := respond_eq_respond hcB t₄ a
    refine ⟨?_, ?_, ?_, fun stamp => ?_⟩
    · show afterA.1.read p _ _ = db.read p _ _
      unfold read
      rw [hcA, hc]
      exact congrArg Except.ok hpart
    · exact hA.trans (hanswera.trans hBA.symm)
    · exact hAB.trans (hanswerb.trans hB.symm)
    · rw [stamped_of_catalog hcAB, stamped_of_catalog hcBA, hsAB, hsA, hsBA, hsB, htables stamp]
  · have hnone : ∀ first c, db.catalog p first ≠ .ok c := fun first c hc =>
      hthere ⟨first, c, hc⟩
    obtain ⟨ea, hea⟩ := respond_of_no_catalog hnone a
    obtain ⟨eb, heb⟩ := respond_of_no_catalog hnone b
    simp only [afterA, afterAB, afterB, afterBA, hea, heb, implies_true, and_self]

/-- Filling one service program and deleting another, of the same library. -/
theorem fill_and_delete_are_independent :
    let db := empty.run [⟨.standard, .up, ""⟩,
      ⟨.standard, .change (.sync "AXA" "SPV" ["A_GetName"]), "1"⟩,
      ⟨.standard, .change (.sync "AXA" "SPW" ["B_X"]), "2"⟩]
    let fill := Change.fillFromNames "AXA" "SPV" false
    let delete := Change.delete "AXA" "SPW"
    (db.respond .standard "3" fill).2 = .ok (.filled ⟨1, 1, 0, false⟩) ∧
      ((db.respond .standard "3" delete).1.respond .standard "4" fill).2 =
        .ok (.filled ⟨1, 1, 0, false⟩) ∧
      ∀ stamp, ((db.respond .standard "3" fill).1.respond .standard "4" delete).1.stamped
          .standard stamp =
        ((db.respond .standard "3" delete).1.respond .standard "4" fill).1.stamped
          .standard stamp := by
  intro db fill delete
  have hfilled : (db.respond .standard "3" fill).2 = .ok (.filled ⟨1, 1, 0, false⟩) := by
    decide +kernel
  have hordered : db.IsOrdered .standard := isOrdered_run _ _
  obtain ⟨-, hfill, -, htables⟩ := other_programs_are_independent hordered
    (a := fill) (b := delete) rfl rfl (by decide) "3" "4" "3" "4"
  exact ⟨hfilled, hfill.symm.trans hfilled, htables⟩

end Database

end ProcedureCatalog
