/-
# Filling from a source

A fill from a source extracts for the stored names and merges what it finds: a procedure takes the
entry of its name, unless it is described by hand, and everything else stays.

* `accepts_eq` : an entry is taken by the row of its name.
* `countP_accepts_add` : every entry is taken or meets a description written by hand.
* `isMerged_extracted` : what a fill makes of a catalog.
* `fill_is_extract_then_merge` : the same for a database, with what a second fill does.
-/
import ProcedureCatalog.Proofs.Catalog.Independence
import ProcedureCatalog.Proofs.Catalog.Lookup
import ProcedureCatalog.Proofs.Catalog.UnchangedSource
import ProcedureCatalog.Proofs.Extraction.Precedence
import ProcedureCatalog.Proofs.Text.Order

namespace ProcedureCatalog

/-- Changing the row of a key again, with nothing left to change, leaves the rows. -/
theorem Table.update_update_of_idempotent {ρ : Type} {key : ρ → Key} {f : ρ → ρ}
    (hf : ∀ r, key (f r) = key r) (hff : ∀ r, f (f r) = f r) (k : Key) (rows : List ρ) :
    update key k f (update key k f rows) = update key k f rows := by
  rw [update, update, List.map_map]
  refine List.map_congr_left fun r _ => ?_
  rw [Function.comp_apply]
  by_cases hkey : key r = k
  · rw [if_pos hkey, hf, if_pos hkey, hff]
  · rw [if_neg hkey, if_neg hkey]

namespace Catalog

variable {c : Catalog} {library program name text now : String} {p : ServiceProgram}

/-! ## Entries and rows -/

/-- An entry is taken exactly when the row of its name is not described by hand. -/
theorem accepts_eq (h : c.IsOrdered) (entry : String × FoundDescription) :
    c.accepts library program entry =
      (c.row? library program entry.1).any (!·.isManual) := by
  rw [Bool.eq_iff_iff, accepts, List.any_eq_true, Option.any_eq_true]
  simp only [Bool.and_eq_true, beq_iff_eq]
  constructor
  · rintro ⟨r, hr, hname, hauto⟩
    exact ⟨r, hname ▸ h.mem_proceduresOf_iff.1 hr, hauto⟩
  · rintro ⟨r, hr, hauto⟩
    obtain ⟨-, -, -, hname⟩ := mem_of_row? hr
    exact ⟨r, h.mem_proceduresOf_iff.2 (hname ▸ hr), hname, hauto⟩

/-- Descriptions are extracted for stored names only. -/
theorem isSome_row?_of_mem_sourceResult (h : ∀ r ∈ c.procedures, r.HasPlainName)
    {entry : String × FoundDescription}
    (hentry : entry ∈ (c.sourceResult library program text).entries) :
    (c.row? library program entry.1).isSome = true := by
  have hexpected := ExpectedNames.mem_of_mem_dropRepeats (mem_names_of_mem_extract hentry)
  obtain ⟨stored, hstored, htrim⟩ := List.mem_map.1 (List.mem_filter.1 hexpected).1
  -- stored names are trimmed already
  obtain ⟨r, hr, rfl⟩ := List.mem_map.1 hstored
  rw [isSome_row?_iff, ← htrim, (h r (List.mem_filter.1 hr).1).1]
  exact hstored

/-- The number of entries of an extraction whose procedures are described by hand. -/
def countByHand (c : Catalog) (library program : String) (result : ExtractionResult) : Nat :=
  result.entries.countP fun entry => (c.row? library program entry.1).any (·.isManual)

/-- Every entry is taken, or its procedure is described by hand. -/
theorem countP_accepts_add (hordered : c.IsOrdered) (hplain : ∀ r ∈ c.procedures, r.HasPlainName) :
    (c.sourceResult library program text).entries.countP (c.accepts library program) +
        c.countByHand library program (c.sourceResult library program text) =
      (c.sourceResult library program text).size := by
  rw [ExtractionResult.size, List.length_eq_countP_add_countP (c.accepts library program)]
  refine congrArg _ (List.countP_congr fun entry hentry => ?_)
  obtain ⟨r, hr⟩ := Option.isSome_iff_exists.1 (isSome_row?_of_mem_sourceResult hplain hentry)
  rw [accepts_eq hordered, hr]
  simp

/-! ## Merging -/

/-- The catalog `after` is `before` with an extraction for one service program merged in, at the time
`now`, from a source with the given checksum. -/
structure IsMerged (before after : Catalog) (library program now checksum : String)
    (result : ExtractionResult) : Prop where
  /-- The procedures are the same. -/
  names_eq : after.procedureNames library program = before.procedureNames library program
  /-- A procedure with an entry takes it, unless it is described by hand. -/
  taken : ∀ name r found, before.row? library program name = some r → r.isManual = false →
    result.get? name = some found →
      after.row? library program name =
        some (r.describe found.text found.strategy.source now)
  /-- A procedure without entry, or described by hand, is as before. -/
  kept : ∀ name, result.get? name = none ∨
    (before.row? library program name).all (·.isManual) = true →
      after.row? library program name = before.row? library program name
  /-- The service program has the checksum, and all else that it had. -/
  program_eq : after.program? library program =
    (before.program? library program).map fun p => { p with checksum := some checksum }
  /-- All rows of the other service programs are as before. -/
  others : ∀ l q, ¬ (l = library ∧ q = program) → after.part l q = before.part l q

/-- Storing an extraction merges it in. -/
theorem isMerged_extracted (c : Catalog) (library program text checksum now : String) :
    c.IsMerged (c.extracted library program text checksum now) library program now checksum
      (c.sourceResult library program text) := by
  have hrow : ∀ name,
      (c.extracted library program text checksum now).row? library program name =
        (c.row? library program name).map
          (applyTo (c.sourceResult library program text) now) := by
    intro name
    refine (row?_changeProcedures (key_applyTo _ now)).trans ?_
    simp only [and_self, if_true]
  refine ⟨?_, ?_, ?_, ?_, fun l q hother => ?_⟩
  · have hown : (c.extracted library program text checksum now).proceduresOf library program =
        (c.proceduresOf library program).map
          (applyTo (c.sourceResult library program text) now) :=
      proceduresOf_changeProcedures_of_same (key_applyTo _ now)
    rw [procedureNames, hown, List.map_map]
    exact List.map_congr_left fun r _ => (StoredProcedure.key_eq_iff.1 (key_applyTo _ now r)).2.2
  · intro name r found hr hauto hget
    obtain ⟨-, -, -, rfl⟩ := mem_of_row? hr
    rw [hrow, hr, Option.map_some, applyTo, hget, hauto]
    rfl
  · intro name hkept
    rw [hrow]
    refine (Option.map_congr fun r hr => ?_).trans (congrFun Option.map_id_fun' _)
    obtain ⟨-, -, -, rfl⟩ := mem_of_row? hr
    rcases hkept with hnone | hmanual
    · rw [applyTo, hnone]
    · rw [hr, Option.all_some] at hmanual
      rw [applyTo, hmanual]
      split <;> rfl
  · exact program?_setChecksum _ |>.trans (if_pos ⟨rfl, rfl⟩)
  · exact (part_setChecksum_of_other hother _).trans
      (part_changeProcedures_of_other hother (key_applyTo _ now))

/-! ## The fill -/

section Fill

variable {checksum : String → String} {force : Bool}

/-- A fill that is not skipped stores the extraction. -/
theorem fillFromSource_eq_ok (hordered : c.IsOrdered)
    (hplain : ∀ r ∈ c.procedures, r.HasPlainName) (hp : c.program? library program = some p)
    (hnames : c.procedureNames library program ≠ [])
    (hrun : force = true ∨ p.checksum ≠ some (checksum text)) :
    let result := c.sourceResult library program text
    let byHand := c.countByHand library program result
    c.fillFromSource checksum library program text force now =
      .ok (c.extracted library program text (checksum text) now,
        ⟨result.size, result.size - byHand, byHand, false⟩) := by
  intro result byHand
  have hskip : (!force && p.checksum == some (checksum text)) = false := by
    rcases hrun with rfl | hrun
    · rfl
    · rw [beq_eq_false_iff_ne.2 hrun, Bool.and_false]
  have hexpected : (ExpectedNames.ofList (c.procedureNames library program)).names.isEmpty =
      false := by
    refine List.isEmpty_eq_false_iff.2 fun hnil => hnames ?_
    rw [procedureNames, proceduresOf_eq_nil hplain hnil, List.map_nil]
  have hreport : (c.applyDescriptions library program result now).2 =
      ⟨result.size, result.size - byHand, byHand, false⟩ := by
    have hcount : result.entries.countP (c.accepts library program) + byHand = result.size :=
      countP_accepts_add hordered hplain
    rw [applyDescriptions]
    refine congrArg₂ (fun updated skipped => FillReport.mk result.size updated skipped false) ?_ ?_
    · omega
    · omega
  unfold fillFromSource
  rw [hp]
  dsimp only
  rw [hskip, hexpected, ← hreport]
  rfl

/-- Filling again from the same source changes no service program and no description, and without
`force` it is skipped. -/
theorem fillFromSource_extracted (checksum : String → String) (text now : String)
    (hp : c.program? library program = some p) (force : Bool) (later : String) :
    let filled := c.extracted library program text (checksum text) now
    ∃ again report,
      filled.fillFromSource checksum library program text force later = .ok (again, report) ∧
      again.programs = filled.programs ∧
      again.procedures.map (·.content) = filled.procedures.map (·.content) ∧
      (force = false → report = .unchanged ∧ again = filled) := by
  intro filled
  have hp' : filled.program? library program =
      some { p with checksum := some (checksum text) } := by
    rw [(isMerged_extracted c library program text (checksum text) now).program_eq, hp]
    rfl
  cases force with
  | false =>
    refine ⟨filled, .unchanged, ?_, rfl, rfl, fun _ => ⟨rfl, rfl⟩⟩
    unfold fillFromSource
    rw [hp']
    simp
  | true =>
    obtain ⟨⟨again, report⟩, hagain⟩ := exists_fillFromSource_eq_ok checksum text true later hp'
    refine ⟨again, report, hagain, ?_⟩
    obtain ⟨_, -, ⟨hforce, -⟩ | ⟨-, -, rfl⟩ | ⟨-, -, rfl⟩⟩ := fillFromSource_cases hagain
    · cases hforce
    · exact ⟨rfl, rfl, nofun⟩
    · -- the stored checksum is there already, and what is extracted is settled
      refine ⟨?_, (isSettled_extracted text (checksum text)).content_extracted _, nofun⟩
      exact Table.update_update_of_idempotent
        (f := fun p : ServiceProgram => { p with checksum := some (checksum text) })
        (fun _ => rfl) (fun _ => rfl) _ c.programs

end Fill

end Catalog

/-! ## In a database -/

namespace Database

variable {p : TablePrefix} {steps : List Step} {c : Catalog} {q : ServiceProgram}

/-- **A fill from a source is an extraction and a merge.** In every database that a run of operations
leaves, let a fill from a source be asked for a service program that has procedures, and not be
skipped. It succeeds, extracts for the stored names in the order of their bytes, merges what it finds,
and counts the entries and those that meet a description written by hand. Filling again from the same
text, at any time, changes no service program and no description. -/
theorem fill_is_extract_then_merge (hc : (empty.run steps).catalog p .programs = .ok c)
    (library program text : String) (force : Bool) (now : String)
    (hq : c.program? library program = some q) (hnames : c.procedureNames library program ≠ [])
    (hrun : force = true ∨ q.checksum ≠ some (Digest.sha256Hex text)) :
    let names := c.procedureNames library program
    let result := extract (.ofList names) Strategy.fromSource text
    let byHand := c.countByHand library program result
    (names.Pairwise fun a b => Text.encodeUtf8 a.toList < Text.encodeUtf8 b.toList) ∧
      ∃ db' c', (empty.run steps).fillFromSource p library program text force now =
          .ok (db', ⟨result.size, result.size - byHand, byHand, false⟩) ∧
        (∀ first, db'.catalog p first = .ok c') ∧
        c.IsMerged c' library program now (Digest.sha256Hex text) result ∧
        ∀ force' later, ∃ db'' c'' report,
          db'.fillFromSource p library program text force' later = .ok (db'', report) ∧
          (∀ first, db''.catalog p first = .ok c'') ∧
          c''.programs = c'.programs ∧
          c''.procedures.map (·.content) = c'.procedures.map (·.content) ∧
          (force' = false → report = .unchanged ∧ c'' = c') := by
  intro names result byHand
  have hordered : c.IsOrdered := isOrdered_run steps p _ c hc
  have hplain : ∀ r ∈ c.procedures, r.HasPlainName :=
    of_catalog_run (P := fun c => ∀ r ∈ c.procedures, r.HasPlainName) (by simp [Catalog.empty])
      (fun _ _ _ _ hc' h => Change.hasPlainName_onCatalog hc' h) hc
  refine ⟨(hordered.pairwise_procedureNames library program).imp Text.encodeUtf8_lt_iff.2, ?_⟩
  obtain ⟨db', hfill, hc'⟩ := exists_write_eq_ok
    (fun c => c.fillFromSource Digest.sha256Hex library program text force now) hc
    (Catalog.fillFromSource_eq_ok hordered hplain hq hnames hrun)
  refine ⟨db', _, hfill, hc', Catalog.isMerged_extracted c library program text _ now, ?_⟩
  intro force' later
  obtain ⟨again, report, hagain, hprograms, hcontent, hskipped⟩ :=
    Catalog.fillFromSource_extracted Digest.sha256Hex text now hq force' later
  obtain ⟨db'', hagain, hc''⟩ := exists_write_eq_ok
    (fun c => c.fillFromSource Digest.sha256Hex library program text force' later)
    (hc' .programs) hagain
  exact ⟨db'', again, report, hagain, hc'', hprograms, hcontent, hskipped⟩

/-- A text with an entry for a procedure that is described by hand and one for another. -/
theorem fill_is_extract_then_merge_beside_hand_written :
    let db := empty.run [⟨.standard, .up, ""⟩,
      ⟨.standard, .change (.sync "AXA" "SPV" ["A_X", "B_X", "C_X"]), "1"⟩,
      ⟨.standard, .change (.setDescription "AXA" "SPV" "A_X" "by hand"), "2"⟩]
    ∃ db' c', db.fillFromSource .standard "AXA" "SPV" "// A_X : one\n// B_X : two" false "3" =
        .ok (db', ⟨2, 1, 1, false⟩) ∧
      (∀ first, db'.catalog .standard first = .ok c') ∧
      c'.row? "AXA" "SPV" "A_X" =
        some ⟨"AXA", "SPV", "A_X", some "by hand", some "manual", "2"⟩ ∧
      c'.row? "AXA" "SPV" "B_X" =
        some ⟨"AXA", "SPV", "B_X", some "two", some "inline_label", "3"⟩ := by
  intro db
  have hc : db.catalog .standard .programs =
      .ok ⟨[{ ServiceProgram.new "AXA" "SPV" with updatedAt := some "1" }],
        [⟨"AXA", "SPV", "A_X", some "by hand", some "manual", "2"⟩,
          ⟨"AXA", "SPV", "B_X", none, none, "1"⟩, ⟨"AXA", "SPV", "C_X", none, none, "1"⟩]⟩ := by
    decide +kernel
  obtain ⟨-, db', c', hfill, hc', hmerged, -⟩ := fill_is_extract_then_merge hc "AXA" "SPV"
    "// A_X : one\n// B_X : two" false "3" rfl (by decide +kernel) (.inr nofun)
  refine ⟨db', c', hfill.trans (congrArg (Except.ok ∘ Prod.mk db') ?_), hc',
    (hmerged.kept "A_X" (.inr ?_)).trans ?_, hmerged.taken "B_X"
      ⟨"AXA", "SPV", "B_X", none, none, "1"⟩ ⟨"two", .inlineLabel, some 2⟩ ?_ ?_ ?_⟩
  all_goals decide +kernel

end Database

end ProcedureCatalog
