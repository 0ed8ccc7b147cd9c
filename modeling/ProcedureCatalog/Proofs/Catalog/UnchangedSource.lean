/-
# Fills that are skipped

A fill from a source is skipped when the stored checksum is that of the source. The checksum is
void after procedures were added, not after some were removed, although the removal of a name can
change what is extracted for another.

* `Catalog.IsSettled` : storing the extraction from a source again changes no description.
* `Catalog.MarksSettled` is the invariant: the checksum of a source is stored only when settled.
* `unchanged_skip_hides_nothing` : a skipped fill would change nothing, unless procedures were
  removed after the last extraction.
* `skip_after_removal_hides_description` : after a removal it can.
-/
import ProcedureCatalog.Proofs.Catalog.Programs
import ProcedureCatalog.Proofs.Catalog.Space

namespace ProcedureCatalog

/-- The key of a procedure with its description and the source of that. -/
def StoredProcedure.content (r : StoredProcedure) : Table.Key × Option String × Option String :=
  (r.key, r.description, r.source)

namespace Catalog

/-- What the extraction from a source finds for the procedures of a service program is what they
have, those described by hand apart. -/
def IsSettled (c : Catalog) (library program source : String) : Prop :=
  ∀ r ∈ c.proceduresOf library program, r.isManual = false →
    ∀ found, (c.sourceResult library program source).get? r.name = some found →
      r.description = some found.text ∧ r.source = some found.strategy.source.identifier

/-- The checksum of the source is stored for a service program only when that is settled. -/
def MarksSettled (c : Catalog) (library program source : String) : Prop :=
  c.checksum? library program = some (Digest.sha256Hex source) →
    c.IsSettled library program source

/-! ## Settled service programs -/

variable {c : Catalog} {library program l q now : String}

/-- Whether a service program is settled depends on its procedures only. -/
theorem IsSettled.congr {c' : Catalog} {source : String} (h : c.IsSettled library program source)
    (hown : c'.proceduresOf library program = c.proceduresOf library program) :
    c'.IsSettled library program source := by
  unfold IsSettled sourceResult procedureNames
  rw [hown]
  exact h

/-- A service program is settled after what is extracted from the source was stored. -/
theorem isSettled_extracted (source checksum : String) :
    (c.extracted library program source checksum now).IsSettled library program source := by
  have hown : (c.extracted library program source checksum now).proceduresOf library program =
      (c.proceduresOf library program).map (applyTo (c.sourceResult library program source) now) :=
    proceduresOf_changeProcedures_of_same (key_applyTo _ now)
  have hname : ∀ r, (applyTo (c.sourceResult library program source) now r).name = r.name :=
    fun r => (StoredProcedure.key_eq_iff.1 (key_applyTo _ now r)).2.2
  -- the names stay, so the same is found again
  have hresult : (c.extracted library program source checksum now).sourceResult library program
      source = c.sourceResult library program source := by
    unfold sourceResult procedureNames
    rw [hown, List.map_map]
    congr 2
    exact List.map_congr_left fun r _ => hname r
  intro r' hr' hauto found hget
  rw [hown] at hr'
  obtain ⟨r, -, rfl⟩ := List.mem_map.1 hr'
  rw [hresult, hname] at hget
  unfold applyTo at hauto ⊢
  simp only [hget] at hauto ⊢
  split at hauto
  · next hmanual => simp [hmanual] at hauto
  · next hmanual => simp [hmanual, StoredProcedure.describe]

/-- Storing again what a settled service program has leaves the content of all rows. -/
theorem IsSettled.content_extracted {source : String} (h : c.IsSettled library program source)
    (checksum : String) :
    (c.extracted library program source checksum now).procedures.map (·.content) =
      c.procedures.map (·.content) := by
  have hrows : (c.extracted library program source checksum now).procedures =
      c.procedures.map fun r => if r.belongsTo library program then
        applyTo (c.sourceResult library program source) now r else r := rfl
  rw [hrows, List.map_map]
  refine List.map_congr_left fun r hr => ?_
  rw [Function.comp_apply]
  split
  · next hown =>
    rcases applyTo_cases (c.sourceResult library program source) now r with heq |
      ⟨found, hget, hauto, heq⟩
    · rw [heq]
    · obtain ⟨htext, hsource⟩ := h r (List.mem_filter.2 ⟨hr, hown⟩) hauto found hget
      rw [heq, StoredProcedure.content, StoredProcedure.content, htext, hsource]
      rfl
  · rfl

/-- A service program without names to extract for has no procedures. -/
theorem proceduresOf_eq_nil (h : ∀ r ∈ c.procedures, r.HasPlainName)
    (hnames : (ExpectedNames.ofList (c.procedureNames library program)).names = []) :
    c.proceduresOf library program = [] := by
  refine List.eq_nil_iff_forall_not_mem.2 fun r hr => ?_
  obtain ⟨htrim, hne⟩ := h r (List.mem_filter.1 hr).1
  have hplain : r.name ∈ Text.trimmedNonempty (c.procedureNames library program) :=
    List.mem_filter.2 ⟨List.mem_map.2 ⟨r.name, List.mem_map_of_mem hr, htrim⟩, by simpa using hne⟩
  cases htext : Text.trimmedNonempty (c.procedureNames library program) with
  | nil => simp [htext] at hplain
  | cons name names => simp [ExpectedNames.ofList, htext, ExpectedNames.dropRepeats] at hnames

/-! ## The invariant -/

/-- A synchronisation that removes no procedure of the service program keeps the invariant. -/
theorem MarksSettled.sync {source : String} {symbols : List String}
    (h : c.MarksSettled library program source)
    (hremoved : l = library → q = program → (c.sync l q symbols now).2.removed = 0) :
    (c.sync l q symbols now).1.MarksSettled library program source := by
  intro hmark
  by_cases hsame : library = l ∧ program = q
  · obtain ⟨rfl, rfl⟩ := hsame
    -- something new makes the checksum void; with nothing new the rows are the same as before
    by_cases hnew : c.newNames library program symbols = []
    · rw [checksum?_sync fun hsome => hsome.2.2 hnew] at hmark
      refine (h hmark).congr ?_
      unfold proceduresOf
      rw [procedures_sync_of_same hnew (hremoved rfl rfl)]
    · rw [checksum?_sync_of_new hnew] at hmark
      simp at hmark
  · rw [checksum?_sync fun hsome => hsame ⟨hsome.1, hsome.2.1⟩] at hmark
    exact (h hmark).congr (proceduresOf_sync_of_other hsame symbols)

/-- A fill from a source keeps the invariant, and establishes it when it extracts for the service
program. -/
theorem MarksSettled.fillFromSource {c' : Catalog} {text source : String} {force : Bool}
    {report : FillReport} (hnames : ∀ r ∈ c.procedures, r.HasPlainName)
    (hcollision : Digest.sha256Hex text = Digest.sha256Hex source → text = source)
    (h : ¬ (l = library ∧ q = program ∧ report.sourceUnchanged = false) →
      c.MarksSettled library program source)
    (hfill : c.fillFromSource Digest.sha256Hex l q text force now = .ok (c', report)) :
    c'.MarksSettled library program source := by
  intro hmark
  obtain ⟨p, -, hcases⟩ := fillFromSource_cases hfill
  by_cases hsame : library = l ∧ program = q
  · obtain ⟨rfl, rfl⟩ := hsame
    rcases hcases with ⟨-, -, rfl, rfl⟩ | ⟨-, hnone, rfl⟩ | ⟨-, -, rfl⟩
    · exact h (by simp [FillReport.unchanged]) hmark
    · intro r hr
      rw [proceduresOf_eq_nil hnames hnone] at hr
      simp at hr
    · rw [extracted, checksum?_setChecksum, if_pos ⟨rfl, rfl⟩] at hmark
      obtain ⟨_, -, hdigest⟩ := Option.bind_eq_some_iff.1 hmark
      rw [← hcollision (Option.some.inj hdigest)]
      exact isSettled_extracted text (Digest.sha256Hex text)
  · have hmarks := h fun hown => hsame ⟨hown.1.symm, hown.2.1.symm⟩
    rcases hcases with ⟨-, -, rfl, -⟩ | ⟨-, -, rfl⟩ | ⟨-, -, rfl⟩
    · exact hmarks hmark
    · exact hmarks hmark
    · rw [extracted, checksum?_setChecksum, if_neg hsame] at hmark
      exact (hmarks hmark).congr
        (proceduresOf_changeProcedures_of_other hsame (key_applyTo _ now))

end Catalog

/-- A change keeps the plain names of all procedures. -/
theorem Change.hasPlainName_onCatalog {now : String} {change : Change} {c c' : Catalog}
    (hc' : change.onCatalog now c = .ok c') (h : ∀ r ∈ c.procedures, r.HasPlainName) :
    ∀ r ∈ c'.procedures, r.HasPlainName :=
  forall_onCatalog hc' h (fun _ _ _ htrim hne => ⟨htrim, hne⟩)
    fun _ _ hr hrw => hrw.hasPlainName hr

/-! ## Runs -/

/-- The operation creates tables, synchronises exports or fills from a source. -/
def Operation.isSyncOrFill : Operation → Bool
  | .up | .change (.sync ..) | .change (.fillFromSource ..) => true
  | _ => false

/-- The source that the operation fills from. -/
def Operation.source? : Operation → Option String
  | .change (.fillFromSource _ _ text _) => some text
  | _ => none

namespace Database

/-- The step removes procedures of the service program. -/
def removes (db : Database) (p : TablePrefix) (library program : String) (s : Step) : Bool :=
  sameName s.tables.text p.text && match s.operation with
    | .change (.sync l q symbols) => l == library && q == program &&
      (db.syncExports s.tables l q symbols s.now).toOption.any fun result =>
        result.2.removed != 0
    | _ => false

/-- The step fills the service program from a source and is not skipped. -/
def extracts (db : Database) (p : TablePrefix) (library program : String) (s : Step) : Bool :=
  sameName s.tables.text p.text && match s.operation with
    | .change (.fillFromSource l q text force) => l == library && q == program &&
      (db.fillFromSource s.tables l q text force s.now).toOption.any fun result =>
        !result.2.sourceUnchanged
    | _ => false

/-- Procedures of the service program were removed by the step, or before it and the step does not
extract for it. -/
def staleAfter (db : Database) (p : TablePrefix) (library program : String) (stale : Bool)
    (s : Step) : Bool :=
  db.removes p library program s || stale && !db.extracts p library program s

/-- Procedures of the service program were removed after the last extraction for it. -/
def isStale (p : TablePrefix) (library program : String) (db : Database) (stale : Bool) :
    List Step → Bool
  | [] => stale
  | s :: steps =>
    isStale p library program (db.after s) (db.staleAfter p library program stale s) steps

/-- The catalog of a prefix is there, and unless the service program is stale, the checksum of the
source is stored only when that is settled. -/
def MarksSettled (db : Database) (p : TablePrefix) (library program source : String)
    (stale : Bool) : Prop :=
  ∃ c, (∀ first, db.catalog p first = .ok c) ∧ (∀ r ∈ c.procedures, r.HasPlainName) ∧
    (stale = false → c.MarksSettled library program source)

variable {db : Database} {p : TablePrefix} {library program source : String} {stale : Bool}

/-- A synchronisation that succeeds stores the synchronised rows and reports about them. -/
theorem syncExports_eq_ok {db' : Database} {l q now : String} {symbols : List String}
    {report : SyncReport} (h : db.syncExports p l q symbols now = .ok (db', report)) :
    ∃ c, db.catalog p .programs = .ok c ∧
      (Change.sync l q symbols).onCatalog now c = .ok (c.sync l q symbols now).1 ∧
      report = (c.sync l q symbols now).2 ∧ db' = db.store p (c.sync l q symbols now).1 := by
  unfold syncExports at h
  obtain ⟨_, hl, h⟩ := exists_of_bind_eq_ok h
  obtain ⟨_, hq, h⟩ := exists_of_bind_eq_ok h
  obtain ⟨c, c', hc, hsync, rfl⟩ := write_eq_ok_iff.1 h
  obtain ⟨rfl, rfl⟩ := Prod.mk.inj (Except.ok.inj hsync)
  refine ⟨c, hc, ?_, rfl, rfl⟩
  simp [Change.onCatalog, hl, hq, bind, Except.bind, pure, Except.pure]

section Steps

variable {tables : TablePrefix} {l q now : String}

/-- Synchronising keeps the invariant: a service program that loses procedures becomes stale. -/
theorem MarksSettled.after_sync {symbols : List String}
    (h : db.MarksSettled p library program source stale)
    (hsame : sameName tables.text p.text = true) :
    (db.after ⟨tables, .change (.sync l q symbols), now⟩).MarksSettled p library program source
      (db.staleAfter p library program stale ⟨tables, .change (.sync l q symbols), now⟩) := by
  cases hrun : db.syncExports tables l q symbols now with
  | error e =>
    have hperform : db.perform tables now (.change (.sync l q symbols)) = .error e := by
      rw [perform, Change.onDatabase, hrun]
      rfl
    rw [after_eq_of_error (s := ⟨tables, _, now⟩) hperform]
    simpa [staleAfter, removes, extracts, hrun, Except.toOption] using h
  | ok result =>
    obtain ⟨db', report⟩ := result
    have hperform : db.perform tables now (.change (.sync l q symbols)) = .ok db' := by
      rw [perform, Change.onDatabase, hrun]
      rfl
    rw [after_eq_of_ok (s := ⟨tables, _, now⟩) hperform]
    obtain ⟨c, hc, hnames, hmarks⟩ := h
    obtain ⟨d, hd, hchange, hreport, rfl⟩ := syncExports_eq_ok hrun
    obtain rfl := eq_of_catalog_eq_ok hsame (hc .programs) hd
    have hnames' := Change.hasPlainName_onCatalog hchange hnames
    refine ⟨_, fun first => catalog_store_of_same hsame (hc .programs), hnames', fun hstale => ?_⟩
    simp only [staleAfter, Bool.or_eq_false_iff] at hstale
    refine (hmarks (by simpa [extracts] using hstale.2)).sync fun hl hq => ?_
    subst hl hq
    simpa [removes, hsame, hrun, Except.toOption, hreport] using hstale.1

/-- Filling from a source keeps the invariant: a service program that is extracted for is no longer
stale. -/
theorem MarksSettled.after_fillFromSource {text : String} {force : Bool}
    (h : db.MarksSettled p library program source stale)
    (hsame : sameName tables.text p.text = true)
    (hcollision : Digest.sha256Hex text = Digest.sha256Hex source → text = source) :
    (db.after ⟨tables, .change (.fillFromSource l q text force), now⟩).MarksSettled p library
      program source (db.staleAfter p library program stale
        ⟨tables, .change (.fillFromSource l q text force), now⟩) := by
  cases hrun : db.fillFromSource tables l q text force now with
  | error e =>
    have hperform : db.perform tables now (.change (.fillFromSource l q text force)) =
        .error e := by
      rw [perform, Change.onDatabase, hrun]
      rfl
    rw [after_eq_of_error (s := ⟨tables, _, now⟩) hperform]
    simpa [staleAfter, removes, extracts, hrun, Except.toOption] using h
  | ok result =>
    obtain ⟨db', report⟩ := result
    have hperform : db.perform tables now (.change (.fillFromSource l q text force)) = .ok db' := by
      rw [perform, Change.onDatabase, hrun]
      rfl
    rw [after_eq_of_ok (s := ⟨tables, _, now⟩) hperform]
    obtain ⟨c, hc, hnames, hmarks⟩ := h
    obtain ⟨d, c', hd, hfill, rfl⟩ := write_eq_ok_iff.1 hrun
    obtain rfl := eq_of_catalog_eq_ok hsame (hc .programs) hd
    have hchange : (Change.fillFromSource l q text force).onCatalog now d = .ok c' := by
      simp [Change.onCatalog, hfill, Except.map]
    have hnames' := Change.hasPlainName_onCatalog hchange hnames
    refine ⟨c', fun first => catalog_store_of_same hsame (hc .programs), hnames', fun hstale =>
      .fillFromSource hnames hcollision (fun hskipped => hmarks ?_) hfill⟩
    have hextracts : db.extracts p library program
        ⟨tables, .change (.fillFromSource l q text force), now⟩ = false := by
      simpa [extracts, hsame, hrun, Except.toOption] using hskipped
    simpa [staleAfter, removes, hextracts] using hstale

end Steps

/-- The content of all procedures of a catalog. -/
def contentOfRows (db : Database) (p : TablePrefix) :
    Except CatalogError (List (Table.Key × Option String × Option String)) :=
  db.read p .procedures fun c => .ok (c.procedures.map (·.content))

/-- A step keeps the invariant. -/
theorem MarksSettled.after {s : Step} (h : db.MarksSettled p library program source stale)
    (hop : sameName s.tables.text p.text = true → s.operation.isSyncOrFill = true)
    (hcollision : ∀ text ∈ s.operation.source?,
      Digest.sha256Hex text = Digest.sha256Hex source → text = source) :
    (db.after s).MarksSettled p library program source
      (db.staleAfter p library program stale s) := by
  cases hname : sameName s.tables.text p.text with
  | false =>
    obtain ⟨c, hc, hnames, hmarks⟩ := h
    have hstale : db.staleAfter p library program stale s = stale := by
      simp [staleAfter, removes, extracts, hname]
    rw [hstale]
    exact ⟨c, fun first => (catalog_after_of_other hname).trans (hc first), hnames, hmarks⟩
  | true =>
    obtain ⟨tables, operation, now⟩ := s
    replace hop := hop hname
    match operation with
    | .up =>
      obtain ⟨c, hc, hnames, hmarks⟩ := h
      refine ⟨c, fun first => ?_, hnames, by simpa [staleAfter, removes, extracts] using hmarks⟩
      rcases catalog_after_of_same (s := ⟨tables, .up, now⟩) hname (by simp) (hc first) with h |
        ⟨h, -⟩ | ⟨_, _, h, -⟩
      · exact h
      · simp at h
      · simp at h
    | .change (.sync l q symbols) => exact h.after_sync hname
    | .change (.fillFromSource l q text force) =>
      exact h.after_fillFromSource hname (hcollision text rfl)

/-- A run keeps the invariant. -/
theorem MarksSettled.run {steps : List Step}
    (h : db.MarksSettled p library program source stale)
    (hops : ∀ s ∈ steps, sameName s.tables.text p.text = true → s.operation.isSyncOrFill = true)
    (hcollision : ∀ s ∈ steps, ∀ text ∈ s.operation.source?,
      Digest.sha256Hex text = Digest.sha256Hex source → text = source) :
    (db.run steps).MarksSettled p library program source
      (isStale p library program db stale steps) := by
  induction steps generalizing db stale with
  | nil => exact h
  | cons s steps ih =>
    exact ih (h.after (hops s List.mem_cons_self) (hcollision s List.mem_cons_self))
      (fun t ht => hops t (List.mem_cons_of_mem _ ht))
      fun t ht => hcollision t (List.mem_cons_of_mem _ ht)

/-- **A skipped fill hides nothing, unless procedures were removed since.** In a run of
synchronisations and fills from sources that starts with an empty catalog, let a fill be skipped
whose service program lost no procedures after the last extraction for it. Then the same fill with
`force` succeeds and leaves the description of every procedure and its source. -/
theorem unchanged_skip_hides_nothing {start skipped : Database} {steps : List Step} {now : String}
    {report : FillReport} (hstart : start.catalog p .programs = .ok .empty)
    (hops : ∀ s ∈ steps, sameName s.tables.text p.text = true → s.operation.isSyncOrFill = true)
    (hcollision : ∀ s ∈ steps, ∀ text ∈ s.operation.source?,
      Digest.sha256Hex text = Digest.sha256Hex source → text = source)
    (hfresh : isStale p library program start false steps = false)
    (hskip : (start.run steps).fillFromSource p library program source false now =
      .ok (skipped, report))
    (hunchanged : report.sourceUnchanged = true) :
    ∃ forced report', (start.run steps).fillFromSource p library program source true now =
        .ok (forced, report') ∧
      forced.contentOfRows p = (start.run steps).contentOfRows p := by
  have hempty : start.MarksSettled p library program source false := by
    refine ⟨.empty, fun first => catalog_eq_ok hstart, ?_, fun _ hmark => ?_⟩
    · simp [Catalog.empty]
    · simp [Catalog.checksum?, Catalog.program?, Catalog.empty] at hmark
  obtain ⟨c, hc, hnames, hmarks⟩ := hempty.run hops hcollision
  obtain ⟨d, c', hd, hfill, rfl⟩ := write_eq_ok_iff.1 hskip
  obtain rfl := Except.ok.inj ((hc .programs).symm.trans hd)
  -- of the three outcomes of a fill, only the skip answers that the source is unchanged
  obtain ⟨q, hq, ⟨-, hchecksum, -, -⟩ | ⟨hrun, -⟩ | ⟨hrun, -⟩⟩ := Catalog.fillFromSource_cases hfill
  · have hsettled : c.IsSettled library program source :=
      hmarks hfresh (by rw [Catalog.checksum?, hq]; exact hchecksum)
    obtain ⟨⟨c', report'⟩, hforced⟩ := Catalog.exists_fillFromSource_eq_ok Digest.sha256Hex
      source true now hq
    refine ⟨_, report', write_eq_ok_iff.2 ⟨c, c', hc .programs, hforced, rfl⟩, ?_⟩
    rw [contentOfRows, contentOfRows, read, read, hc,
      catalog_store_of_same (sameName_iff.2 rfl) (hc .programs)]
    refine congrArg Except.ok ?_
    obtain ⟨_, -, ⟨h, -⟩ | ⟨-, -, rfl⟩ | ⟨-, -, rfl⟩⟩ := Catalog.fillFromSource_cases hforced
    · simp at h
    · rfl
    · exact hsettled.content_extracted _
  · simp [hunchanged] at hrun
  · simp [hunchanged] at hrun

/-- A skipped fill whose service program lost a procedure before the last extraction for it. -/
theorem unchanged_skip_after_refill :
    let start := empty.run [⟨.standard, .up, ""⟩]
    let source := "// hola\ndcl-proc X export;\n"
    let steps : List Step := [
      ⟨.standard, .change (.sync "AXA" "SPV" ["A_X", "B_X"]), ""⟩,
      ⟨.standard, .change (.fillFromSource "AXA" "SPV" "B_X: other" false), ""⟩,
      ⟨.standard, .change (.sync "AXA" "SPV" ["B_X"]), ""⟩,
      ⟨.standard, .change (.fillFromSource "AXA" "SPV" source false), ""⟩]
    ∃ skipped report, (start.run steps).fillFromSource .standard "AXA" "SPV" source false "" =
        .ok (skipped, report) ∧ report.sourceUnchanged = true ∧
      ∃ forced report', (start.run steps).fillFromSource .standard "AXA" "SPV" source true "" =
          .ok (forced, report') ∧
        forced.contentOfRows .standard = (start.run steps).contentOfRows .standard := by
  intro start source steps
  obtain ⟨⟨skipped, report⟩, hskip, hunchanged⟩ : ∃ result, (start.run steps).fillFromSource
      .standard "AXA" "SPV" source false "" = .ok result ∧ result.2.sourceUnchanged = true :=
    exists_of_map_eq_ok (by decide +kernel)
  exact ⟨skipped, report, hskip, hunchanged, unchanged_skip_hides_nothing (by decide +kernel)
    (by decide +kernel) (by decide +kernel) (by decide +kernel) hskip hunchanged⟩

/-- Without `A_X`, a procedure that is declared as `X` is `B_X`: after the removal of `A_X` the
skipped fill would describe `B_X`. -/
theorem skip_after_removal_hides_description :
    let db := empty.run [⟨.standard, .up, ""⟩,
      ⟨.standard, .change (.sync "AXA" "SPV" ["A_X", "B_X"]), ""⟩,
      ⟨.standard, .change (.fillFromSource "AXA" "SPV" "// hola\ndcl-proc X export;\n" false), ""⟩,
      ⟨.standard, .change (.sync "AXA" "SPV" ["B_X"]), ""⟩]
    (db.fillFromSource .standard "AXA" "SPV" "// hola\ndcl-proc X export;\n" false "").map
        (·.2.sourceUnchanged) = .ok true ∧
      db.contentOfRows .standard = .ok [(["AXA", "SPV", "B_X"], none, none)] ∧
      (db.fillFromSource .standard "AXA" "SPV" "// hola\ndcl-proc X export;\n" true "").map
        (·.1.contentOfRows .standard) =
        .ok (.ok [(["AXA", "SPV", "B_X"], some "hola", some "block_header")]) := by
  decide +kernel

end Database

end ProcedureCatalog
