/-
# Filling in all service programs from the host

The command that reads the sources of all service programs of the catalog and fills in what it could
read. A source that cannot be read is counted, and stops nothing.

* `exists_runOn_fillAllPrograms_of_ne_nil` : the command step by step, from an open catalog on.
* `runOn_fillAllPrograms` : its result, and the database that is kept.
* `each_program_is_filled_once` : the rows in the end, and the result of the command.
-/
import ProcedureCatalog.Proofs.Catalog.FillAll
import ProcedureCatalog.Proofs.CommandLine.Running

namespace ProcedureCatalog.CommandLine

open Activity

/-! ## The host -/

/-- The source of a service program, or why it cannot be read, as the machine answers to the command
that reads it. -/
def Machine.sourceOf (machine : Machine) (invocation : Host.Invocation) (file : String)
    (p : ServiceProgram) : Except RemoteError String :=
  match Host.readSourceCommand p.library file p.name with
  | .ok command => (machine.runProgram invocation command).1
  | .error e => .error e

/-- A later machine answers the same. -/
theorem Machine.IsLater.sourceOf {machine machine' : Machine} (h : machine'.IsLater machine)
    (invocation : Host.Invocation) (file : String) (p : ServiceProgram) :
    machine'.sourceOf invocation file p = machine.sourceOf invocation file p := by
  unfold Machine.sourceOf
  cases Host.readSourceCommand p.library file p.name with
  | error e => rfl
  | ok command => exact h.fst_runProgram invocation command

/-- The runner of a connection. -/
def hostRunner (invocation : Host.Invocation) : Host.Runner (StateM Machine) := fun command =>
  ExceptT.mk (Machine.system.runProgram invocation command)

variable {printed printed' : Printed} {machine ready : Machine} {settings : Settings}
  {invocation : Host.Invocation}

/-- With the settings that a connection needs, connecting succeeds and runs nothing. -/
theorem runOn_connect {s : HostSettings} (h : Host.sshInvocation s
    (Host.lookupVariable machine.environment) = .ok invocation) :
    runOn (connect Machine.system s) printed machine =
      ((.ok (hostRunner invocation), printed), machine) := by
  -- of the environment only the variable of the password counts
  have hlookup : ∀ password : Option String,
      (∀ name ∈ s.passwordVariable, Host.lookupVariable machine.environment name = password) →
        Host.sshInvocation s (fun _ => password) = .ok invocation := by
    intro password hpassword
    have hstart : Host.invocationStart s (fun _ => password) =
        Host.invocationStart s (Host.lookupVariable machine.environment) := by
      unfold Host.invocationStart
      cases hvariable : s.passwordVariable with
      | none => rfl
      | some name =>
        dsimp only
        rw [hpassword name hvariable]
    rw [← h, Host.sshInvocation, Host.sshInvocation, hstart]
  have hsettle : ∀ password : Option String,
      Host.sshInvocation s (fun _ => password) = .ok invocation →
        runOn (settle .host (Host.sshInvocation s fun _ => password) >>= fun invocation =>
          pure (hostRunner invocation)) printed machine =
            ((.ok (hostRunner invocation), printed), machine) := by
    intro password hinvocation
    rw [hinvocation]
    rfl
  unfold connect
  cases hvariable : s.passwordVariable with
  | none =>
    have hnone := hlookup none (by simp [hvariable])
    exact (runOn_bind_of_ok (runOn_pure none printed machine)).trans (hsettle none hnone)
  | some name =>
    have hsome := hlookup (Host.lookupVariable machine.environment name) (by simp [hvariable])
    have hasked := runOn_ask (Machine.system.lookupVariable name) printed machine
    exact (runOn_bind_of_ok hasked).trans (hsettle _ hsome)

/-- Reading a source gives what the machine answers. -/
theorem exists_runOn_readSource (invocation : Host.Invocation) (file : String)
    (p : ServiceProgram) (printed : Printed) (machine : Machine) :
    ∃ last : Machine, last.IsLater machine ∧
      runOn (readSource (hostRunner invocation) file p) printed machine =
        ((.ok ⟨p, machine.sourceOf invocation file p⟩, printed), last) := by
  unfold Machine.sourceOf readSource Host.Session.readSourceMember
  cases Host.readSourceCommand p.library file p.name with
  | error e => exact ⟨machine, .refl machine, rfl⟩
  | ok command => exact ⟨_, machine.isLater_runProgram invocation command, rfl⟩

/-! ## Reports -/

/-- What has been printed after the report on a service program. -/
def Printed.report (printed : Printed) (o : FillOutcome) : Printed :=
  match o.report with
  | .ok report =>
    { printed with
      output := (o.program.qualifiedName ++ ": " ++ fillText report ++ "\n") :: printed.output }
  | .error e =>
    { printed with
      errors := (o.program.qualifiedName ++ ": ERROR " ++ e.message ++ "\n") :: printed.errors }

theorem runOn_reportFill (o : FillOutcome) (printed : Printed) (machine : Machine) :
    runOn (reportFill o) printed machine = ((.ok (), printed.report o), machine) := by
  unfold reportFill Printed.report
  cases o.report with
  | ok report => rfl
  | error e => rfl

/-- Every service program is reported on. -/
theorem runOn_forM_reportFill (outcomes : List FillOutcome) (printed : Printed)
    (machine : Machine) : runOn (outcomes.forM reportFill) printed machine =
      ((.ok (), outcomes.foldl Printed.report printed), machine) := by
  induction outcomes generalizing printed with
  | nil => rfl
  | cons o outcomes ih =>
    have hone := runOn_reportFill o printed machine
    exact (runOn_bind_of_ok hone).trans (ih (printed.report o))

/-! ## The command -/

/-- The sources of the service programs of the rows. -/
def readsOf (rows : Catalog) (outcome : ServiceProgram → Except RemoteError String) :
    List SourceRead :=
  rows.programs.map fun p => ⟨p, outcome p⟩

/-- The service programs of ordered rows are different ones. -/
theorem areDifferent_readsOf {rows : Catalog} (h : rows.IsOrdered)
    (outcome : ServiceProgram → Except RemoteError String) :
    SourceRead.AreDifferent (readsOf rows outcome) :=
  List.pairwise_map.2 (h.programs.imp fun hlt => ne_of_lt hlt)

/-- The fills that the outcomes of reading allow. -/
theorem filterMap_fill?_readsOf (rows : Catalog)
    (outcome : ServiceProgram → Except RemoteError String) (force : Bool) :
    (readsOf rows outcome).filterMap (·.fill? force) =
      rows.programs.filterMap fun p => p.fill? force (outcome p) := by
  rw [readsOf, List.filterMap_map]
  rfl

/-- As many service programs fail as sources cannot be read. -/
theorem countP_isFailure_readsOf (rows : Catalog)
    (outcome : ServiceProgram → Except RemoteError String) (force : Bool) (now : String) :
    ((readsOf rows outcome).map (rows.fillOutcome force now)).countP (·.isFailure) =
      rows.programs.countP fun p => !(outcome p).isOk := by
  rw [readsOf, List.map_map, List.countP_map]
  refine List.countP_congr fun p hp => ?_
  have hfailure : (rows.fillOutcome force now ⟨p, outcome p⟩).isFailure = !(outcome p).isOk :=
    Catalog.isFailure_fillOutcome hp
  rw [← hfailure]
  rfl

section Command

variable {opened : OpenCatalog} {rows : Catalog} {sourceFile : Option String}
  {outcome : ServiceProgram → Except RemoteError String}

/-- Reading the sources of all service programs that are listed. -/
theorem exists_runOn_mapM_readSource
    (hreads : ∀ p ∈ rows.programs, ready.sourceOf invocation
      (sourceFile.getD settings.catalog.sourceFile) p = outcome p) (printed : Printed) :
    ∃ last : Machine, last.IsLater ready ∧
      runOn (rows.summaries.mapM fun s => readSource (hostRunner invocation)
        (sourceFile.getD settings.catalog.sourceFile) s.program) printed ready =
          ((.ok (readsOf rows outcome), printed), last) := by
  have hmap : readsOf rows outcome =
      rows.summaries.map fun s => ⟨s.program, outcome s.program⟩ := by
    rw [readsOf, Catalog.summaries, List.map_map]
    rfl
  rw [hmap]
  refine exists_runOn_mapM fun s hs next hnext => ?_
  obtain ⟨p, hp, rfl⟩ := List.mem_map.1 hs
  obtain ⟨last, hlast, hread⟩ := exists_runOn_readSource invocation
    (sourceFile.getD settings.catalog.sourceFile) (rows.summary p).program printed next
  refine ⟨last, hlast, ?_⟩
  rw [hread, hnext.sourceOf]
  exact congrArg (fun source => ((Except.ok (SourceRead.mk _ source), printed), last)) (hreads p hp)

/-- The service programs that the command finds listed. -/
theorem runOn_look_summaries
    (hrows : ∀ first, opened.database.catalog opened.tables first = .ok rows) (printed : Printed)
    (machine : Machine) :
    runOn (look opened (·.summaries) : Activity (StateM Machine) _) printed machine =
      ((.ok rows.summaries, printed), machine) := by
  have hsummaries : opened.database.summaries opened.tables = .ok rows.summaries := by
    rw [Database.summaries, Database.read, hrows]
    rfl
  rw [look, hsummaries]
  rfl

/-- When no service program is listed, nothing is done. -/
theorem exists_runOn_fillAllPrograms_of_nil
    (hopen : runOn (openCatalog Machine.system settings.catalog) printed machine =
      ((.ok opened, printed'), ready))
    (hrows : ∀ first, opened.database.catalog opened.tables first = .ok rows)
    (hnone : rows.programs = []) (sourceFile : Option String) (force : Bool) :
    ∃ last : Printed, runOn (fillAllPrograms Machine.system settings sourceFile force) printed
      machine = ((.ok (), last), ready) := by
  have hsummaries : rows.summaries = [] := by
    rw [Catalog.summaries, hnone, List.map_nil]
  rw [fillAllPrograms, runOn_bind_of_ok hopen, runOn_bind_of_ok (runOn_look_summaries hrows _ _),
    hsummaries]
  exact ⟨_, rfl⟩

/-- When service programs are listed, the command reads their sources, makes all fills, saves the
database and reports, in this order. -/
theorem exists_runOn_fillAllPrograms_of_ne_nil
    (hopen : runOn (openCatalog Machine.system settings.catalog) printed machine =
      ((.ok opened, printed'), ready))
    (hrows : ∀ first, opened.database.catalog opened.tables first = .ok rows)
    (hsome : rows.programs ≠ [])
    (hhost : Host.sshInvocation settings.host (Host.lookupVariable ready.environment) =
      .ok invocation)
    (hreads : ∀ p ∈ rows.programs, ready.sourceOf invocation
      (sourceFile.getD settings.catalog.sourceFile) p = outcome p) (force : Bool) :
    let filled := opened.database.fillAll opened.tables force ready.clock (readsOf rows outcome)
    let failed := filled.2.countP (·.isFailure)
    ∃ (last : Machine) (final : Printed), last.IsLater ready ∧
      runOn (fillAllPrograms Machine.system settings sourceFile force) printed machine =
        ((if failed = 0 then .ok () else .error (.fills failed rows.programs.length), final),
          if isTransient opened.path then last else last.putDatabase opened.path filled.1) := by
  intro filled failed
  have hlisted : rows.summaries.isEmpty = false := by
    simpa [Catalog.summaries] using hsome
  have hlength : rows.summaries.length = rows.programs.length := List.length_map _
  obtain ⟨last, hlast, hmap⟩ := exists_runOn_mapM_readSource hreads printed'
  have hnow : runOn (ask Machine.system.now) printed' last =
      ((.ok ready.clock, printed'), last) := by
    obtain ⟨started, rfl⟩ := hlast
    rfl
  have hsave := runOn_save { opened with database := filled.1 } printed' last
  have hreport := runOn_forM_reportFill filled.2 printed'
    (if isTransient opened.path then last else last.putDatabase opened.path filled.1)
  refine ⟨last, filled.2.foldl Printed.report printed', hlast, ?_⟩
  rw [fillAllPrograms, runOn_bind_of_ok hopen, runOn_bind_of_ok (runOn_look_summaries hrows _ _),
    hlisted]
  refine (runOn_bind_of_ok (runOn_connect hhost)).trans ((runOn_bind_of_ok hmap).trans
    ((runOn_bind_of_ok hnow).trans ((runOn_bind_of_ok hsave).trans
      ((runOn_bind_of_ok hreport).trans ?_))))
  change runOn (if failed != 0 then throw (.fills failed rows.summaries.length) else pure ()) _ _ =
    _
  by_cases hfailed : failed = 0
  · rw [if_neg (by simp [hfailed]), if_pos hfailed, runOn_pure]
  · rw [if_pos (by simpa using hfailed), if_neg hfailed, runOn_throw, hlength]

/-- What the command leaves: its result tells how many service programs failed, and the database
after all fills is kept where it was opened. -/
theorem runOn_fillAllPrograms
    (hopen : runOn (openCatalog Machine.system settings.catalog) printed machine =
      ((.ok opened, printed'), ready))
    (hrows : ∀ first, opened.database.catalog opened.tables first = .ok rows)
    (hhost : Host.sshInvocation settings.host (Host.lookupVariable ready.environment) =
      .ok invocation)
    (hreads : ∀ p ∈ rows.programs, ready.sourceOf invocation
      (sourceFile.getD settings.catalog.sourceFile) p = outcome p) (force : Bool) :
    let filled := opened.database.fillAll opened.tables force ready.clock (readsOf rows outcome)
    let failed := filled.2.countP (·.isFailure)
    let ended := runOn (fillAllPrograms Machine.system settings sourceFile force) printed machine
    ended.1.1 = (if failed = 0 then .ok () else .error (.fills failed rows.programs.length)) ∧
      (isTransient settings.catalog.path = false →
        ended.2.Keeps settings.catalog.path filled.1) := by
  intro filled failed ended
  obtain ⟨hpath, hkeeps⟩ := keeps_of_openCatalog hopen
  by_cases hnone : rows.programs = []
  · have hfilled : filled = (opened.database, []) := by
      simp only [filled, readsOf, hnone]
      rfl
    obtain ⟨final, hended⟩ :=
      exists_runOn_fillAllPrograms_of_nil hopen hrows hnone sourceFile force
    have hended : ended = ((.ok (), final), ready) := hended
    rw [hended, hfilled]
    exact ⟨by simp [failed, hfilled], hkeeps⟩
  · obtain ⟨last, final, hlast, hended⟩ :=
      exists_runOn_fillAllPrograms_of_ne_nil hopen hrows hnone hhost hreads force
    have hended : ended = _ := hended
    rw [hended]
    refine ⟨rfl, fun htransient => ?_⟩
    rw [hpath, htransient]
    exact (hlast.canKeep (hkeeps htransient).canKeep).keeps_putDatabase filled.1

/-- **Each service program is processed once, whatever fails.** The command starts on a catalog that
opens, with its rows in order, and with the settings that a connection needs; the host answers to
the reading of each source with the source or an error. Then the command fails exactly when a source
could not be read, and says how many. The database that is kept in the end is the one that was
opened but for the rows of the catalog, and these are the first rows after one fill for each source
that was read, in any order; if the fills are made at other times, they are so up to stamps. Each of
the fills succeeds, and a service program whose source could not be read keeps all its rows. -/
theorem each_program_is_filled_once
    (hopen : runOn (openCatalog Machine.system settings.catalog) printed machine =
      ((.ok opened, printed'), ready))
    (hrows : ∀ first, opened.database.catalog opened.tables first = .ok rows)
    (hordered : rows.IsOrdered)
    (hhost : Host.sshInvocation settings.host (Host.lookupVariable ready.environment) =
      .ok invocation)
    (hreads : ∀ p ∈ rows.programs, ready.sourceOf invocation
      (sourceFile.getD settings.catalog.sourceFile) p = outcome p) (jobs : Nat) (force : Bool) :
    let ended := runOn (performOnCatalog Machine.system settings
      (.fillFromSourceAll jobs sourceFile force)) printed machine
    let fills := rows.programs.filterMap fun p => p.fill? force (outcome p)
    let failures := rows.programs.countP fun p => !(outcome p).isOk
    ended.1.1 = (if failures = 0 then .ok () else .error (.fills failures rows.programs.length)) ∧
      ∃ db final, (isTransient settings.catalog.path = false →
          ended.2.openDatabase settings.catalog.path = (some (.database db), ended.2)) ∧
        (∀ first, db.catalog opened.tables first = .ok final) ∧
        (∀ other, db.store opened.tables other = opened.database.store opened.tables other) ∧
        (∀ order : List Change, order.Perm fills →
          final = rows.afterAll (order.map (Prod.mk ready.clock))) ∧
        (∀ order : List (String × Change), (order.map Prod.snd).Perm fills →
          ∀ stamp, final.stampAll stamp = (rows.afterAll order).stampAll stamp) ∧
        (∀ p ∈ rows.programs, ∀ source, outcome p = .ok source → ∃ result,
          rows.fillFromSource Digest.sha256Hex p.library p.name source force ready.clock =
              .ok result ∧
            final.part p.library p.name = result.1.part p.library p.name) ∧
        ∀ p ∈ rows.programs, (outcome p).isOk = false →
          final.part p.library p.name = rows.part p.library p.name := by
  intro ended fills failures
  obtain ⟨hresult, hkeeps⟩ := runOn_fillAllPrograms hopen hrows hhost hreads force
  have hdifferent : SourceRead.AreDifferent (readsOf rows outcome) :=
    areDifferent_readsOf hordered outcome
  obtain ⟨hcatalog, hstore, houtcomes⟩ := Database.fillAll_of_catalog hrows hordered
    hdifferent force ready.clock
  rw [houtcomes, countP_isFailure_readsOf] at hresult
  have hfills : (Catalog.fillSteps force ready.clock (readsOf rows outcome)).map Prod.snd = fills :=
    (Catalog.map_snd_fillSteps _).trans (filterMap_fill?_readsOf rows outcome force)
  have hnames : Change.NameDifferent
      ((Catalog.fillSteps force ready.clock (readsOf rows outcome)).map Prod.snd) :=
    Catalog.nameDifferent_fillSteps hdifferent
  refine ⟨hresult, _, _, fun htransient => (hkeeps htransient).openDatabase, hcatalog, hstore,
    ?_, ?_, ?_, ?_⟩
  · intro order horder
    refine (Catalog.afterAll_perm hordered hnames ?_).symm
    rw [Catalog.fillSteps, filterMap_fill?_readsOf]
    exact horder.map _
  · intro order horder stamp
    refine (Catalog.stampAll_afterAll_perm hordered hnames ?_ stamp).symm
    rw [hfills]
    exact horder
  · intro p hp source hsource
    obtain ⟨result, hfill⟩ := Catalog.exists_fillFromSource_of_mem hp source force ready.clock
    have hread : ⟨p, .ok source⟩ ∈ readsOf rows outcome :=
      List.mem_map.2 ⟨p, hp, by rw [hsource]⟩
    exact ⟨result, hfill, Catalog.part_fills_of_read hordered hdifferent hread hfill⟩
  · intro p hp herror
    cases hsource : outcome p with
    | ok source => simp [hsource, Except.isOk, Except.toBool] at herror
    | error e =>
      have hread : ⟨p, .error e⟩ ∈ readsOf rows outcome :=
        List.mem_map.2 ⟨p, hp, by rw [hsource]⟩
      exact Catalog.part_fills_of_unread hdifferent hread

end Command

/-- The first of two service programs has a name that the host would refuse, and the source of the
second is read. -/
theorem each_program_is_filled_once_half :
    let rows : Catalog := ⟨[⟨"AXA", "SP-W", "QFUENTES", none, none, some "1"⟩,
        ⟨"AXA", "SPV", "QFUENTES", none, none, some "2"⟩],
      [.new "AXA" "SP-W" "B_SET" "1", .new "AXA" "SPV" "A_GET" "2"]⟩
    let db := (Database.empty.run [⟨.standard, .up, ""⟩]).store .standard rows
    let settings : Settings := ⟨{ HostSettings.default with host := some "h", user := some "u" },
      { CatalogSettings.default with path := "db" }⟩
    let machine : Machine :=
      { entries := [(["db"], .database db)]
        workingDirectory := []
        environment := []
        input := []
        clock := "3"
        -- the text "// A_GET: x"
        execute := fun _ _ =>
          some ⟨[0x2F, 0x2F, 0x20, 0x41, 0x5F, 0x47, 0x45, 0x54, 0x3A, 0x20, 0x78], [], some 0, 0⟩
        started := [] }
    let ended := runOn (performOnCatalog Machine.system settings
      (.fillFromSourceAll 4 none false)) ⟨[], []⟩ machine
    (∀ first, db.catalog .standard first = .ok rows) ∧
      ended.1.1 = .error (.fills 1 2) ∧
      ∃ db' final, ended.2.openDatabase "db" = (some (.database db'), ended.2) ∧
        (∀ first, db'.catalog .standard first = .ok final) ∧
        (final.part "AXA" "SPV").procedures =
          [⟨"AXA", "SPV", "A_GET", some "x", some "inline_label", "3"⟩] ∧
        final.part "AXA" "SP-W" = rows.part "AXA" "SP-W" := by
  intro rows db settings machine ended
  have hrows : ∀ first, db.catalog .standard first = .ok rows := by
    intro first
    cases first <;> decide +kernel
  have hordered : rows.IsOrdered := by
    constructor
    · show List.Pairwise _ _
      decide +kernel
    · show List.Pairwise _ _
      decide +kernel
  have hkeeps : machine.Keeps "db" db := ⟨["db"], by decide +kernel, by decide +kernel⟩
  have hdirectory : runOn (prepareDirectory Machine.system "db") ⟨[], []⟩ machine =
      ((.ok (), ⟨[], []⟩), machine) := by
    have hparent : parentOf? "db" = some "" := by decide +kernel
    rw [prepareDirectory, hparent]
    rfl
  have htables : TablePrefix.ofString "svp_" = .ok .standard :=
    dif_pos (show isTablePrefix "svp_" = true by decide +kernel)
  have hopen : runOn (openCatalog Machine.system settings.catalog) ⟨[], []⟩ machine =
      ((.ok ⟨"db", .standard, db⟩, ⟨[], []⟩), machine.putDatabase "db" db) :=
    runOn_openCatalog_of_keeps hdirectory (by decide +kernel) hkeeps htables (by decide +kernel)
  let invocation : Host.Invocation := ⟨"ssh", ["-o", "BatchMode=yes", "-o", "ConnectTimeout=60",
    "-p", "22", "u@h"], [], 60000⟩
  have hhost : Host.sshInvocation settings.host
      (Host.lookupVariable (machine.putDatabase "db" db).environment) = .ok invocation := by
    decide +kernel
  let outcome := (machine.putDatabase "db" db).sourceOf invocation "QFUENTES"
  have hreads : ∀ p ∈ rows.programs, (machine.putDatabase "db" db).sourceOf invocation
      ((none : Option String).getD settings.catalog.sourceFile) p = outcome p := fun _ _ => rfl
  obtain ⟨hresult, db', final, hkept, hcatalog, -, -, -, hread, hunread⟩ :=
    each_program_is_filled_once hopen hrows hordered hhost hreads 4 false
  have hfailures : (rows.programs.countP fun p => !(outcome p).isOk) = 1 := by decide +kernel
  refine ⟨hrows, ?_, db', final, hkept (by decide +kernel), hcatalog, ?_, ?_⟩
  · rw [hfailures] at hresult
    exact hresult
  · have hsource : outcome ⟨"AXA", "SPV", "QFUENTES", none, none, some "2"⟩ =
        .ok "// A_GET: x" := by decide +kernel
    obtain ⟨result, hfill, hpart⟩ := hread _ (by simp [rows]) _ hsource
    have hfilled : (rows.fillFromSource Digest.sha256Hex "AXA" "SPV" "// A_GET: x" false
        (machine.putDatabase "db" db).clock).map (fun r => (r.1.part "AXA" "SPV").procedures) =
          .ok [⟨"AXA", "SPV", "A_GET", some "x", some "inline_label", "3"⟩] := by
      decide +kernel
    rw [hfill] at hfilled
    rw [hpart]
    exact Except.ok.inj hfilled
  · exact hunread ⟨"AXA", "SP-W", "QFUENTES", none, none, some "1"⟩ (by simp [rows])
      (by decide +kernel)

end ProcedureCatalog.CommandLine
