/-
# Filling in many service programs

Changes that name different service programs may be made in any order, at whatever times: each acts
on the part of its own service program as it would act on the first rows. So do the fills of several
service programs, whose sources were read before, each with or without success.

* `Catalog.part_afterAll_of_mem` : what a run of such changes leaves of a service program.
* `Catalog.afterAll_perm`, `Catalog.stampAll_afterAll_perm` : the order and the times do not matter.
* `Database.fillAll_of_catalog` : the rows after all fills, and what became of each service program.
-/
import Mathlib.Data.List.Pairwise
import Mathlib.Data.List.Perm.Basic
import ProcedureCatalog.Catalog.FillAll
import ProcedureCatalog.Proofs.Catalog.Independence

namespace ProcedureCatalog

/-! ## Changes of different service programs -/

/-- Each of the changes names a service program, and no two the same. -/
structure Change.NameDifferent (changes : List Change) : Prop where
  named : ∀ change ∈ changes, ∃ l q, change.target? = some (l, q)
  different : changes.Pairwise fun a b => a.target? ≠ b.target?

namespace Catalog

variable {c : Catalog} {library program l q : String} {steps steps' : List (String × Change)}

/-- The rows after changes at their times. One that fails leaves them as they were. -/
def afterAll (c : Catalog) (steps : List (String × Change)) : Catalog :=
  steps.foldl (fun c step => (c.respond step.1 step.2).1) c

@[simp] theorem afterAll_nil (c : Catalog) : c.afterAll [] = c := rfl

@[simp] theorem afterAll_cons (c : Catalog) (step : String × Change)
    (steps : List (String × Change)) :
    c.afterAll (step :: steps) = (c.respond step.1 step.2).1.afterAll steps := rfl

theorem afterAll_append (c : Catalog) (steps more : List (String × Change)) :
    c.afterAll (steps ++ more) = (c.afterAll steps).afterAll more :=
  List.foldl_append

theorem IsOrdered.afterAll (h : c.IsOrdered) (steps : List (String × Change)) :
    (c.afterAll steps).IsOrdered := by
  induction steps generalizing c with
  | nil => exact h
  | cons step steps ih => exact ih (h.respond step.1 step.2)

/-- Changes of other service programs leave a part. -/
theorem part_afterAll_of_other (hnamed : ∀ step ∈ steps, ∃ l q, step.2.target? = some (l, q))
    (hother : ∀ step ∈ steps, step.2.target? ≠ some (library, program)) :
    (c.afterAll steps).part library program = c.part library program := by
  induction steps generalizing c with
  | nil => rfl
  | cons step steps ih =>
    obtain ⟨l, q, htarget⟩ := hnamed step List.mem_cons_self
    have hdiffer : ¬ (library = l ∧ program = q) := by
      rintro ⟨rfl, rfl⟩
      exact hother step List.mem_cons_self htarget
    rw [afterAll_cons, ih (fun s hs => hnamed s (List.mem_cons_of_mem _ hs))
      fun s hs => hother s (List.mem_cons_of_mem _ hs)]
    exact part_respond_of_other htarget hdiffer _

/-- Of a run of changes that name different service programs, the one that names a service program
decides alone what becomes of its part, and does to it what it does to the first rows. -/
theorem part_afterAll_of_mem (hc : c.IsOrdered) (h : Change.NameDifferent (steps.map Prod.snd))
    {step : String × Change} (hstep : step ∈ steps) (htarget : step.2.target? = some (l, q)) :
    (c.afterAll steps).part l q = (c.respond step.1 step.2).1.part l q := by
  obtain ⟨before, after, rfl⟩ := List.append_of_mem hstep
  have hpairs := List.pairwise_map.1 h.different
  have hnamed : ∀ s ∈ before ++ step :: after, ∃ l q, s.2.target? = some (l, q) := fun s hs =>
    h.named s.2 (List.mem_map_of_mem hs)
  have hbefore : ∀ s ∈ before, s.2.target? ≠ some (l, q) := by
    intro s hs
    rw [← htarget]
    exact (List.pairwise_append.1 hpairs).2.2 s hs step List.mem_cons_self
  have hafter : ∀ s ∈ after, s.2.target? ≠ some (l, q) := by
    intro s hs
    rw [← htarget]
    exact ((List.pairwise_cons.1 (List.pairwise_append.1 hpairs).2.1).1 s hs).symm
  -- the part that the change meets is the one of the first rows
  have hmet : (c.afterAll before).part l q = c.part l q :=
    part_afterAll_of_other (fun s hs => hnamed s (List.mem_append_left _ hs)) hbefore
  have hact := congrArg Prod.fst (respond_part (hc.afterAll before) htarget step.1)
  have hact' := congrArg Prod.fst (respond_part hc htarget step.1)
  rw [hmet] at hact
  rw [afterAll_append, afterAll_cons, part_afterAll_of_other
    (fun s hs => hnamed s (List.mem_append_right _ (List.mem_cons_of_mem _ hs))) hafter]
  exact hact.symm.trans hact'

/-- **Changes of different service programs may be made in any order.** -/
theorem afterAll_perm (hc : c.IsOrdered) (h : Change.NameDifferent (steps.map Prod.snd))
    (hperm : steps'.Perm steps) : c.afterAll steps' = c.afterAll steps := by
  have h' : Change.NameDifferent (steps'.map Prod.snd) := by
    have hmap := hperm.map Prod.snd
    exact ⟨fun change hmem => h.named change (hmap.subset hmem),
      (hmap.pairwise_iff fun hab => hab.symm).2 h.different⟩
  refine eq_of_part_eq (hc.afterAll steps') (hc.afterAll steps) fun l q => ?_
  by_cases hsome : ∃ step ∈ steps, step.2.target? = some (l, q)
  · obtain ⟨step, hstep, htarget⟩ := hsome
    rw [part_afterAll_of_mem hc h hstep htarget,
      part_afterAll_of_mem hc h' (hperm.symm.subset hstep) htarget]
  · have hother : ∀ step ∈ steps, step.2.target? ≠ some (l, q) := fun step hstep htarget =>
      hsome ⟨step, hstep, htarget⟩
    rw [part_afterAll_of_other (fun s hs => h.named s.2 (List.mem_map_of_mem hs)) hother,
      part_afterAll_of_other (fun s hs => h'.named s.2 (List.mem_map_of_mem hs))
        fun s hs => hother s (hperm.subset hs)]

/-- Up to stamps, changes at their times do what they do at one time on stamped rows. -/
theorem stampAll_afterAll (c : Catalog) (stamp : String) (steps : List (String × Change)) :
    (c.afterAll steps).stampAll stamp =
      (c.stampAll stamp).afterAll (steps.map fun step => (stamp, step.2)) := by
  induction steps generalizing c with
  | nil => rfl
  | cons step steps ih =>
    have hone := congrArg Prod.fst (c.respond_stampAll step.2 stamp step.1)
    rw [Prod.map_fst] at hone
    rw [afterAll_cons, ih, List.map_cons, afterAll_cons, hone]

/-- Up to stamps, changes of different service programs may be made in any order, at any times. -/
theorem stampAll_afterAll_perm (hc : c.IsOrdered) (h : Change.NameDifferent (steps.map Prod.snd))
    (hperm : (steps'.map Prod.snd).Perm (steps.map Prod.snd)) (stamp : String) :
    (c.afterAll steps').stampAll stamp = (c.afterAll steps).stampAll stamp := by
  have hat : ∀ s : List (String × Change),
      (s.map fun step => (stamp, step.2)) = (s.map Prod.snd).map (Prod.mk stamp) := by
    intro s
    rw [List.map_map]
    rfl
  have hsnd : ∀ s : List Change, (s.map (Prod.mk stamp)).map Prod.snd = s := by
    intro s
    rw [List.map_map]
    exact List.map_id s
  rw [stampAll_afterAll, stampAll_afterAll, hat, hat]
  refine afterAll_perm (hc.stampAll stamp) ?_ (hperm.map _)
  rwa [hsnd]

end Catalog

/-! ## Fills -/

/-- The fill of a service program from its source, if that was read. -/
def ServiceProgram.fill? (force : Bool) (p : ServiceProgram) :
    Except RemoteError String → Option Change
  | .ok source => some (.fillFromSource p.library p.name source force)
  | .error _ => none

namespace SourceRead

/-- The fill that a source allows. -/
def fill? (force : Bool) (read : SourceRead) : Option Change := read.program.fill? force read.source

theorem target?_of_fill? {force : Bool} {read : SourceRead} {change : Change}
    (h : read.fill? force = some change) :
    change.target? = some (read.program.library, read.program.name) := by
  obtain ⟨p, source⟩ := read
  cases source with
  | error e => simp [fill?, ServiceProgram.fill?] at h
  | ok text =>
    rw [← Option.some.inj h]
    rfl

/-- The sources are those of different service programs. -/
def AreDifferent (reads : List SourceRead) : Prop :=
  reads.Pairwise fun a b => a.program.key ≠ b.program.key

/-- Two service programs of different keys do not go by the same names. -/
theorem ne_of_key_ne {a b : SourceRead} (h : a.program.key ≠ b.program.key) :
    (a.program.library, a.program.name) ≠ (b.program.library, b.program.name) := by
  intro heq
  obtain ⟨hlibrary, hname⟩ := Prod.mk.inj heq
  exact h (by rw [ServiceProgram.key, ServiceProgram.key, hlibrary, hname])

/-- Of the sources of different service programs, one belongs to a service program. -/
theorem eq_of_key_eq {reads : List SourceRead} (h : AreDifferent reads) {a b : SourceRead}
    (ha : a ∈ reads) (hb : b ∈ reads) (hkey : a.program.key = b.program.key) : a = b := by
  have hdiffer : reads.Pairwise fun a b => a.program.key ≠ b.program.key := h
  exact Table.eq_of_key_eq hdiffer ha hb hkey

/-- The fills from the sources of different service programs name different ones. -/
theorem nameDifferent_fills {reads : List SourceRead} (h : AreDifferent reads) (force : Bool) :
    Change.NameDifferent (reads.filterMap (·.fill? force)) := by
  constructor
  · intro change hchange
    obtain ⟨read, -, hfill⟩ := List.mem_filterMap.1 hchange
    exact ⟨_, _, target?_of_fill? hfill⟩
  · refine List.Pairwise.filterMap _ ?_ h
    intro a b hab change hchange change' hchange' heq
    rw [target?_of_fill? hchange, target?_of_fill? hchange'] at heq
    exact ne_of_key_ne hab (Option.some.inj heq)

end SourceRead

namespace Catalog

variable (c : Catalog) (force : Bool) (now : String)

/-- The fills at one time that the sources allow, in the order of the sources. -/
def fillSteps (reads : List SourceRead) : List (String × Change) :=
  (reads.filterMap (·.fill? force)).map (Prod.mk now)

/-- What becomes of a service program by its fill on the rows. -/
def fillOutcome (read : SourceRead) : FillOutcome where
  program := read.program
  report :=
    match read.source with
    | .error e => .error (.unread e)
    | .ok source =>
      ((c.fillFromSource Digest.sha256Hex read.program.library read.program.name source force
        now).map (·.2)).mapError .refused

variable {c force now}

theorem map_snd_fillSteps (reads : List SourceRead) :
    (fillSteps force now reads).map Prod.snd = reads.filterMap (·.fill? force) := by
  rw [fillSteps, List.map_map]
  exact List.map_id _

/-- What becomes of a service program depends on its part alone. -/
theorem fillOutcome_part (read : SourceRead) :
    (c.part read.program.library read.program.name).fillOutcome force now read =
      c.fillOutcome force now read := by
  obtain ⟨p, source⟩ := read
  cases source with
  | error e => rfl
  | ok text =>
    simp only [fillOutcome, fillFromSource_part]
    cases c.fillFromSource Digest.sha256Hex p.library p.name text force now with
    | error e => rfl
    | ok result => rfl

/-- A fill of a service program that is listed succeeds. -/
theorem exists_fillFromSource_of_mem {p : ServiceProgram} (h : p ∈ c.programs) (source : String)
    (force : Bool) (now : String) :
    ∃ result, c.fillFromSource Digest.sha256Hex p.library p.name source force now =
      .ok result := by
  have hthere : (c.program? p.library p.name).isSome = true :=
    Table.isSome_find?_iff.2 ⟨p, h, rfl⟩
  obtain ⟨p', hp'⟩ := Option.isSome_iff_exists.1 hthere
  exact exists_fillFromSource_eq_ok Digest.sha256Hex source force now hp'

/-- A service program that is listed fails only when its source could not be read. -/
theorem isFailure_fillOutcome {read : SourceRead} (h : read.program ∈ c.programs) :
    (c.fillOutcome force now read).isFailure = !read.source.isOk := by
  obtain ⟨p, source⟩ := read
  cases source with
  | error e => rfl
  | ok text =>
    obtain ⟨result, hresult⟩ := exists_fillFromSource_of_mem h text force now
    simp only [fillOutcome, FillOutcome.isFailure, hresult]
    rfl

/-- A step of the fills is the fill of one of the sources that were read. -/
theorem exists_of_mem_fillSteps {reads : List SourceRead} {step : String × Change}
    (h : step ∈ fillSteps force now reads) : ∃ read ∈ reads, read.fill? force = some step.2 := by
  obtain ⟨change, hchange, rfl⟩ := List.mem_map.1 h
  exact List.mem_filterMap.1 hchange

/-- The fills from the sources of different service programs name different ones. -/
theorem nameDifferent_fillSteps {reads : List SourceRead} (h : SourceRead.AreDifferent reads) :
    Change.NameDifferent ((fillSteps force now reads).map Prod.snd) := by
  rw [map_snd_fillSteps]
  exact SourceRead.nameDifferent_fills h force

/-- Fills of other service programs leave a part. -/
theorem part_fills_of_other {reads : List SourceRead}
    (hother : ∀ read ∈ reads, ∀ change, read.fill? force = some change →
      (read.program.library, read.program.name) ≠ (library, program)) :
    (c.afterAll (fillSteps force now reads)).part library program = c.part library program := by
  refine part_afterAll_of_other (fun step hstep => ?_) fun step hstep htarget => ?_
  · obtain ⟨read, -, hfill⟩ := exists_of_mem_fillSteps hstep
    exact ⟨_, _, SourceRead.target?_of_fill? hfill⟩
  · obtain ⟨read, hread, hfill⟩ := exists_of_mem_fillSteps hstep
    rw [SourceRead.target?_of_fill? hfill] at htarget
    exact hother read hread _ hfill (Option.some.inj htarget)

/-- All fills together do to a service program whose source was read what its own fill does. -/
theorem part_fills_of_read (hc : c.IsOrdered) {reads : List SourceRead}
    (hreads : SourceRead.AreDifferent reads) {p : ServiceProgram} {source : String}
    (hread : ⟨p, .ok source⟩ ∈ reads) {result : Catalog × FillReport}
    (hresult : c.fillFromSource Digest.sha256Hex p.library p.name source force now = .ok result) :
    (c.afterAll (fillSteps force now reads)).part p.library p.name =
      result.1.part p.library p.name := by
  have hstep : (now, Change.fillFromSource p.library p.name source force) ∈
      fillSteps force now reads :=
    List.mem_map_of_mem (List.mem_filterMap.2 ⟨_, hread, rfl⟩)
  rw [part_afterAll_of_mem hc (nameDifferent_fillSteps hreads) hstep rfl]
  simp only [respond, Change.act, hresult]
  rfl

/-- All fills together leave a service program whose source could not be read. -/
theorem part_fills_of_unread {reads : List SourceRead} (hreads : SourceRead.AreDifferent reads)
    {p : ServiceProgram} {e : RemoteError} (hread : ⟨p, .error e⟩ ∈ reads) :
    (c.afterAll (fillSteps force now reads)).part p.library p.name =
      c.part p.library p.name := by
  refine part_fills_of_other fun read hmem change hfill heq => ?_
  -- the fill would be of this service program, whose source was not read
  obtain ⟨hlibrary, hname⟩ := Prod.mk.inj heq
  have hkey : read.program.key = p.key := by
    rw [ServiceProgram.key, ServiceProgram.key, hlibrary, hname]
  obtain rfl := SourceRead.eq_of_key_eq hreads hmem hread hkey
  simp [SourceRead.fill?, ServiceProgram.fill?] at hfill

end Catalog

namespace Database

variable {db : Database} {p : TablePrefix} {c : Catalog}

/-- Of a catalog that is there, a fill stores the rows that it makes of the rows, and leaves all
other tables. -/
theorem fillOne_of_catalog (hc : ∀ first, db.catalog p first = .ok c) (force : Bool)
    (now : String) (read : SourceRead) :
    (∀ first, (db.fillOne p force now read).1.catalog p first =
        .ok (c.afterAll (Catalog.fillSteps force now [read]))) ∧
      (∀ d, (db.fillOne p force now read).1.store p d = db.store p d) ∧
      (db.fillOne p force now read).2 = c.fillOutcome force now read := by
  obtain ⟨program, source⟩ := read
  cases source with
  | error e => exact ⟨hc, fun _ => rfl, rfl⟩
  | ok text =>
    have hrespond : c.afterAll (Catalog.fillSteps force now [⟨program, .ok text⟩]) =
        (c.respond now (.fillFromSource program.library program.name text force)).1 := rfl
    have hfill : db.fillFromSource p program.library program.name text force now =
        (c.fillFromSource Digest.sha256Hex program.library program.name text force now).map
          (Prod.map (db.store p) id) := write_of_catalog (hc _) _
    rw [hrespond]
    simp only [fillOne, hfill, Catalog.fillOutcome, Catalog.respond, Change.act]
    cases c.fillFromSource Digest.sha256Hex program.library program.name text force now with
    | error e => exact ⟨hc, fun _ => rfl, rfl⟩
    | ok result =>
      refine ⟨fun first => ?_, store_store db p result.1, rfl⟩
      exact catalog_store_of_same (sameName_iff.2 rfl) (hc first)

/-- **All service programs are filled in, whatever fails.** The rows in the end are those after the
fills that the sources allow, other tables are left, and each service program has what becomes of it
on the first rows. -/
theorem fillAll_of_catalog (hc : ∀ first, db.catalog p first = .ok c) (hordered : c.IsOrdered)
    {reads : List SourceRead} (hreads : SourceRead.AreDifferent reads) (force : Bool)
    (now : String) :
    (∀ first, (db.fillAll p force now reads).1.catalog p first =
        .ok (c.afterAll (Catalog.fillSteps force now reads))) ∧
      (∀ d, (db.fillAll p force now reads).1.store p d = db.store p d) ∧
      (db.fillAll p force now reads).2 = reads.map (c.fillOutcome force now) := by
  induction reads generalizing db c with
  | nil => exact ⟨hc, fun _ => rfl, rfl⟩
  | cons read reads ih =>
    obtain ⟨hread, hrest⟩ := List.pairwise_cons.1 hreads
    obtain ⟨hcatalog, hstore, houtcome⟩ := fillOne_of_catalog hc force now read
    obtain ⟨hcatalogs, hstores, houtcomes⟩ := ih hcatalog (hordered.afterAll _) hrest
    have hsteps : Catalog.fillSteps force now (read :: reads) =
        Catalog.fillSteps force now [read] ++ Catalog.fillSteps force now reads := by
      rw [Catalog.fillSteps, ← List.singleton_append, List.filterMap_append, List.map_append]
      rfl
    refine ⟨fun first => ?_, fun d => ?_, ?_⟩
    · rw [hsteps, Catalog.afterAll_append]
      exact hcatalogs first
    · exact (hstores d).trans (hstore d)
    · -- the first fill leaves the parts that the others look at
      have hsame : ∀ other ∈ reads,
          (c.afterAll (Catalog.fillSteps force now [read])).fillOutcome force now other =
            c.fillOutcome force now other := by
        intro other hother
        rw [← Catalog.fillOutcome_part, ← Catalog.fillOutcome_part (c := c),
          Catalog.part_fills_of_other]
        intro read' hmem _ _
        rw [List.mem_singleton.1 hmem]
        exact SourceRead.ne_of_key_ne (hread other hother)
      change (db.fillOne p force now read).2 ::
        ((db.fillOne p force now read).1.fillAll p force now reads).2 = _
      rw [houtcome, houtcomes, List.map_cons, List.map_congr_left hsame]

end Database

end ProcedureCatalog
