/-
# Shortening program by program

Shortening everything does what shortening each service program does, in any order, unless the table
refuses a row.

* `inTurn` : steps one after the other, with the sum of what they count.
* `Catalog.shortenWhere_or` : two passes are one over the rows of both.
* `shorten_program_by_program` : all service programs one after the other, or at once.
* `unknown_source_stops_everything` : with a refused row the two differ in what they leave.
-/
import Mathlib.Data.List.Forall2
import ProcedureCatalog.Proofs.Catalog.Integrity
import ProcedureCatalog.Proofs.Catalog.Reached
import ProcedureCatalog.Proofs.Catalog.ShorteningPass
import ProcedureCatalog.Proofs.Catalog.Stamps
import ProcedureCatalog.Proofs.Catalog.UnchangedSource

namespace ProcedureCatalog

/-! ## In turn -/

/-- One step for each item, in turn, and the sum of what the steps count. The first error ends
it. -/
def inTurn {σ ι : Type} (step : σ → ι → Except CatalogError (σ × Nat)) (s : σ) :
    List ι → Except CatalogError (σ × Nat)
  | [] => .ok (s, 0)
  | i :: items => do
    let (s, count) ← step s i
    (inTurn step s items).map (Prod.map id (count + ·))

section

variable {σ τ ι κ : Type} {step : σ → ι → Except CatalogError (σ × Nat)}

theorem inTurn_cons (s : σ) (i : ι) (items : List ι) :
    inTurn step s (i :: items) = step s i >>= fun result =>
      (inTurn step result.1 items).map (Prod.map id (result.2 + ·)) := rfl

/-- Steps that correspond do so in turn. -/
theorem inTurn_map {step' : τ → κ → Except CatalogError (τ × Nat)} {f : σ → τ} {g : ι → κ}
    (h : ∀ s i, step' (f s) (g i) = (step s i).map (Prod.map f id)) (s : σ) (items : List ι) :
    inTurn step' (f s) (items.map g) = (inTurn step s items).map (Prod.map f id) := by
  induction items generalizing s with
  | nil => rfl
  | cons i items ih =>
    rw [List.map_cons, inTurn_cons, inTurn_cons, h]
    cases step s i with
    | error e => rfl
    | ok result =>
      refine (congrArg (Except.map _) (ih result.1)).trans ?_
      exact map_snd_map_fst _ _ _

end

namespace Catalog

variable {c : Catalog} {r : StoredProcedure} {now : String}

/-! ## Two passes -/

/-- A test of nothing shortens nothing. -/
theorem shortenWhere_false : c.shortenWhere (fun _ => false) now = .ok (c, 0) := by
  simp [shortenWhere, HasRefused, shortenRows, countShorter]

section

variable {covered covered' : StoredProcedure → Bool}

/-- Tests that agree on the rows. -/
theorem shortenWhere_congr (h : ∀ r ∈ c.procedures, covered r = covered' r) :
    c.shortenWhere covered now = c.shortenWhere covered' now := by
  have hrefused : c.HasRefused covered ↔ c.HasRefused covered' :=
    exists_congr fun r => and_congr_right fun hr => by rw [h r hr]
  have hrows : c.shortenRows covered now = c.shortenRows covered' now :=
    congrArg (Catalog.mk _) (List.map_congr_left fun r hr => by rw [h r hr])
  have hcount : c.countShorter covered = c.countShorter covered' :=
    List.countP_congr fun r hr => by rw [h r hr]
  simp only [shortenWhere, hrefused, hrows, hcount]

/-- A row that a second pass refuses was not shortened by the first. -/
theorem hasRefused_shortenRows_iff (h : ¬ c.HasRefused covered) :
    (c.shortenRows covered now).HasRefused covered' ↔
      c.HasRefused fun r => covered r || covered' r := by
  have hrow : ∀ r ∈ c.procedures,
      (covered' (if covered r then shortenRow now r else r) = true ∧
        isRefused (if covered r then shortenRow now r else r) = true) ↔
      ((covered r || covered' r) = true ∧ isRefused r = true) := by
    intro r hr
    cases hcovered : covered r with
    | true =>
      have hnot : isRefused r = false := by
        rw [← Bool.not_eq_true]
        exact fun hrefused => h ⟨r, hr, hcovered, hrefused⟩
      have hafter : isRefused (shortenRow now r) = false := by
        rw [isRefused, shorterText?_shortenRow]
        rfl
      simp [hnot, hafter]
    | false => simp
  unfold HasRefused shortenRows
  constructor
  · rintro ⟨_, hmem, hafter⟩
    obtain ⟨r, hr, rfl⟩ := List.mem_map.1 hmem
    exact ⟨r, hr, (hrow r hr).1 hafter⟩
  · rintro ⟨r, hr, hbefore⟩
    exact ⟨_, List.mem_map_of_mem hr, (hrow r hr).2 hbefore⟩

/-- Two passes shorten the rows of both. -/
theorem shortenRows_shortenRows : (c.shortenRows covered now).shortenRows covered' now =
    c.shortenRows (fun r => covered r || covered' r) now := by
  refine congrArg (Catalog.mk _) ?_
  simp only [shortenRows, List.map_map]
  refine List.map_congr_left fun r _ => ?_
  simp only [Function.comp_apply]
  by_cases hcovered : covered r = true
  · simp [hcovered, shortenRow_shortenRow]
  · simp [hcovered]

/-- Of two passes, the second counts no row of the first. -/
theorem countShorter_add :
    c.countShorter covered + (c.shortenRows covered now).countShorter covered' =
      c.countShorter fun r => covered r || covered' r := by
  unfold countShorter shortenRows
  rw [List.countP_map, List.countP_eq_countP_filter_add c.procedures
    (fun r => (covered r || covered' r) && (shorterText? r).isSome) covered,
    List.countP_filter, List.countP_filter]
  congr 1
  · refine List.countP_congr fun r _ => ?_
    cases covered r <;> simp
  · refine List.countP_congr fun r _ => ?_
    simp only [Function.comp_apply]
    cases covered r with
    | true => simp [shorterText?_shortenRow]
    | false => simp

/-- **Two passes at one time are one pass over the rows of both.** -/
theorem shortenWhere_or :
    (c.shortenWhere covered now >>= fun result =>
      (result.1.shortenWhere covered' now).map (Prod.map id (result.2 + ·))) =
      c.shortenWhere (fun r => covered r || covered' r) now := by
  by_cases hrefused : c.HasRefused covered
  · obtain ⟨r, hr, hcovered, hrow⟩ := hrefused
    have hboth : c.HasRefused fun r => covered r || covered' r :=
      ⟨r, hr, by simp [hcovered], hrow⟩
    rw [shortenWhere, if_pos ⟨r, hr, hcovered, hrow⟩, shortenWhere, if_pos hboth]
    rfl
  · rw [shortenWhere, if_neg hrefused]
    simp only [bind, Except.bind, shortenWhere, hasRefused_shortenRows_iff hrefused,
      shortenRows_shortenRows]
    split
    · rfl
    · exact congrArg (fun n => Except.ok (_, n)) countShorter_add

end

/-! ## Program by program -/

/-- Shortens the named service programs at their times, one after the other, and adds up the counts.
The first error ends it. -/
def shortenEach (c : Catalog) (calls : List ((String × String) × String)) :
    Except CatalogError (Catalog × Nat) :=
  inTurn (fun c call => c.shorten (some call.1) call.2) c calls

/-- The procedure belongs to one of the named service programs. -/
def isNamedIn (names : List (String × String)) (r : StoredProcedure) : Bool :=
  names.any fun name => r.belongsTo name.1 name.2

/-- At one time, shortening program by program is one pass over the rows of all of them. -/
theorem shortenEach_eq_shortenWhere (c : Catalog) (names : List (String × String)) (now : String) :
    c.shortenEach (names.map fun name => (name, now)) = c.shortenWhere (isNamedIn names) now := by
  induction names generalizing c with
  | nil => exact shortenWhere_false.symm
  | cons name names ih =>
    have hnamed : isNamedIn (name :: names) = fun r =>
        isCovered (some name) r || isNamedIn names r := rfl
    rw [hnamed, ← shortenWhere_or, ← shorten_eq_shortenWhere]
    unfold shortenEach at ih ⊢
    rw [List.map_cons, inTurn_cons]
    simp only [ih]

/-- Up to stamps, the times do not matter. -/
theorem map_stampAll_shortenEach (c : Catalog) (calls : List ((String × String) × String))
    (stamp : String) :
    (c.shortenEach calls).map (Prod.map (·.stampAll stamp) id) =
      (c.stampAll stamp).shortenEach ((calls.map Prod.fst).map fun name => (name, stamp)) := by
  rw [List.map_map]
  exact (inTurn_map (fun c call => c.shorten_stampAll call.2 (some call.1)) c calls).symm

/-- A row that belongs to a stored service program belongs to a named one if all stored ones are
named. -/
theorem IsOwned.isNamedIn_eq_true (h : c.IsOwned) {names : List (String × String)}
    (hnames : ∀ q ∈ c.programs, (q.library, q.name) ∈ names) (hr : r ∈ c.procedures) :
    isNamedIn names r = true := by
  obtain ⟨q, hq, hkey⟩ := h r hr
  obtain ⟨hlibrary, hname⟩ : q.library = r.library ∧ q.name = r.program := by
    simpa [ServiceProgram.key] using hkey
  refine List.any_eq_true.2 ⟨_, hnames q hq, ?_⟩
  exact StoredProcedure.belongsTo_iff.2 ⟨hlibrary.symm, hname.symm⟩

/-- **Shortening every service program is shortening everything**, up to stamps. -/
theorem IsOwned.shortenEach_eq (h : c.IsOwned) {calls : List ((String × String) × String)}
    (hcalls : ∀ q ∈ c.programs, (q.library, q.name) ∈ calls.map Prod.fst) (now stamp : String) :
    (c.shortenEach calls).map (Prod.map (·.stampAll stamp) id) =
      (c.shorten none now).map (Prod.map (·.stampAll stamp) id) := by
  rw [map_stampAll_shortenEach, shortenEach_eq_shortenWhere, ← shorten_stampAll,
    shorten_eq_shortenWhere]
  refine shortenWhere_congr fun r hr => ?_
  obtain ⟨old, hold, rfl⟩ := List.mem_map.1 hr
  -- a stamped row belongs to what the row belongs to
  have hnamed : isNamedIn (calls.map Prod.fst) old = true := h.isNamedIn_eq_true hcalls hold
  exact hnamed

end Catalog

/-! ## In a database -/

namespace Database

variable {db : Database} {p : TablePrefix} {c : Catalog}

/-- Shortens the named service programs at their times, one after the other, and adds up the counts.
The first error ends it. -/
def shortenEach (db : Database) (p : TablePrefix) (calls : List ((String × String) × String)) :
    Except CatalogError (Database × Nat) :=
  inTurn (fun db call => db.shortenDescriptions p (some call.1) call.2) db calls

/-- On a catalog that is there, shortening program by program acts on the rows. -/
theorem map_stamped_shortenEach (hc : ∀ first, db.catalog p first = .ok c)
    (calls : List ((String × String) × String)) (stamp : String) :
    (db.shortenEach p calls).map (Prod.map (·.stamped p stamp) id) =
      (c.shortenEach calls).map (Prod.map (fun c => db.store p (c.stampAll stamp)) id) := by
  unfold shortenEach Catalog.shortenEach
  induction calls generalizing db c with
  | nil => exact congrArg (fun db => Except.ok (db, 0)) (stamped_of_catalog hc stamp)
  | cons call calls ih =>
    have hone : db.shortenDescriptions p (some call.1) call.2 =
        (c.shorten (some call.1) call.2).map (Prod.map (db.store p) id) := write_of_catalog (hc _) _
    rw [inTurn_cons, inTurn_cons, hone]
    cases c.shorten (some call.1) call.2 with
    | error e => rfl
    | ok result =>
      have hstored : ∀ first, (db.store p result.1).catalog p first = .ok result.1 := fun first =>
        catalog_store_of_same (sameName_iff.2 rfl) (hc first)
      have hrest := ih hstored
      simp only [store_store] at hrest
      refine (map_snd_map_fst _ _ _).symm.trans (Eq.trans ?_ (map_snd_map_fst _ _ _))
      exact congrArg (Except.map _) hrest

/-- Up to stamps, a writing operation acts on the rows. -/
theorem map_stamped_write {first : FirstTable} (hc : db.catalog p first = .ok c)
    (operation : Catalog → Except CatalogError (Catalog × Nat)) (stamp : String) :
    (db.write p first operation).map (Prod.map (·.stamped p stamp) id) =
      (operation c).map (Prod.map (fun c => db.store p (c.stampAll stamp)) id) := by
  rw [write_of_catalog hc]
  cases operation c with
  | error e => rfl
  | ok result =>
    have hstored : ∀ first, (db.store p result.1).catalog p first = .ok result.1 := fun _ =>
      catalog_store_of_same (sameName_iff.2 rfl) hc
    refine congrArg (fun db => Except.ok (db, result.2)) ?_
    exact (stamped_of_catalog hstored stamp).trans (store_store db p _ _)

/-- The database after a pass over the covered rows: these are shortened, and everything else is
left. -/
structure IsShortened (db : Database) (p : TablePrefix) (c : Catalog)
    (filter : Option (String × String)) (now : String) (db' : Database) : Prop where
  rows : ∃ c', (∀ first, db'.catalog p first = .ok c') ∧ c'.programs = c.programs ∧
    List.Forall₂ (fun before after => if Catalog.isCovered filter before = true
      then Catalog.ShortensTo now before after else after = before) c.procedures c'.procedures
  others : ∀ d, db'.store p d = db.store p d

/-- A pass over the covered rows fails because one of them is refused, or shortens them. -/
theorem shortenDescriptions_cases (hc : ∀ first, db.catalog p first = .ok c)
    (filter : Option (String × String)) (now : String) :
    (c.HasRefused (Catalog.isCovered filter) ∧
        db.shortenDescriptions p filter now = .error (.statement .checkFailed)) ∨
      (¬ c.HasRefused (Catalog.isCovered filter) ∧
        ∃ db', db.shortenDescriptions p filter now =
            .ok (db', c.countShorter (Catalog.isCovered filter)) ∧
          IsShortened db p c filter now db') := by
  have hshort : db.shortenDescriptions p filter now =
      (c.shortenWhere (Catalog.isCovered filter) now).map (Prod.map (db.store p) id) :=
    (write_of_catalog (hc _) _).trans
      (congrArg (Except.map _) (c.shorten_eq_shortenWhere filter now))
  by_cases hrefused : c.HasRefused (Catalog.isCovered filter)
  · refine .inl ⟨hrefused, ?_⟩
    rw [hshort, Catalog.shortenWhere, if_pos hrefused]
    rfl
  · rw [Catalog.shortenWhere, if_neg hrefused] at hshort
    refine .inr ⟨hrefused, _, hshort, ⟨c.shortenRows (Catalog.isCovered filter) now,
      fun first => ?_, rfl, ?_⟩, store_store db p _⟩
    · exact catalog_store_of_same (sameName_iff.2 rfl) (hc first)
    · refine List.forall₂_map_right_iff.2 (List.forall₂_same.2 fun r _ => ?_)
      cases Catalog.isCovered filter r with
      | true => exact Catalog.shortensTo_shortenRow now r
      | false => rfl

/-- **Shortening program by program is shortening everything.** When each procedure belongs to a
stored service program, shortening all of these, in any order and at any times, fails when
shortening everything fails, and otherwise leaves the same tables up to stamps and counts the same.
Any pass fails exactly when the table refuses a covered row, which would keep an unknown source.
Otherwise it changes covered rows only, and these get the normal form of the description and keep
the source, or lose both when that is empty. -/
theorem shorten_program_by_program (hc : ∀ first, db.catalog p first = .ok c) (howned : c.IsOwned)
    (calls : List ((String × String) × String))
    (hcalls : ∀ q ∈ c.programs, (q.library, q.name) ∈ calls.map Prod.fst) (now : String) :
    (∀ stamp, (db.shortenEach p calls).map (Prod.map (·.stamped p stamp) id) =
        (db.shortenDescriptions p none now).map (Prod.map (·.stamped p stamp) id)) ∧
      ∀ filter now,
        (c.HasRefused (Catalog.isCovered filter) ∧
            db.shortenDescriptions p filter now = .error (.statement .checkFailed)) ∨
          (¬ c.HasRefused (Catalog.isCovered filter) ∧
            ∃ db', db.shortenDescriptions p filter now =
                .ok (db', c.countShorter (Catalog.isCovered filter)) ∧
              IsShortened db p c filter now db') := by
  refine ⟨fun stamp => ?_, shortenDescriptions_cases hc⟩
  have hstored : ∀ x : Except CatalogError (Catalog × Nat),
      (x.map (Prod.map (·.stampAll stamp) id)).map (Prod.map (db.store p) id) =
        x.map (Prod.map (fun c => db.store p (c.stampAll stamp)) id) := by
    intro x
    cases x <;> rfl
  rw [map_stamped_shortenEach hc, shortenDescriptions, map_stamped_write (hc _), ← hstored,
    ← hstored, howned.shortenEach_eq hcalls now stamp]

/-- Two descriptions become shorter and one is removed, in two calls with the later service program
first. -/
theorem shorten_two_programs :
    let c : Catalog := ⟨[.new "AXA" "SPV", .new "AXA" "SPW"],
      [⟨"AXA", "SPV", "A_X", some "-- x", some "block_header", "1"⟩,
        ⟨"AXA", "SPW", "B_X", some "--", some "manual", "1"⟩,
        ⟨"AXA", "SPW", "C_X", some "// y", some "inline_label", "1"⟩]⟩
    let db := (fresh .standard).store .standard c
    ∃ all each, db.shortenDescriptions .standard none "2" = .ok (all, 3) ∧
      db.shortenEach .standard [(("AXA", "SPW"), "3"), (("AXA", "SPV"), "4")] = .ok (each, 3) ∧
      each.stamped .standard "" = all.stamped .standard "" := by
  intro c db
  have hc : ∀ first, db.catalog .standard first = .ok c := by
    intro first
    cases first <;> decide +kernel
  obtain ⟨heach, hpass⟩ := shorten_program_by_program hc (by decide)
    [(("AXA", "SPW"), "3"), (("AXA", "SPV"), "4")] (by decide) "2"
  rcases hpass none "2" with ⟨hrefused, -⟩ | ⟨-, all, hall, -⟩
  · exact absurd hrefused (by decide +kernel)
  · have hcount : c.countShorter (Catalog.isCovered none) = 3 := by decide +kernel
    rw [hcount] at hall
    have hstamped := heach ""
    rw [hall] at hstamped
    -- the calls succeed as the pass over everything does
    cases hcalls : db.shortenEach .standard [(("AXA", "SPW"), "3"), (("AXA", "SPV"), "4")] with
    | error e =>
      rw [hcalls] at hstamped
      nomatch hstamped
    | ok result =>
      rw [hcalls] at hstamped
      obtain ⟨hsame, htotal⟩ := Prod.mk.inj (Except.ok.inj hstamped)
      exact ⟨all, result.1, hall, congrArg Except.ok (Prod.ext rfl htotal), hsame⟩

/-- A row of one service program has an unknown source. Shortening everything fails and changes
nothing, where shortening the other service program succeeds. -/
theorem unknown_source_stops_everything :
    let c : Catalog := ⟨[.new "AXA" "SPV", .new "AXA" "SPW"],
      [⟨"AXA", "SPV", "A_X", some "-- x", some "block_header", "1"⟩,
        ⟨"AXA", "SPW", "B_X", some "-- y", some "other", "1"⟩]⟩
    let db := (fresh .standard).store .standard c
    let other := db.shortenDescriptions .standard (some ("AXA", "SPV")) "2"
    (∀ first, db.catalog .standard first = .ok c) ∧ c.IsOwned ∧
      db.shortenDescriptions .standard none "3" = .error (.statement .checkFailed) ∧
      db.shortenDescriptions .standard (some ("AXA", "SPW")) "2" =
        .error (.statement .checkFailed) ∧
      other.map (·.2) = .ok 1 ∧
      other.map (·.1.contentOfRows .standard) =
        .ok (.ok [(["AXA", "SPV", "A_X"], some "x", some "block_header"),
          (["AXA", "SPW", "B_X"], some "-- y", some "other")]) := by
  intro c db other
  refine ⟨fun first => ?_, ?_⟩
  · cases first <;> decide +kernel
  · decide +kernel

end Database

end ProcedureCatalog
