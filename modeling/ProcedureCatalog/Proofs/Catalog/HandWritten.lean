/-
# Descriptions written by hand

A description that was written by hand outlives every later step that neither addresses its row
nor removes it.

* `Operation.Spares` says which operations neither address nor remove a procedure.
* `Catalog.HoldsByHand` is the invariant: the row is there, with its text and its source.
* `handWritten_survives` : the row holds the normal form of its text after any run.
-/
import ProcedureCatalog.Proofs.Catalog.Rows
import ProcedureCatalog.Proofs.Catalog.Space
import ProcedureCatalog.Proofs.Description.NormalForm

namespace ProcedureCatalog

/-! ## Sparing a procedure -/

/-- The change neither writes the procedure by hand nor takes it out of its service program. -/
def Change.Spares (library program name : String) : Change → Prop
  | .sync l p symbols => l = library → p = program → name ∈ Text.trimmedNonempty symbols
  | .setDescription l p n _ => ¬ (l = library ∧ p = program ∧ n = name)
  | .delete l p => ¬ (l = library ∧ p = program)
  | _ => True

instance (library program name : String) :
    (ch : Change) → Decidable (ch.Spares library program name)
  | .sync l p symbols =>
    inferInstanceAs (Decidable (l = library → p = program → name ∈ Text.trimmedNonempty symbols))
  | .setDescription l p n _ =>
    inferInstanceAs (Decidable ¬ (l = library ∧ p = program ∧ n = name))
  | .delete l p => inferInstanceAs (Decidable ¬ (l = library ∧ p = program))
  | .applyDescriptions .. | .fillFromNames .. | .fillFromSource .. | .shorten .. =>
    inferInstanceAs (Decidable True)

/-- The operation neither drops nor clears the catalog, and its change spares the procedure. -/
def Operation.Spares (library program name : String) : Operation → Prop
  | .up => True
  | .down | .clear => False
  | .change ch => ch.Spares library program name

instance (library program name : String) :
    (op : Operation) → Decidable (op.Spares library program name)
  | .up => inferInstanceAs (Decidable True)
  | .down | .clear => inferInstanceAs (Decidable False)
  | .change ch => inferInstanceAs (Decidable (ch.Spares library program name))

/-! ## The invariant -/

namespace Catalog

/-- The row of a key is there, and it holds the text as written by hand. -/
def HoldsByHand (c : Catalog) (key : Table.Key) (text : String) : Prop :=
  (∃ r ∈ c.procedures, r.key = key) ∧ ∀ r ∈ c.procedures, r.key = key →
    r.description = some text ∧ r.source = some DescriptionSource.manual.identifier

/-- Writing by hand a text with a nonempty normal form makes the row hold that. -/
theorem holdsByHand_setDescription {c : Catalog} {library program name text now : String}
    (hfound : (c.setDescription library program name text now).2 = true)
    (htext : Description.normalize (Text.trimmed text) ≠ "") :
    (c.setDescription library program name text now).1.HoldsByHand [library, program, name]
      (Description.normalize (Text.trimmed text)) := by
  obtain ⟨r, hr, hkey⟩ := Table.isSome_find?_iff.1 hfound
  constructor
  · refine ⟨_, List.mem_map_of_mem hr, ?_⟩
    simp [hkey]
  · intro r' hr' hkey'
    obtain ⟨r, -, rfl⟩ := List.mem_map.1 hr'
    by_cases hrow : r.key = [library, program, name]
    · simp [hrow, writeByHand, htext, StoredProcedure.describe]
    · simp [hrow] at hkey'

end Catalog

/-- Rewriting leaves a row alone that holds a normal form as written by hand. -/
theorem StoredProcedure.Rewrites.eq_of_byHand {now : String}
    {change : Change} {r r' : StoredProcedure} {text : String} (h : r.Rewrites now change r')
    (hspares : change.Spares r.library r.program r.name) (htext : r.description = some text)
    (hsource : r.source = some DescriptionSource.manual.identifier)
    (hnormal : Description.normalize text = text) : r' = r := by
  have hmanual : r.isManual = true := by simp [StoredProcedure.isManual, hsource]
  cases h with
  | same => rfl
  | byHand hkey =>
    obtain ⟨rfl, rfl, rfl⟩ := StoredProcedure.key_eq_iff.1 hkey
    exact absurd ⟨rfl, rfl, rfl⟩ hspares
  | applied _ hauto => simp [hmanual] at hauto
  | extracted _ hauto => simp [hmanual] at hauto
  | inferred _ hauto => simp [hmanual] at hauto
  | shortened hshort =>
    -- nothing guards the row against shortening, but its text is a normal form already
    simp [Catalog.shorterText?, htext, hnormal] at hshort

namespace Catalog

/-- Adding procedures of other names keeps a row. -/
theorem mem_foldl_addProcedure_of_mem {c : Catalog} {library program now : String}
    {names : List String} {r : StoredProcedure} (hr : r ∈ c.procedures)
    (hother : ∀ name ∈ names, r.key ≠ [library, program, name]) :
    r ∈ (names.foldl (fun c name => c.addProcedure library program name now) c).procedures := by
  induction names generalizing c with
  | nil => exact hr
  | cons name names ih =>
    refine ih (Table.mem_insert_of_mem hr ?_) fun n hn => hother n (List.mem_cons_of_mem _ hn)
    exact hother name List.mem_cons_self

/-- A synchronisation keeps the rows of other service programs and of exported names. -/
theorem mem_sync_of_mem {c : Catalog} {library program now : String} {symbols : List String}
    {r : StoredProcedure} (hr : r ∈ c.procedures)
    (hkept : library = r.library → program = r.program →
      r.name ∈ Text.trimmedNonempty symbols) :
    r ∈ (c.sync library program symbols now).1.procedures := by
  rw [procedures_sync]
  refine List.mem_filter.2 ⟨mem_foldl_addProcedure_of_mem (by simpa using hr) ?_, ?_⟩
  · -- the name is an existing one, so it is not added again
    intro name hname hkey
    have habsent := (List.mem_filter.1 hname).2
    have hmem : name ∈ c.procedureNames library program := mem_procedureNames.2 ⟨r, hr, hkey⟩
    simp [hmem] at habsent
  · cases hb : r.belongsTo library program with
    | false => rfl
    | true =>
      obtain ⟨hl, hp⟩ := StoredProcedure.belongsTo_iff.1 hb
      simpa [exported] using hkept hl.symm hp.symm

end Catalog

/-! ## Changes and steps -/

/-- A change that spares a procedure keeps a row of its key. -/
theorem Change.exists_of_onCatalog {now : String} {change : Change} {c c' : Catalog}
    (h : change.onCatalog now c = .ok c') {r : StoredProcedure} (hr : r ∈ c.procedures)
    (hspares : change.Spares r.library r.program r.name) :
    ∃ r' ∈ c'.procedures, r'.key = r.key := by
  rcases onCatalog_cases h with ⟨library, program, symbols, rfl, rfl⟩ |
    ⟨library, program, rfl, rfl⟩ | ⟨f, g, hf, -, rfl⟩
  · exact ⟨r, Catalog.mem_sync_of_mem hr hspares, rfl⟩
  · refine ⟨r, List.mem_filter.2 ⟨hr, ?_⟩, rfl⟩
    cases hb : r.belongsTo library program with
    | false => rfl
    | true =>
      obtain ⟨rfl, rfl⟩ := StoredProcedure.belongsTo_iff.1 hb
      exact absurd ⟨rfl, rfl⟩ hspares
  · exact ⟨f r, List.mem_map_of_mem hr, hf r⟩

/-- A change that spares a procedure keeps what its row holds as written by hand. -/
theorem Change.holdsByHand_onCatalog {now : String} {change : Change} {c c' : Catalog}
    {library program name text : String} (h : change.onCatalog now c = .ok c')
    (hspares : change.Spares library program name)
    (hnormal : Description.normalize text = text)
    (hold : c.HoldsByHand [library, program, name] text) :
    c'.HoldsByHand [library, program, name] text := by
  obtain ⟨⟨r, hr, hkey⟩, hrows⟩ := hold
  constructor
  · obtain ⟨hl, hp, hn⟩ := StoredProcedure.key_eq_iff.1 hkey
    obtain ⟨r', hr', hkey'⟩ := exists_of_onCatalog h hr (by rw [hl, hp, hn]; exact hspares)
    exact ⟨r', hr', hkey'.trans hkey⟩
  · intro r' hr' hkey'
    rcases rewrites_of_mem_onCatalog h hr' with ⟨old, hold, hrw⟩ | ⟨_, _, _, -, -, -, habsent⟩
    · have hkeyold : old.key = [library, program, name] := hrw.key_eq.symm.trans hkey'
      obtain ⟨hl, hp, hn⟩ := StoredProcedure.key_eq_iff.1 hkeyold
      obtain ⟨htext, hsource⟩ := hrows old hold hkeyold
      have heq : r' = old :=
        hrw.eq_of_byHand (by rw [hl, hp, hn]; exact hspares) htext hsource hnormal
      exact heq ▸ ⟨htext, hsource⟩
    · exact absurd (hkey.trans hkey'.symm) (habsent r hr)

namespace Database

/-- The catalog of a prefix is there, and the row of a key holds the text as written by hand. -/
def HoldsByHand (db : Database) (p : TablePrefix) (key : Table.Key) (text : String) : Prop :=
  ∃ c, (∀ first, db.catalog p first = .ok c) ∧ c.HoldsByHand key text

/-- A step keeps what a row holds as written by hand, when it works under another prefix or its
operation spares the procedure. -/
theorem HoldsByHand.after {db : Database} {p : TablePrefix} {library program name text : String}
    {s : Step} (h : db.HoldsByHand p [library, program, name] text)
    (hnormal : Description.normalize text = text)
    (hspares : sameName s.tables.text p.text = true →
      s.operation.Spares library program name) :
    (db.after s).HoldsByHand p [library, program, name] text := by
  obtain ⟨c, hc, hold⟩ := h
  cases hname : sameName s.tables.text p.text with
  | false => exact ⟨c, fun first => (catalog_after_of_other hname).trans (hc first), hold⟩
  | true =>
    have hs := hspares hname
    have hdown : s.operation ≠ .down := fun hop => by simp [hop, Operation.Spares] at hs
    rcases catalog_after_of_same hname hdown (hc .programs) with h | ⟨hop, -⟩ |
      ⟨change, c', hop, hc', h⟩
    · exact ⟨c, fun first => catalog_eq_ok h, hold⟩
    · simp [hop, Operation.Spares] at hs
    · rw [hop] at hs
      exact ⟨c', fun first => catalog_eq_ok h,
        Change.holdsByHand_onCatalog hc' hs hnormal hold⟩

/-- **Descriptions written by hand survive.** After a text with a nonempty normal form was written
by hand, the row holds that normal form, as written by hand, after every run whose steps under
the same tables spare the procedure. -/
theorem handWritten_survives {start db : Database} {p : TablePrefix}
    {library program name text now : String} {steps : List Step}
    (hset : start.setDescription p library program name text now = .ok (db, true))
    (htext : Description.normalize (Text.trimmed text) ≠ "")
    (hspares : ∀ s ∈ steps, sameName s.tables.text p.text = true →
      s.operation.Spares library program name) :
    (db.run steps).HoldsByHand p [library, program, name]
      (Description.normalize (Text.trimmed text)) := by
  refine run_invariant (I := fun db => db.HoldsByHand p [library, program, name]
    (Description.normalize (Text.trimmed text))) ?_ fun s hs db h =>
      h.after (Description.normalize_normalize _) (hspares s hs)
  obtain ⟨c, c', hc, hresult, rfl⟩ := write_eq_ok_iff.1 hset
  obtain ⟨rfl, hfound⟩ := Prod.mk.inj (Except.ok.inj hresult)
  have hself : sameName p.text p.text = true := sameName_iff.2 rfl
  exact ⟨_, fun first => catalog_store_of_same hself hc,
    Catalog.holdsByHand_setDescription hfound htext⟩

/-- Every kind of sparing step, after a decorated text was written by hand. -/
theorem handWritten_survives_each_kind :
    ∃ db, (empty.run [⟨.standard, .up, ""⟩,
        ⟨.standard, .change (.sync "AXA" "SPV" ["A_X", "B_X"]), ""⟩]).setDescription .standard
          "AXA" "SPV" "A_X" " -- by hand " "" = .ok (db, true) ∧
      (db.run [⟨.standard, .up, ""⟩,
        ⟨.standard, .change (.sync "AXA" "SPV" [" A_X "]), ""⟩,
        ⟨.standard, .change (.sync "AXA" "SPW" ["B_X"]), ""⟩,
        ⟨.standard, .change (.applyDescriptions "AXA" "SPV"
          (extract (.ofList ["A_X"]) Strategy.all "A_X: other")), ""⟩,
        ⟨.standard, .change (.fillFromNames "AXA" "SPV" true), ""⟩,
        ⟨.standard, .change (.fillFromSource "AXA" "SPV" "A_X: other" true), ""⟩,
        ⟨.standard, .change (.shorten none), ""⟩,
        ⟨.standard, .change (.setDescription "AXA" "SPW" "B_X" "other"), ""⟩,
        ⟨.standard, .change (.delete "AXA" "SPW"), ""⟩]).HoldsByHand .standard
          ["AXA", "SPV", "A_X"] (Description.normalize (Text.trimmed " -- by hand ")) := by
  obtain ⟨⟨db, found⟩, hset, hfound⟩ : ∃ result, (empty.run [⟨.standard, .up, ""⟩,
      ⟨.standard, .change (.sync "AXA" "SPV" ["A_X", "B_X"]), ""⟩]).setDescription .standard
        "AXA" "SPV" "A_X" " -- by hand " "" = .ok result ∧ result.2 = true :=
    exists_of_map_eq_ok (by decide +kernel)
  obtain rfl : found = true := hfound
  exact ⟨db, hset, handWritten_survives hset (by decide +kernel) (by decide +kernel)⟩

end Database

end ProcedureCatalog
