/-
# The names of declared procedures

A declaration gives a procedure by its own name or by the end of it, the part behind an underscore.
The first name in the order of the expected ones is meant, unless a name is the identifier itself.

* `Means` : an identifier may stand for a name.
* `Resolves` : the name that an identifier stands for.
* `resolve?_eq_some_iff`, `resolve?_eq_none_iff` : the name that is found, and when there is none.
-/
import ProcedureCatalog.Proofs.Extraction.KeptNames

namespace ProcedureCatalog.ExpectedNames

open Text

variable {expected : ExpectedNames} {declared : List Char}

/-! ## Identifiers and names -/

/-- The name is the identifier, up to the case of ASCII letters. -/
def Is (declared : List Char) (name : String) : Prop := upper name.toList = upper declared

/-- The name ends with an underscore and the identifier, up to the case of ASCII letters. -/
def EndsIn (declared : List Char) (name : String) : Prop :=
  ∃ module, upper name.toList = module ++ '_' :: upper declared

/-- The identifier is the name or the end of it. -/
def Means (declared : List Char) (name : String) : Prop := Is declared name ∨ EndsIn declared name

/-- The identifier resolves to the name: the expected name that it is, or else the first expected
name that ends in it. -/
inductive Resolves (expected : ExpectedNames) (declared : List Char) : String → Prop
  | whole {name : String} (hmem : name ∈ expected.names) (his : Is declared name) :
      Resolves expected declared name
  | ending {name : String} {earlier later : List String}
      (hnames : expected.names = earlier ++ name :: later)
      (hnone : ∀ other ∈ expected.names, ¬ Is declared other) (hends : EndsIn declared name)
      (hfirst : ∀ other ∈ earlier, ¬ EndsIn declared other) : Resolves expected declared name

instance (declared : List Char) (name : String) : Decidable (Is declared name) :=
  inferInstanceAs (Decidable (_ = _))

theorem hasSuffix_iff {name : String} :
    hasSuffix (upper declared) name = true ↔ EndsIn declared name := by
  rw [hasSuffix, List.isSuffixOf_iff_suffix]
  constructor
  · rintro ⟨module, h⟩
    exact ⟨module, h.symm⟩
  · rintro ⟨module, h⟩
    exact ⟨module, h.symm⟩

instance (declared : List Char) (name : String) : Decidable (EndsIn declared name) :=
  decidable_of_iff _ hasSuffix_iff

instance (declared : List Char) (name : String) : Decidable (Means declared name) :=
  inferInstanceAs (Decidable (_ ∨ _))

/-! ## Resolution -/

/-- An identifier resolves alike in any case of its ASCII letters. -/
theorem resolve?_congr {other : List Char} (h : upper declared = upper other) :
    expected.resolve? declared = expected.resolve? other := by
  rw [resolve?, resolve?, upper_trim, upper_trim, h]

/-- An identifier is looked up as a name first, and then as the end of one. -/
theorem resolve?_eq (hne : declared ≠ []) (htrim : trim declared = declared) :
    expected.resolve? declared = (expected.names.find? fun name => decide (Is declared name)).or
      (expected.names.find? fun name => decide (EndsIn declared name)) := by
  have hsame : (fun name => sameName name (.ofList (upper declared))) =
      fun name => decide (Is declared name) := by
    funext name
    rw [Bool.eq_iff_iff, sameName_iff, String.toList_ofList, upper_upper, decide_eq_true_iff]
    rfl
  have hsuffix : hasSuffix (upper declared) = fun name => decide (EndsIn declared name) := by
    funext name
    rw [Bool.eq_iff_iff, hasSuffix_iff, decide_eq_true_iff]
  obtain ⟨c, cs, hupper⟩ : ∃ c cs, upper declared = c :: cs := by
    apply List.exists_cons_of_ne_nil
    simpa [upper] using hne
  rw [← hsame, ← hsuffix, resolve?, htrim, hupper]
  dsimp only
  rw [find?]
  cases expected.names.find? fun name => sameName name (.ofList (c :: cs)) <;> rfl

/-- The name that is found is the one that the identifier resolves to. -/
theorem resolve?_eq_some_iff (hne : declared ≠ []) (htrim : trim declared = declared)
    {name : String} : expected.resolve? declared = some name ↔ Resolves expected declared name := by
  rw [resolve?_eq hne htrim]
  constructor
  · intro h
    cases hwhole : expected.names.find? fun name => decide (Is declared name) with
    | some found =>
      rw [hwhole] at h
      obtain rfl := Option.some.inj h
      have his := List.find?_some hwhole
      exact .whole (List.mem_of_find?_eq_some hwhole) (of_decide_eq_true his)
    | none =>
      rw [hwhole, Option.none_or, List.find?_eq_some_iff_append] at h
      obtain ⟨hends, earlier, later, hnames, hfirst⟩ := h
      refine .ending hnames ?_ (of_decide_eq_true hends) ?_
      · intro other hother
        simpa using List.find?_eq_none.1 hwhole other hother
      · intro other hother
        simpa using hfirst other hother
  · intro h
    cases h with
    | whole hmem his =>
      have hsome : (expected.names.find? fun name => decide (Is declared name)).isSome = true :=
        List.find?_isSome.2 ⟨name, hmem, decide_eq_true his⟩
      obtain ⟨found, hfound⟩ := Option.isSome_iff_exists.1 hsome
      have hfoundIs : Is declared found := by simpa using List.find?_some hfound
      -- no other expected name is the identifier
      have hsame : sameName found name = true := sameName_iff.2 (hfoundIs.trans his.symm)
      rw [hfound, eq_of_sameName (List.mem_of_find?_eq_some hfound) hmem hsame]
      rfl
    | ending hnames hnone hends hfirst =>
      have hwhole : (expected.names.find? fun name => decide (Is declared name)) = none := by
        rw [List.find?_eq_none]
        intro other hother
        simpa using hnone other hother
      rw [hwhole, Option.none_or, List.find?_eq_some_iff_append]
      refine ⟨decide_eq_true hends, _, _, hnames, ?_⟩
      intro other hother
      simpa using hfirst other hother

/-- No name is found exactly when the identifier stands for none. -/
theorem resolve?_eq_none_iff (hne : declared ≠ []) (htrim : trim declared = declared) :
    expected.resolve? declared = none ↔ ∀ name ∈ expected.names, ¬ Means declared name := by
  simp only [resolve?_eq hne htrim, Option.or_eq_none_iff, List.find?_eq_none, decide_eq_true_iff,
    Means, not_or, forall_and]

end ProcedureCatalog.ExpectedNames
