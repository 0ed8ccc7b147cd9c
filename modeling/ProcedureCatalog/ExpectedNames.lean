/-
# Expected names

The exported procedures that descriptions are sought for. Names keep the spelling they came with,
are trimmed, are never empty, and no two of them differ only in the case of ASCII letters.

* `ofList` keeps the first spelling of each name.
* `find?` gives the stored spelling of a name.
* `resolve?` also finds the name `MODULE_NAME` of a procedure that is declared as `NAME`.
-/
import ProcedureCatalog.Text.Ascii
import ProcedureCatalog.Text.Blank

namespace ProcedureCatalog

open Text

/-! ## The type -/

/-- The two names differ at most in the case of ASCII letters. -/
def sameName (a b : String) : Bool := sameLetters a.toList b.toList

/-- Trimmed nonempty names, pairwise different up to the case of ASCII letters. -/
structure ExpectedNames where
  names : List String
  trimmed_eq : ∀ n ∈ names, trimmed n = n
  ne_empty : ∀ n ∈ names, n ≠ ""
  distinct : names.Pairwise fun a b => sameName a b = false

namespace ExpectedNames

/-! ## Building -/

/-- The names without those that repeat an earlier one up to case. -/
def dropRepeats : List String → List String
  | [] => []
  | n :: ns => n :: (dropRepeats ns).filter fun m => !sameName n m

theorem mem_of_mem_dropRepeats {n : String} : {ns : List String} → n ∈ dropRepeats ns → n ∈ ns
  | [], h => h
  | m :: ns, h => by
    rcases List.mem_cons.1 h with h | h
    · exact h ▸ List.mem_cons_self
    · exact List.mem_cons_of_mem _ (mem_of_mem_dropRepeats (List.mem_filter.1 h).1)

theorem pairwise_dropRepeats : (ns : List String) →
    (dropRepeats ns).Pairwise fun a b => sameName a b = false
  | [] => List.Pairwise.nil
  | n :: ns => by
    refine List.Pairwise.cons (fun m hm => ?_) ((pairwise_dropRepeats ns).filter _)
    simpa using (List.mem_filter.1 hm).2

/-- The trimmed nonempty names, each in the first spelling that occurs. -/
def ofList (names : List String) : ExpectedNames where
  names := dropRepeats (trimmedNonempty names)
  trimmed_eq n hn := by
    obtain ⟨m, -, rfl⟩ := List.mem_map.1 (List.mem_filter.1 (mem_of_mem_dropRepeats hn)).1
    exact trimmed_trimmed m
  ne_empty n hn := by
    simpa using (List.mem_filter.1 (mem_of_mem_dropRepeats hn)).2
  distinct := pairwise_dropRepeats _

/-! ## Looking up -/

/-- The stored spelling of a name. -/
def find? (expected : ExpectedNames) (name : String) : Option String :=
  expected.names.find? fun candidate => sameName candidate name

/-- The name is expected. -/
def contains (expected : ExpectedNames) (name : String) : Bool := (expected.find? name).isSome

/-- The name, in capitals, ends with an underscore and then the capitals `declared`. -/
def hasSuffix (declared : List Char) (name : String) : Bool :=
  ('_' :: declared).isSuffixOf (upper name.toList)

/-- The expected name of a procedure declared as `declared`: the name itself, or else the first
name that ends with an underscore and the declared one. -/
def resolve? (expected : ExpectedNames) (declared : List Char) : Option String :=
  match upper (trim declared) with
  | [] => none
  | c :: cs =>
    match expected.find? (String.ofList (c :: cs)) with
    | some name => some name
    | none => expected.names.find? (hasSuffix (c :: cs))

end ExpectedNames

end ProcedureCatalog
