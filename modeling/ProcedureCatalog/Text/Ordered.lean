/-
# Ordered lists of names

Names in rising order without repetition. The order of texts is that of their code points, which
is also the order of their UTF-8 bytes.
-/

namespace ProcedureCatalog.Text

/-- The ordered list with one more name. -/
def orderedInsert (name : String) : List String → List String
  | [] => [name]
  | n :: ns =>
    if name < n then name :: n :: ns
    else if name = n then n :: ns
    else n :: orderedInsert name ns

/-- The names in order, each once. -/
def orderedSet (names : List String) : List String := names.foldr orderedInsert []

theorem mem_orderedInsert {a name : String} {ns : List String} :
    a ∈ orderedInsert name ns ↔ a = name ∨ a ∈ ns := by
  induction ns with
  | nil => simp [orderedInsert]
  | cons n ns ih =>
    simp only [orderedInsert]
    split
    · simp
    · split
      · next h => simp [h]
      · simp only [List.mem_cons, ih]
        exact or_left_comm

@[simp] theorem mem_orderedSet {a : String} {names : List String} :
    a ∈ orderedSet names ↔ a ∈ names := by
  induction names with
  | nil => simp [orderedSet]
  | cons n ns ih =>
    change a ∈ orderedInsert n (orderedSet ns) ↔ _
    rw [mem_orderedInsert, ih, List.mem_cons]

end ProcedureCatalog.Text
