/-
# Tables

A table is a list of rows in rising order of their keys. A key is a list of texts, compared part
by part.

* `insert` puts a row in its place, `update` changes the row of a key, `remove` deletes it.
* `find?` is the view: `find?_insert`, `find?_update`, `find?_remove`.
-/

namespace ProcedureCatalog.Table

/-- The key of a row. -/
abbrev Key := List String

variable {ρ : Type}

/-- The row with the given key. -/
def find? (key : ρ → Key) (rows : List ρ) (k : Key) : Option ρ :=
  rows.find? fun row => key row == k

/-- The rows with `row` in its place, instead of a row that has its key. -/
def insert (key : ρ → Key) (row : ρ) : List ρ → List ρ
  | [] => [row]
  | r :: rows =>
    if key row < key r then row :: r :: rows
    else if key row = key r then row :: rows
    else r :: insert key row rows

/-- The rows with `f` applied to those that have the given key. -/
def update (key : ρ → Key) (k : Key) (f : ρ → ρ) (rows : List ρ) : List ρ :=
  rows.map fun row => if key row = k then f row else row

/-- The rows without those that have the given key. -/
def remove (key : ρ → Key) (k : Key) (rows : List ρ) : List ρ :=
  rows.filter fun row => key row != k

/-- The rows stand in rising order of their keys. -/
def Sorted (key : ρ → Key) (rows : List ρ) : Prop :=
  rows.Pairwise fun a b => key a < key b

/-! ## The view after each operation -/

@[simp] theorem find?_nil (key : ρ → Key) (k : Key) : find? key [] k = none := rfl

theorem find?_cons (key : ρ → Key) (row : ρ) (rows : List ρ) (k : Key) :
    find? key (row :: rows) k = if key row = k then some row else find? key rows k := by
  simp only [find?, List.find?_cons]
  split <;> simp_all

theorem find?_insert (key : ρ → Key) (row : ρ) (rows : List ρ) (k : Key) :
    find? key (insert key row rows) k =
      if key row = k then some row else find? key rows k := by
  induction rows with
  | nil => simp [insert, find?_cons]
  | cons r rows ih =>
    simp only [insert]
    split
    · rw [find?_cons]
    · split
      · next h => simp only [find?_cons, ← h]; split <;> rfl
      · next h =>
        rw [find?_cons, find?_cons, ih]
        split
        · next hr =>
          rw [if_neg]
          exact fun hk => h (hk.trans hr.symm)
        · rfl

theorem find?_update (key : ρ → Key) {f : ρ → ρ} (hf : ∀ row, key (f row) = key row)
    (rows : List ρ) (k k' : Key) :
    find? key (update key k f rows) k' =
      if k' = k then (find? key rows k').map f else find? key rows k' := by
  induction rows with
  | nil => simp [update]
  | cons r rows ih =>
    have hu : update key k f (r :: rows) = (if key r = k then f r else r) :: update key k f rows :=
      rfl
    rw [hu, find?_cons, find?_cons, ih]
    by_cases h : key r = k
    · by_cases h' : k' = k
      · simp [h, h', hf]
      · have : ¬ k = k' := fun e => h' e.symm
        simp [h, h', hf, this]
    · by_cases h' : k' = k
      · subst h'; simp [h]
      · simp [h, h']

theorem find?_remove (key : ρ → Key) (rows : List ρ) (k k' : Key) :
    find? key (remove key k rows) k' = if k' = k then none else find? key rows k' := by
  induction rows with
  | nil => simp [remove]
  | cons r rows ih =>
    by_cases h : key r = k
    · have hr : remove key k (r :: rows) = remove key k rows := by simp [remove, h]
      rw [hr, ih, find?_cons]
      split
      · rfl
      · next h' =>
        rw [if_neg]
        exact fun e => h' (e.symm.trans h)
    · have hr : remove key k (r :: rows) = r :: remove key k rows := by simp [remove, h]
      rw [hr, find?_cons, find?_cons, ih]
      split
      · next h' =>
        rw [if_neg]
        exact fun e => h (h'.trans e)
      · rfl

end ProcedureCatalog.Table
