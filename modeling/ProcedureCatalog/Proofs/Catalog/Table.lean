/-
# Tables in order

What the operations on tables do to their rows, and that they keep the rows in rising order of the
keys, so that no two rows share a key.

* `Sorted.insert`, `Sorted.map`, `Sorted.filter` : the order is kept.
* `Sorted.filter_insert`, `map_insert` : an insertion among the rows that meet a condition, and among
  changed rows.
* `Sorted.ext` : ordered rows are known by their members.
* `Sorted.countP_key_eq_one` : a key belongs to one row.
-/
import Mathlib.Data.List.Lex
import Mathlib.Data.List.Pairwise
import Mathlib.Data.List.Sort
import Mathlib.Data.String.Basic
import ProcedureCatalog.Catalog.Table

namespace ProcedureCatalog

namespace Table

variable {ρ : Type} {key : ρ → Key}

/-! ## Rows -/

/-- The rows after an insertion are the new row and rows that were there. -/
theorem mem_of_mem_insert {row r : ρ} {rows : List ρ} (h : r ∈ insert key row rows) :
    r = row ∨ r ∈ rows := by
  induction rows with
  | nil => exact .inl (by simpa [insert] using h)
  | cons first rows ih =>
    unfold insert at h
    split at h
    · exact List.mem_cons.1 h
    · split at h
      · exact (List.mem_cons.1 h).imp_right (List.mem_cons_of_mem _)
      · rcases List.mem_cons.1 h with rfl | h
        · exact .inr List.mem_cons_self
        · exact (ih h).imp_right (List.mem_cons_of_mem _)

/-- The new row is there after an insertion. -/
theorem mem_insert_self (row : ρ) (rows : List ρ) : row ∈ insert key row rows := by
  induction rows with
  | nil => simp [insert]
  | cons first rows ih =>
    unfold insert
    split
    · exact List.mem_cons_self
    · split
      · exact List.mem_cons_self
      · exact List.mem_cons_of_mem _ ih

/-- An insertion keeps the rows that have another key. -/
theorem mem_insert_of_mem {row r : ρ} {rows : List ρ} (hr : r ∈ rows) (hkey : key r ≠ key row) :
    r ∈ insert key row rows := by
  induction rows with
  | nil => simp at hr
  | cons first rows ih =>
    unfold insert
    split
    · exact List.mem_cons_of_mem _ hr
    · split
      · next heq =>
        rcases List.mem_cons.1 hr with rfl | hr
        · exact absurd heq.symm hkey
        · exact List.mem_cons_of_mem _ hr
      · rcases List.mem_cons.1 hr with rfl | hr
        · exact List.mem_cons_self
        · exact List.mem_cons_of_mem _ (ih hr)

/-- An insertion leaves the rows under a condition that no row of the new key fulfils. -/
theorem filter_insert_of_key {row : ρ} {p : ρ → Bool} (hp : ∀ r, key r = key row → p r = false)
    (rows : List ρ) : (insert key row rows).filter p = rows.filter p := by
  induction rows with
  | nil => simp [insert, hp row rfl]
  | cons first rows ih =>
    unfold insert
    split
    · rw [List.filter_cons_of_neg (by simp [hp row rfl])]
    · split
      · next heq =>
        rw [List.filter_cons_of_neg (by simp [hp row rfl]),
          List.filter_cons_of_neg (by simp [hp first heq.symm])]
      · rw [List.filter_cons, List.filter_cons, ih]

/-- Changing all rows without their keys changes the new row of an insertion as well. -/
theorem map_insert {f : ρ → ρ} (hf : ∀ r, key (f r) = key r) (row : ρ) (rows : List ρ) :
    (insert key row rows).map f = insert key (f row) (rows.map f) := by
  induction rows with
  | nil => rfl
  | cons first rows ih =>
    simp only [insert, List.map_cons, hf]
    split
    · rfl
    · split
      · rfl
      · rw [List.map_cons, ih]

/-- Changing some rows without their keys changes them among those that meet a condition on keys. -/
theorem filter_map_of_key {f : ρ → ρ} {p : ρ → Bool} (hp : ∀ r, p (f r) = p r) (rows : List ρ) :
    (rows.map f).filter p = (rows.filter p).map f := by
  have hcomp : p ∘ f = p := by
    funext r
    exact hp r
  rw [List.filter_map, hcomp]

/-- Changing some rows and changing all of them may be done in any order, when that holds of each row
and the change of all leaves alone which are the some. -/
theorem map_ite_map {u f g : ρ → ρ} {p : ρ → Prop} [DecidablePred p] (hp : ∀ r, p (u r) ↔ p r)
    (h : ∀ r, g (u r) = u (f r)) (rows : List ρ) :
    (rows.map u).map (fun r => if p r then g r else r) =
      (rows.map fun r => if p r then f r else r).map u := by
  rw [List.map_map, List.map_map]
  refine List.map_congr_left fun r _ => ?_
  show (if p (u r) then g (u r) else u r) = u (if p r then f r else r)
  by_cases hr : p r
  · rw [if_pos ((hp r).2 hr), if_pos hr, h]
  · rw [if_neg fun hu => hr ((hp r).1 hu), if_neg hr]

/-- A change that leaves the keys alone keeps a row of every key. -/
theorem exists_key_map {rows : List ρ} {f : ρ → ρ} (hf : ∀ r, key (f r) = key r) {k : Key}
    (h : ∃ r ∈ rows, key r = k) : ∃ r ∈ rows.map f, key r = k := by
  obtain ⟨r, hr, hkey⟩ := h
  exact ⟨f r, List.mem_map_of_mem hr, (hf r).trans hkey⟩

/-- A row is found exactly when one has the key. -/
theorem isSome_find?_iff {rows : List ρ} {k : Key} :
    (find? key rows k).isSome = true ↔ ∃ r ∈ rows, key r = k := by
  simp [find?]

/-- A row that is found is in the table, under the key that was sought. -/
theorem mem_of_find?_eq_some {rows : List ρ} {k : Key} {r : ρ} (h : find? key rows k = some r) :
    r ∈ rows ∧ key r = k :=
  ⟨List.mem_of_find?_eq_some h, by simpa using List.find?_some h⟩

/-- Of rows with different keys, one has a key. -/
theorem eq_of_key_eq {rows : List ρ} (h : rows.Pairwise fun a b => key a ≠ key b) {a b : ρ}
    (ha : a ∈ rows) (hb : b ∈ rows) (hkey : key a = key b) : a = b := by
  by_contra hne
  have hsymm : Std.Symm fun a b : ρ => key a ≠ key b := ⟨fun _ _ hab => hab.symm⟩
  exact List.Pairwise.forall h ha hb hne hkey

/-! ## Order -/

/-- Ordered rows have different keys. -/
theorem Sorted.pairwise_ne {rows : List ρ} (h : Sorted key rows) :
    rows.Pairwise fun a b => key a ≠ key b :=
  h.imp ne_of_lt

/-- Inserting a row keeps the order. -/
theorem Sorted.insert {rows : List ρ} (h : Sorted key rows) (row : ρ) :
    Sorted key (insert key row rows) := by
  induction rows with
  | nil => exact List.pairwise_singleton _ _
  | cons first rows ih =>
    obtain ⟨hfirst, hrows⟩ := List.pairwise_cons.1 h
    unfold Table.insert
    split
    · next hlt =>
      refine List.Pairwise.cons (fun r hr => ?_) h
      rcases List.mem_cons.1 hr with rfl | hr
      · exact hlt
      · exact lt_trans hlt (hfirst r hr)
    · next hnlt =>
      split
      · -- the new row takes the place of the one that has its key
        next heq => exact List.Pairwise.cons (fun r hr => heq ▸ hfirst r hr) hrows
      · next hne =>
        have hlt : key first < key row := lt_of_le_of_ne (not_lt.1 hnlt) (Ne.symm hne)
        refine List.Pairwise.cons (fun r hr => ?_) (ih hrows)
        rcases mem_of_mem_insert hr with rfl | hr
        · exact hlt
        · exact hfirst r hr

/-- A change that leaves the keys alone keeps the order. -/
theorem Sorted.map {rows : List ρ} (h : Sorted key rows) {f : ρ → ρ}
    (hf : ∀ r, key (f r) = key r) : Sorted key (rows.map f) := by
  refine List.pairwise_map.2 (h.imp fun {a b} hab => ?_)
  rw [hf, hf]
  exact hab

/-- Changing some rows leaves the keys alone when the change does. -/
theorem key_ite {f : ρ → ρ} (hf : ∀ r, key (f r) = key r) (p : ρ → Prop) [DecidablePred p]
    (r : ρ) : key (if p r then f r else r) = key r := by
  split
  · exact hf r
  · rfl

/-- Removing rows keeps the order. -/
theorem Sorted.filter {rows : List ρ} (h : Sorted key rows) (p : ρ → Bool) :
    Sorted key (rows.filter p) :=
  List.Pairwise.filter p h

/-- A row whose key is below all others is inserted in front. -/
theorem insert_of_forall_lt {row : ρ} {rows : List ρ} (h : ∀ r ∈ rows, key row < key r) :
    Table.insert key row rows = row :: rows := by
  cases rows with
  | nil => rfl
  | cons first rows => rw [Table.insert, if_pos (h first List.mem_cons_self)]

/-- In ordered rows, a row that meets a condition on keys is inserted among those that meet it. -/
theorem Sorted.filter_insert {row : ρ} {rows : List ρ} (h : Sorted key rows) {p : ρ → Bool}
    (hp : ∀ r, key r = key row → p r = true) :
    (Table.insert key row rows).filter p = Table.insert key row (rows.filter p) := by
  induction rows with
  | nil => simp [Table.insert, hp row rfl]
  | cons first rows ih =>
    obtain ⟨hfirst, hrows⟩ := List.pairwise_cons.1 h
    by_cases hlt : key row < key first
    · -- nothing that stays is below the new row
      have hbelow : ∀ r ∈ (first :: rows).filter p, key row < key r := by
        intro r hr
        rcases List.mem_cons.1 (List.mem_filter.1 hr).1 with rfl | hr
        · exact hlt
        · exact lt_trans hlt (hfirst r hr)
      rw [Table.insert, if_pos hlt, List.filter_cons_of_pos (hp row rfl),
        insert_of_forall_lt hbelow]
    · by_cases heq : key row = key first
      · rw [Table.insert, if_neg hlt, if_pos heq, List.filter_cons_of_pos (hp row rfl),
          List.filter_cons_of_pos (hp first heq.symm), Table.insert, if_neg hlt, if_pos heq]
      · rw [Table.insert, if_neg hlt, if_neg heq, List.filter_cons, List.filter_cons, ih hrows]
        split
        · rw [Table.insert, if_neg hlt, if_neg heq]
        · rfl

/-- Ordered rows are known by their members. -/
theorem Sorted.ext {rows rows' : List ρ} (h : Sorted key rows) (h' : Sorted key rows')
    (hmem : ∀ r, r ∈ rows ↔ r ∈ rows') : rows = rows' := by
  have hirrefl : Std.Irrefl fun a b : ρ => key a < key b := ⟨fun a => lt_irrefl (key a)⟩
  have hantisymm : Std.Antisymm fun a b : ρ => key a < key b :=
    ⟨fun a b hab hba => absurd (lt_trans hab hba) (lt_irrefl (key a))⟩
  exact List.Pairwise.eq_of_mem_iff h h' hmem

/-- A key is counted once. -/
theorem Sorted.countP_key_eq_one {rows : List ρ} (h : Sorted key rows) {a : ρ} (ha : a ∈ rows) :
    rows.countP (fun r => key r == key a) = 1 := by
  induction rows with
  | nil => simp at ha
  | cons first rows ih =>
    obtain ⟨hfirst, hrows⟩ := List.pairwise_cons.1 h
    by_cases heq : key first = key a
    · have hnone : rows.countP (fun r => key r == key a) = 0 := by
        refine List.countP_eq_zero.2 fun r hr => ?_
        have hlt := hfirst r hr
        rw [heq] at hlt
        simpa using fun e => absurd (e ▸ hlt) (lt_irrefl _)
      simp [heq, hnone]
    · rcases List.mem_cons.1 ha with rfl | ha
      · exact absurd rfl heq
      · rw [List.countP_cons_of_neg (by simpa using heq)]
        exact ih hrows ha

end Table

end ProcedureCatalog
