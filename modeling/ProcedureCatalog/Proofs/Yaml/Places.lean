/-
# Places behind texts

Where a cursor stands behind a text that it has gone over.

* `skip_append`, `span_append` : a cursor goes over a text, or over the longest run at its start.
* `column_behind` : the column behind a text on one line.
* `column_behind_spaces` : the column behind spaces at the start of a line.
-/
import ProcedureCatalog.Proofs.Text.Trimming
import ProcedureCatalog.Yaml.Printing

namespace ProcedureCatalog.Yaml

/-! ## Classes of characters -/

theorem isGap_of_isBreak {c : Char} (h : isBreak c = true) : isGap c = true := by
  rw [isGap, h, Bool.or_true]

theorem isBreak_eq_false_of_isGap_eq_false {c : Char} (h : isGap c = false) :
    isBreak c = false := by
  rw [isGap, Bool.or_eq_false_iff] at h
  exact h.2

theorem isBlank_eq_false_of_isGap_eq_false {c : Char} (h : isGap c = false) :
    isBlank c = false := by
  rw [isGap, Bool.or_eq_false_iff] at h
  exact h.1

/-- No gap starts the text. -/
def StartsWord (cs : List Char) : Prop := ∀ c ∈ cs.head?, isGap c = false

/-- No character of the text ends a line. -/
def OneLine (cs : List Char) : Prop := ∀ c ∈ cs, isBreak c = false

namespace Position

/-- The place behind a text. -/
def behind (p : Position) (cs : List Char) : Position := cs.foldl past p

@[simp] theorem behind_nil (p : Position) : p.behind [] = p := rfl

@[simp] theorem behind_cons (p : Position) (c : Char) (cs : List Char) :
    p.behind (c :: cs) = (p.past c).behind cs := rfl

theorem behind_append (p : Position) (cs ds : List Char) :
    p.behind (cs ++ ds) = (p.behind cs).behind ds :=
  List.foldl_append

/-- Behind a text on one line: on this line, by so many characters further. -/
theorem behind_of_oneLine {cs : List Char} (h : OneLine cs) (p : Position) :
    p.behind cs = ⟨p.index + cs.length, p.line, p.column + cs.length⟩ := by
  induction cs generalizing p with
  | nil => rfl
  | cons c cs ih =>
    have hc : isBreak c = false := h c List.mem_cons_self
    rw [behind_cons, ih fun d hd => h d (List.mem_cons_of_mem c hd), past, hc,
      if_neg Bool.false_ne_true]
    simp only [List.length_cons, Nat.add_assoc, Nat.add_comm 1]

theorem column_behind {cs : List Char} (h : OneLine cs) (p : Position) :
    (p.behind cs).column = p.column + cs.length := by
  rw [behind_of_oneLine h]

/-- Behind a character that ends a line, the next line starts. -/
theorem column_past_of_isBreak {c : Char} (h : isBreak c = true) (p : Position) :
    (p.past c).column = 0 := by
  rw [past, if_pos h]

theorem column_past {c : Char} (h : isBreak c = false) (p : Position) :
    (p.past c).column = p.column + 1 := by
  rw [past, h, if_neg Bool.false_ne_true]

end Position

theorem oneLine_nil : OneLine [] := by simp [OneLine]

theorem oneLine_cons {c : Char} {cs : List Char} :
    OneLine (c :: cs) ↔ isBreak c = false ∧ OneLine cs :=
  List.forall_mem_cons

theorem oneLine_append {cs ds : List Char} : OneLine (cs ++ ds) ↔ OneLine cs ∧ OneLine ds :=
  List.forall_mem_append

theorem length_spaces (n : Nat) : (spaces n).length = n := List.length_replicate

theorem eq_space_of_mem_spaces {n : Nat} {c : Char} (h : c ∈ spaces n) : c = ' ' :=
  List.eq_of_mem_replicate h

/-- Spaces stay on their line. -/
theorem oneLine_of_forall_eq_space {cs : List Char} (h : ∀ c ∈ cs, c = ' ') : OneLine cs := by
  intro c hc
  rw [h c hc]
  decide

theorem oneLine_spaces (n : Nat) : OneLine (spaces n) :=
  oneLine_of_forall_eq_space fun _ => eq_space_of_mem_spaces

/-- Spaces are a gap. -/
theorem isGap_of_forall_eq_space {cs : List Char} (h : ∀ c ∈ cs, c = ' ') :
    ∀ c ∈ cs, isGap c = true := by
  intro c hc
  rw [h c hc]
  decide

namespace Position

/-- Behind ends of lines and then spaces, the column is the number of spaces. -/
theorem column_behind_spaces {breaks : List Char} (h : ∀ c ∈ breaks, isBreak c = true)
    {p : Position} (hp : p.column = 0 ∨ breaks ≠ []) (n : Nat) :
    (p.behind (breaks ++ spaces n)).column = n := by
  have hbreaks : (p.behind breaks).column = 0 := by
    rcases List.eq_nil_or_concat breaks with rfl | ⟨before, last, rfl⟩
    · simpa using hp
    · rw [List.concat_eq_append] at h ⊢
      rw [behind_append]
      exact column_past_of_isBreak (h last (by simp)) _
  rw [behind_append, column_behind (oneLine_spaces n), hbreaks, length_spaces, Nat.zero_add]

/-- The same behind a line. -/
theorem column_behind_line (line : List Char) {b : Char} (hb : isBreak b = true)
    {breaks : List Char} (hbreaks : ∀ c ∈ breaks, isBreak c = true) (n : Nat) (p : Position) :
    (p.behind (line ++ b :: (breaks ++ spaces n))).column = n := by
  rw [behind_append, ← List.cons_append]
  exact column_behind_spaces (List.forall_mem_cons.2 ⟨hb, hbreaks⟩)
    (.inr (List.cons_ne_nil b breaks)) n

end Position

namespace Cursor

/-- A cursor goes over a text. -/
theorem skip_append (cs rest : List Char) (p : Position) :
    (Cursor.mk (cs ++ rest) p).skip cs.length = ⟨rest, p.behind cs⟩ := by
  induction cs generalizing p with
  | nil => rfl
  | cons c cs ih => exact ih _

/-- A cursor goes over the longest run at the start of a text. -/
theorem span_append {q : Char → Bool} {cs rest : List Char} (hcs : ∀ c ∈ cs, q c = true)
    (hrest : ∀ c ∈ rest.head?, q c = false) (p : Position) :
    (Cursor.mk (cs ++ rest) p).span q = (cs, ⟨rest, p.behind cs⟩) := by
  rw [span, Text.takeWhile_append_eq hcs hrest, skip_append]

/-- Away from the start of a line there is no mark of a document. -/
theorem atDocumentMark_eq_false {c : Cursor} (h : c.column ≠ 0) : c.atDocumentMark = false := by
  rw [atDocumentMark, beq_eq_false_iff_ne.2 h]
  rfl

end Cursor

end ProcedureCatalog.Yaml
