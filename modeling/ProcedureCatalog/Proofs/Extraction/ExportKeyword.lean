/-
# The keyword of an exported procedure

What an exported declaration is read from is the text before its first free-standing keyword
`EXPORT`. A word boundary needs a character that belongs to no word, so the search for the keyword
starts afresh behind each such character.

* `IsExport` : a part of a text is the keyword.
* `beforeExport_eq_some_iff` : the search finds the first keyword.
* `beforeExport_append_separators` : the search in two texts with separators between them.
-/
import ProcedureCatalog.Declaration
import ProcedureCatalog.Proofs.Text.Occurrence

namespace ProcedureCatalog.Declaration

open Text

/-! ## The keyword -/

/-- The part is the keyword in any case, between two word boundaries. -/
structure IsExport {cs : List Char} (o : Occurrence cs) : Prop where
  spelled : upper o.text = exportKeyword
  bounded : o.IsBounded

/-- The text starts what is before its first keyword. -/
def IsBeforeExport (head cs : List Char) : Prop :=
  ∃ o : Occurrence cs, IsExport o ∧ o.before = head ∧
    ∀ other : Occurrence cs, IsExport other → head.length ≤ other.before.length

section Spelled

variable {text : List Char} (h : upper text = exportKeyword)

include h

theorem ne_nil_of_upper_eq : text ≠ [] := by
  rintro rfl
  simp [exportKeyword] at h

/-- The keyword is made of word characters. -/
theorem isWord_of_mem_of_upper_eq {c : Char} (hc : c ∈ text) : isWord c = true := by
  have hletters : ∀ d ∈ exportKeyword, isWord d = true := List.all_eq_true.1 (by decide)
  rw [← isWord_toUpper]
  apply hletters
  rw [← h]
  exact List.mem_map_of_mem hc

theorem getLast?_isWord_of_upper_eq : text.getLast?.any isWord = true := by
  rw [List.getLast?_eq_some_getLast (ne_nil_of_upper_eq h)]
  exact isWord_of_mem_of_upper_eq h (List.getLast_mem _)

end Spelled

/-- A text folds like the keyword exactly when it is the keyword in any case. -/
theorem map_fold_eq_exportKeyword_iff {text : List Char} :
    text.map fold = exportKeyword.map fold ↔ upper text = exportKeyword :=
  map_fold_eq_literal_iff (by decide) (List.forall_iff_forall_mem.1 (by decide))
    (List.forall_iff_forall_mem.1 (by decide +kernel))

/-- A keyword starts a text exactly when it is the first part of it, between word boundaries. -/
theorem exportStarts_iff {before : Option Char} {cs : List Char} :
    exportStarts before cs = true ↔ ∃ text after, cs = text ++ after ∧
      upper text = exportKeyword ∧ isBoundary before text.head? = true ∧
        isBoundary text.getLast? after.head? = true := by
  -- the last letter of the keyword is a word character, whatever its case
  have hlast : ∀ {text : List Char}, upper text = exportKeyword → ∀ after : Option Char,
      isBoundary (some 'T') after = isBoundary text.getLast? after := by
    intro text htext after
    rw [isBoundary_of_isWord (getLast?_isWord_of_upper_eq htext), isBoundary_of_isWord (by decide)]
  unfold exportStarts
  constructor
  · intro h
    split at h
    · next after hread =>
      obtain ⟨text, rfl, hfold⟩ := dropFolded?_eq_some_iff.1 hread
      have htext := map_fold_eq_exportKeyword_iff.1 hfold
      rw [List.head?_append_of_ne_nil _ (ne_nil_of_upper_eq htext), hlast htext,
        Bool.and_eq_true] at h
      exact ⟨text, after, rfl, htext, h.1, h.2⟩
    · simp at h
  · rintro ⟨text, after, rfl, htext, hfirst, hend⟩
    have hread : dropFolded? exportKeyword (text ++ after) = some after :=
      dropFolded?_eq_some_iff.2 ⟨text, rfl, map_fold_eq_exportKeyword_iff.2 htext⟩
    rw [hread]
    dsimp only
    rw [List.head?_append_of_ne_nil _ (ne_nil_of_upper_eq htext), hlast htext, hfirst, hend]
    rfl

/-! ## The first keyword -/

/-- The search stops at the first place where a keyword starts. -/
theorem beforeExportFrom_eq_some_iff {before : Option Char} {cs head : List Char} :
    beforeExportFrom before cs = some head ↔
      (∃ rest, cs = head ++ rest ∧ exportStarts (head.getLast?.or before) rest = true) ∧
        ∀ front rest, cs = front ++ rest → exportStarts (front.getLast?.or before) rest = true →
          head.length ≤ front.length := by
  induction cs generalizing before head with
  | nil =>
    simp only [beforeExportFrom, reduceCtorEq, false_iff, not_and]
    rintro ⟨rest, hsplit, hstarts⟩
    obtain ⟨-, rfl⟩ := List.append_eq_nil_iff.1 hsplit.symm
    simp [exportStarts, dropFolded?, exportKeyword] at hstarts
  | cons c cs ih =>
    rw [beforeExportFrom]
    split
    · next hstarts =>
      -- a keyword starts right here
      constructor
      · intro h
        obtain rfl := Option.some.inj h
        exact ⟨⟨c :: cs, rfl, hstarts⟩, fun front rest _ _ => Nat.zero_le _⟩
      · rintro ⟨-, hfirst⟩
        have hnil := hfirst [] (c :: cs) rfl hstarts
        rw [List.length_eq_zero_iff.1 (Nat.le_zero.1 hnil)]
    · next hstarts =>
      rw [Option.map_eq_some_iff]
      constructor
      · rintro ⟨head', hhead, rfl⟩
        obtain ⟨⟨rest, hsplit, hrest⟩, hfirst⟩ := ih.1 hhead
        refine ⟨⟨rest, by rw [hsplit, List.cons_append], by rwa [getLast?_cons_or]⟩, ?_⟩
        intro front more hmore hmorestarts
        cases front with
        | nil =>
          rw [List.nil_append] at hmore
          rw [hmore] at hstarts
          exact absurd hmorestarts hstarts
        | cons d front =>
          obtain ⟨rfl, hcs⟩ := List.cons.inj hmore
          rw [getLast?_cons_or] at hmorestarts
          exact Nat.succ_le_succ (hfirst front more hcs hmorestarts)
      · rintro ⟨⟨rest, hsplit, hrest⟩, hfirst⟩
        cases head with
        | nil =>
          rw [List.nil_append] at hsplit
          rw [hsplit] at hstarts
          exact absurd hrest hstarts
        | cons d head =>
          obtain ⟨rfl, hcs⟩ := List.cons.inj hsplit
          rw [getLast?_cons_or] at hrest
          refine ⟨head, ih.2 ⟨⟨rest, hcs, hrest⟩, ?_⟩, rfl⟩
          intro front more hmore hmorestarts
          rw [← getLast?_cons_or _ _ before] at hmorestarts
          exact Nat.le_of_succ_le_succ
            (hfirst (c :: front) more (by rw [hmore, List.cons_append]) hmorestarts)

/-- A keyword starts behind the front of a text exactly when it is a part of the text there. -/
theorem exportStarts_getLast?_iff {cs front rest : List Char} (hcs : cs = front ++ rest) :
    exportStarts (front.getLast?.or none) rest = true ↔
      ∃ o : Occurrence cs, IsExport o ∧ o.before = front := by
  rw [Option.or_none, exportStarts_iff]
  constructor
  · rintro ⟨text, after, rfl, htext, hfirst, hlast⟩
    exact ⟨⟨front, text, after, hcs.symm⟩, ⟨htext, hfirst, hlast⟩, rfl⟩
  · rintro ⟨o, ho, hbefore⟩
    have hjoined : front ++ (o.text ++ o.after) = front ++ rest := by
      rw [← hbefore, o.joined, hbefore, hcs]
    have hfirst := ho.bounded.first
    rw [hbefore] at hfirst
    exact ⟨o.text, o.after, (List.append_cancel_left hjoined).symm, ho.spelled, hfirst,
      ho.bounded.last⟩

/-- The search finds the text before the first keyword. -/
theorem beforeExport_eq_some_iff {cs head : List Char} :
    beforeExport cs = some head ↔ IsBeforeExport head cs := by
  rw [beforeExport, beforeExportFrom_eq_some_iff]
  constructor
  · rintro ⟨⟨rest, hcs, hstarts⟩, hfirst⟩
    obtain ⟨o, ho, hbefore⟩ := (exportStarts_getLast?_iff hcs).1 hstarts
    refine ⟨o, ho, hbefore, fun other hother => ?_⟩
    apply hfirst other.before (other.text ++ other.after) other.joined.symm
    rw [exportStarts_getLast?_iff other.joined.symm]
    exact ⟨other, hother, rfl⟩
  · rintro ⟨o, ho, rfl, hfirst⟩
    refine ⟨⟨o.text ++ o.after, o.joined.symm, ?_⟩, ?_⟩
    · rw [exportStarts_getLast?_iff o.joined.symm]
      exact ⟨o, ho, rfl⟩
    · intro front rest hsplit hstarts
      rw [exportStarts_getLast?_iff hsplit] at hstarts
      obtain ⟨other, hother, rfl⟩ := hstarts
      exact hfirst other hother

/-- Without a keyword nothing is found. -/
theorem beforeExport_eq_none {cs : List Char} (h : ∀ o : Occurrence cs, ¬ IsExport o) :
    beforeExport cs = none := by
  rw [Option.eq_none_iff_forall_ne_some]
  intro head hhead
  obtain ⟨o, ho, -⟩ := beforeExport_eq_some_iff.1 hhead
  exact h o ho

/-- A text without the letters of the keyword in a row has none. -/
theorem beforeExport_eq_none_of_not_isInfix {cs : List Char} (h : ¬ exportKeyword <:+: upper cs) :
    beforeExport cs = none := by
  apply beforeExport_eq_none
  intro o ho
  apply h
  rw [← ho.spelled]
  exact o.isInfix_upper

/-- A keyword at the start of the text is found. -/
theorem beforeExport_append {text after : List Char} (h : upper text = exportKeyword)
    (hafter : after.head?.any isWord = false) : beforeExport (text ++ after) = some [] := by
  have hfirst : isBoundary none text.head? = true := by
    obtain ⟨c, rest, rfl⟩ := List.exists_cons_of_ne_nil (ne_nil_of_upper_eq h)
    have hc := isWord_of_mem_of_upper_eq h (c := c) List.mem_cons_self
    simp [isBoundary, hc]
  have hlast : isBoundary text.getLast? after.head? = true := by
    rw [isBoundary_of_isWord (getLast?_isWord_of_upper_eq h), hafter]
    rfl
  exact beforeExport_eq_some_iff.2
    ⟨⟨[], text, after, rfl⟩, ⟨h, hfirst, hlast⟩, rfl, fun _ _ => Nat.zero_le _⟩

/-! ## Separators -/

section Separator

variable {sep : Char} (hsep : isWord sep = false)

include hsep

/-- A keyword before a separator starts as if the text ended there. -/
theorem exportStarts_append_separator (before : Option Char) (front rest : List Char) :
    exportStarts before (front ++ sep :: rest) = exportStarts before front := by
  rw [Bool.eq_iff_iff, exportStarts_iff, exportStarts_iff]
  constructor
  · rintro ⟨text, after, hsplit, htext, hfirst, hlast⟩
    have hnot : sep ∉ text := by
      intro hmem
      rw [isWord_of_mem_of_upper_eq htext hmem] at hsep
      exact Bool.noConfusion hsep
    obtain ⟨after', rfl, rfl⟩ := exists_of_append_separator hsplit hnot
    rw [isBoundary_head?_append_cons hsep] at hlast
    exact ⟨text, after', rfl, htext, hfirst, hlast⟩
  · rintro ⟨text, after, rfl, htext, hfirst, hlast⟩
    refine ⟨text, after ++ sep :: rest, List.append_assoc _ _ _, htext, hfirst, ?_⟩
    rwa [isBoundary_head?_append_cons hsep]

/-- Behind a separator the search starts afresh. -/
theorem beforeExportFrom_some (cs : List Char) :
    beforeExportFrom (some sep) cs = beforeExport cs := by
  have hstarts : exportStarts (some sep) cs = exportStarts none cs := by
    have hboundary : isBoundary (some sep) = isBoundary none := by
      funext after
      rw [isBoundary, isBoundary, Option.any_some, hsep]
      rfl
    rw [exportStarts, exportStarts, hboundary]
  cases cs with
  | nil => rfl
  | cons c cs => rw [beforeExport, beforeExportFrom, beforeExportFrom, hstarts]

/-- The first keyword is that of the text before a separator, or else that of the text behind. -/
theorem beforeExportFrom_append_separator (before : Option Char) (front rest : List Char) :
    beforeExportFrom before (front ++ sep :: rest) = (beforeExportFrom before front).or
      ((beforeExport rest).map fun head => front ++ sep :: head) := by
  induction front generalizing before with
  | nil =>
    have hstarts := exportStarts_append_separator hsep before [] rest
    rw [List.nil_append] at hstarts ⊢
    have hnone : ¬ exportStarts before (sep :: rest) = true := by
      rw [hstarts]
      exact Bool.false_ne_true
    rw [beforeExportFrom, beforeExportFrom, if_neg hnone, beforeExportFrom_some hsep]
    rfl
  | cons c front ih =>
    have hstarts := exportStarts_append_separator hsep before (c :: front) rest
    rw [List.cons_append] at hstarts ⊢
    rw [beforeExportFrom, beforeExportFrom, hstarts, ih]
    split
    · rfl
    · rw [Option.map_or, Option.map_map]
      rfl

end Separator

/-- Separators at the start of a text do not matter. -/
theorem beforeExport_separators_append {seps : List Char} (h : ∀ c ∈ seps, isWord c = false)
    (rest : List Char) : beforeExport (seps ++ rest) = (beforeExport rest).map (seps ++ ·) := by
  induction seps with
  | nil => simp
  | cons sep seps ih =>
    rw [List.forall_mem_cons] at h
    have hstart := beforeExportFrom_append_separator h.1 none [] (seps ++ rest)
    rw [List.nil_append] at hstart
    rw [List.cons_append, beforeExport, hstart, ih h.2, Option.map_map]
    rfl

/-- The first keyword is that of the text before some separators, or else that of the text behind
them. -/
theorem beforeExport_append_separators {seps : List Char} (hne : seps ≠ [])
    (h : ∀ c ∈ seps, isWord c = false) (front rest : List Char) :
    beforeExport (front ++ (seps ++ rest)) = (beforeExport front).or
      ((beforeExport rest).map fun head => front ++ (seps ++ head)) := by
  obtain ⟨sep, seps, rfl⟩ := List.exists_cons_of_ne_nil hne
  rw [List.forall_mem_cons] at h
  rw [List.cons_append, beforeExport, beforeExportFrom_append_separator h.1,
    beforeExport_separators_append h.2, Option.map_map]
  rfl

end ProcedureCatalog.Declaration
