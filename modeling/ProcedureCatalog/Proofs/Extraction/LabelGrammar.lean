/-
# The form of labels

A label is a name in any case, a gap of blanks with at most one empty pair of parentheses in it, a
colon, and then its text. What follows the name tells where the name ends, so a text opens labels
of one name only.

* `afterLabel?_eq_some_iff`, `textOf?_eq_some_iff` : the labels that are read are those of this
  form.
* `Opens.upper_eq` : no text opens labels of two names.
-/
import ProcedureCatalog.Label
import ProcedureCatalog.Proofs.ObjectName.Valid
import ProcedureCatalog.Proofs.Text.Folding
import ProcedureCatalog.Proofs.Text.Trimming

namespace ProcedureCatalog.Label

open Text ObjectName

/-! ## The form -/

/-- What may stand between a name and its colon: blanks, and among them perhaps one empty pair of
parentheses. -/
inductive IsGap : List Char → Prop
  | blanks {gap : List Char} (h : ∀ c ∈ gap, isBlank c = true) : IsGap gap
  | parens {gap gap' : List Char} (h : ∀ c ∈ gap, isBlank c = true)
      (h' : ∀ c ∈ gap', isBlank c = true) : IsGap (gap ++ '(' :: ')' :: gap')

/-- The content is the name in any case, a gap, a colon, and then `rest`. -/
def Opens (name content rest : List Char) : Prop :=
  ∃ spelled gap, spelled.map fold = name.map fold ∧ IsGap gap ∧
    content = spelled ++ (gap ++ ':' :: rest)

/-- The content opens a label of the name, and behind blanks the text follows, which neither is
empty nor starts with a blank. -/
structure IsLabel (name content text : List Char) : Prop where
  ne_nil : text ≠ []
  head?_eq_false : ∀ c ∈ text.head?, isBlank c = false
  opens : ∃ blanks, (∀ c ∈ blanks, isBlank c = true) ∧ Opens name content (blanks ++ text)

/-! ## Reading a label -/

/-- A colon does not start with a blank. -/
theorem head?_colon_eq_false (rest : List Char) :
    ∀ c ∈ (':' :: rest).head?, isBlank c = false := by
  intro c hc
  obtain rfl := Option.some.inj hc
  decide

/-- The colon behind a gap is found. -/
theorem afterColon?_of_isGap {gap : List Char} (h : IsGap gap) (rest : List Char) :
    afterColon? (gap ++ ':' :: rest) = some rest := by
  cases h with
  | blanks h =>
    have hplain : trimStart (dropParens (':' :: rest)) = ':' :: rest :=
      dropWhile_eq_self (head?_colon_eq_false rest)
    rw [afterColon?, trimStart_append h (head?_colon_eq_false rest), hplain]
    rfl
  | @parens gap gap' h h' =>
    have hstart : trimStart ((gap ++ '(' :: ')' :: gap') ++ ':' :: rest) =
        '(' :: ')' :: (gap' ++ ':' :: rest) := by
      rw [List.append_assoc]
      refine trimStart_append h ?_
      intro c hc
      obtain rfl := Option.some.inj hc
      decide
    rw [afterColon?, hstart, dropParens, trimStart_append h' (head?_colon_eq_false rest)]
    rfl

/-- A colon is found behind a gap, and only there. -/
theorem afterColon?_eq_some_iff {cs rest : List Char} :
    afterColon? cs = some rest ↔ ∃ gap, IsGap gap ∧ cs = gap ++ ':' :: rest := by
  constructor
  · intro h
    obtain ⟨blanks, hblanks, hcs⟩ := exists_trimStart cs
    unfold afterColon? at h
    split at h
    · next rest' heq =>
      obtain rfl := Option.some.inj h
      unfold dropParens at heq
      split at heq
      · next inner hparens =>
        obtain ⟨blanks', hblanks', hinner⟩ := exists_trimStart inner
        refine ⟨_, .parens hblanks hblanks', ?_⟩
        rw [← hcs, hparens, ← hinner, heq, List.append_assoc]
        rfl
      · have hself : trimStart (trimStart cs) = trimStart cs :=
          dropWhile_eq_self (head?_dropWhile_eq_false cs)
        rw [hself] at heq
        exact ⟨blanks, .blanks hblanks, by rw [← heq, hcs]⟩
    · simp at h
  · rintro ⟨gap, hgap, rfl⟩
    exact afterColon?_of_isGap hgap rest

/-- A label is opened by its name, a gap and a colon, and by nothing else. -/
theorem afterLabel?_eq_some_iff {name content rest : List Char} :
    afterLabel? name content = some rest ↔ Opens name (trimStart content) rest := by
  rw [afterLabel?, Option.bind_eq_some_iff]
  constructor
  · rintro ⟨inner, hname, hcolon⟩
    obtain ⟨spelled, hcontent, hspelled⟩ := dropFolded?_eq_some_iff.1 hname
    obtain ⟨gap, hgap, rfl⟩ := afterColon?_eq_some_iff.1 hcolon
    exact ⟨spelled, gap, hspelled, hgap, hcontent⟩
  · rintro ⟨spelled, gap, hspelled, hgap, hcontent⟩
    exact ⟨gap ++ ':' :: rest, dropFolded?_eq_some_iff.2 ⟨spelled, hcontent, hspelled⟩,
      afterColon?_of_isGap hgap rest⟩

/-- What a label opens is the end of the content. -/
theorem Opens.isSuffix {name content rest : List Char} (h : Opens name content rest) :
    rest <:+ content := by
  obtain ⟨spelled, gap, -, -, rfl⟩ := h
  exact ((List.suffix_cons _ _).trans (List.suffix_append _ _)).trans (List.suffix_append _ _)

/-- The text of a label is what follows the blanks behind the colon, when that is on one line and
does not end with a blank. -/
theorem labelText?_eq_some_iff {rest text : List Char} (hline : '\n' ∉ rest)
    (hlast : ∀ c ∈ rest.getLast?, isBlank c = false) :
    labelText? rest = some text ↔ text ≠ [] ∧ trimStart rest = text := by
  obtain ⟨blanks, hblanks, hrest⟩ := exists_trimStart rest
  unfold labelText?
  split
  · next hnil =>
    -- all of it is blank, so there is nothing
    have hnone : rest.getLast? = none := by
      refine Option.eq_none_iff_forall_ne_some.2 fun c hc => ?_
      rw [hnil, List.append_nil] at hrest
      have hblank := hblanks c (by rw [hrest]; exact List.mem_of_mem_getLast? hc)
      rw [hlast c hc] at hblank
      contradiction
    rw [hnone, hnil]
    refine iff_of_false (by simp) ?_
    rintro ⟨hne, rfl⟩
    exact hne rfl
  · next c cs hstart =>
    have hone : (c :: cs).contains '\n' = false := by
      rw [← hstart]
      have : '\n' ∉ trimStart rest := fun hmem => hline ((List.dropWhile_suffix _).subset hmem)
      simpa using this
    rw [if_neg (by rw [hone]; exact Bool.false_ne_true), hstart, Option.some_inj]
    refine ⟨?_, fun h => h.2⟩
    rintro rfl
    exact ⟨List.cons_ne_nil _ _, rfl⟩

/-- A label is read from a trimmed line exactly when it has the form of one. -/
theorem textOf?_eq_some_iff {name : String} {content text : List Char}
    (htrim : trim content = content) (hline : '\n' ∉ content) :
    textOf? name content = some text ↔ IsLabel name.toList content text := by
  have hstart : trimStart content = content :=
    dropWhile_eq_self (by rw [← htrim]; exact head?_trim_eq_false content)
  have hread : ∀ {rest}, Opens name.toList content rest →
      (labelText? rest = some text ↔ text ≠ [] ∧ trimStart rest = text) := by
    intro rest hopens
    refine labelText?_eq_some_iff (fun hmem => hline (hopens.isSuffix.subset hmem)) ?_
    intro c hc
    obtain ⟨before, hbefore⟩ := hopens.isSuffix
    refine getLast?_trim_eq_false content c ?_
    rw [htrim, ← hbefore, List.getLast?_append, hc]
    rfl
  rw [textOf?, Option.bind_eq_some_iff]
  constructor
  · rintro ⟨rest, hlabel, htext⟩
    have hopens := afterLabel?_eq_some_iff.1 hlabel
    rw [hstart] at hopens
    obtain ⟨hne, rfl⟩ := (hread hopens).1 htext
    obtain ⟨blanks, hblanks, hrest⟩ := exists_trimStart rest
    exact ⟨hne, head?_dropWhile_eq_false rest, blanks, hblanks, by rwa [hrest]⟩
  · rintro ⟨hne, hhead, blanks, hblanks, hopens⟩
    refine ⟨blanks ++ text, afterLabel?_eq_some_iff.2 (by rwa [hstart]), ?_⟩
    exact (hread hopens).2 ⟨hne, trimStart_append hblanks hhead⟩

/-! ## One name only -/

/-- What starts a gap or is its colon does not fold to a character of names. -/
theorem fold_ne_of_isNameChar {c d : Char} (hc : isNameChar c = true)
    (hd : isBlank d = true ∨ d = '(' ∨ d = ':') : fold d ≠ fold c := by
  have hascii : IsAscii c := isAscii_of_isNameChar hc
  intro hfold
  rcases hd with hblank | hsign
  · have hsame := isBlank_fold (hfold ▸ isAscii_fold hascii)
    rw [hfold, isBlank_fold (isAscii_fold hascii), isBlank_eq_false_of_isNameChar hc,
      hblank] at hsame
    contradiction
  · have hplain : IsAscii d ∧ d.isAlphanum = false := by
      rcases hsign with rfl | rfl <;> decide
    -- a sign is folded to by itself alone, and no name has it
    obtain rfl : c = d := eq_of_fold_eq hplain.1 hplain.2 hfold.symm
    rcases hsign with rfl | rfl <;> exact absurd hc (by decide)

/-- A gap and its colon start with a blank, a parenthesis or the colon. -/
theorem IsGap.head? {gap : List Char} (h : IsGap gap) (rest : List Char) :
    ∀ c ∈ (gap ++ ':' :: rest).head?, isBlank c = true ∨ c = '(' ∨ c = ':' := by
  have hstart : ∀ {blanks : List Char} {sign : Char} {more : List Char},
      (∀ c ∈ blanks, isBlank c = true) → (sign = '(' ∨ sign = ':') →
      ∀ c ∈ (blanks ++ sign :: more).head?, isBlank c = true ∨ c = '(' ∨ c = ':' := by
    intro blanks sign more hblanks hsign c hc
    cases blanks with
    | nil =>
      obtain rfl := Option.some.inj hc
      exact .inr hsign
    | cons b blanks =>
      obtain rfl := Option.some.inj hc
      exact .inl (hblanks b List.mem_cons_self)
  cases h with
  | blanks h => exact hstart h (.inr rfl)
  | parens h h' =>
    rw [List.append_assoc]
    exact hstart h (.inl rfl)

/-- Of two names that a text spells at its start, each with a gap behind it, none goes on behind
the other. -/
theorem eq_of_isPrefix_of_isGap {name spelled spelled' gap rest : List Char}
    (hname : ∀ c ∈ name, isNameChar c = true) (hspelled : spelled'.map fold = name.map fold)
    (hgap : IsGap gap) (hlonger : spelled <+: spelled')
    (hcontent : spelled' <+: spelled ++ (gap ++ ':' :: rest)) : spelled = spelled' := by
  obtain ⟨more, rfl⟩ := hlonger
  cases more with
  | nil => rw [List.append_nil]
  | cons d more =>
    -- the longer name would go on with the start of the gap
    have htail : d :: more <+: gap ++ ':' :: rest :=
      (List.prefix_append_right_inj spelled).1 hcontent
    obtain ⟨behind, hbehind⟩ := htail
    have hd := hgap.head? rest d (by rw [← hbehind]; rfl)
    have hmem : fold d ∈ name.map fold := by
      rw [← hspelled]
      exact List.mem_map_of_mem (List.mem_append_right _ List.mem_cons_self)
    obtain ⟨c, hc, hfold⟩ := List.mem_map.1 hmem
    exact absurd hfold.symm (fold_ne_of_isNameChar (hname c hc) hd)

/-- A text opens labels of one name only, up to the case of the name. -/
theorem Opens.upper_eq {name name' content rest rest' : List Char}
    (hname : ∀ c ∈ name, isNameChar c = true) (hname' : ∀ c ∈ name', isNameChar c = true)
    (h : Opens name content rest) (h' : Opens name' content rest') : upper name = upper name' := by
  obtain ⟨spelled, gap, hspelled, hgap, hcontent⟩ := h
  obtain ⟨spelled', gap', hspelled', hgap', hcontent'⟩ := h'
  have hstart : spelled <+: content := ⟨_, hcontent.symm⟩
  have hstart' : spelled' <+: content := ⟨_, hcontent'.symm⟩
  have hsame : spelled = spelled' := by
    rcases List.prefix_or_prefix_of_prefix hstart hstart' with hlonger | hlonger
    · rw [hcontent] at hstart'
      exact eq_of_isPrefix_of_isGap hname' hspelled' hgap hlonger hstart'
    · rw [hcontent'] at hstart
      exact (eq_of_isPrefix_of_isGap hname hspelled hgap' hlonger hstart).symm
  rw [← map_fold_eq_iff (fun c hc => isAscii_of_isNameChar (hname c hc))
    (fun c hc => isAscii_of_isNameChar (hname' c hc)), ← hspelled, hsame, hspelled']

end ProcedureCatalog.Label
