/-
# The texts of comments

The content of a comment is trimmed and made of characters of its line. What frames its words is
taken off in two ways: the signs in front of it where it belongs to a block, and the stars behind it
where it belongs to a label.

* `trim_content` : contents are trimmed.
* `isDecorative_eq_false_iff` : the texts that carry words.
* `dropCommentMarkers_eq_iff` : what is left without the stars and slashes in front.
* `trimDecoration_eq_iff`, `trimDecoration_content_eq_iff` : what is left without the stars behind.
* `exists_trimDecoration_append` : nothing else than stars and blanks at the end goes.
-/
import ProcedureCatalog.Proofs.Text.Trimming
import ProcedureCatalog.SourceLine

namespace ProcedureCatalog.SourceLine

open Text

/-! ## Contents -/

/-- The content of a comment is trimmed. -/
theorem trim_eq_of_classify {line content : List Char} (h : classify line = .comment content) :
    trim content = content := by
  unfold classify at h
  split at h
  · simp at h
  · rw [← LineClass.comment.inj h, trim_trim]
  · rw [← LineClass.comment.inj h, trim_trim]
  · split at h
    · rw [← LineClass.comment.inj h, trim_trim]
    · simp at h

/-- What stands behind the front of a trimmed text is made of characters of the text. -/
theorem mem_of_trim_eq_append {cs rest : List Char} {c : Char} (front : List Char)
    (h : trim cs = front ++ rest) (hc : c ∈ trim rest) : c ∈ cs := by
  apply mem_of_mem_trim
  rw [h]
  exact List.mem_append_right _ (mem_of_mem_trim hc)

/-- What stands behind a star in column 7 is part of the line. -/
theorem mem_of_fixedComment? {line rest : List Char} {c : Char} (h : fixedComment? line = some rest)
    (hc : c ∈ rest) : c ∈ line := by
  unfold fixedComment? at h
  split at h
  · next hdrop =>
    obtain rfl := Option.some.inj h
    apply (List.drop_suffix 6 line).subset
    rw [hdrop]
    exact List.mem_cons_of_mem _ hc
  · simp at h

/-- The content of a comment is made of characters of its line. -/
theorem mem_of_classify {line content : List Char} {c : Char} (h : classify line = .comment content)
    (hc : c ∈ content) : c ∈ line := by
  unfold classify at h
  split at h
  · simp at h
  · next rest htrim =>
    obtain rfl := LineClass.comment.inj h
    exact mem_of_trim_eq_append ['/', '/'] htrim hc
  · next rest htrim =>
    obtain rfl := LineClass.comment.inj h
    exact mem_of_trim_eq_append ['*', '*'] htrim hc
  · split at h
    · next rest hfixed =>
      obtain rfl := LineClass.comment.inj h
      exact mem_of_fixedComment? hfixed (mem_of_mem_trim hc)
    · simp at h

/-- The content of a line is trimmed, also where it is empty because the line is no comment. -/
theorem trim_content (line : List Char) :
    trim (classify line).content = (classify line).content := by
  cases hclass : classify line with
  | blank => rfl
  | code => rfl
  | comment content => exact trim_eq_of_classify hclass

/-! ## What frames the words -/

/-- A text carries words when it has a character that is no dash, star, slash or blank. -/
theorem isDecorative_eq_false_iff {cs : List Char} : isDecorative cs = false ↔
    ∃ c ∈ cs, c ≠ '-' ∧ c ≠ '*' ∧ c ≠ '/' ∧ isBlank c = false := by
  rw [isDecorative, List.all_eq_false]
  apply exists_congr
  intro c
  apply and_congr_right
  intro _
  simp only [isFrame, Bool.or_eq_true, beq_iff_eq, not_or, Bool.not_eq_true, and_assoc]

/-- Without its markers, a text is what stands behind the stars and slashes in front, trimmed. -/
theorem dropCommentMarkers_eq_iff {cs text : List Char} : dropCommentMarkers cs = text ↔
    ∃ markers rest, cs = markers ++ rest ∧ (∀ c ∈ markers, c = '*' ∨ c = '/') ∧
      (∀ c ∈ rest.head?, c ≠ '*' ∧ c ≠ '/') ∧ trim rest = text := by
  have hdrop : ∀ rest, cs.dropWhile (fun c => c == '*' || c == '/') = rest ↔
      ∃ markers, cs = markers ++ rest ∧ (∀ c ∈ markers, c = '*' ∨ c = '/') ∧
        ∀ c ∈ rest.head?, c ≠ '*' ∧ c ≠ '/' := by
    intro rest
    rw [dropWhile_eq_iff]
    simp only [Bool.or_eq_true, Bool.or_eq_false_iff, beq_iff_eq, beq_eq_false_iff_ne]
  constructor
  · intro h
    obtain ⟨markers, hsplit, hmarkers, hrest⟩ := (hdrop _).1 rfl
    exact ⟨markers, _, hsplit, hmarkers, hrest, h⟩
  · rintro ⟨markers, rest, hsplit, hmarkers, hrest, rfl⟩
    rw [dropCommentMarkers, (hdrop rest).2 ⟨markers, hsplit, hmarkers, hrest⟩]

/-- Without its decoration, a text is what stands before all the stars at its end, trimmed; blanks
behind these stars go first. -/
theorem trimDecoration_eq_iff {cs text : List Char} : trimDecoration cs = text ↔
    ∃ body stars, trimEnd cs = body ++ stars ∧ (∀ c ∈ stars, c = '*') ∧
      (∀ c ∈ body.getLast?, c ≠ '*') ∧ trim body = text := by
  have hdrop : ∀ body, dropEndWhile (· == '*') (trimEnd cs) = body ↔
      ∃ stars, trimEnd cs = body ++ stars ∧ (∀ c ∈ stars, c = '*') ∧
        ∀ c ∈ body.getLast?, c ≠ '*' := by
    intro body
    rw [dropEndWhile_eq_iff]
    simp only [beq_iff_eq, beq_eq_false_iff_ne]
  constructor
  · intro h
    obtain ⟨stars, hsplit, hstars, hbody⟩ := (hdrop _).1 rfl
    exact ⟨_, stars, hsplit, hstars, hbody, h⟩
  · rintro ⟨body, stars, hsplit, hstars, hbody, rfl⟩
    rw [trimDecoration, (hdrop body).2 ⟨stars, hsplit, hstars, hbody⟩]

/-- Behind the stars of a content there are no blanks. -/
theorem trimDecoration_content_eq_iff {line text : List Char} :
    trimDecoration (classify line).content = text ↔
      ∃ body stars, (classify line).content = body ++ stars ∧ (∀ c ∈ stars, c = '*') ∧
        (∀ c ∈ body.getLast?, c ≠ '*') ∧ trim body = text := by
  have hend : trimEnd (classify line).content = (classify line).content := by
    apply dropEndWhile_eq_self
    rw [← trim_content]
    exact getLast?_trim_eq_false _
  rw [trimDecoration_eq_iff, hend]

/-- Trimming decoration removes stars and blanks at the end of a text that does not start with a
blank, and nothing else. -/
theorem exists_trimDecoration_append {cs : List Char} (h : ∀ c ∈ cs.head?, isBlank c = false) :
    ∃ rest, trimDecoration cs ++ rest = cs ∧ ∀ c ∈ rest, c = '*' ∨ isBlank c = true := by
  obtain ⟨body, stars, hend, hstars, -, hbody⟩ :=
    trimDecoration_eq_iff.1 (rfl : trimDecoration cs = _)
  obtain ⟨blanks, hcs, hblanks⟩ := exists_dropEndWhile_append_all (p := isBlank) cs
  obtain ⟨before, after, hsplit, hbefore, hafter⟩ := exists_trim body
  have htext : cs = before ++ (trimDecoration cs ++ after) ++ stars ++ blanks := by
    rw [← hbody, hsplit, ← hend]
    exact hcs.symm
  -- the text does not start with a blank, so nothing goes in front
  have hnone : before = [] := by
    cases before with
    | nil => rfl
    | cons c before =>
      have hblank := hbefore c List.mem_cons_self
      rw [h c (by rw [htext]; rfl)] at hblank
      contradiction
  refine ⟨after ++ (stars ++ blanks), ?_, ?_⟩
  · rw [hnone] at htext
    rw [List.nil_append, List.append_assoc, List.append_assoc] at htext
    exact htext.symm
  · intro c hc
    rcases List.mem_append.1 hc with hc | hc
    · exact .inr (hafter c hc)
    · rcases List.mem_append.1 hc with hc | hc
      · exact .inl (hstars c hc)
      · exact .inr (hblanks c hc)

end ProcedureCatalog.SourceLine
