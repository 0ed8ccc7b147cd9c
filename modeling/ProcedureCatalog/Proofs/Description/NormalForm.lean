/-
# The normal form of descriptions

What the texts that normalization produces look like, and that a second pass changes nothing.

* `startsPlain_condense` : a condensed text starts with neither a blank nor decoration.
* `length_normalizeChars_le` : a normal form has at most `limit` characters.
* `normalize_normalize` : normalization is idempotent.
* `normalize_short_and_plain` : what normalization gives, and what it leaves alone.
* `newline_notMem_condense` : a condensed text is a single line.
-/
import ProcedureCatalog.Description
import ProcedureCatalog.Proofs.Text.Words

namespace ProcedureCatalog.Description

open Text

/-! ## Plain starts -/

/-- The text starts with neither a blank, a dash nor a double slash. -/
def StartsPlain : List Char → Prop
  | [] => True
  | c :: cs => isBlank c = false ∧ c ≠ '-' ∧ ¬ (c = '/' ∧ cs.head? = some '/')

/-- A text that starts plainly is not decorated. -/
theorem StartsPlain.isDecorated_eq_false {cs : List Char} (h : StartsPlain cs) :
    isDecorated cs = false := by
  cases cs with
  | nil => rfl
  | cons c cs =>
    obtain ⟨hblank, hdash, hslash⟩ := h
    have hstart : trimStart (c :: cs) = c :: cs := dropWhile_eq_self (by simpa using hblank)
    unfold isDecorated
    rw [hstart]
    split
    · next heq => exact absurd (List.cons.inj heq).1 hdash
    · next heq =>
      obtain ⟨rfl, rfl⟩ := List.cons.inj heq
      exact absurd ⟨rfl, rfl⟩ hslash
    · rfl

/-- A text that starts plainly does not start with a blank. -/
theorem StartsPlain.head?_eq_false {cs : List Char} (h : StartsPlain cs) :
    ∀ c ∈ cs.head?, isBlank c = false := by
  cases cs with
  | nil => simp
  | cons c cs => simpa using h.1

/-- The beginning of a text that starts plainly starts plainly. -/
theorem StartsPlain.of_isPrefix {cs ds : List Char} (h : StartsPlain cs) (hp : ds <+: cs) :
    StartsPlain ds := by
  obtain ⟨rest, rfl⟩ := hp
  cases ds with
  | nil => trivial
  | cons d ds =>
    obtain ⟨hblank, hdash, hslash⟩ := h
    refine ⟨hblank, hdash, fun hd => hslash ⟨hd.1, ?_⟩⟩
    change (ds ++ rest).head? = some '/'
    rw [List.head?_append, hd.2]
    rfl

/-- More text after two characters does not change how a text starts. -/
theorem StartsPlain.append {cs : List Char} (h : StartsPlain cs) (hlen : 2 ≤ cs.length)
    (rest : List Char) : StartsPlain (cs ++ rest) := by
  -- two characters decide whether a text starts with a double slash
  rcases cs with _ | ⟨c, _ | ⟨d, cs⟩⟩
  · simp at hlen
  · simp at hlen
  · exact h

/-- Without its decoration a text starts plainly. -/
theorem startsPlain_dropDecoration (cs : List Char) : StartsPlain (dropDecoration cs) := by
  fun_induction dropDecoration cs with
  | case1 rest ih => exact ih
  | case2 c rest _ _ ih => exact ih
  | case3 c rest hslashes hc =>
    -- nothing more is dropped, so what is left starts with no double slash
    have hc' : ¬ c = '-' ∧ isBlank c = false := by simpa using hc
    refine ⟨hc'.2, hc'.1, ?_⟩
    rintro ⟨rfl, hhead⟩
    obtain ⟨tail, rfl⟩ := List.head?_eq_some_iff.1 hhead
    exact hslashes tail rfl rfl
  | case4 => trivial

/-! ## Condensed texts -/

/-- Only characters at the end go. -/
theorem isPrefix_trimEnd (cs : List Char) : trimEnd cs <+: cs := by
  obtain ⟨rest, h⟩ := exists_dropEndWhile_append (p := isBlank) cs
  exact ⟨rest, h⟩

/-- Abridging keeps a plain start. -/
theorem StartsPlain.abridge {cs : List Char} (h : StartsPlain cs) : StartsPlain (abridge cs) := by
  unfold Description.abridge
  split
  · next hlong =>
    have hlen : 2 ≤ (cs.take (limit - ellipsis.length)).length := by
      rw [List.length_take]
      simp only [limit, ellipsis, List.length_cons, List.length_nil] at hlong ⊢
      omega
    exact (h.of_isPrefix (List.take_prefix _ _)).append hlen _
  · exact h

/-- A condensed text starts with neither a blank nor decoration. -/
theorem startsPlain_condense (cs : List Char) : StartsPlain (condense cs) := by
  unfold condense
  dsimp only
  split
  · next text _ =>
    have hplain := startsPlain_dropDecoration (trimEnd (Text.collapse text))
    exact hplain.of_isPrefix ((isPrefix_trimEnd _).trans (List.take_prefix _ _))
  · exact (startsPlain_dropDecoration _).abridge

/-- An abridged text has at most `limit` characters. -/
theorem length_abridge_le (cs : List Char) : (abridge cs).length ≤ limit := by
  unfold abridge
  split
  · rw [List.length_append, List.length_take]
    simp only [limit, ellipsis, List.length_cons, List.length_nil]
    omega
  · next h => exact Nat.le_of_not_lt h

/-- A condensed text has at most `limit` characters. -/
theorem length_condense_le (cs : List Char) : (condense cs).length ≤ limit := by
  unfold condense
  dsimp only
  split
  · exact Nat.le_trans (isPrefix_trimEnd _).length_le (List.length_take_le _ _)
  · exact length_abridge_le _

/-! ## Normal forms -/

/-- A short undecorated text is its own normal form. -/
theorem normalizeChars_of_plain {cs : List Char} (hplain : isDecorated cs = false)
    (hlen : cs.length ≤ limit) : normalizeChars cs = cs := by
  simp [normalizeChars, hplain, hlen]

/-- A text either stays, because it is short and undecorated, or is condensed. -/
theorem normalizeChars_eq_or (cs : List Char) :
    (normalizeChars cs = cs ∧ isDecorated cs = false ∧ cs.length ≤ limit) ∨
      normalizeChars cs = condense cs := by
  unfold normalizeChars
  split
  · next h => exact .inl ⟨rfl, by simpa using h⟩
  · exact .inr rfl

/-- A normal form has at most `limit` characters. -/
theorem length_normalizeChars_le (cs : List Char) : (normalizeChars cs).length ≤ limit := by
  rcases normalizeChars_eq_or cs with ⟨h, -, hlen⟩ | h
  · rw [h]; exact hlen
  · rw [h]; exact length_condense_le cs

/-- A normal form is not decorated. -/
theorem isDecorated_normalizeChars (cs : List Char) : isDecorated (normalizeChars cs) = false := by
  rcases normalizeChars_eq_or cs with ⟨h, hplain, -⟩ | h
  · rw [h]; exact hplain
  · rw [h]; exact (startsPlain_condense cs).isDecorated_eq_false

/-- Normalizing a second time changes nothing. -/
theorem normalizeChars_normalizeChars (cs : List Char) :
    normalizeChars (normalizeChars cs) = normalizeChars cs :=
  normalizeChars_of_plain (isDecorated_normalizeChars cs) (length_normalizeChars_le cs)

/-- Normalization brings no blank to the start. -/
theorem head?_normalizeChars_eq_false {cs : List Char} (h : ∀ c ∈ cs.head?, isBlank c = false) :
    ∀ c ∈ (normalizeChars cs).head?, isBlank c = false := by
  rcases normalizeChars_eq_or cs with ⟨heq, -, -⟩ | heq
  · rw [heq]; exact h
  · rw [heq]; exact (startsPlain_condense cs).head?_eq_false

@[simp] theorem toList_normalize (text : String) :
    (normalize text).toList = normalizeChars text.toList := by
  simp [normalize]

/-- A text that normalization changes is condensed. -/
theorem normalizeChars_eq_condense {text : String} (h : normalize text ≠ text) :
    normalizeChars text.toList = condense text.toList := by
  rcases normalizeChars_eq_or text.toList with ⟨hsame, -⟩ | hcondense
  · refine absurd (String.toList_inj.1 ?_) h
    rw [toList_normalize, hsame]
  · exact hcondense

/-- Normalization is idempotent. -/
theorem normalize_normalize (text : String) : normalize (normalize text) = normalize text := by
  rw [normalize, toList_normalize, normalizeChars_normalizeChars, ← normalize]

/-- A text is undecorated when it starts, behind its blanks, with neither a dash nor a double
slash. -/
theorem isDecorated_eq_false_iff {cs : List Char} : isDecorated cs = false ↔
    ¬ ['-'] <+: trimStart cs ∧ ¬ ['/', '/'] <+: trimStart cs := by
  unfold isDecorated
  split
  · next rest heq => simp [heq]
  · next rest heq => simp [heq]
  · next hdash hslashes =>
    refine iff_of_true rfl ⟨?_, ?_⟩
    · rintro ⟨rest, heq⟩
      exact hdash rest heq.symm
    · rintro ⟨rest, heq⟩
      exact hslashes rest heq.symm

/-- A text is decorated when its start, behind the blanks, is. -/
theorem isDecorated_eq (cs : List Char) : isDecorated cs =
    (['-'].isPrefixOf (trimStart cs) || ['/', '/'].isPrefixOf (trimStart cs)) := by
  rw [Bool.eq_iff_iff, ← not_iff_not, Bool.not_eq_true, isDecorated_eq_false_iff]
  simp

/-- The texts that normalization leaves alone are the short undecorated ones. -/
theorem normalizeChars_eq_self_iff {cs : List Char} :
    normalizeChars cs = cs ↔ isDecorated cs = false ∧ cs.length ≤ limit := by
  constructor
  · intro h
    rw [← h]
    exact ⟨isDecorated_normalizeChars cs, length_normalizeChars_le cs⟩
  · rintro ⟨hplain, hlen⟩
    exact normalizeChars_of_plain hplain hlen

/-- **Normalization is idempotent, bounded and leaves nothing decorated**, and the short
undecorated texts are exactly those that it leaves alone. -/
theorem normalize_short_and_plain (text : String) :
    normalize (normalize text) = normalize text ∧ (normalize text).toList.length ≤ 280 ∧
      ¬ ['-'] <+: trimStart (normalize text).toList ∧
      ¬ ['/', '/'] <+: trimStart (normalize text).toList ∧
      (normalize text = text ↔ text.toList.length ≤ 280 ∧
        ¬ ['-'] <+: trimStart text.toList ∧ ¬ ['/', '/'] <+: trimStart text.toList) := by
  obtain ⟨hdash, hslashes⟩ := isDecorated_eq_false_iff.1 (isDecorated_normalizeChars text.toList)
  have hlen := length_normalizeChars_le text.toList
  refine ⟨normalize_normalize text, ?_, ?_, ?_, ?_⟩
  · rwa [toList_normalize]
  · rwa [toList_normalize]
  · rwa [toList_normalize]
  · rw [← String.toList_inj, toList_normalize, normalizeChars_eq_self_iff,
      isDecorated_eq_false_iff, and_comm]
    rfl

/-! ## Single lines -/

/-- A segment is cleaned away only when it holds nothing but dashes and blanks. -/
theorem cleanSegment_cons_eq_nil {c : Char} {cs : List Char} (h : cleanSegment (c :: cs) = []) :
    (c == '-' || isBlank c) = true ∧ cleanSegment cs = [] := by
  unfold cleanSegment at h ⊢
  rw [collapse_eq_nil_iff] at h ⊢
  refine ⟨?_, fun d hd => h d ?_⟩
  · have hc := h (if c == '-' then ' ' else c) (by simp)
    by_cases hdash : c = '-'
    · simp [hdash]
    · simpa [hdash] using hc
  · rw [List.map_cons]
    exact List.mem_cons_of_mem _ hd

/-- A text whose segments are all cleaned away is decoration throughout. -/
theorem dropDecoration_eq_nil {cs : List Char} (h : ∀ seg ∈ segments cs, cleanSegment seg = []) :
    dropDecoration cs = [] := by
  fun_induction segments cs with
  | case1 rest ih =>
    rw [dropDecoration]
    exact ih fun seg hseg => h seg (List.mem_cons_of_mem _ hseg)
  | case2 c rest hslashes hs ih =>
    have hc := (cleanSegment_cons_eq_nil (h [c] (by simp))).1
    rw [dropDecoration, if_pos hc]
    · exact ih (by simp [hs])
    · exact hslashes
  | case3 c rest hslashes piece pieces hs ih =>
    obtain ⟨hc, hpiece⟩ := cleanSegment_cons_eq_nil (h (c :: piece) (by simp))
    rw [dropDecoration, if_pos hc]
    · refine ih fun seg hseg => ?_
      rw [hs] at hseg
      rcases List.mem_cons.1 hseg with rfl | hseg
      · exact hpiece
      · exact h seg (List.mem_cons_of_mem _ hseg)
    · exact hslashes
  | case4 => rfl

/-- Removing decoration only drops characters at the start. -/
theorem dropDecoration_suffix (cs : List Char) : dropDecoration cs <:+ cs := by
  fun_induction dropDecoration cs with
  | case1 rest ih => exact (ih.trans (List.suffix_cons _ _)).trans (List.suffix_cons _ _)
  | case2 c rest _ _ ih => exact ih.trans (List.suffix_cons _ _)
  | case3 => exact List.suffix_rfl
  | case4 => exact List.suffix_rfl

/-- Every character of an undecorated text was there before. -/
theorem mem_of_mem_undecorate {cs : List Char} {c : Char} (h : c ∈ undecorate cs) : c ∈ cs :=
  (isPrefix_trimEnd cs).subset ((dropDecoration_suffix _).subset h)

/-- Abridging brings no line feed in. -/
theorem newline_notMem_abridge {cs : List Char} (h : '\n' ∉ cs) : '\n' ∉ abridge cs := by
  unfold abridge
  split
  · rw [List.mem_append, not_or]
    exact ⟨fun hmem => h (List.mem_of_mem_take hmem), by decide⟩
  · exact h

/-- The first segment with text is a collapsed text; when there is none, the whole text is
decoration. -/
theorem firstSegment_cases {cs : List Char} (htrim : trimEnd cs = cs) :
    (∃ text, firstSegment cs = Text.collapse text) ∨ undecorate (firstSegment cs) = [] := by
  unfold firstSegment
  cases hfind : ((segments cs).map cleanSegment).find? (!·.isEmpty) with
  | some seg =>
    obtain ⟨raw, -, rfl⟩ := List.mem_map.1 (List.mem_of_find?_eq_some hfind)
    exact .inl ⟨_, rfl⟩
  | none =>
    have hclean : ∀ seg ∈ segments cs, cleanSegment seg = [] := by
      intro seg hseg
      simpa using List.find?_eq_none.1 hfind (cleanSegment seg) (List.mem_map_of_mem hseg)
    refine .inr ?_
    rw [Option.getD_none, undecorate, htrim, dropDecoration_eq_nil hclean]

/-- What the first segment with text leaves is a single line. -/
theorem newline_notMem_undecorate_firstSegment {cs : List Char} (htrim : trimEnd cs = cs) :
    '\n' ∉ undecorate (firstSegment cs) := by
  rcases firstSegment_cases htrim with ⟨text, h⟩ | h
  · rw [h]
    exact fun hmem => newline_notMem_collapse _ (mem_of_mem_undecorate hmem)
  · simp [h]

/-- A condensed text holds no line feed. -/
theorem newline_notMem_condense (cs : List Char) : '\n' ∉ condense cs := by
  unfold condense
  dsimp only
  split
  · next text _ =>
    intro hmem
    have hmem := List.mem_of_mem_take ((isPrefix_trimEnd _).subset hmem)
    exact newline_notMem_collapse text (mem_of_mem_undecorate hmem)
  · refine newline_notMem_abridge (newline_notMem_undecorate_firstSegment ?_)
    exact dropEndWhile_eq_self (getLast?_trim_eq_false _)

end ProcedureCatalog.Description
