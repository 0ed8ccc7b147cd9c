/-
# White space

Blank characters (the property White_Space), trimming, words and the collapsed form of a text.

* `trim` removes blanks at both ends, and a second time nothing more: `trim_trim`.
* `collapse` joins the words of a text by single spaces.
-/

namespace ProcedureCatalog.Text

/-! ## Blank characters -/

/-- A character with the property White_Space. -/
def isBlank (c : Char) : Bool :=
  let n := c.toNat
  (9 ≤ n && n ≤ 13) || n == 0x20 || n == 0x85 || n == 0xA0 || n == 0x1680 ||
    (0x2000 ≤ n && n ≤ 0x200A) || n == 0x2028 || n == 0x2029 || n == 0x202F ||
    n == 0x205F || n == 0x3000

/-- A text of blanks only. -/
def allBlank (cs : List Char) : Bool := cs.all isBlank

/-! ## Trimming -/

/-- The text without the longest run of characters in `p` at its end. -/
def dropEndWhile (p : Char → Bool) (cs : List Char) : List Char :=
  (cs.reverse.dropWhile p).reverse

/-- The text without its leading blanks. -/
def trimStart (cs : List Char) : List Char := cs.dropWhile isBlank

/-- The text without its trailing blanks. -/
def trimEnd (cs : List Char) : List Char := dropEndWhile isBlank cs

/-- The text without blanks at either end. -/
def trim (cs : List Char) : List Char := trimEnd (trimStart cs)

/-- The text without blanks at either end. -/
def trimmed (text : String) : String := String.ofList (trim text.toList)

/-- The trimmed texts that are not empty. -/
def trimmedNonempty (texts : List String) : List String := (texts.map trimmed).filter (· != "")

/-- What is left starts with a character outside `p`. -/
theorem head?_dropWhile_eq_false {p : Char → Bool} (cs : List Char) :
    ∀ c ∈ (cs.dropWhile p).head?, p c = false := by
  induction cs with
  | nil => simp
  | cons c cs ih =>
    by_cases h : p c
    · simpa [List.dropWhile, h] using ih
    · simp [List.dropWhile, h]

theorem dropWhile_eq_self {p : Char → Bool} {cs : List Char}
    (h : ∀ c ∈ cs.head?, p c = false) : cs.dropWhile p = cs := by
  cases cs with
  | nil => rfl
  | cons c cs => simp [List.dropWhile, h c (by simp)]

theorem dropEndWhile_eq_self {p : Char → Bool} {cs : List Char}
    (h : ∀ c ∈ cs.getLast?, p c = false) : dropEndWhile p cs = cs := by
  rw [dropEndWhile, dropWhile_eq_self (by simpa using h), List.reverse_reverse]

/-- What is left ends with a character outside `p`. -/
theorem getLast?_dropEndWhile_eq_false {p : Char → Bool} (cs : List Char) :
    ∀ c ∈ (dropEndWhile p cs).getLast?, p c = false := by
  rw [dropEndWhile, List.getLast?_reverse]
  exact head?_dropWhile_eq_false _

/-- Only characters at the end go. -/
theorem exists_dropEndWhile_append {p : Char → Bool} (cs : List Char) :
    ∃ rest, dropEndWhile p cs ++ rest = cs := by
  obtain ⟨rest, h⟩ := List.dropWhile_suffix (l := cs.reverse) p
  refine ⟨rest.reverse, ?_⟩
  rw [dropEndWhile, ← List.reverse_append, h, List.reverse_reverse]

@[simp] theorem trimStart_nil : trimStart [] = [] := rfl

@[simp] theorem trimEnd_nil : trimEnd [] = [] := rfl

@[simp] theorem trim_nil : trim [] = [] := rfl

/-- A trimmed text does not start with a blank. -/
theorem head?_trim_eq_false (cs : List Char) : ∀ c ∈ (trim cs).head?, isBlank c = false := by
  intro c hc
  obtain ⟨rest, h⟩ := exists_dropEndWhile_append (p := isBlank) (trimStart cs)
  refine head?_dropWhile_eq_false cs c ?_
  change c ∈ (trimStart cs).head?
  rw [← h, List.head?_append]
  change (dropEndWhile isBlank (trimStart cs)).head? = some c at hc
  simp [hc]

/-- A trimmed text does not end with a blank. -/
theorem getLast?_trim_eq_false (cs : List Char) : ∀ c ∈ (trim cs).getLast?, isBlank c = false :=
  getLast?_dropEndWhile_eq_false _

/-- Trimming leaves a text alone that neither starts nor ends with a blank. -/
theorem trim_eq_self {cs : List Char} (h : ∀ c ∈ cs.head?, isBlank c = false)
    (h' : ∀ c ∈ cs.getLast?, isBlank c = false) : trim cs = cs := by
  rw [trim, trimStart, dropWhile_eq_self h, trimEnd, dropEndWhile_eq_self h']

@[simp] theorem trim_trim (cs : List Char) : trim (trim cs) = trim cs :=
  trim_eq_self (head?_trim_eq_false cs) (getLast?_trim_eq_false cs)

@[simp] theorem trimmed_trimmed (text : String) : trimmed (trimmed text) = trimmed text := by
  simp [trimmed]

/-! ## Words -/

/-- The pieces between the characters in `p`, empty ones included. -/
def splitAtEach (p : Char → Bool) : List Char → List (List Char)
  | [] => [[]]
  | c :: cs =>
    if p c then [] :: splitAtEach p cs
    else match splitAtEach p cs with
      | [] => [[c]]
      | piece :: pieces => (c :: piece) :: pieces

/-- The maximal runs of characters that are not blank. -/
def words (cs : List Char) : List (List Char) :=
  (splitAtEach isBlank cs).filter (!·.isEmpty)

/-- The pieces with `sep` between each two. -/
def joinWith (sep : List Char) : List (List Char) → List Char
  | [] => []
  | [piece] => piece
  | piece :: pieces => piece ++ sep ++ joinWith sep pieces

/-- The words of the text with one space between each two. -/
def collapse (cs : List Char) : List Char := joinWith [' '] (words cs)

end ProcedureCatalog.Text
