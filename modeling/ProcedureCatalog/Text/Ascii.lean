/-
# ASCII letters

Names are upper-cased and compared by their ASCII letters alone; every other character stands for
itself.
-/

namespace ProcedureCatalog.Text

/-- The text with each ASCII small letter made a capital. -/
def upper (cs : List Char) : List Char := cs.map Char.toUpper

/-- The two texts differ at most in the case of ASCII letters. -/
def sameLetters (a b : List Char) : Bool := upper a == upper b

/-- An ASCII letter or digit. -/
def isAsciiAlphanum (c : Char) : Bool := c.isAlphanum

@[simp] theorem upper_nil : upper [] = [] := rfl

@[simp] theorem upper_cons (c : Char) (cs : List Char) : upper (c :: cs) = c.toUpper :: upper cs := rfl

@[simp] theorem upper_append (a b : List Char) : upper (a ++ b) = upper a ++ upper b := by
  simp [upper]

@[simp] theorem length_upper (cs : List Char) : (upper cs).length = cs.length := by
  simp [upper]

theorem sameLetters_iff {a b : List Char} : sameLetters a b = true ↔ upper a = upper b := by
  simp [sameLetters]

end ProcedureCatalog.Text
