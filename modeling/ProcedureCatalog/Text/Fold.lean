/-
# Comparing without case

Simple case folding maps each character to one character that stands for all its case forms, such
as `k` for `k`, `K` and the Kelvin sign.

* `dropFolded?` reads a literal at the start of a text up to case.
-/
import ProcedureCatalog.Text.CaseTable

namespace ProcedureCatalog.Text

/-- The shift reaches the code point. -/
def CaseShift.covers (s : CaseShift) (n : Nat) : Bool :=
  s.first ≤ n && n ≤ s.last && (n - s.first) % s.step == 0

/-- Where the first shift that covers the code point takes it; itself when there is none. -/
def shifted (shifts : List CaseShift) (n : Nat) : Nat :=
  match shifts.find? (·.covers n) with
  | some s => (Int.ofNat n + s.offset).toNat
  | none => n

/-- Simple case folding. -/
def fold (c : Char) : Char :=
  if c.toNat < 0x80 then c.toLower else Char.ofNat (shifted foldShifts c.toNat)

/-- The text after `literal`, if it starts with `literal` up to case. -/
def dropFolded? : (literal text : List Char) → Option (List Char)
  | [], text => some text
  | _ :: _, [] => none
  | l :: literal, c :: text => if fold l == fold c then dropFolded? literal text else none

/-- A case form of an ASCII letter. -/
def isFoldedLetter (c : Char) : Bool := (fold c).isAlpha

/-- A case form of an ASCII letter, or an ASCII digit. -/
def isFoldedAlphanum (c : Char) : Bool := (fold c).isAlphanum

end ProcedureCatalog.Text
