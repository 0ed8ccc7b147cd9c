/-
# UTF-8

Characters as bytes and back.

* `decode?` accepts well-formed bytes only.
* `decodeLossy` puts the replacement character for each longest ill-formed beginning of a
  character.
-/

namespace ProcedureCatalog.Text

/-- The bytes of a text. -/
def encodeUtf8 (cs : List Char) : List UInt8 := cs.flatMap fun c => c.toString.toUTF8.toList

/-- The replacement character. -/
def replacement : Char := Char.ofNat 0xFFFD

/-! ## One character -/

/-- How many continuation bytes follow a first byte, the range of the first of them, and the bits
that the first byte holds. -/
structure Lead where
  count : Nat
  low : Nat
  high : Nat
  bits : Nat

/-- The lead of a character of more than one byte. -/
def lead? (b : Nat) : Option Lead :=
  if 0xC2 ≤ b && b ≤ 0xDF then some ⟨1, 0x80, 0xBF, b - 0xC0⟩
  else if b == 0xE0 then some ⟨2, 0xA0, 0xBF, 0⟩
  else if b == 0xED then some ⟨2, 0x80, 0x9F, 0xD⟩
  else if 0xE1 ≤ b && b ≤ 0xEF then some ⟨2, 0x80, 0xBF, b - 0xE0⟩
  else if b == 0xF0 then some ⟨3, 0x90, 0xBF, 0⟩
  else if 0xF1 ≤ b && b ≤ 0xF3 then some ⟨3, 0x80, 0xBF, b - 0xF0⟩
  else if b == 0xF4 then some ⟨3, 0x80, 0x8F, 4⟩
  else none

/-- A character, or none where the bytes are ill-formed, and the number of bytes it takes. -/
structure Unit8 where
  char : Option Char
  size : Nat

/-- Reads `count` continuation bytes, the first of them between `low` and `high`. -/
def continueChar : (count low high bits size : Nat) → List UInt8 → Unit8
  | 0, _, _, bits, size, _ => ⟨some (Char.ofNat bits), size⟩
  | _ + 1, _, _, _, size, [] => ⟨none, size⟩
  | count + 1, low, high, bits, size, b :: bs =>
    if low ≤ b.toNat && b.toNat ≤ high then
      continueChar count 0x80 0xBF (bits * 64 + (b.toNat - 0x80)) (size + 1) bs
    else ⟨none, size⟩

/-- The character that starts with the byte `b`, followed by `bs`. -/
def firstChar (b : UInt8) (bs : List UInt8) : Unit8 :=
  if b.toNat < 0x80 then ⟨some (Char.ofNat b.toNat), 1⟩
  else match lead? b.toNat with
    | some lead => continueChar lead.count lead.low lead.high lead.bits 1 bs
    | none => ⟨none, 1⟩

/-! ## Texts -/

/-- The characters of the bytes, `none` where they are ill-formed. The next `skip` bytes belong to
the last character. -/
def decodeAfter : (skip : Nat) → List UInt8 → List (Option Char)
  | _, [] => []
  | skip + 1, _ :: bs => decodeAfter skip bs
  | 0, b :: bs =>
    let first := firstChar b bs
    first.char :: decodeAfter (first.size - 1) bs

/-- The text of well-formed bytes. -/
def decode? (bytes : List UInt8) : Option (List Char) := (decodeAfter 0 bytes).mapM id

/-- The text of any bytes. -/
def decodeLossy (bytes : List UInt8) : List Char :=
  (decodeAfter 0 bytes).map (·.getD replacement)

end ProcedureCatalog.Text
