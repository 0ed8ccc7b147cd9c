/-
# Encodings of a document

The characters of a file: UTF-16 when it starts with the byte order mark of one of its two byte
orders, else UTF-8. Ill-formed bytes are refused.
-/
import ProcedureCatalog.Text.Utf8

namespace ProcedureCatalog.Yaml

/-- The two-byte units of bytes, the low byte first or last. -/
def units16? (lowFirst : Bool) : List UInt8 → Option (List Nat)
  | [] => some []
  | [_] => none
  | a :: b :: rest =>
    let unit := if lowFirst then a.toNat + 256 * b.toNat else 256 * a.toNat + b.toNat
    (units16? lowFirst rest).map (unit :: ·)

/-- The characters of two-byte units: a unit, or a high and a low surrogate. -/
def charsOfUnits? : List Nat → Option (List Char)
  | [] => some []
  | unit :: rest =>
    if unit < 0xD800 || 0xE000 ≤ unit then
      (charsOfUnits? rest).map (Char.ofNat unit :: ·)
    else
      match rest with
      | [] => none
      | low :: rest =>
        if unit < 0xDC00 && 0xDC00 ≤ low && low < 0xE000 then
          (charsOfUnits? rest).map
            (Char.ofNat (0x10000 + (unit - 0xD800) * 0x400 + (low - 0xDC00)) :: ·)
        else none

/-- The characters of a file. -/
def decodeFile? (bytes : List UInt8) : Option (List Char) :=
  match bytes with
  | 0xFF :: 0xFE :: rest => (units16? true rest).bind charsOfUnits?
  | 0xFE :: 0xFF :: rest => (units16? false rest).bind charsOfUnits?
  | _ => Text.decode? bytes

end ProcedureCatalog.Yaml
