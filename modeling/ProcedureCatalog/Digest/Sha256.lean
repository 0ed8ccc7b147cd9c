/-
# SHA-256

The digest of a text, as 64 small hexadecimal digits of the SHA-256 of its UTF-8 bytes.
-/

namespace ProcedureCatalog.Digest

/-! ## Words -/

/-- Rotation to the right. -/
def rotateRight (x n : UInt32) : UInt32 := (x >>> n) ||| (x <<< (32 - n))

/-- The round constants. -/
def roundConstants : List UInt32 := [
  0x428a2f98, 0x71374491, 0xb5c0fbcf, 0xe9b5dba5, 0x3956c25b, 0x59f111f1, 0x923f82a4, 0xab1c5ed5,
  0xd807aa98, 0x12835b01, 0x243185be, 0x550c7dc3, 0x72be5d74, 0x80deb1fe, 0x9bdc06a7, 0xc19bf174,
  0xe49b69c1, 0xefbe4786, 0x0fc19dc6, 0x240ca1cc, 0x2de92c6f, 0x4a7484aa, 0x5cb0a9dc, 0x76f988da,
  0x983e5152, 0xa831c66d, 0xb00327c8, 0xbf597fc7, 0xc6e00bf3, 0xd5a79147, 0x06ca6351, 0x14292967,
  0x27b70a85, 0x2e1b2138, 0x4d2c6dfc, 0x53380d13, 0x650a7354, 0x766a0abb, 0x81c2c92e, 0x92722c85,
  0xa2bfe8a1, 0xa81a664b, 0xc24b8b70, 0xc76c51a3, 0xd192e819, 0xd6990624, 0xf40e3585, 0x106aa070,
  0x19a4c116, 0x1e376c08, 0x2748774c, 0x34b0bcb5, 0x391c0cb3, 0x4ed8aa4a, 0x5b9cca4f, 0x682e6ff3,
  0x748f82ee, 0x78a5636f, 0x84c87814, 0x8cc70208, 0x90befffa, 0xa4506ceb, 0xbef9a3f7, 0xc67178f2]

/-- The eight working words. -/
structure State where
  a : UInt32
  b : UInt32
  c : UInt32
  d : UInt32
  e : UInt32
  f : UInt32
  g : UInt32
  h : UInt32
  deriving DecidableEq, Repr

/-- The words to start with. -/
def State.initial : State :=
  ⟨0x6a09e667, 0xbb67ae85, 0x3c6ef372, 0xa54ff53a, 0x510e527f, 0x9b05688c, 0x1f83d9ab, 0x5be0cd19⟩

/-- The words one by one. -/
def State.words (s : State) : List UInt32 := [s.a, s.b, s.c, s.d, s.e, s.f, s.g, s.h]

/-- The sum word by word. -/
def State.add (s t : State) : State :=
  ⟨s.a + t.a, s.b + t.b, s.c + t.c, s.d + t.d, s.e + t.e, s.f + t.f, s.g + t.g, s.h + t.h⟩

/-! ## One block -/

/-- One round, with its constant and its word of the schedule. -/
def State.round (s : State) (constant word : UInt32) : State :=
  let s1 := rotateRight s.e 6 ^^^ rotateRight s.e 11 ^^^ rotateRight s.e 25
  let choice := (s.e &&& s.f) ^^^ (~~~s.e &&& s.g)
  let t1 := s.h + s1 + choice + constant + word
  let s0 := rotateRight s.a 2 ^^^ rotateRight s.a 13 ^^^ rotateRight s.a 22
  let majority := (s.a &&& s.b) ^^^ (s.a &&& s.c) ^^^ (s.b &&& s.c)
  ⟨t1 + s0 + majority, s.a, s.b, s.c, s.d + t1, s.e, s.f, s.g⟩

/-- The next word of the schedule, from the words so far in falling order. -/
def nextWord (reversed : List UInt32) : UInt32 :=
  let word (i : Nat) : UInt32 := reversed.getD i 0
  let w15 := word 14
  let w2 := word 1
  let s0 := rotateRight w15 7 ^^^ rotateRight w15 18 ^^^ (w15 >>> 3)
  let s1 := rotateRight w2 17 ^^^ rotateRight w2 19 ^^^ (w2 >>> 10)
  word 15 + s0 + word 6 + s1

/-- The schedule with `n` more words, in falling order. -/
def extendSchedule : Nat → List UInt32 → List UInt32
  | 0, reversed => reversed
  | n + 1, reversed => extendSchedule n (nextWord reversed :: reversed)

/-- The words after one block of 16 words. -/
def State.compress (s : State) (block : List UInt32) : State :=
  let schedule := (extendSchedule 48 block.reverse).reverse
  s.add ((roundConstants.zip schedule).foldl (fun t (constant, word) => t.round constant word) s)

/-! ## A message -/

/-- The words of four bytes each, the high byte first. -/
def wordsOfBytes : List UInt8 → List UInt32
  | a :: b :: c :: d :: rest =>
    (a.toUInt32 <<< 24 ||| b.toUInt32 <<< 16 ||| c.toUInt32 <<< 8 ||| d.toUInt32) ::
      wordsOfBytes rest
  | _ => []

/-- The `n` low bytes of a number, the high byte first. -/
def bytesOfNat : Nat → Nat → List UInt8
  | 0, _ => []
  | n + 1, value => UInt8.ofNat (value >>> (8 * n) % 256) :: bytesOfNat n value

/-- The message with a one bit, zeros up to the end of a block, and its length in bits. -/
def pad (message : List UInt8) : List UInt8 :=
  let length := message.length
  let zeros := (119 - length % 64) % 64
  message ++ 0x80 :: List.replicate zeros 0 ++ bytesOfNat 8 (length * 8)

/-- The state after `n` blocks of the words. -/
def digestBlocks : Nat → State → List UInt32 → State
  | 0, s, _ => s
  | n + 1, s, words => digestBlocks n (s.compress (words.take 16)) (words.drop 16)

/-- The hexadecimal digits of a word. -/
def hexWord (w : UInt32) : List Char :=
  let digit (i : Nat) : Char := Nat.digitChar (w.toNat >>> (4 * i) % 16)
  [digit 7, digit 6, digit 5, digit 4, digit 3, digit 2, digit 1, digit 0]

/-- The SHA-256 of bytes in small hexadecimal digits. -/
def sha256 (message : List UInt8) : List Char :=
  let words := wordsOfBytes (pad message)
  (digestBlocks (words.length / 16) .initial words).words.flatMap hexWord

/-- The SHA-256 of the UTF-8 bytes of a text in small hexadecimal digits. -/
def sha256Hex (text : String) : String := .ofList (sha256 text.toUTF8.toList)

end ProcedureCatalog.Digest
