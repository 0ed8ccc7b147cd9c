/-
# Texts read back from their bytes

* `firstChar_utf8EncodeChar` : the bytes of one character are read as this character.
* `decode?_encodeUtf8` : the bytes of a text are read as this text.
* `decodeFile?_encodeUtf8` : so are those of a file, which no byte order mark of another encoding
  can start.
-/
import Mathlib.Tactic.IntervalCases
import ProcedureCatalog.Proofs.Text.Order
import ProcedureCatalog.Yaml.Encoding

namespace ProcedureCatalog

namespace Text

/-! ## First bytes -/

theorem lead?_two {n : Nat} (hlow : 2 ≤ n) (hhigh : n < 32) :
    lead? (n + 0xC0) = some ⟨1, 0x80, 0xBF, n⟩ := by
  interval_cases n <;> rfl

/-- Behind the least first byte of three the next byte is not the least, since fewer bytes would do;
behind the one of the surrogates it is less than theirs. -/
theorem lead?_three {n : Nat} (h : n < 16) : lead? (n + 0xE0) =
    some ⟨2, if n = 0 then 0xA0 else 0x80, if n = 0xD then 0x9F else 0xBF, n⟩ := by
  interval_cases n <;> rfl

theorem lead?_four {n : Nat} (h : n < 5) : lead? (n + 0xF0) =
    some ⟨3, if n = 0 then 0x90 else 0x80, if n = 4 then 0x8F else 0xBF, n⟩ := by
  interval_cases n <;> rfl

theorem toNat_ofNat {n : Nat} (h : n < 256) : (UInt8.ofNat n).toNat = n :=
  UInt8.toNat_ofNat_of_lt' h

/-- A first byte of more than one byte. -/
theorem firstChar_of_lead {n count low high bits : Nat} (hn : n < 256) (hhigh : 0x80 ≤ n)
    (hlead : lead? n = some ⟨count, low, high, bits⟩) (bs : List UInt8) :
    firstChar (UInt8.ofNat n) bs = continueChar count low high bits 1 bs := by
  rw [firstChar, toNat_ofNat hn, if_neg (Nat.not_lt.2 hhigh), hlead]

/-- A byte in its range gives six more bits. -/
theorem continueChar_ofNat {count low high bits size n : Nat} (hn : n < 256)
    (h : low ≤ n ∧ n ≤ high) (bs : List UInt8) :
    continueChar (count + 1) low high bits size (UInt8.ofNat n :: bs) =
      continueChar count 0x80 0xBF (bits * 64 + (n - 0x80)) (size + 1) bs := by
  rw [continueChar, toNat_ofNat hn, if_pos]
  simpa using h

/-! ## Characters -/

/-- A character is read from its bytes, whatever follows them. -/
theorem firstChar_utf8EncodeChar (c : Char) (rest : List UInt8) :
    ∃ b more, String.utf8EncodeChar c = b :: more ∧ b.toNat < 0xF5 ∧
      firstChar b (more ++ rest) = ⟨some c, more.length + 1⟩ := by
  have hvalid : c.val.toNat < 0xD800 ∨ 0xDFFF < c.val.toNat ∧ c.val.toNat < 0x110000 := c.valid
  have hchar : Char.ofNat c.val.toNat = c := Char.ofNat_toNat c
  unfold String.utf8EncodeChar
  generalize c.val.toNat = v at hvalid hchar
  dsimp only
  split_ifs with hone htwo hthree
  · refine ⟨_, _, rfl, ?_, ?_⟩
    · rw [toNat_ofNat (by omega)]
      omega
    · rw [firstChar, toNat_ofNat (by omega), if_pos (by omega), hchar]
      rfl
  · have hbits : v / 64 % 32 * 64 + (v % 64 + 128 - 128) = v := by omega
    refine ⟨_, _, rfl, ?_, ?_⟩
    · rw [toNat_ofNat (by omega)]
      omega
    · rw [firstChar_of_lead (by omega) (by omega) (lead?_two (by omega) (by omega)),
        List.cons_append, continueChar_ofNat (by omega) (by omega), continueChar, hbits, hchar]
      rfl
  · have hbits :
        (v / 4096 % 16 * 64 + (v / 64 % 64 + 128 - 128)) * 64 + (v % 64 + 128 - 128) = v := by
      omega
    refine ⟨_, _, rfl, ?_, ?_⟩
    · rw [toNat_ofNat (by omega)]
      omega
    · rw [firstChar_of_lead (by omega) (by omega) (lead?_three (by omega)), List.cons_append,
        continueChar_ofNat (by omega) (by split_ifs <;> omega), List.cons_append,
        continueChar_ofNat (by omega) (by omega), continueChar, hbits, hchar]
      rfl
  · have hbits : ((v / 262144 % 8 * 64 + (v / 4096 % 64 + 128 - 128)) * 64 +
        (v / 64 % 64 + 128 - 128)) * 64 + (v % 64 + 128 - 128) = v := by
      omega
    refine ⟨_, _, rfl, ?_, ?_⟩
    · rw [toNat_ofNat (by omega)]
      omega
    · rw [firstChar_of_lead (by omega) (by omega) (lead?_four (by omega)), List.cons_append,
        continueChar_ofNat (by omega) (by split_ifs <;> omega), List.cons_append,
        continueChar_ofNat (by omega) (by omega), List.cons_append,
        continueChar_ofNat (by omega) (by omega), continueChar, hbits, hchar]
      rfl

/-! ## Texts -/

/-- The bytes that belong to a character are passed over. -/
theorem decodeAfter_length (more rest : List UInt8) :
    decodeAfter more.length (more ++ rest) = decodeAfter 0 rest := by
  induction more with
  | nil => rfl
  | cons b more ih => exact ih

theorem decodeAfter_encodeUtf8 (cs : List Char) :
    decodeAfter 0 (encodeUtf8 cs) = cs.map some := by
  induction cs with
  | nil => rfl
  | cons c cs ih =>
    obtain ⟨b, more, hbytes, -, hfirst⟩ := firstChar_utf8EncodeChar c (encodeUtf8 cs)
    rw [encodeUtf8_cons, hbytes, List.cons_append, decodeAfter]
    simp only [hfirst, Nat.add_sub_cancel, decodeAfter_length, ih, List.map_cons]

/-- The bytes of a text are read as this text. -/
theorem decode?_encodeUtf8 (cs : List Char) : decode? (encodeUtf8 cs) = some cs := by
  have hread : cs.mapM (fun c => (pure c : Option Char)) = pure (cs.map fun c => c) :=
    List.mapM_pure
  rw [decode?, decodeAfter_encodeUtf8, List.mapM_map]
  rwa [List.map_id'] at hread

end Text

namespace Yaml

/-- The bytes of a text are no file in another encoding. -/
theorem decodeFile?_encodeUtf8 (cs : List Char) :
    decodeFile? (Text.encodeUtf8 cs) = some cs := by
  have hfirst : ∀ b ∈ (Text.encodeUtf8 cs).head?, b ≠ 0xFF ∧ b ≠ 0xFE := by
    cases cs with
    | nil => simp [Text.encodeUtf8_nil]
    | cons c cs =>
      obtain ⟨b, more, hbytes, hlt, -⟩ := Text.firstChar_utf8EncodeChar c []
      rw [Text.encodeUtf8_cons, hbytes]
      intro d hd
      obtain rfl := Option.some.inj hd
      constructor <;> rintro rfl <;> exact absurd hlt (by decide)
  rw [decodeFile?]
  · exact Text.decode?_encodeUtf8 cs
  · exact fun rest heq => (hfirst 0xFF (by rw [heq]; rfl)).1 rfl
  · exact fun rest heq => (hfirst 0xFE (by rw [heq]; rfl)).2 rfl

end Yaml

end ProcedureCatalog
