/-
# The order of texts

Texts are compared by the code points of their characters. The comparison of their UTF-8 bytes gives
the same order.

* `pairwise_orderedSet` : an ordered list of names rises.
* `encodeUtf8_cons` : the bytes of a text, character by character.
* `utf8EncodeChar_append_lt` : the bytes of two characters decide, whatever follows them.
* `encodeUtf8_lt_iff` : the two orders agree.
-/
import Mathlib.Data.List.Lex
import Mathlib.Data.String.Basic
import ProcedureCatalog.Text.Ordered
import ProcedureCatalog.Text.Utf8

namespace ProcedureCatalog.Text

/-! ## Ordered lists -/

/-- One more name keeps the list rising. -/
theorem pairwise_orderedInsert {names : List String} (h : names.Pairwise (· < ·)) (name : String) :
    (orderedInsert name names).Pairwise (· < ·) := by
  induction names with
  | nil => exact List.pairwise_singleton _ _
  | cons first names ih =>
    obtain ⟨hfirst, hnames⟩ := List.pairwise_cons.1 h
    unfold orderedInsert
    split
    · next hlt =>
      refine List.Pairwise.cons (fun n hn => ?_) h
      rcases List.mem_cons.1 hn with rfl | hn
      · exact hlt
      · exact lt_trans hlt (hfirst n hn)
    · next hnlt =>
      split
      · exact h
      · next hne =>
        have hlt : first < name := lt_of_le_of_ne (not_lt.1 hnlt) (Ne.symm hne)
        refine List.Pairwise.cons (fun n hn => ?_) (ih hnames)
        rcases mem_orderedInsert.1 hn with rfl | hn
        · exact hlt
        · exact hfirst n hn

/-- An ordered list of names rises. -/
theorem pairwise_orderedSet (names : List String) : (orderedSet names).Pairwise (· < ·) := by
  induction names with
  | nil => exact List.Pairwise.nil
  | cons name names ih => exact pairwise_orderedInsert ih name

/-! ## Bytes of a text -/

/-- Reading an array of bytes from a position on gives what stands there. -/
theorem toList_loop_eq (bytes : ByteArray) (i : Nat) (read : List UInt8) :
    ByteArray.toList.loop bytes i read = read.reverse ++ bytes.data.toList.drop i := by
  fun_induction ByteArray.toList.loop bytes i read with
  | case1 i read h ih =>
    have hi : i < bytes.data.toList.length := by simpa using h
    rw [ih, List.drop_eq_getElem_cons hi]
    simp [ByteArray.get!, h]
  | case2 i read h =>
    rw [List.drop_eq_nil_of_le (by simpa using Nat.le_of_not_lt h), List.append_nil]

/-- The bytes of a single character. -/
theorem toList_toUTF8_toString (c : Char) : c.toString.toUTF8.toList = String.utf8EncodeChar c := by
  rw [Char.toString_eq_singleton, String.toUTF8_eq_toByteArray, String.toByteArray_singleton,
    List.utf8Encode_singleton, ByteArray.toList, toList_loop_eq, List.data_toByteArray]
  simp

theorem encodeUtf8_nil : encodeUtf8 [] = [] := rfl

theorem encodeUtf8_cons (c : Char) (cs : List Char) :
    encodeUtf8 (c :: cs) = String.utf8EncodeChar c ++ encodeUtf8 cs := by
  rw [encodeUtf8, List.flatMap_cons, toList_toUTF8_toString, ← encodeUtf8]

/-! ## Order -/

theorem ofNat_lt_ofNat_iff {m n : Nat} (hm : m < 256) (hn : n < 256) :
    UInt8.ofNat m < UInt8.ofNat n ↔ m < n := by
  rw [UInt8.lt_iff_toNat_lt, UInt8.toNat_ofNat_of_lt' hm, UInt8.toNat_ofNat_of_lt' hn]

theorem ofNat_eq_ofNat_iff {m n : Nat} (hm : m < 256) (hn : n < 256) :
    UInt8.ofNat m = UInt8.ofNat n ↔ m = n := by
  rw [← UInt8.toNat_inj, UInt8.toNat_ofNat_of_lt' hm, UInt8.toNat_ofNat_of_lt' hn]

/-- The bytes of the lesser of two characters are less, whatever follows them. -/
theorem utf8EncodeChar_append_lt {c d : Char} (h : c < d) (s t : List UInt8) :
    String.utf8EncodeChar c ++ s < String.utf8EncodeChar d ++ t := by
  have hcd : c.val.toNat < d.val.toNat := h
  have hd : d.val.toNat < 0x110000 := by
    have hvalid := d.valid
    unfold UInt32.isValidChar Nat.isValidChar at hvalid
    omega
  -- digits of base 64, each behind the one before it
  have hthird : ∀ n, n / 4096 = n / 64 / 64 := by omega
  have hfourth : ∀ n, n / 262144 = n / 64 / 64 / 64 := by omega
  unfold String.utf8EncodeChar
  dsimp only
  -- a character of fewer bytes has the lesser first byte; with as many bytes the digits decide
  split_ifs <;>
    simp (disch := omega) only [List.cons_append, List.nil_append, List.cons_lt_cons_iff,
      ofNat_lt_ofNat_iff, ofNat_eq_ofNat_iff, hthird, hfourth] <;> omega

/-- Texts in order have their bytes in order. -/
theorem encodeUtf8_lt {cs ds : List Char} (h : cs < ds) : encodeUtf8 cs < encodeUtf8 ds := by
  induction cs generalizing ds with
  | nil =>
    cases ds with
    | nil => exact absurd h (List.not_lt_nil _)
    | cons d ds =>
      rw [encodeUtf8_cons, encodeUtf8_nil]
      have hsome : String.utf8EncodeChar d ≠ [] := String.utf8EncodeChar_ne_nil
      obtain ⟨first, rest, hbytes⟩ := List.exists_cons_of_ne_nil hsome
      rw [hbytes, List.cons_append]
      exact List.nil_lt_cons _ _
  | cons c cs ih =>
    cases ds with
    | nil => exact absurd h (List.not_lt_nil _)
    | cons d ds =>
      rw [encodeUtf8_cons, encodeUtf8_cons]
      rcases List.cons_lt_cons_iff.1 h with hlt | ⟨rfl, hrest⟩
      · exact utf8EncodeChar_append_lt hlt _ _
      · exact List.append_left_lt (ih hrest)

/-- **The order of texts is that of their bytes.** -/
theorem encodeUtf8_lt_iff {a b : String} :
    encodeUtf8 a.toList < encodeUtf8 b.toList ↔ a < b := by
  constructor
  · intro h
    rcases lt_trichotomy a b with hlt | rfl | hgt
    · exact hlt
    · exact absurd h (List.lt_irrefl _)
    · exact absurd h (List.lt_asymm (encodeUtf8_lt (String.lt_iff_toList_lt.1 hgt)))
  · exact fun h => encodeUtf8_lt (String.lt_iff_toList_lt.1 h)

end ProcedureCatalog.Text
