import Mathlib.Tactic.SplitIfs

/-!
# `RegisterMachine.Proofs.Text.ByteOrder` — the order of strings is that of their bytes

Strings are ordered by the code points of their characters.  In UTF-8 this is the order
of the bytes as well (`lt_iff_bytes_lt`): the first byte of a longer form is greater than
that of any shorter one, and forms of one length have the digits of the code point in
their bytes, the highest first.

    bytes   code points          first byte
    1       up to 0x7f           the code point
    2       up to 0x7ff          192 and above
    3       up to 0xffff         224 and above
    4       all others           240 and above
-/

namespace RegisterMachine.Text

/-- The bytes of a string in UTF-8 -/
def bytes (s : String) : List UInt8 :=
  s.toUTF8.data.toList

theorem bytes_eq_flatMap (s : String) : bytes s = s.toList.flatMap String.utf8EncodeChar := by
  rw [bytes, String.toUTF8_eq_toByteArray, ← String.utf8Encode_toList, List.utf8Encode,
    List.toList_data_toByteArray]

/-! ## Characters -/

theorem ofNat_lt_iff {a b : Nat} (ha : a < 256) (hb : b < 256) :
    UInt8.ofNat a < UInt8.ofNat b ↔ a < b := by
  rw [UInt8.lt_iff_toNat_lt, UInt8.toNat_ofNat_of_lt' ha, UInt8.toNat_ofNat_of_lt' hb]

theorem ofNat_eq_iff {a b : Nat} (ha : a < 256) (hb : b < 256) :
    UInt8.ofNat a = UInt8.ofNat b ↔ a = b := by
  rw [← UInt8.toNat_inj, UInt8.toNat_ofNat_of_lt' ha, UInt8.toNat_ofNat_of_lt' hb]

/-- The bytes of a character come before those of a greater one, whatever follows them -/
theorem utf8EncodeChar_append_lt {c d : Char} (h : c < d) (bs bs' : List UInt8) :
    String.utf8EncodeChar c ++ bs < String.utf8EncodeChar d ++ bs' := by
  have hlt : c.val.toNat < d.val.toNat := h
  have hmax : d.val.toNat < 1114112 := by
    rcases d.valid with hd | hd <;> omega
  -- one digit of six bits is taken off after the other, so that the digits can be compared
  have htwo : ∀ n, n / 4096 = n / 64 / 64 := fun n => by omega
  have hthree : ∀ n, n / 262144 = n / 64 / 64 / 64 := fun n => by omega
  simp only [String.utf8EncodeChar, htwo, hthree]
  generalize c.val.toNat = a at hlt
  generalize d.val.toNat = b at hlt hmax
  split_ifs <;>
    simp (disch := omega) only
      [List.cons_append, List.cons_lt_cons_iff, ofNat_lt_iff, ofNat_eq_iff] <;>
    omega

/-! ## Strings -/

/-- The bytes of characters come before those of greater ones -/
theorem flatMap_lt {cs ds : List Char} (h : cs < ds) :
    cs.flatMap String.utf8EncodeChar < ds.flatMap String.utf8EncodeChar := by
  induction h with
  | @nil d ds =>
    rw [List.flatMap_nil, List.flatMap_cons]
    cases hd : String.utf8EncodeChar d with
    | nil => exact absurd hd String.utf8EncodeChar_ne_nil
    | cons b bs => exact List.nil_lt_cons b _
  | cons _ ih => exact List.append_left_lt ih
  | rel hlt => exact utf8EncodeChar_append_lt hlt _ _

/-- Strings are in the order of their bytes -/
theorem lt_iff_bytes_lt {s t : String} : s < t ↔ bytes s < bytes t := by
  have hbytes : ∀ {s t : String}, s < t → bytes s < bytes t := by
    intro s t h
    rw [bytes_eq_flatMap, bytes_eq_flatMap]
    exact flatMap_lt (String.lt_iff.1 h)
  constructor
  · exact hbytes
  · intro h
    apply Decidable.byContradiction
    intro hst
    by_cases hts : t < s
    · exact List.lt_asymm h (hbytes hts)
    · obtain rfl : s = t := String.le_antisymm (String.not_lt.1 hts) (String.not_lt.1 hst)
      exact List.lt_irrefl _ h

end RegisterMachine.Text
