import Mathlib.Data.List.Basic

/-!
# Texts as bytes

The order of texts is that of their bytes (`Text.bytes_lt_iff`): of two characters, the one with the lower
code comes first in bytes too, whatever follows it. ASCII texts have as many bytes as characters.
-/

namespace RecordBridge.Text

/-- The bytes of a text. -/
def bytes (s : String) : List UInt8 :=
  s.toByteArray.data.toList

theorem bytes_ofList (s : List Char) :
    bytes (String.ofList s) = s.flatMap String.utf8EncodeChar := by
  rw [bytes, String.toByteArray_ofList, List.utf8Encode, List.toList_data_toByteArray]

theorem bytes_eq_flatMap (s : String) : bytes s = s.toList.flatMap String.utf8EncodeChar := by
  rw [← bytes_ofList, String.ofList_toList]

/-! ## Order -/

theorem ofNat_cons_lt {a b : Nat} (ha : a < 256) (hb : b < 256) {x y : List UInt8} :
    UInt8.ofNat a :: x < UInt8.ofNat b :: y ↔ a < b ∨ a = b ∧ x < y := by
  rw [List.cons_lt_cons_iff, UInt8.lt_iff_toNat_lt, ← UInt8.toNat_inj, UInt8.toNat_ofNat_of_lt' ha,
    UInt8.toNat_ofNat_of_lt' hb]

/-- Of two characters, the bytes of the lower one come first, whatever follows. -/
theorem encode_append_lt {c d : Char} (h : c < d) (x y : List UInt8) :
    String.utf8EncodeChar c ++ x < String.utf8EncodeChar d ++ y := by
  have hlt : c.val.toNat < d.val.toNat := h
  have hbound : d.val.toNat < 0x110000 := by
    have hvalid : d.val.toNat < 0xD800 ∨ 0xDFFF < d.val.toNat ∧ d.val.toNat < 0x110000 := d.valid
    omega
  rw [String.utf8EncodeChar, String.utf8EncodeChar]
  generalize c.val.toNat = n at hlt
  generalize d.val.toNat = m at hlt hbound
  have hn : n / 262144 / 8 = 0 := by omega
  have hm : m / 262144 / 8 = 0 := by omega
  -- The first byte tells how many there are; of as many bytes, each holds some digits of the code.
  repeat' split
  all_goals
    simp (disch := omega) only [List.cons_append, List.nil_append, ofNat_cons_lt]
    omega

theorem encode_ne_nil (c : Char) : String.utf8EncodeChar c ≠ [] := by
  have hlength : (String.utf8EncodeChar c).length = c.utf8Size := String.length_utf8EncodeChar c
  intro hnil
  rw [hnil] at hlength
  exact absurd hlength (Nat.ne_of_lt c.utf8Size_pos)

/-- The bytes of texts are in the order of the texts. -/
theorem flatMap_encode_lt {s t : List Char} (h : s < t) :
    s.flatMap String.utf8EncodeChar < t.flatMap String.utf8EncodeChar := by
  induction h with
  | @nil c rest =>
    obtain ⟨b, more, hbytes⟩ := List.exists_cons_of_ne_nil (encode_ne_nil c)
    rw [List.flatMap_nil, List.flatMap_cons, hbytes]
    exact List.nil_lt_cons _ _
  | rel h => exact encode_append_lt h _ _
  | cons _ ih => exact List.append_left_lt ih

/-- **The order of texts is that of their bytes.** -/
theorem bytes_lt_iff {s t : String} : bytes s < bytes t ↔ s < t := by
  have hmono : ∀ {a b : String}, a < b → bytes a < bytes b := by
    intro a b h
    rw [bytes_eq_flatMap, bytes_eq_flatMap]
    exact flatMap_encode_lt h
  refine ⟨fun h => ?_, hmono⟩
  by_contra hnot
  by_cases heq : s = t
  · exact List.lt_irrefl _ (heq ▸ h)
  · have hgt : t < s := by
      by_contra hnot'
      exact heq (String.le_antisymm (String.not_lt.mp hnot') (String.not_lt.mp hnot))
    exact List.lt_asymm h (hmono hgt)

/-! ## Size -/

/-- Each ASCII character takes one byte. -/
theorem utf8ByteSize_ofList {s : List Char} (h : ∀ c ∈ s, c.toNat < 128) :
    (String.ofList s).utf8ByteSize = s.length := by
  have hone : s.map Char.utf8Size = s.map fun _ => 1 := by
    refine List.map_congr_left fun c hc => ?_
    rw [Char.utf8Size_eq_one_iff, UInt32.le_iff_toNat_le]
    exact Nat.le_of_lt_succ (h c hc)
  have hsize : (String.ofList s).utf8ByteSize = (bytes (String.ofList s)).length := rfl
  rw [hsize, bytes_ofList, List.length_flatMap]
  simp only [String.length_utf8EncodeChar, hone]
  simp

end RecordBridge.Text
