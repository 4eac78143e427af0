import Mathlib.Data.String.Basic

/-!
# The order of bytes

Texts are compared by their characters.  UTF-8 is made so that comparing the bytes comes to
the same: of two different characters the smaller one has the smaller encoding, and neither
encoding is the beginning of the other.
-/

namespace Overlay.ByteOrder

/-- The bytes of a text. -/
def bytes (text : String) : List UInt8 := text.toUTF8.data.toList

/-- The bytes of a text are those of its characters. -/
theorem bytes_eq_flatMap (text : String) :
    bytes text = text.toList.flatMap String.utf8EncodeChar := by
  have spelled : text.toByteArray = text.toList.utf8Encode := by
    rw [← String.toByteArray_ofList, String.ofList_toList]
  rw [bytes, String.toUTF8, spelled, List.utf8Encode, List.toList_data_toByteArray]

/-- Numbers are compared by their digits to the base 64, the most significant first. -/
theorem sextets_lt {left right : Nat} (smaller : left < right) :
    left / 262144 < right / 262144 ∨ left / 262144 = right / 262144 ∧
      (left / 4096 % 64 < right / 4096 % 64 ∨ left / 4096 % 64 = right / 4096 % 64 ∧
        (left / 64 % 64 < right / 64 % 64 ∨ left / 64 % 64 = right / 64 % 64 ∧
          left % 64 < right % 64)) := by
  have split : ∀ number : Nat, number = 262144 * (number / 262144) +
      4096 * (number / 4096 % 64) + 64 * (number / 64 % 64) + number % 64 := by
    omega
  rw [split left, split right] at smaller
  omega

theorem ofNat_inj {left right : Nat} (leftByte : left < 256) (rightByte : right < 256) :
    UInt8.ofNat left = UInt8.ofNat right ↔ left = right := by
  rw [← UInt8.toNat_inj, UInt8.toNat_ofNat', UInt8.toNat_ofNat', Nat.mod_eq_of_lt leftByte,
    Nat.mod_eq_of_lt rightByte]

theorem ofNat_lt {left right : Nat} (leftByte : left < 256) (rightByte : right < 256) :
    UInt8.ofNat left < UInt8.ofNat right ↔ left < right :=
  UInt8.ofNat_lt_iff_lt leftByte rightByte

/-- A smaller character makes the bytes smaller, whatever follows it. -/
theorem utf8EncodeChar_append_lt {left right : Char} (smaller : left < right)
    (first second : List UInt8) :
    String.utf8EncodeChar left ++ first < String.utf8EncodeChar right ++ second := by
  have order : left.val.toNat < right.val.toNat := smaller
  have bound : right.val.toNat < 0x110000 := by
    rcases right.valid with low | high
    · exact Nat.lt_trans low (by decide)
    · exact high.2
  simp only [String.utf8EncodeChar]
  generalize left.val.toNat = small at order
  generalize right.val.toNat = great at order bound
  by_cases four : 0xffff < small
  case pos =>
    have three : ¬ small ≤ 0xffff := by omega
    have two : ¬ small ≤ 0x7ff := by omega
    have one : ¬ small ≤ 0x7f := by omega
    have alsoThree : ¬ great ≤ 0xffff := by omega
    have alsoTwo : ¬ great ≤ 0x7ff := by omega
    have alsoOne : ¬ great ≤ 0x7f := by omega
    simp (disch := omega) only [one, two, three, alsoOne, alsoTwo, alsoThree, if_false,
      List.cons_append, List.nil_append, List.cons_lt_cons_iff, ofNat_lt, ofNat_inj]
    rcases sextets_lt order with lead | ⟨lead, second | ⟨second, third | ⟨third, fourth⟩⟩⟩
    · exact .inl (by omega)
    · exact .inr ⟨by omega, .inl (by omega)⟩
    · exact .inr ⟨by omega, .inr ⟨by omega, .inl (by omega)⟩⟩
    · exact .inr ⟨by omega, .inr ⟨by omega, .inr ⟨by omega, .inl (by omega)⟩⟩⟩
  case neg =>
    -- the first byte tells how many there are, so only encodings of one length go on to others
    split_ifs <;> simp (disch := omega) only [List.cons_append, List.nil_append,
      List.cons_lt_cons_iff, ofNat_lt, ofNat_inj] <;> omega

theorem flatMap_lt_of_lt {left right : List Char} (smaller : left < right) :
    left.flatMap String.utf8EncodeChar < right.flatMap String.utf8EncodeChar := by
  induction left generalizing right with
  | nil =>
      cases right with
      | nil => exact (List.not_lt_nil _ smaller).elim
      | cons char rest =>
          have filled : String.utf8EncodeChar char ≠ [] := String.utf8EncodeChar_ne_nil
          obtain ⟨byte, more, shape⟩ := List.exists_cons_of_ne_nil filled
          rw [List.flatMap_nil, List.flatMap_cons, shape]
          exact List.nil_lt_cons byte _
  | cons first rest ih =>
      cases right with
      | nil => exact (List.not_lt_nil _ smaller).elim
      | cons second others =>
          rw [List.flatMap_cons, List.flatMap_cons]
          rcases List.cons_lt_cons_iff.mp smaller with less | ⟨rfl, less⟩
          · exact utf8EncodeChar_append_lt less _ _
          · exact List.append_left_lt (ih less)

/-- Texts are ordered as their bytes are. -/
theorem lt_iff_bytes_lt {left right : String} : left < right ↔ bytes left < bytes right := by
  rw [String.lt_iff_toList_lt, bytes_eq_flatMap, bytes_eq_flatMap]
  refine ⟨flatMap_lt_of_lt, fun smaller => ?_⟩
  rcases lt_trichotomy left.toList right.toList with less | same | greater
  · exact less
  · rw [same] at smaller
    exact (List.lt_irrefl _ smaller).elim
  · exact (List.lt_asymm smaller (flatMap_lt_of_lt greater)).elim

theorem le_iff_bytes_le {left right : String} : left ≤ right ↔ bytes left ≤ bytes right :=
  not_iff_not.mp (by rw [String.not_le, List.not_le, lt_iff_bytes_lt])

end Overlay.ByteOrder
