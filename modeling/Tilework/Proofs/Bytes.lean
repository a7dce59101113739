import Tilework.Bytes

namespace Tilework.Bytes

theorem toList_loop (bytes : ByteArray) (i : Nat) (before : List UInt8) :
    ByteArray.toList.loop bytes i before = before.reverse ++ bytes.data.toList.drop i := by
  induction i, before using ByteArray.toList.loop.induct bytes with
  | case1 i before inside ih =>
    have place : i < bytes.data.toList.length := inside
    have entry : bytes.get! i = bytes.data.toList[i] := by
      show bytes.data[i]! = bytes.data.toList[i]
      rw [getElem!_pos bytes.data i inside, Array.getElem_toList]
    unfold ByteArray.toList.loop
    rw [if_pos inside, ih, List.drop_eq_getElem_cons place, List.reverse_cons, List.append_assoc, entry]
    rfl
  | case2 i before past =>
    have place : bytes.data.toList.length ≤ i := Nat.le_of_not_lt past
    unfold ByteArray.toList.loop
    rw [if_neg past, List.drop_eq_nil_of_le place, List.append_nil]

theorem ofText_eq (text : String) : ofText text = text.toByteArray.data.toList := by
  simp [ofText, ByteArray.toList, toList_loop]

theorem text?_eq_some {bytes : Bytes} {text : String} : text? bytes = some text ↔ bytes = ofText text := by
  rw [ofText_eq, text?, String.fromUTF8?]
  constructor
  · intro h
    split at h
    · cases h
      rfl
    · cases h
  · rintro rfl
    rw [dif_pos text.isValidUTF8]
    rfl

theorem text?_ofText (text : String) : text? (ofText text) = some text := text?_eq_some.mpr rfl

end Tilework.Bytes
