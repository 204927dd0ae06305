import SchemaWire.Bytes

/-! Text as bytes in UTF-8. -/

set_option autoImplicit false

namespace SchemaWire.Bytes

def ofText (text : String) : Bytes := text.toUTF8.toList

def toText? (bytes : Bytes) : Option String := String.fromUTF8? ⟨bytes.toArray⟩

theorem toListLoop_eq (array : ByteArray) (i : Nat) (taken : Bytes) :
    ByteArray.toList.loop array i taken = taken.reverse ++ array.data.toList.drop i := by
  induction i, taken using ByteArray.toList.loop.induct array with
  | case1 i taken inside ih =>
    have bounded : i < array.data.toList.length := by simpa using inside
    have byte : array.get! i = array.data.toList[i] := by
      rw [Array.getElem_toList]
      exact getElem!_pos array.data i inside
    rw [ByteArray.toList.loop, if_pos inside, ih, byte, List.drop_eq_getElem_cons bounded]
    simp
  | case2 i taken outside =>
    have exhausted : array.data.toList.length ≤ i := by simpa using outside
    rw [ByteArray.toList.loop, if_neg outside, List.drop_eq_nil_of_le exhausted, List.append_nil]

@[simp] theorem toText?_ofText (text : String) : toText? (ofText text) = some text := by
  have whole : (⟨(ofText text).toArray⟩ : ByteArray) = text.toByteArray := by
    simp [ofText, ByteArray.toList, toListLoop_eq]
  unfold toText? String.fromUTF8?
  rw [whole, dif_pos text.isValidUTF8]
  rfl

end SchemaWire.Bytes
