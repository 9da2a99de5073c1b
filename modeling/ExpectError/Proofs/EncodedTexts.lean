import ExpectError.Proofs.Utf8Order
import ExpectError.Text.Utf8

/-!
# Texts and their bytes

A text is what its bytes say, and no other bytes say it (`ofBytes?_eq_some_iff`). The bytes of a
text are those of its characters one after another (`toList_toUTF8_ofList`).
-/

namespace ExpectError.Text

theorem toList_loop_eq (bytes : ByteArray) (i : ℕ) (read : List UInt8) :
    ByteArray.toList.loop bytes i read = read.reverse ++ bytes.data.toList.drop i := by
  rw [ByteArray.toList.loop]
  by_cases h : i < bytes.size
  · have hbound : i < bytes.data.toList.length := by simpa using h
    have hget : bytes.get! i = bytes.data.toList[i] := by
      simp [ByteArray.get!, getElem!_pos bytes.data i h]
    rw [if_pos h, toList_loop_eq bytes (i + 1), hget, List.reverse_cons, List.append_assoc,
      List.singleton_append, ← List.drop_eq_getElem_cons]
  · rw [if_neg h, List.drop_eq_nil_of_le (by simpa using h), List.append_nil]
termination_by bytes.size - i

theorem toList_toUTF8 (text : String) : text.toUTF8.toList = bytesOf text := by
  rw [ByteArray.toList, toList_loop_eq]
  rfl

theorem toList_toUTF8_ofList (cs : List Char) :
    (String.ofList cs).toUTF8.toList = cs.flatMap String.utf8EncodeChar := by
  rw [toList_toUTF8, bytesOf_eq_flatMap, String.toList_ofList]

theorem ofBytes?_eq_some_iff (bytes : List UInt8) (text : String) :
    ofBytes? bytes = some text ↔ bytes = bytesOf text := by
  have hbytes : bytes = bytesOf text ↔ (⟨bytes.toArray⟩ : ByteArray) = text.toUTF8 := by
    constructor
    · rintro rfl
      rfl
    · intro h
      rw [bytesOf, ← h]
  rw [hbytes, ofBytes?, String.fromUTF8?]
  split
  next hvalid =>
    constructor
    · intro h
      cases h
      rfl
    · intro h
      congr 1
      exact String.toByteArray_inj.1 h
  next hvalid =>
    constructor
    · intro h
      cases h
    · intro h
      rw [h] at hvalid
      exact absurd text.isValidUTF8 hvalid

@[simp] theorem ofBytes?_bytesOf (text : String) : ofBytes? (bytesOf text) = some text :=
  (ofBytes?_eq_some_iff _ _).2 rfl

@[simp] theorem bytesOf_inj {a b : String} : bytesOf a = bytesOf b ↔ a = b := by
  constructor
  · intro h
    simpa using congrArg ofBytes? h
  · exact congrArg bytesOf

end ExpectError.Text
