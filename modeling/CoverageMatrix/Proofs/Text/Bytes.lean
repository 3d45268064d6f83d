import CoverageMatrix.Text.Hex
import CoverageMatrix.Text.Utf8

/-! Texts and bytes that are told apart by their hexadecimal form and by their UTF-8 form. -/
namespace CoverageMatrix.Text

namespace Hex

theorem value?_digit : ∀ n < 16, value? (digit n) = some n := by
  decide

theorem decode?_encode (bytes : List UInt8) : decode? (encode bytes) = some bytes := by
  induction bytes with
  | nil => rfl
  | cons b bytes ih =>
    have below : b.toNat < 256 := b.toNat_lt
    have high := value?_digit (b.toNat / 16) (by omega)
    have low := value?_digit (b.toNat % 16) (by omega)
    have byte : UInt8.ofNat (b.toNat / 16 * 16 + b.toNat % 16) = b := by
      rw [Nat.div_add_mod', UInt8.ofNat_toNat]
    have shape : encode (b :: bytes) =
        digit (b.toNat / 16) :: digit (b.toNat % 16) :: encode bytes := rfl
    simp only [shape, decode?, high, low, ih, Option.bind_eq_bind, Option.bind_some, byte]
    rfl

theorem encode_injective {a b : List UInt8} (h : encode a = encode b) : a = b := by
  have read := congrArg decode? h
  rw [decode?_encode, decode?_encode] at read
  exact Option.some.inj read

theorem length_encode (bytes : List UInt8) : (encode bytes).length = 2 * bytes.length := by
  induction bytes with
  | nil => rfl
  | cons b bytes ih =>
    have shape : (encode (b :: bytes)).length = (encode bytes).length + 2 := rfl
    rw [shape, ih, List.length_cons, Nat.mul_succ]

end Hex

namespace Utf8

theorem toList_loop_eq (bytes : ByteArray) (i : Nat) (before : List UInt8) :
    ByteArray.toList.loop bytes i before = before.reverse ++ bytes.data.toList.drop i := by
  induction i, before using ByteArray.toList.loop.induct bytes with
  | case1 i before inside ih =>
    have there : i < bytes.data.toList.length := by simpa using inside
    have byte : bytes.get! i = bytes.data.toList[i] := by
      simp only [ByteArray.get!, Array.getElem_toList]
      exact getElem!_pos bytes.data i (by simpa using inside)
    rw [ByteArray.toList.loop, if_pos inside, ih, List.drop_eq_getElem_cons there, byte]
    simp
  | case2 i before outside =>
    have none : bytes.data.toList.length ≤ i := by simpa using outside
    rw [ByteArray.toList.loop, if_neg outside, List.drop_eq_nil_of_le none, List.append_nil]

theorem encode_eq (text : String) : encode text = text.toUTF8.data.toList := by
  rw [encode, ByteArray.toList, toList_loop_eq, List.reverse_nil, List.nil_append, List.drop_zero]

theorem encode_injective {s t : String} (h : encode s = encode t) : s = t := by
  rw [encode_eq, encode_eq] at h
  have data : s.toUTF8.data = t.toUTF8.data := Array.toList_inj.mp h
  exact String.toByteArray_inj.mp (ByteArray.ext data)

theorem ofBytes?_encode (text : String) : ofBytes? (encode text).toByteArray = some text := by
  have bytes : (encode text).toByteArray = text.toByteArray := by
    apply ByteArray.ext
    rw [encode_eq]
    simp
  rw [bytes, ofBytes?, String.fromUTF8?, dif_pos text.isValidUTF8]
  rfl

theorem encode_ofList (chars : List Char) :
    encode (String.ofList chars) = chars.flatMap String.utf8EncodeChar := by
  rw [encode_eq]
  simp [List.utf8Encode]

/-- In a text of characters that take one byte each, the first bytes are the first characters. -/
theorem take_encode (text : String) (n : Nat) (narrow : ∀ c ∈ text.toList, c.utf8Size = 1) :
    (encode text).take n = encode (String.ofList (text.toList.take n)) := by
  obtain ⟨chars, rfl⟩ : ∃ chars, text = String.ofList chars := ⟨text.toList, by simp⟩
  rw [String.toList_ofList] at narrow ⊢
  rw [encode_ofList, encode_ofList]
  induction chars generalizing n with
  | nil => simp
  | cons c chars ih =>
    obtain ⟨one, others⟩ := List.forall_mem_cons.mp narrow
    rw [← String.length_utf8EncodeChar] at one
    obtain ⟨byte, eq⟩ := List.length_eq_one_iff.mp one
    cases n with
    | zero => rfl
    | succ n => simp [eq, ih n others]

end Utf8
end CoverageMatrix.Text
