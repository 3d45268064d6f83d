/-!
Text as bytes. A text is written as UTF-8; bytes that are not UTF-8 are read leniently, one
replacement character for each longest run that could have begun a character.
-/
namespace CoverageMatrix.Text.Utf8

def encode (text : String) : List UInt8 :=
  text.toUTF8.toList

/-- What the first byte of a character promises. -/
structure Lead where
  /-- How many bytes follow the first one. -/
  tail : Nat
  /-- The bits that the first byte contributes. -/
  bits : Nat
  low : UInt8
  /-- The largest allowed second byte. -/
  high : UInt8

/-- Reads a first byte; bytes that begin no character give `none`. The bounds on the second byte
leave out overlong forms, surrogates and values above U+10FFFF. -/
def lead? (b : UInt8) : Option Lead :=
  if b < 0x80 then some ⟨0, b.toNat, 0, 0⟩
  else if b < 0xC2 then none
  else if b < 0xE0 then some ⟨1, b.toNat - 0xC0, 0x80, 0xBF⟩
  else if b = 0xE0 then some ⟨2, 0, 0xA0, 0xBF⟩
  else if b = 0xED then some ⟨2, 0xD, 0x80, 0x9F⟩
  else if b < 0xF0 then some ⟨2, b.toNat - 0xE0, 0x80, 0xBF⟩
  else if b = 0xF0 then some ⟨3, 0, 0x90, 0xBF⟩
  else if b < 0xF4 then some ⟨3, b.toNat - 0xF0, 0x80, 0xBF⟩
  else if b = 0xF4 then some ⟨3, 4, 0x80, 0x8F⟩
  else none

/-- Takes up to `n` continuation bytes: whether all were there, their value, and the rest. -/
def continuation : Nat → UInt8 → UInt8 → Nat → List UInt8 → Bool × Nat × List UInt8
  | 0, _, _, acc, bytes => (true, acc, bytes)
  | _ + 1, _, _, acc, [] => (false, acc, [])
  | n + 1, low, high, acc, b :: rest =>
    if low ≤ b && b ≤ high then continuation n 0x80 0xBF (acc * 64 + (b.toNat - 0x80)) rest
    else (false, acc, b :: rest)

theorem length_continuation_le (n : Nat) (low high : UInt8) (acc : Nat) (bytes : List UInt8) :
    (continuation n low high acc bytes).2.2.length ≤ bytes.length := by
  induction n generalizing low high acc bytes with
  | zero => simp [continuation]
  | succ n ih =>
    cases bytes with
    | nil => simp [continuation]
    | cons b rest =>
      simp only [continuation]
      split
      · exact Nat.le_trans (ih ..) (by simp)
      · simp

/-- The character that stands for bytes that are no text. -/
def replacement : Char := '\uFFFD'

/-- Reads bytes as characters, with a replacement character for each ill-formed run. -/
def decodeLenient (bytes : List UInt8) : List Char :=
  match bytes with
  | [] => []
  | b :: rest =>
    match lead? b with
    | none => replacement :: decodeLenient rest
    | some l =>
      let step := continuation l.tail l.low l.high l.bits rest
      (if step.1 then Char.ofNat step.2.1 else replacement) :: decodeLenient step.2.2
termination_by bytes.length
decreasing_by
  · simp
  · have := length_continuation_le l.tail l.low l.high l.bits rest
    simp only [List.length_cons]
    omega

def ofBytesLenient (bytes : ByteArray) : String :=
  String.ofList (decodeLenient bytes.toList)

def ofBytes? (bytes : ByteArray) : Option String :=
  String.fromUTF8? bytes

end CoverageMatrix.Text.Utf8
