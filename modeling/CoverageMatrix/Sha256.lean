import CoverageMatrix.Text.Hex
import CoverageMatrix.Text.Utf8

/-!
SHA-256 (FIPS 180-4): a message is padded to whole blocks of 64 bytes, and the blocks are folded
into eight words by the compression function.
-/
namespace CoverageMatrix.Sha256

/-! ## Words -/

/-- The first 32 bits of the fractional parts of the cube roots of the first 64 primes. -/
def roundConstants : List UInt32 :=
  [0x428a2f98, 0x71374491, 0xb5c0fbcf, 0xe9b5dba5, 0x3956c25b, 0x59f111f1, 0x923f82a4, 0xab1c5ed5,
   0xd807aa98, 0x12835b01, 0x243185be, 0x550c7dc3, 0x72be5d74, 0x80deb1fe, 0x9bdc06a7, 0xc19bf174,
   0xe49b69c1, 0xefbe4786, 0x0fc19dc6, 0x240ca1cc, 0x2de92c6f, 0x4a7484aa, 0x5cb0a9dc, 0x76f988da,
   0x983e5152, 0xa831c66d, 0xb00327c8, 0xbf597fc7, 0xc6e00bf3, 0xd5a79147, 0x06ca6351, 0x14292967,
   0x27b70a85, 0x2e1b2138, 0x4d2c6dfc, 0x53380d13, 0x650a7354, 0x766a0abb, 0x81c2c92e, 0x92722c85,
   0xa2bfe8a1, 0xa81a664b, 0xc24b8b70, 0xc76c51a3, 0xd192e819, 0xd6990624, 0xf40e3585, 0x106aa070,
   0x19a4c116, 0x1e376c08, 0x2748774c, 0x34b0bcb5, 0x391c0cb3, 0x4ed8aa4a, 0x5b9cca4f, 0x682e6ff3,
   0x748f82ee, 0x78a5636f, 0x84c87814, 0x8cc70208, 0x90befffa, 0xa4506ceb, 0xbef9a3f7, 0xc67178f2]

/-- The eight words that a message is folded into. -/
structure State where
  a : UInt32
  b : UInt32
  c : UInt32
  d : UInt32
  e : UInt32
  f : UInt32
  g : UInt32
  h : UInt32

/-- The first 32 bits of the fractional parts of the square roots of the first eight primes. -/
def State.initial : State :=
  ⟨0x6a09e667, 0xbb67ae85, 0x3c6ef372, 0xa54ff53a, 0x510e527f, 0x9b05688c, 0x1f83d9ab, 0x5be0cd19⟩

def State.words (s : State) : List UInt32 :=
  [s.a, s.b, s.c, s.d, s.e, s.f, s.g, s.h]

/-- Adds two states word by word. -/
def State.add (s t : State) : State :=
  ⟨s.a + t.a, s.b + t.b, s.c + t.c, s.d + t.d, s.e + t.e, s.f + t.f, s.g + t.g, s.h + t.h⟩

/-- Turns a word right by `n` bits, for `n` from 1 to 31. -/
def rotr (x n : UInt32) : UInt32 :=
  (x >>> n) ||| (x <<< (32 - n))

/-! ## Compression -/

/-- The next word of the message schedule, from the sixteen words before it, oldest first. -/
def nextWord (window : List UInt32) : UInt32 :=
  let w15 := window.getD 1 0
  let w2 := window.getD 14 0
  let s0 := rotr w15 7 ^^^ rotr w15 18 ^^^ (w15 >>> 3)
  let s1 := rotr w2 17 ^^^ rotr w2 19 ^^^ (w2 >>> 10)
  window.getD 0 0 + s0 + window.getD 9 0 + s1

/-- One round on the state with a round constant and a word of the schedule. -/
def round (s : State) (k w : UInt32) : State :=
  let s1 := rotr s.e 6 ^^^ rotr s.e 11 ^^^ rotr s.e 25
  let choice := (s.e &&& s.f) ^^^ ((~~~ s.e) &&& s.g)
  let t1 := s.h + s1 + choice + k + w
  let s0 := rotr s.a 2 ^^^ rotr s.a 13 ^^^ rotr s.a 22
  let majority := (s.a &&& s.b) ^^^ (s.a &&& s.c) ^^^ (s.b &&& s.c)
  ⟨t1 + s0 + majority, s.a, s.b, s.c, s.d + t1, s.e, s.f, s.g⟩

/-- Runs one round for each constant; the window slides over the message schedule. -/
def rounds : List UInt32 → State × List UInt32 → State
  | [], (s, _) => s
  | k :: ks, (s, window) =>
    rounds ks (round s k (window.getD 0 0), window.drop 1 ++ [nextWord window])

/-- Four bytes as a word, highest first. -/
def word (bytes : List UInt8) : UInt32 :=
  bytes.foldl (fun w b => (w <<< 8) ||| b.toUInt32) 0

/-- The `n` words at the beginning of a list of bytes. -/
def wordsOf : Nat → List UInt8 → List UInt32
  | 0, _ => []
  | n + 1, bytes => word (bytes.take 4) :: wordsOf n (bytes.drop 4)

/-- Folds one block of 64 bytes into a state. -/
def compress (s : State) (block : List UInt8) : State :=
  (rounds roundConstants (s, wordsOf 16 block)).add s

/-! ## Messages -/

/-- A length as eight bytes, highest first. -/
def lengthBytes (n : Nat) : List UInt8 :=
  [56, 48, 40, 32, 24, 16, 8, 0].map fun shift => UInt8.ofNat (n >>> shift)

/-- The message followed by a set bit, as many zeros as needed, and its length in bits. -/
def pad (message : List UInt8) : List UInt8 :=
  message ++ [0x80] ++ List.replicate ((119 - message.length % 64) % 64) 0
    ++ lengthBytes (message.length * 8)

/-- Folds the blocks of a padded message into a state. -/
def absorb (s : State) (bytes : List UInt8) : State :=
  match bytes with
  | [] => s
  | b :: rest => absorb (compress s ((b :: rest).take 64)) (rest.drop 63)
termination_by bytes.length
decreasing_by simp only [List.length_cons, List.length_drop]; omega

/-- A word as four bytes, highest first. -/
def wordBytes (w : UInt32) : List UInt8 :=
  [(w >>> 24).toUInt8, (w >>> 16).toUInt8, (w >>> 8).toUInt8, w.toUInt8]

def digest (message : List UInt8) : List UInt8 :=
  (absorb State.initial (pad message)).words.flatMap wordBytes

/-- The digest of a message as 64 lower-case hexadecimal digits. -/
def hexDigest (message : List UInt8) : String :=
  String.ofList (Text.Hex.encode (digest message))

/-- The digest of a text's bytes. -/
def ofText (text : String) : String :=
  hexDigest (Text.Utf8.encode text)

theorem length_digest (message : List UInt8) : (digest message).length = 32 := by
  simp [digest, State.words, wordBytes]

end CoverageMatrix.Sha256
