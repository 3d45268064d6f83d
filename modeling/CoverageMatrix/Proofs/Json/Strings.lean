import CoverageMatrix.Json.Strings
import CoverageMatrix.Json.Writer
import CoverageMatrix.Proofs.Text.Bytes

/-! Strings of JSON read back from what is written for them. -/
namespace CoverageMatrix.Json

variable {c : Char} {s before rest : List Char} {fuel : Nat}

/-- A character is escaped by a letter, as a code unit below U+0020, or stands for itself. -/
theorem escapeChar_cases (c : Char) :
    (∃ e, simpleEscape? e = some c ∧ e ≠ 'u' ∧ escapeChar c = ['\\', e]) ∨
    (c.toNat < 0x20 ∧ escapeChar c =
      ['\\', 'u', '0', '0', Text.Hex.digit (c.toNat / 16), Text.Hex.digit (c.toNat % 16)]) ∨
    (c ≠ '"' ∧ c ≠ '\\' ∧ ¬c.toNat < 0x20 ∧ escapeChar c = [c]) := by
  unfold escapeChar
  split
  · exact .inl ⟨'"', rfl, by decide, rfl⟩
  · exact .inl ⟨'\\', rfl, by decide, rfl⟩
  · exact .inl ⟨'b', rfl, by decide, rfl⟩
  · exact .inl ⟨'f', rfl, by decide, rfl⟩
  · exact .inl ⟨'n', rfl, by decide, rfl⟩
  · exact .inl ⟨'r', rfl, by decide, rfl⟩
  · exact .inl ⟨'t', rfl, by decide, rfl⟩
  · next quote slash _ _ _ _ _ =>
    split
    · next control => exact .inr (.inl ⟨control, rfl⟩)
    · next plain => exact .inr (.inr ⟨quote, slash, plain, rfl⟩)

theorem unicodeEscape_control (h : c.toNat < 0x20) (rest : List Char) :
    unicodeEscape
      ('0' :: '0' :: Text.Hex.digit (c.toNat / 16) :: Text.Hex.digit (c.toNat % 16) :: rest) =
        .char c rest := by
  have high := Text.Hex.value?_digit (c.toNat / 16) (by omega)
  have low := Text.Hex.value?_digit (c.toNat % 16) (by omega)
  have zero : Text.Hex.value? '0' = some 0 := rfl
  have unit : ((0 * 16 + 0) * 16 + c.toNat / 16) * 16 + c.toNat % 16 = c.toNat := by omega
  have apart : ¬(0xDC00 ≤ c.toNat ∧ c.toNat ≤ 0xDFFF) ∧ ¬(0xD800 ≤ c.toNat ∧ c.toNat ≤ 0xDBFF) := by
    omega
  simp only [unicodeEscape, fourDigits, zero, high, low, unit]
  rw [if_neg apart.1, if_neg apart.2, Char.ofNat_toNat]

theorem stringBody_escapeChar (c : Char) (fuel : Nat) (before rest : List Char) :
    stringBody (fuel + 1) before none (escapeChar c ++ rest) =
      stringBody fuel (c :: before) none rest := by
  obtain ⟨e, known, notU, eq⟩ | ⟨control, eq⟩ | ⟨quote, slash, plain, eq⟩ := escapeChar_cases c
  · have read : escape (e :: rest) = .char c rest := by
      rw [escape]
      · rw [known]
      · exact fun h => notU h
    simp [eq, stringBody, read]
  · have read := unicodeEscape_control control rest
    simp [eq, stringBody, escape, read]
  · simp [eq, stringBody, quote, slash, plain]

theorem stringBody_flatMap (h : s.length < fuel) :
    stringBody fuel before none (s.flatMap escapeChar ++ '"' :: rest) =
      ⟨.ok (String.ofList (before.reverse ++ s)), .ok rest⟩ := by
  induction s generalizing fuel before with
  | nil =>
    cases fuel with
    | zero => cases h
    | succ fuel => simp [stringBody]
  | cons c s ih =>
    cases fuel with
    | zero => cases h
    | succ fuel =>
      rw [List.flatMap_cons, List.append_assoc, stringBody_escapeChar,
        ih (Nat.lt_of_succ_lt_succ h)]
      simp

theorem length_le_flatMap_escapeChar (s : List Char) :
    s.length ≤ (s.flatMap escapeChar).length := by
  induction s with
  | nil => simp
  | cons c s ih =>
    have some : 1 ≤ (escapeChar c).length := by
      obtain ⟨e, -, -, eq⟩ | ⟨-, eq⟩ | ⟨-, -, -, eq⟩ := escapeChar_cases c <;> simp [eq]
    simp only [List.flatMap_cons, List.length_append, List.length_cons]
    omega

/-- What is written for a string begins with a quote, and behind it the string is read. -/
theorem string_writeString (fuel : Nat) (s : String)
    (enough : (writeString s).length ≤ fuel + 1) (rest : List Char) :
    ∃ body, writeString s = '"' :: body ∧ string fuel (body ++ rest) = ⟨.ok s, .ok rest⟩ := by
  refine ⟨s.toList.flatMap escapeChar ++ ['"'], rfl, ?_⟩
  have bound := length_le_flatMap_escapeChar s.toList
  simp only [writeString, List.length_cons, List.length_append] at enough
  rw [List.append_assoc, string]
  refine (stringBody_flatMap (by omega)).trans ?_
  simp

end CoverageMatrix.Json
