import CoverageMatrix.Json.Reader
import CoverageMatrix.Proofs.Toml.Scalars

/-! Whole numbers of JSON read back from what is written for them. -/
namespace CoverageMatrix.Json

open Toml (isDigit_toDigits head?_toDigits takeWhile_append_of_ends)

/-- A number cannot go on here. -/
def EndsNumber (rest : List Char) : Prop :=
  ∀ c ∈ rest.head?, c.isDigit = false ∧ c ≠ '.' ∧ c ≠ 'e' ∧ c ≠ 'E'

variable {rest : List Char} {n : Nat}

theorem EndsNumber.fraction {more : List Char} (h : EndsNumber rest) : rest ≠ '.' :: more := by
  rintro rfl
  exact (h '.' rfl).2.1 rfl

theorem EndsNumber.exponent {more : List Char} (h : EndsNumber rest) :
    rest ≠ 'e' :: more ∧ rest ≠ 'E' :: more := by
  constructor
  · rintro rfl
    exact (h 'e' rfl).2.2.1 rfl
  · rintro rfl
    exact (h 'E' rfl).2.2.2 rfl

theorem someDigits_toDigits (n : Nat) (ends : EndsNumber rest) :
    someDigits (Nat.toDigits 10 n ++ rest) = .ok (Nat.toDigits 10 n, rest) := by
  have all : (Nat.toDigits 10 n).all Char.isDigit = true :=
    List.all_eq_true.mpr (isDigit_toDigits n)
  obtain ⟨taken, left⟩ := takeWhile_append_of_ends all fun c first => (ends c first).1
  have some : (Nat.toDigits 10 n).isEmpty = false := by
    simp [Nat.toDigits_ne_nil]
  simp [someDigits, taken, left, some]

theorem ofDigits_toDigits (n : Nat) : ofDigits (Nat.toDigits 10 n) = n := by
  have eq : ofDigits (Nat.toDigits 10 n) = Nat.ofDigitChars 10 (Nat.toDigits 10 n) 0 := by
    simp [ofDigits, Nat.ofDigitChars, Nat.mul_comm]
  rw [eq, Nat.ofDigitChars_toDigits (by decide) (by decide)]

theorem numeral_toDigits (negative : Bool) (n : Nat) (ends : EndsNumber rest) :
    numeral negative (Nat.toDigits 10 n ++ rest) =
      .ok (⟨negative, Nat.toDigits 10 n, none, none⟩, rest) := by
  have unpadded : ¬((Nat.toDigits 10 n).head? = some '0' ∧ 1 < (Nat.toDigits 10 n).length) := by
    rintro ⟨zero, long⟩
    rcases Nat.eq_zero_or_pos n with rfl | positive
    · exact absurd long (by decide)
    · exact head?_toDigits positive zero
  rw [numeral, someDigits_toDigits n ends]
  simp only [bind, Except.bind, pure, Except.pure, if_neg unpadded]
  split
  · next more => exact absurd rfl ends.fraction
  · split
    · next more => exact absurd rfl ends.exponent.1
    · next more => exact absurd rfl ends.exponent.2
    · rfl

theorem number_natural (small : (n : Int) ≤ Data.maxUInt64) (ends : EndsNumber rest) :
    number false (Nat.toDigits 10 n ++ rest) = (.int n, some rest) := by
  rw [number, numeral_toDigits false n ends]
  simp [Numeral.value, Numeral.int?, ofDigits_toDigits, small]

theorem number_negative (positive : n ≠ 0) (small : Data.minInt64 ≤ -(n : Int))
    (ends : EndsNumber rest) :
    number true (Nat.toDigits 10 n ++ rest) = (.int (-n), some rest) := by
  rw [number, numeral_toDigits true n ends]
  simp [Numeral.value, Numeral.int?, ofDigits_toDigits, small, positive]

theorem scalar_digit {d : Char} (digit : d.isDigit = true) (fuel : Nat) (cs : List Char) :
    scalar fuel (d :: cs) = number false (d :: cs) := by
  unfold scalar
  -- no other beginning of a value is a digit
  split <;> simp_all

theorem toList_toString_negSucc (n : Nat) :
    (toString (Int.negSucc n)).toList = '-' :: Nat.toDigits 10 (n + 1) := by
  rw [← Nat.toList_repr]
  exact String.toList_append

theorem exists_toString_eq_cons (n : Int) :
    ∃ c cs, (toString n).toList = c :: cs ∧ (c = '-' ∨ c.isDigit = true) := by
  cases n with
  | ofNat n =>
    obtain ⟨d, ds, eq⟩ := List.exists_cons_of_ne_nil (Nat.toDigits_ne_nil (b := 10) (n := n))
    have digit : d.isDigit = true := isDigit_toDigits n d (eq ▸ List.mem_cons_self)
    exact ⟨d, ds, Nat.toList_repr.trans eq, .inr digit⟩
  | negSucc n => exact ⟨'-', _, toList_toString_negSucc n, .inl rfl⟩

/-- A number that 64 bits hold is read where a value begins. -/
theorem scalar_int {n : Int} (low : Data.minInt64 ≤ n) (high : n ≤ Data.maxUInt64)
    (ends : EndsNumber rest) (fuel : Nat) :
    scalar fuel ((toString n).toList ++ rest) = (.int n, some rest) := by
  cases n with
  | ofNat n =>
    have written : (toString (Int.ofNat n)).toList = Nat.toDigits 10 n := Nat.toList_repr
    obtain ⟨d, ds, eq⟩ := List.exists_cons_of_ne_nil (Nat.toDigits_ne_nil (b := 10) (n := n))
    have digit : d.isDigit = true := isDigit_toDigits n d (eq ▸ List.mem_cons_self)
    rw [written, eq, List.cons_append, scalar_digit digit, ← List.cons_append, ← eq]
    exact number_natural high ends
  | negSucc n =>
    rw [toList_toString_negSucc]
    exact number_negative (Nat.succ_ne_zero n) low ends

end CoverageMatrix.Json
