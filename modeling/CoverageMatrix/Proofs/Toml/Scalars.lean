import CoverageMatrix.Proofs.Toml.Keys
import CoverageMatrix.Toml.Scalars

/-! Truth values and natural numbers read back from what is written for them. -/
namespace CoverageMatrix.Toml

/-- A token cannot go on here. -/
def EndsToken (rest : List Char) : Prop :=
  ∀ c ∈ rest.head?, isTokenChar c = false

theorem readScalar_append (token : List Char) {rest : List Char}
    (all : token.all isTokenChar = true) (ends : EndsToken rest) (undated : date? token = none) :
    readScalar (token ++ rest) = (token? token).map fun d => (d, rest) := by
  obtain ⟨taken, left⟩ := takeWhile_append_of_ends all ends
  rw [readScalar, taken, left, undated]

theorem readScalar_bool (b : Bool) {rest : List Char} (ends : EndsToken rest) :
    readScalar ((if b then "true" else "false").toList ++ rest) = some (.bool b, rest) := by
  cases b with
  | true => exact readScalar_append ['t', 'r', 'u', 'e'] rfl ends rfl
  | false => exact readScalar_append ['f', 'a', 'l', 's', 'e'] rfl ends rfl

/-! ## Digits -/

section
variable {ds : List Char} (all : ∀ c ∈ ds, c.isDigit = true)
include all

theorem expect?_digits {c : Char} (other : c.isDigit = false) : expect? c ds = none := by
  cases ds with
  | nil => rfl
  | cons d ds =>
    have apart : c ≠ d := by
      rintro rfl
      simp [all c List.mem_cons_self] at other
    exact if_neg apart

/-- Where digits alone are left, no other mark follows the first of them. -/
theorem fixed?_bind_expect? {α : Type} (count : Nat) {c : Char} (other : c.isDigit = false)
    (next : Nat × List Char → List Char → Option α) :
    (fixed? count ds).bind (fun p => (expect? c p.2).bind (next p)) = none := by
  have rest : ∀ c ∈ ds.drop count, c.isDigit = true := fun c mem => all c (List.mem_of_mem_drop mem)
  rw [fixed?]
  split
  · exact congrArg (Option.bind · _) (expect?_digits rest other)
  · rfl

theorem date?_digits : date? ds = none :=
  fixed?_bind_expect? all 4 rfl _

theorem time?_digits : time? ds = none :=
  fixed?_bind_expect? all 2 rfl _

theorem moment?_digits : moment? ds = none := by
  rw [moment?, date?_digits all, time?_digits all]

theorem splitSign_digits : splitSign ds = (false, ds) := by
  rw [splitSign]
  · rintro rest rfl
    exact absurd (all '-' List.mem_cons_self) (by decide)
  · rintro rest rfl
    exact absurd (all '+' List.mem_cons_self) (by decide)

theorem ne_word {c : Char} {cs : List Char} (letter : c.isDigit = false) : ds ≠ c :: cs := by
  rintro rfl
  simp [all c List.mem_cons_self] at letter

/-- Without a point or an exponent there is no fraction. -/
theorem float?_digits : float? ds = none := by
  have unmarked : (ds.all fun c => !(decide (c = '.') || decide (c = 'e') || decide (c = 'E'))) =
      true := by
    rw [List.all_eq_true]
    intro c mem
    have digit := all c mem
    by_cases point : c = '.' <;> by_cases low : c = 'e' <;> by_cases high : c = 'E' <;>
      simp_all [Char.isDigit]
  have left := (takeWhile_append_of_ends unmarked
    fun c (first : c ∈ ([] : List Char).head?) => by cases first).2
  rw [List.append_nil] at left
  rw [float?, splitSign_digits all]
  dsimp only
  rw [if_neg (ne_word all rfl), if_neg (ne_word all rfl), left]
  cases decimalDigits? (ds.takeWhile _) <;> rfl

omit all in
theorem digits?_cons {isDigit : Char → Bool} {c : Char} (digit : isDigit c = true) {cs : List Char}
    (filled : cs ≠ []) (dash : cs.head? ≠ some '_') :
    digits? isDigit (c :: cs) = (digits? isDigit cs).map (c :: ·) := by
  rw [digits?]
  · rw [if_pos digit]
  · exact filled
  · rintro rest rfl
    exact dash rfl

theorem digits?_digits (filled : ds ≠ []) : digits? Char.isDigit ds = some ds := by
  induction ds with
  | nil => exact absurd rfl filled
  | cons c ds ih =>
    have digit := all c List.mem_cons_self
    by_cases last : ds = []
    · rw [last, digits?, if_pos digit]
    · replace all := fun d mem => all d (List.mem_cons_of_mem c mem)
      rw [digits?_cons digit last, ih all last]
      · rfl
      · intro dash
        exact absurd (all '_' (List.mem_of_mem_head? dash)) (by decide)

omit all in
theorem value?_digit {c : Char} (digit : c.isDigit = true) :
    Text.Hex.value? c = some (c.toNat - '0'.toNat) := by
  rw [Text.Hex.value?, if_pos]
  · rfl
  · simpa [Char.isDigit, Char.le_def] using digit

theorem ofDigits_digits : ofDigits 10 ds = Nat.ofDigitChars 10 ds 0 := by
  have run (n : Nat) : ds.foldl (fun n d => n * 10 + (Text.Hex.value? d).getD 0) n =
      ds.foldl (fun n d => 10 * n + (d.toNat - '0'.toNat)) n := by
    induction ds generalizing n with
    | nil => rfl
    | cons c ds ih =>
      rw [List.foldl_cons, List.foldl_cons, value?_digit (all c List.mem_cons_self),
        ih (fun d mem => all d (List.mem_cons_of_mem c mem)), Option.getD_some, Nat.mul_comm]
  exact run 0

end

/-! ## Natural numbers -/

theorem isDigit_toDigits (n : Nat) : ∀ c ∈ Nat.toDigits 10 n, c.isDigit = true :=
  fun _ mem => Nat.isDigit_of_mem_toDigits (by decide) (by decide) mem

theorem head?_toDigits {n : Nat} (h : 0 < n) : (Nat.toDigits 10 n).head? ≠ some '0' := by
  -- the digits of `n / 10` come first, unless `n` is a digit itself
  induction n using Nat.strongRecOn with
  | _ n ih =>
    rw [Nat.toDigits_eq_if (by decide)]
    split
    · intro eq
      exact absurd (Nat.digitChar_eq_zero.1 (Option.some.inj eq)) (Nat.ne_of_gt h)
    · next large =>
      have high := ih (n / 10) (by omega) (by omega)
      intro eq
      refine high ?_
      rw [List.head?_append, Option.or_eq_some_iff] at eq
      refine eq.resolve_right fun none => ?_
      exact Nat.toDigits_ne_nil (List.head?_eq_none_iff.1 none.1)

/-- Digits of a number have a zero in front only if that is all. -/
theorem decimalDigits?_toDigits (n : Nat) :
    decimalDigits? (Nat.toDigits 10 n) = some (Nat.toDigits 10 n) := by
  rw [decimalDigits?, digits?_digits (isDigit_toDigits n) Nat.toDigits_ne_nil]
  refine if_neg fun ⟨zero, long⟩ => ?_
  rcases Nat.eq_zero_or_pos n with rfl | positive
  · exact absurd long (by decide)
  · exact head?_toDigits positive zero

theorem integer?_toDigits {n : Nat} (small : (n : Int) ≤ Data.maxInt64) :
    integer? (Nat.toDigits 10 n) = some (.int n) := by
  have digits := isDigit_toDigits n
  have bounds : Data.minInt64 ≤ (n : Int) ∧ (n : Int) ≤ Data.maxInt64 :=
    ⟨Int.le_trans (by decide) (Int.natCast_nonneg n), small⟩
  rw [integer?, splitSign_digits digits]
  · dsimp only
    rw [decimalDigits?_toDigits, Option.bind_some, ofDigits_digits digits,
      Nat.ofDigitChars_toDigits (by decide) (by decide)]
    exact if_pos bounds
  all_goals
    intro rest eq
    rw [eq] at digits
    -- the mark of another base is no digit
    exact absurd (digits _ (List.mem_cons_of_mem _ List.mem_cons_self)) (by decide)

theorem token?_toDigits {n : Nat} (small : (n : Int) ≤ Data.maxInt64) :
    token? (Nat.toDigits 10 n) = some (.int n) := by
  have digits := isDigit_toDigits n
  rw [token?, if_neg (ne_word digits rfl), if_neg (ne_word digits rfl), moment?_digits digits,
    float?_digits digits, integer?_toDigits small]
  rfl

theorem readScalar_natural {n : Nat} (small : (n : Int) ≤ Data.maxInt64) {rest : List Char}
    (ends : EndsToken rest) :
    readScalar ((toString (n : Int)).toList ++ rest) = some (.int n, rest) := by
  have digits := isDigit_toDigits n
  have token : (Nat.toDigits 10 n).all isTokenChar = true := by
    rw [List.all_eq_true]
    intro c mem
    simp [isTokenChar, Char.isAlphanum, digits c mem]
  have written : (toString (n : Int)).toList = Nat.toDigits 10 n := Nat.toList_repr
  rw [written, readScalar_append _ token ends (date?_digits digits), token?_toDigits small]
  rfl

end CoverageMatrix.Toml
