import CoverageMatrix.Proofs.Toml.Scalars
import CoverageMatrix.Toml.Reader

/-! Values without tables in them read back as they were written. -/
namespace CoverageMatrix.Toml

/-! ## What stands around a value -/

/-- What may follow a value. -/
def EndsValue (rest : List Char) : Prop :=
  ∀ c ∈ rest.head?, c ∈ ['\n', ',', ']']

theorem EndsValue.unquoted {rest : List Char} (ends : EndsValue rest) : Unquoted rest := by
  intro c first
  have mem := ends c first
  constructor <;> rintro rfl <;> simp at mem

theorem EndsValue.token {rest : List Char} (ends : EndsValue rest) : EndsToken rest := by
  intro c first
  have mem := ends c first
  simp only [List.mem_cons, List.not_mem_nil, or_false] at mem
  rcases mem with rfl | rfl | rfl <;> rfl

/-- A character that a value may begin with. -/
def BeginsValue (c : Char) : Prop :=
  c ∉ [' ', '\t', '\n', '\r', '#', ']']

theorem skipSpace_value {c : Char} (begins : BeginsValue c) (cs : List Char) :
    skipSpace (c :: cs) = c :: cs := by
  refine skipSpace_cons ?_ cs
  simp only [BeginsValue, List.mem_cons, not_or] at begins
  simp [isSpace, begins]

theorem skipBlank_value {c : Char} (begins : BeginsValue c) (cs : List Char) :
    skipBlank false (c :: cs) = c :: cs := by
  simp only [BeginsValue, List.mem_cons, not_or] at begins
  rw [skipBlank]
  · simp [isSpace, begins]
  · exact begins.2.2.1
  · exact fun _ eq _ => begins.2.2.2.1 eq

theorem skipBlank_replicate (n : Nat) (cs : List Char) :
    skipBlank false (List.replicate n ' ' ++ cs) = skipBlank false cs := by
  induction n with
  | zero => rfl
  | succ n ih =>
    rw [List.replicate_succ, List.cons_append, skipBlank]
    · simpa [isSpace] using ih
    all_goals simp

/-! ## Values -/

/-- Values that can stand behind a key, with lists in them nested up to a depth. -/
inductive Storable : Nat → Data → Prop where
  | bool {depth : Nat} (b : Bool) : Storable depth (.bool b)
  | natural {depth : Nat} {n : Nat} (small : (n : Int) ≤ Data.maxInt64) : Storable depth (.int n)
  | text {depth : Nat} (s : String) : Storable depth (.text s)
  | list {depth : Nat} {items : List Data} (each : ∀ d ∈ items, Storable depth d) :
      Storable (depth + 1) (.list items)

/-- A text that is written for a value and is read as it, wherever a value may end. -/
structure Renders (depth : Nat) (d : Data) (text : List Char) : Prop where
  written : writeValue? d = some text
  begins : ∃ c cs, text = c :: cs ∧ BeginsValue c
  reads : ∀ (rest : List Char) (fuel : Nat), EndsValue rest → text.length < fuel →
    value? fuel depth (text ++ rest) = some (d, rest)

theorem value?_readScalar {c : Char} (h : c ∉ ['"', '\'', '[', '\x7b']) (fuel depth : Nat)
    (cs : List Char) : value? (fuel + 1) depth (c :: cs) = readScalar (c :: cs) := by
  simp only [List.mem_cons, not_or] at h
  rw [value?]
  · exact fun _ eq => h.1 (List.cons.inj eq).1
  · exact fun _ eq => h.2.1 (List.cons.inj eq).1
  · exact fun _ eq => h.2.2.1 (List.cons.inj eq).1
  · exact fun _ eq => h.2.2.2.1 (List.cons.inj eq).1

/-! ### Scalars -/

/-- Scalars other than texts are read as such. -/
theorem Renders.scalar {depth : Nat} {d : Data} {text : List Char}
    (written : writeValue? d = some text)
    (begins : ∃ c cs, text = c :: cs ∧ isTokenChar c = true)
    (reads : ∀ {rest : List Char}, EndsToken rest → readScalar (text ++ rest) = some (d, rest)) :
    Renders depth d text := by
  obtain ⟨c, cs, rfl, token⟩ := begins
  refine ⟨written, ⟨c, cs, rfl, ?_⟩, fun rest fuel ends long => ?_⟩
  · intro mem
    simp only [List.mem_cons, List.not_mem_nil, or_false] at mem
    rcases mem with rfl | rfl | rfl | rfl | rfl | rfl <;> simp [isTokenChar] at token
  · obtain ⟨fuel, rfl⟩ : ∃ n, fuel = n + 1 := ⟨fuel - 1, by omega⟩
    rw [List.cons_append, value?_readScalar]
    · exact reads ends.token
    · intro mem
      simp only [List.mem_cons, List.not_mem_nil, or_false] at mem
      rcases mem with rfl | rfl | rfl | rfl <;> simp [isTokenChar] at token

theorem Renders.bool {depth : Nat} (b : Bool) :
    Renders depth (.bool b) (if b then "true" else "false").toList := by
  refine .scalar (by simp [writeValue?]) ?_ (readScalar_bool b)
  cases b <;> exact ⟨_, _, rfl, rfl⟩

theorem Renders.natural {depth n : Nat} (small : (n : Int) ≤ Data.maxInt64) :
    Renders depth (.int n) (toString (n : Int)).toList := by
  refine .scalar (by rw [writeValue?, if_pos small]) ?_ (readScalar_natural small)
  have digits : (toString (n : Int)).toList = Nat.toDigits 10 n := Nat.toList_repr
  obtain ⟨c, cs, shape⟩ := List.exists_cons_of_ne_nil (Nat.toDigits_ne_nil (n := n) (b := 10))
  have digit := isDigit_toDigits n c (by rw [shape]; exact List.mem_cons_self)
  exact ⟨c, cs, digits.trans shape, by simp [isTokenChar, Char.isAlphanum, digit]⟩

theorem writeString_eq_cons (s : String) :
    ∃ c cs, writeString s = c :: cs ∧ (c = '"' ∨ c = '\'') := by
  rw [writeString]
  cases Style.of s.toList with
  | basic | multiBasic => exact ⟨_, _, rfl, .inl rfl⟩
  | literal | multiLiteral => exact ⟨_, _, rfl, .inr rfl⟩

theorem Renders.text {depth : Nat} (s : String) : Renders depth (.text s) (writeString s) := by
  obtain ⟨c, cs, written, quote⟩ := writeString_eq_cons s
  refine ⟨by rw [writeValue?], ⟨c, cs, written, ?_⟩, fun rest fuel ends long => ?_⟩
  · rcases quote with rfl | rfl <;> simp [BeginsValue]
  · obtain ⟨fuel, rfl⟩ : ∃ n, fuel = n + 1 := ⟨fuel - 1, by omega⟩
    have read := string?_writeString s ends.unquoted
    rw [written, List.cons_append] at read ⊢
    rcases quote with rfl | rfl <;> rw [value?, read] <;> rfl

/-! ### Lists -/

theorem items?_close (fuel depth : Nat) (rest : List Char) :
    items? (fuel + 1) depth (']' :: rest) = some ([], rest) := by
  rw [items?]
  rfl

/-- An item, behind what space there is, and the mark that follows it. -/
theorem items?_item {fuel depth : Nat} {d : Data} {cs rest text : List Char} {mark : Char}
    (item : Renders depth d text) (long : text.length < fuel)
    (ends : mark ∈ [',', ']']) (blank : skipBlank false cs = text ++ mark :: rest) :
    items? (fuel + 1) depth cs =
      if mark = ']' then some ([d], rest)
      else (items? fuel depth rest).map fun (ds, rest) => (d :: ds, rest) := by
  obtain ⟨c, tail, shape, begins⟩ := item.begins
  have close : c ≠ ']' := by
    rintro rfl
    exact begins (by simp)
  simp only [List.mem_cons, List.not_mem_nil, or_false] at ends
  have read := item.reads (mark :: rest) fuel
    (by rcases ends with rfl | rfl <;> simp [EndsValue]) long
  rw [items?, blank]
  split
  · next eq =>
    rw [shape, List.cons_append] at eq
    exact absurd (List.cons.inj eq).1 close
  · rw [read]
    rcases ends with rfl | rfl
    · have comma : skipBlank false (',' :: rest) = ',' :: rest := rfl
      simp only [Option.bind_eq_bind, Option.bind_some, comma]
      cases items? fuel depth rest <;> rfl
    · rfl

/-- The items of a list, one a line. -/
theorem items?_writeItems {depth : Nat} {items : List Data}
    (each : ∀ d ∈ items, ∃ text, Renders depth d text) :
    ∃ body, writeItems? items = some body ∧ ∀ (rest : List Char) (fuel : Nat),
      body.length < fuel →
      items? fuel depth ('\n' :: (body ++ ']' :: rest)) = some (items, rest) := by
  induction items with
  | nil =>
    refine ⟨[], rfl, fun rest fuel long => ?_⟩
    obtain ⟨fuel, rfl⟩ : ∃ n, fuel = n + 1 := ⟨fuel - 1, by omega⟩
    rw [items?]
    rfl
  | cons d items ih =>
    obtain ⟨text, item⟩ := each d List.mem_cons_self
    obtain ⟨body, written, reads⟩ := ih fun d mem => each d (List.mem_cons_of_mem _ mem)
    obtain ⟨c, cs, shape, begins⟩ := item.begins
    refine ⟨List.replicate 4 ' ' ++ text ++ ',' :: '\n' :: body, ?_, fun rest fuel long => ?_⟩
    · rw [writeItems?, item.written, written]
      rfl
    · obtain ⟨fuel, rfl⟩ : ∃ n, fuel = n + 1 := ⟨fuel - 1, by omega⟩
      simp only [List.length_append, List.length_cons, List.length_replicate] at long
      have blank : skipBlank false ('\n' ::
          (List.replicate 4 ' ' ++ text ++ ',' :: '\n' :: body ++ ']' :: rest)) =
          text ++ ',' :: '\n' :: (body ++ ']' :: rest) := by
        simp only [List.append_assoc, List.cons_append]
        rw [skipBlank, skipBlank_replicate, shape, List.cons_append, skipBlank_value begins]
      rw [items?_item item (by omega) (by simp) blank, if_neg (by decide), reads _ _ (by omega)]
      rfl

theorem Renders.list {depth : Nat} {items : List Data} (body : List Char)
    (written : writeValue? (.list items) = some ('[' :: (body ++ [']'])))
    (reads : ∀ (rest : List Char) (fuel : Nat), body.length + 1 < fuel →
      items? fuel depth (body ++ ']' :: rest) = some (items, rest)) :
    Renders (depth + 1) (.list items) ('[' :: (body ++ [']'])) := by
  refine ⟨written, ⟨_, _, rfl, by simp [BeginsValue]⟩, fun rest fuel _ long => ?_⟩
  obtain ⟨fuel, rfl⟩ : ∃ n, fuel = n + 1 := ⟨fuel - 1, by omega⟩
  have inner := reads rest fuel (by simp at long; omega)
  rw [List.cons_append, List.append_assoc, List.singleton_append, value?]
  dsimp only
  rw [inner]
  rfl

/-- A list of one item is written on one line. -/
theorem exists_renders_list {depth : Nat} {items : List Data}
    (each : ∀ d ∈ items, ∃ text, Renders depth d text) :
    ∃ text, Renders (depth + 1) (.list items) text := by
  match items with
  | [] =>
    refine ⟨_, .list [] (by rw [writeValue?]; rfl) fun rest fuel long => ?_⟩
    obtain ⟨fuel, rfl⟩ : ∃ n, fuel = n + 1 := ⟨fuel - 1, by omega⟩
    exact items?_close fuel depth rest
  | [d] =>
    obtain ⟨text, item⟩ := each d List.mem_cons_self
    refine ⟨_, .list text ?_ fun rest fuel long => ?_⟩
    · rw [writeValue?, item.written]
      rfl
    · obtain ⟨fuel, rfl⟩ : ∃ n, fuel = n + 1 := ⟨fuel - 1, by omega⟩
      obtain ⟨c, cs, shape, begins⟩ := item.begins
      have blank : skipBlank false (text ++ ']' :: rest) = text ++ ']' :: rest := by
        rw [shape, List.cons_append, skipBlank_value begins]
      exact items?_item item (by omega) (by simp) blank
  | d :: e :: items =>
    -- the line break behind the bracket belongs to the body
    obtain ⟨body, written, reads⟩ := items?_writeItems each
    refine ⟨_, .list ('\n' :: body) ?_ fun rest fuel long => reads rest fuel ?_⟩
    · rw [writeValue?, written]
      · rfl
      · simp
      · simp
    · rw [List.length_cons] at long
      omega

/-- What can stand behind a key is written there, and read back. -/
theorem Storable.renders {depth : Nat} {d : Data} (h : Storable depth d) :
    ∃ text, Renders depth d text := by
  induction h with
  | bool b => exact ⟨_, .bool b⟩
  | natural small => exact ⟨_, .natural small⟩
  | text s => exact ⟨_, .text s⟩
  | list _ ih => exact exists_renders_list ih

end CoverageMatrix.Toml
