import CoverageMatrix.Proofs.Toml.Strings

/-! A key reads back from each of its forms, and so does the path of a table. -/
namespace CoverageMatrix.Toml

/-! ## Single keys -/

/-- A character that a key cannot go on with. -/
def EndsKey (rest : List Char) : Prop :=
  ∀ c ∈ rest.head?, isBareKeyChar c = false

theorem takeWhile_append_of_ends {p : Char → Bool} {cs rest : List Char} (all : cs.all p = true)
    (ends : ∀ c ∈ rest.head?, p c = false) :
    (cs ++ rest).takeWhile p = cs ∧ (cs ++ rest).dropWhile p = rest := by
  rw [List.all_eq_true] at all
  rw [List.takeWhile_append_of_pos all, List.dropWhile_append_of_pos all]
  cases rest with
  | nil => exact ⟨List.append_nil cs, rfl⟩
  | cons c rest =>
    have stop : ¬p c = true := by simp [ends c rfl]
    exact ⟨by rw [List.takeWhile_cons_of_neg stop, List.append_nil],
      List.dropWhile_cons_of_neg stop⟩

/-- The forms of a key: bare, basic or literal. -/
theorem writeKey_cases (k : String) :
    (writeKey k = k.toList ∧ k.toList ≠ [] ∧ k.toList.all isBareKeyChar = true) ∨
    writeKey k = '"' :: (k.toList.flatMap escapeChar ++ ['"']) ∨
    (writeKey k = '\'' :: (k.toList ++ ['\'']) ∧ Style.literal.fits k.toList = true) := by
  unfold writeKey
  dsimp only
  split
  · next bare => exact .inl ⟨rfl, bare⟩
  · split
    · exact .inr (.inl rfl)
    · split
      · next fits => exact .inr (.inr ⟨rfl, fits⟩)
      · exact .inr (.inl rfl)

theorem simpleKey?_bare {c : Char} (bare : isBareKeyChar c = true) (cs : List Char) :
    simpleKey? (c :: cs) = some (String.ofList ((c :: cs).takeWhile isBareKeyChar),
      (c :: cs).dropWhile isBareKeyChar) := by
  have quotes : c ≠ '"' ∧ c ≠ '\'' := by
    constructor <;> rintro rfl <;> simp [isBareKeyChar] at bare
  unfold simpleKey?
  split
  · next eq => exact absurd (List.cons.inj eq).1 quotes.1
  · next eq => exact absurd (List.cons.inj eq).1 quotes.2
  · rw [List.takeWhile_cons_of_pos bare]
    rfl

theorem simpleKey?_writeKey (k : String) {rest : List Char} (ends : EndsKey rest) :
    simpleKey? (writeKey k ++ rest) = some (k, rest) := by
  obtain ⟨written, filled, bare⟩ | written | ⟨written, fits⟩ := writeKey_cases k
  · obtain ⟨taken, left⟩ := takeWhile_append_of_ends bare ends
    obtain ⟨c, cs, shape⟩ := List.exists_cons_of_ne_nil filled
    have first : isBareKeyChar c = true := by
      rw [shape, List.all_cons, Bool.and_eq_true] at bare
      exact bare.1
    rw [written, shape, List.cons_append, simpleKey?_bare first, ← List.cons_append, ← shape,
      taken, left, String.ofList_toList]
  · rw [written, List.cons_append, List.append_assoc, List.singleton_append, simpleKey?,
      basicBody_flatMap, Option.map_some]
    exact congrArg (fun s => some (s, rest)) String.ofList_toList
  · rw [written, List.cons_append, List.append_assoc, List.singleton_append, simpleKey?,
      literalBody_append (fits_literal_iff.1 fits), Option.map_some]
    exact congrArg (fun s => some (s, rest)) String.ofList_toList

/-- A character that a key may begin with. -/
def BeginsKey (c : Char) : Prop :=
  isBareKeyChar c = true ∨ c = '"' ∨ c = '\''

theorem writeKey_eq_cons (k : String) : ∃ c cs, writeKey k = c :: cs ∧ BeginsKey c := by
  obtain ⟨written, filled, bare⟩ | written | ⟨written, -⟩ := writeKey_cases k
  · obtain ⟨c, cs, shape⟩ := List.exists_cons_of_ne_nil filled
    rw [shape, List.all_cons, Bool.and_eq_true] at bare
    exact ⟨c, cs, written.trans shape, .inl bare.1⟩
  · exact ⟨_, _, written, .inr (.inl rfl)⟩
  · exact ⟨_, _, written, .inr (.inr rfl)⟩

theorem BeginsKey.not_mem {c : Char} (h : BeginsKey c) :
    c ∉ [' ', '\t', '\n', '\r', '#', '[', '.', '='] := by
  intro mem
  simp only [List.mem_cons, List.not_mem_nil, or_false] at mem
  rcases mem with rfl | rfl | rfl | rfl | rfl | rfl | rfl | rfl <;>
    simp [BeginsKey, isBareKeyChar] at h

/-! ## Paths -/

theorem skipSpace_cons {c : Char} (h : isSpace c = false) (cs : List Char) :
    skipSpace (c :: cs) = c :: cs :=
  List.dropWhile_cons_of_neg (by simp [h])

theorem skipSpace_writeKey (k : String) (rest : List Char) :
    skipSpace (writeKey k ++ rest) = writeKey k ++ rest := by
  obtain ⟨c, cs, written, begins⟩ := writeKey_eq_cons k
  have space : isSpace c = false := by
    have apart := begins.not_mem
    simp only [List.mem_cons, not_or] at apart
    simp [isSpace, apart]
  rw [written, List.cons_append, skipSpace_cons space]

theorem writePath_singleton (k : String) : writePath [k] = writeKey k := by
  simp [writePath, List.intercalate]

theorem writePath_cons (k : String) {path : List String} (h : path ≠ []) :
    writePath (k :: path) = writeKey k ++ '.' :: writePath path := by
  obtain ⟨k', path, rfl⟩ := List.exists_cons_of_ne_nil h
  simp [writePath, List.intercalate]

/-- The end of a path: the key does not go on, and no point follows. -/
def EndsPath (rest : List Char) : Prop :=
  EndsKey rest ∧ ∀ c ∈ (skipSpace rest).head?, c ≠ '.'

theorem dottedKey?_last (k : String) (limit : Nat) {rest : List Char} (ends : EndsPath rest) :
    dottedKey? (limit + 1) (writeKey k ++ rest) = some ([k], skipSpace rest) := by
  have key := simpleKey?_writeKey k ends.1
  rw [dottedKey?, skipSpace_writeKey, key]
  dsimp only [Option.bind_eq_bind, Option.bind_some]
  split
  · next eq => exact absurd rfl (ends.2 '.' (by rw [eq]; rfl))
  · rfl

theorem dottedKey?_writePath {path : List String} (filled : path ≠ []) {limit : Nat}
    (short : path.length ≤ limit) {rest : List Char} (ends : EndsPath rest) :
    dottedKey? limit (writePath path ++ rest) = some (path, skipSpace rest) := by
  induction path generalizing limit with
  | nil => exact absurd rfl filled
  | cons k path ih =>
    obtain ⟨limit, rfl⟩ : ∃ n, limit = n + 1 := ⟨limit - 1, by simp at short; omega⟩
    by_cases last : path = []
    · rw [last, writePath_singleton, dottedKey?_last k limit ends]
    · have later := ih last (Nat.le_of_succ_le_succ short)
      have point : EndsKey ('.' :: (writePath path ++ rest)) := by
        simp [EndsKey, isBareKeyChar]
      have key := simpleKey?_writeKey k point
      rw [writePath_cons k last, List.append_assoc, List.cons_append, dottedKey?,
        skipSpace_writeKey, key]
      dsimp only [Option.bind_eq_bind, Option.bind_some]
      rw [skipSpace_cons rfl]
      simp only [later]
      rfl

end CoverageMatrix.Toml
