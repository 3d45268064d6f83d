import CoverageMatrix.Toml.Writer

/-! Every style that a text is written in reads back as that text, as long as no further quote
follows it. -/
namespace CoverageMatrix.Toml

/-! ## Escapes -/

theorem escapedScalar?_upperDigits : ∀ n < 128,
    escapedScalar? (Text.Hex.upperDigits 4 n) = some (Char.ofNat n) := by
  decide

theorem toNat_lt_of_isControl {c : Char} (h : isControl c = true) : c.toNat < 128 := by
  simp only [isControl, isPlain, Bool.and_eq_true, Bool.not_eq_true', Bool.or_eq_false_iff,
    Bool.and_eq_false_iff, decide_eq_false_iff_not, decide_not, Bool.not_eq_false'] at h
  simp at h
  omega

/-- A character of a basic string is written as a short escape, as its number or as it is. -/
theorem escapeChar_cases (c : Char) :
    (∃ e ∈ ['b', 't', 'n', 'f', 'r', '"', '\\'],
      escapeChar c = ['\\', e] ∧ simpleEscape? e = some c) ∨
    (∃ w x y z, escapeChar c = ['\\', 'u', w, x, y, z] ∧ escapedScalar? [w, x, y, z] = some c) ∨
    (escapeChar c = [c] ∧ c ≠ '"' ∧ c ≠ '\\' ∧ c ≠ '\n' ∧ isPlain c = true) := by
  unfold escapeChar
  split
  · exact .inl ⟨'b', by simp, rfl, rfl⟩
  · exact .inl ⟨'t', by simp, rfl, rfl⟩
  · exact .inl ⟨'n', by simp, rfl, rfl⟩
  · exact .inl ⟨'f', by simp, rfl, rfl⟩
  · exact .inl ⟨'r', by simp, rfl, rfl⟩
  · exact .inl ⟨'"', by simp, rfl, rfl⟩
  · exact .inl ⟨'\\', by simp, rfl, rfl⟩
  · next hn _ _ hq hs =>
    split
    · next control =>
      have value := escapedScalar?_upperDigits c.toNat (toNat_lt_of_isControl control)
      rw [Char.ofNat_toNat] at value
      exact .inr (.inl ⟨_, _, _, _, rfl, value⟩)
    · next free =>
      have apart : c ≠ '\n' := hn
      exact .inr (.inr ⟨rfl, hq, hs, apart, by simpa [isControl, apart] using free⟩)

/-- What is written for a character begins with a plain one that is no quote. -/
theorem escapeChar_eq_cons (c : Char) :
    ∃ d ds, escapeChar c = d :: ds ∧ d ≠ '"' ∧ isPlain d = true := by
  obtain ⟨_, _, written, _⟩ | ⟨_, _, _, _, written, _⟩ | ⟨written, quote, _, _, plain⟩ :=
    escapeChar_cases c
  · exact ⟨_, _, written, by decide, rfl⟩
  · exact ⟨_, _, written, by decide, rfl⟩
  · exact ⟨_, _, written, quote, plain⟩

/-! ## Bodies on one line -/

theorem basicBody_escapeChar (c : Char) {cs body rest : List Char}
    (h : basicBody cs = some (body, rest)) :
    basicBody (escapeChar c ++ cs) = some (c :: body, rest) := by
  obtain ⟨e, short, written, value⟩ | ⟨w, x, y, z, written, value⟩ |
    ⟨written, quote, slash, -, plain⟩ := escapeChar_cases c
  · have letters : e ≠ 'u' ∧ e ≠ 'U' := by
      constructor <;> rintro rfl <;> simp at short
    rw [written, List.cons_append, List.cons_append, List.nil_append, basicBody, value, h]
    · rfl
    · exact fun _ _ _ _ _ eq _ => letters.1 eq
    · exact fun _ _ _ _ _ _ _ _ _ eq _ => letters.2 eq
  · rw [written]
    simp only [List.cons_append, List.nil_append]
    rw [basicBody, value, h]
    rfl
  · rw [written, List.cons_append, List.nil_append, basicBody, if_pos ⟨slash, plain⟩, h]
    · rfl
    · exact quote
    · exact fun _ _ _ _ _ eq _ => slash eq
    · exact fun _ _ _ _ _ _ _ _ _ eq _ => slash eq
    · exact fun _ _ eq _ => slash eq

theorem basicBody_flatMap (cs rest : List Char) :
    basicBody (cs.flatMap escapeChar ++ '"' :: rest) = some (cs, rest) := by
  induction cs with
  | nil => rfl
  | cons c cs ih =>
    rw [List.flatMap_cons, List.append_assoc]
    exact basicBody_escapeChar c ih

theorem fits_literal_iff {cs : List Char} :
    Style.literal.fits cs = true ↔ ∀ c ∈ cs, isPlain c = true ∧ c ≠ '\'' := by
  simp only [Style.fits, isControl, Bool.not_eq_true', List.any_eq_false]
  refine forall₂_congr fun c _ => ?_
  by_cases line : c = '\n'
  · simp [line, isPlain]
  · cases isPlain c <;> simp [line]

theorem literalBody_append {cs : List Char} (h : ∀ c ∈ cs, isPlain c = true ∧ c ≠ '\'')
    (rest : List Char) : literalBody (cs ++ '\'' :: rest) = some (cs, rest) := by
  induction cs with
  | nil => rfl
  | cons c cs ih =>
    obtain ⟨plain, quote⟩ := h c List.mem_cons_self
    rw [List.cons_append, literalBody, if_neg quote, if_pos plain,
      ih fun c hc => h c (List.mem_cons_of_mem _ hc)]
    rfl

/-! ## Bodies on several lines -/

/-- No quote follows, of either kind. -/
def Unquoted (rest : List Char) : Prop :=
  ∀ c ∈ rest.head?, c ≠ '"' ∧ c ≠ '\''

/-- Where a reader passes one quote before something else, it passes two. -/
theorem pass_quotes {read : List Char → Option (List Char × List Char)} {q : Char}
    (one : ∀ {c cs body rest}, (c = q → cs.head? ≠ some q) → read (c :: cs) = some (body, rest) →
      read (q :: c :: cs) = some (q :: body, rest))
    {n : Nat} (few : n ≤ 2) {c : Char} {cs body rest : List Char} (other : c ≠ q)
    (h : read (c :: cs) = some (body, rest)) :
    read (List.replicate n q ++ c :: cs) = some (List.replicate n q ++ body, rest) := by
  have single := one (fun eq => absurd eq other) h
  match n, few with
  | 0, _ => exact h
  | 1, _ => exact single
  | 2, _ => exact one (fun _ eq => other (Option.some.inj eq)) single

theorem replicate_append_cons {α : Type} (n : Nat) (a : α) (l : List α) :
    List.replicate n a ++ a :: l = List.replicate (n + 1) a ++ l := by
  rw [List.replicate_succ', List.append_assoc, List.singleton_append]

/-! ### Basic ones -/

theorem multiBasicBody_plain {c : Char} {cs body rest : List Char} (quote : c ≠ '"')
    (slash : c ≠ '\\') (plain : c = '\n' ∨ isPlain c = true)
    (h : multiBasicBody false cs = some (body, rest)) :
    multiBasicBody false (c :: cs) = some (c :: body, rest) := by
  have turn : c ≠ '\r' := by
    rintro rfl
    simp [isPlain] at plain
  rw [multiBasicBody]
  · rw [if_pos ⟨slash, plain⟩, h]
    rfl
  all_goals grind

theorem multiBasicBody_quotes {n : Nat} (few : n ≤ 2) {c : Char} {cs body rest : List Char}
    (other : c ≠ '"') (h : multiBasicBody false (c :: cs) = some (body, rest)) :
    multiBasicBody false (List.replicate n '"' ++ c :: cs) =
      some (List.replicate n '"' ++ body, rest) := by
  refine pass_quotes (fun {c cs body rest} more h => ?_) few other h
  rw [multiBasicBody]
  · rw [if_pos ⟨by decide, .inr rfl⟩, h]
    rfl
  all_goals grind

theorem multiBasicBody_escapeChar (c : Char) {cs body rest : List Char}
    (h : multiBasicBody false cs = some (body, rest)) :
    multiBasicBody false (escapeChar c ++ cs) = some (c :: body, rest) := by
  obtain ⟨e, short, written, value⟩ | ⟨w, x, y, z, written, value⟩ |
    ⟨written, quote, slash, line, plain⟩ := escapeChar_cases c
  · have letters : e ≠ 'u' ∧ e ≠ 'U' := by
      constructor <;> rintro rfl <;> simp at short
    have apart : joinsLines (e :: cs) = false := by
      simp only [List.mem_cons, List.not_mem_nil, or_false] at short
      rcases short with rfl | rfl | rfl | rfl | rfl | rfl | rfl <;> rfl
    rw [written, List.cons_append, List.cons_append, List.nil_append, multiBasicBody, apart, value,
      h]
    · rfl
    all_goals grind
  · rw [written]
    simp only [List.cons_append, List.nil_append]
    rw [multiBasicBody, value, h]
    rfl
  · rw [written]
    exact multiBasicBody_plain quote slash (.inr plain) h

theorem multiBasicBody_close {n : Nat} (few : n ≤ 2) {rest : List Char} (free : Unquoted rest) :
    multiBasicBody false (List.replicate n '"' ++ '"' :: '"' :: '"' :: rest) =
      some (List.replicate n '"', rest) := by
  have apart (cs : List Char) (eq : rest = '"' :: cs) : False :=
    (free '"' (by simp [eq])).1 rfl
  match n, few with
  | 0, _ =>
    rw [List.replicate_zero, List.nil_append, multiBasicBody]
    · rintro cs rfl
      exact apart _ rfl
    · exact apart
  | 1, _ => exact multiBasicBody.eq_8 false rest apart
  | 2, _ => exact multiBasicBody.eq_7 false rest

/-- The quotes of a row count as text only once it is clear how the row ends: the induction carries
those that are still open. -/
theorem multiBasicBody_escapeLines (cs : List Char) {rest : List Char} (free : Unquoted rest)
    {n : Nat} (few : n ≤ 2) :
    multiBasicBody false
      (List.replicate n '"' ++ (escapeLines n cs ++ '"' :: '"' :: '"' :: rest)) =
      some (List.replicate n '"' ++ cs, rest) := by
  induction cs generalizing n with
  | nil => simpa [escapeLines] using multiBasicBody_close few free
  | cons c cs ih =>
    by_cases line : c = '\n'
    · subst line
      exact multiBasicBody_quotes few (by decide)
        (multiBasicBody_plain (by decide) (by decide) (.inl rfl) (ih (Nat.zero_le 2)))
    · by_cases quote : c = '"'
      · subst quote
        rw [escapeLines]
        split
        · next fewer =>
          rw [List.cons_append, replicate_append_cons, replicate_append_cons]
          exact ih fewer
        · exact multiBasicBody_quotes few (by decide)
            (multiBasicBody_escapeChar '"' (ih (Nat.zero_le 2)))
      · obtain ⟨d, ds, written, other, -⟩ := escapeChar_eq_cons c
        have body := multiBasicBody_escapeChar c (ih (Nat.zero_le 2))
        rw [escapeLines.eq_4 _ _ _ line quote, List.append_assoc, written, List.cons_append]
        rw [written, List.cons_append] at body
        exact multiBasicBody_quotes few other body

/-! ### Literal ones -/

theorem fits_multiLiteral_iff {cs : List Char} :
    Style.multiLiteral.fits cs = true ↔
      (∀ c ∈ cs, c = '\n' ∨ isPlain c = true) ∧ longestRun '\'' 0 cs ≤ 2 := by
  simp only [Style.fits, isControl, Bool.and_eq_true, Bool.not_eq_true', List.any_eq_false,
    decide_eq_true_eq]
  refine and_congr_left' (forall₂_congr fun c _ => ?_)
  by_cases line : c = '\n'
  · simp [line]
  · cases isPlain c <;> simp [line]

theorem multiLiteralBody_plain {c : Char} {cs body rest : List Char} (quote : c ≠ '\'')
    (plain : c = '\n' ∨ isPlain c = true) (h : multiLiteralBody cs = some (body, rest)) :
    multiLiteralBody (c :: cs) = some (c :: body, rest) := by
  have turn : c ≠ '\r' := by
    rintro rfl
    simp [isPlain] at plain
  rw [multiLiteralBody]
  · rw [if_pos plain, h]
    rfl
  all_goals grind

theorem multiLiteralBody_quotes {n : Nat} (few : n ≤ 2) {c : Char} {cs body rest : List Char}
    (other : c ≠ '\'') (h : multiLiteralBody (c :: cs) = some (body, rest)) :
    multiLiteralBody (List.replicate n '\'' ++ c :: cs) =
      some (List.replicate n '\'' ++ body, rest) := by
  refine pass_quotes (fun {c cs body rest} more h => ?_) few other h
  rw [multiLiteralBody]
  · rw [if_pos (.inr rfl), h]
    rfl
  all_goals grind

theorem multiLiteralBody_close {n : Nat} (few : n ≤ 2) {rest : List Char} (free : Unquoted rest) :
    multiLiteralBody (List.replicate n '\'' ++ '\'' :: '\'' :: '\'' :: rest) =
      some (List.replicate n '\'', rest) := by
  have apart (cs : List Char) (eq : rest = '\'' :: cs) : False :=
    (free '\'' (by simp [eq])).2 rfl
  match n, few with
  | 0, _ =>
    rw [List.replicate_zero, List.nil_append, multiLiteralBody]
    · rintro cs rfl
      exact apart _ rfl
    · exact apart
  | 1, _ => exact multiLiteralBody.eq_3 rest apart
  | 2, _ => exact multiLiteralBody.eq_2 rest

theorem multiLiteralBody_append {cs rest : List Char} (free : Unquoted rest)
    (plain : ∀ c ∈ cs, c = '\n' ∨ isPlain c = true) {n : Nat} (few : longestRun '\'' n cs ≤ 2) :
    multiLiteralBody (List.replicate n '\'' ++ (cs ++ '\'' :: '\'' :: '\'' :: rest)) =
      some (List.replicate n '\'' ++ cs, rest) := by
  induction cs generalizing n with
  | nil => simpa [longestRun] using multiLiteralBody_close few free
  | cons c cs ih =>
    replace ih := @ih fun d hd => plain d (List.mem_cons_of_mem _ hd)
    rw [longestRun] at few
    split at few
    · next quote =>
      rw [quote, List.cons_append, replicate_append_cons, replicate_append_cons]
      exact ih few
    · next other =>
      rw [Nat.max_le] at few
      exact multiLiteralBody_quotes few.1 other
        (multiLiteralBody_plain other (plain c List.mem_cons_self) (ih few.2))

/-! ## Whole strings -/

theorem newline?_plain {c : Char} (h : isPlain c = true) (cs : List Char) :
    newline? (c :: cs) = none := by
  rw [newline?]
  · rintro rest ⟨⟩
    simp [isPlain] at h
  · rintro rest ⟨⟩
    simp [isPlain] at h

/-- The line break that leads into a text is the one that is passed over. -/
theorem skipNewline_leadIn {cs text : List Char}
    (h : '\n' ∉ cs → ∃ c rest, text = c :: rest ∧ isPlain c = true) :
    skipNewline (leadIn cs ++ text) = text := by
  rw [leadIn]
  split
  · rfl
  · next absent =>
    obtain ⟨c, rest, rfl, plain⟩ := h fun mem => absent (List.contains_iff_mem.2 mem)
    rw [List.nil_append, skipNewline, newline?_plain plain]
    rfl

/-- A style in which a text can be written: the literal ones have no escapes. -/
def Style.Holds (cs : List Char) : Style → Prop
  | basic | multiBasic => True
  | literal => Style.literal.fits cs = true
  | multiLiteral => Style.multiLiteral.fits cs = true

theorem Style.holds_of (cs : List Char) : (Style.of cs).Holds cs := by
  rw [Style.of]
  split
  · next style found =>
    have fits := List.find?_some found
    cases style with
    | basic | multiBasic => trivial
    | literal | multiLiteral => exact fits
  · split <;> trivial

/-- A quote opens a basic string on one line unless two more follow it. -/
theorem string?_basicBody {cs : List Char} (one : ∀ rest, cs ≠ '"' :: '"' :: rest) :
    string? ('"' :: cs) = (basicBody cs).map fun (body, rest) => (String.ofList body, rest) := by
  unfold string?
  split
  · next eq => exact absurd (List.cons.inj eq).2 (one _)
  · next eq => rw [(List.cons.inj eq).2]
  · next eq => cases eq
  · next eq => cases eq
  · next other _ _ => exact absurd rfl (other cs)

theorem string?_literalBody {cs : List Char} (one : ∀ rest, cs ≠ '\'' :: '\'' :: rest) :
    string? ('\'' :: cs) =
      (literalBody cs).map fun (body, rest) => (String.ofList body, rest) := by
  unfold string?
  split
  · next eq => cases eq
  · next eq => cases eq
  · next eq => exact absurd (List.cons.inj eq).2 (one _)
  · next eq => rw [(List.cons.inj eq).2]
  · next other => exact absurd rfl (other cs)

/-- A body on one line that begins with a quote is empty, and then no further quote follows. -/
theorem flatMap_escapeChar_ne (cs : List Char) {rest : List Char} (free : Unquoted rest)
    (tail : List Char) : cs.flatMap escapeChar ++ '"' :: rest ≠ '"' :: '"' :: tail := by
  intro eq
  cases cs with
  | nil => exact (free '"' (by simp [(List.cons.inj eq).2])).1 rfl
  | cons c cs =>
    obtain ⟨d, ds, written, quote, -⟩ := escapeChar_eq_cons c
    rw [List.flatMap_cons, written, List.cons_append, List.cons_append] at eq
    exact quote (List.cons.inj eq).1

theorem append_quote_ne {cs : List Char} (plain : ∀ c ∈ cs, isPlain c = true ∧ c ≠ '\'')
    {rest : List Char} (free : Unquoted rest) (tail : List Char) :
    cs ++ '\'' :: rest ≠ '\'' :: '\'' :: tail := by
  intro eq
  cases cs with
  | nil => exact (free '\'' (by simp [(List.cons.inj eq).2])).2 rfl
  | cons c cs => exact (plain c List.mem_cons_self).2 (List.cons.inj eq).1

theorem skipNewline_escapeLines (cs rest : List Char) :
    skipNewline (leadIn cs ++ (escapeLines 0 cs ++ '"' :: rest)) =
      escapeLines 0 cs ++ '"' :: rest := by
  refine skipNewline_leadIn fun absent => ?_
  cases cs with
  | nil => exact ⟨_, _, rfl, rfl⟩
  | cons c cs =>
    by_cases quote : c = '"'
    · subst quote
      exact ⟨_, _, rfl, rfl⟩
    · have line : c ≠ '\n' := by
        rintro rfl
        exact absent List.mem_cons_self
      obtain ⟨d, ds, written, -, plain⟩ := escapeChar_eq_cons c
      rw [escapeLines.eq_4 _ _ _ line quote, written]
      exact ⟨_, _, rfl, plain⟩

theorem skipNewline_append {cs : List Char} (plain : ∀ c ∈ cs, c = '\n' ∨ isPlain c = true)
    (rest : List Char) :
    skipNewline (leadIn cs ++ (cs ++ '\'' :: rest)) = cs ++ '\'' :: rest := by
  refine skipNewline_leadIn fun absent => ?_
  cases cs with
  | nil => exact ⟨_, _, rfl, rfl⟩
  | cons c cs =>
    refine ⟨_, _, rfl, (plain c List.mem_cons_self).resolve_left ?_⟩
    rintro rfl
    exact absent List.mem_cons_self

theorem string?_writeStyled {cs : List Char} {style : Style} (holds : style.Holds cs)
    {rest : List Char} (free : Unquoted rest) :
    string? (writeStyled cs style ++ rest) = some (String.ofList cs, rest) := by
  cases style with
  | basic =>
    have body := basicBody_flatMap cs rest
    rw [writeStyled, List.cons_append, List.cons_append, List.append_assoc, List.singleton_append,
      string?_basicBody (flatMap_escapeChar_ne cs free), body]
    rfl
  | literal =>
    have plain := fits_literal_iff.1 holds
    have body := literalBody_append plain rest
    rw [writeStyled, List.cons_append, List.cons_append, List.append_assoc, List.singleton_append,
      string?_literalBody (append_quote_ne plain free), body]
    rfl
  | multiBasic =>
    have body := multiBasicBody_escapeLines cs free (Nat.zero_le 2)
    rw [List.replicate_zero, List.nil_append, List.nil_append] at body
    simp only [writeStyled, List.cons_append, List.nil_append, List.append_assoc]
    rw [string?, skipNewline_escapeLines, body]
    rfl
  | multiLiteral =>
    have plain := fits_multiLiteral_iff.1 holds
    have body := multiLiteralBody_append free plain.1 plain.2
    rw [List.replicate_zero, List.nil_append, List.nil_append] at body
    simp only [writeStyled, List.cons_append, List.nil_append, List.append_assoc]
    rw [string?, skipNewline_append plain.1, body]
    rfl

theorem string?_writeString (s : String) {rest : List Char} (free : Unquoted rest) :
    string? (writeString s ++ rest) = some (s, rest) := by
  rw [writeString, string?_writeStyled (Style.holds_of _) free, String.ofList_toList]

end CoverageMatrix.Toml
