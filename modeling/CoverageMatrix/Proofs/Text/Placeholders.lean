import CoverageMatrix.Proofs.Text.Substitute
import Mathlib.Data.List.Infix
import Mathlib.Data.List.Nodup
import Mathlib.Data.List.Perm.Basic

/-!
# Placeholders filled in turn and all at once

A text may hold several placeholders, names between braces. They can be filled one after the other,
so that what was put in for one is looked through for the next, or all in one pass, which never looks
at what it has put in. Both come to the same as long as no value lets a later placeholder come about
(`replaceCharsInTurn_eq_fillChars`), and the order in which they are filled matters exactly if some
value lets another placeholder come about (`exists_turns_ne`).
-/
namespace CoverageMatrix.Text

/-! ## Filling in one pass -/

/-- The values that take the place of patterns. -/
abbrev Fills := List (List Char × List Char)

/-- What the first of the patterns that begin a text is replaced by, and what follows it. -/
def fillStart? (fills : Fills) (text : List Char) : Option (List Char × List Char) :=
  fills.findSome? fun p => if p.1.isEmpty then none else (dropStart? p.1 text).map (p.2, ·)

theorem exists_of_fillStart? {fills : Fills} {text value rest : List Char}
    (h : fillStart? fills text = some (value, rest)) :
    ∃ pattern, (pattern, value) ∈ fills ∧ pattern ≠ [] ∧ text = pattern ++ rest := by
  obtain ⟨⟨pattern, value'⟩, mem, found⟩ := List.exists_of_findSome?_eq_some h
  dsimp only at found
  split at found
  · cases found
  next some =>
  obtain ⟨rest', dropped, same⟩ := Option.map_eq_some_iff.mp found
  cases same
  exact ⟨pattern, mem, mt List.isEmpty_iff.mpr some, dropStart?_eq_some_iff.mp dropped⟩

/-- Replaces the patterns in one pass from left to right: after an occurrence its value stands in the
result, and the pass goes on behind it. -/
def fillChars (fills : Fills) (text : List Char) : List Char :=
  match text with
  | [] => []
  | c :: rest =>
    match _h : fillStart? fills (c :: rest) with
    | some (value, after) => value ++ fillChars fills after
    | none => c :: fillChars fills rest
termination_by text.length
decreasing_by
  · obtain ⟨pattern, -, some, eq⟩ := exists_of_fillStart? _h
    have length := congrArg List.length eq
    have : 0 < pattern.length := List.length_pos_iff.mpr some
    simp only [List.length_append, List.length_cons] at length ⊢
    omega
  · simp

/-- Patterns and values as lists of characters. -/
def chars (fills : List (String × String)) : Fills :=
  fills.map fun p => (p.1.toList, p.2.toList)

/-- A text with its placeholders filled in one pass. -/
def fill (fills : List (String × String)) (text : String) : String :=
  String.ofList (fillChars (chars fills) text.toList)

/-- A text with its placeholders filled one after the other. -/
def replaceInTurn (fills : List (String × String)) (text : String) : String :=
  fills.foldl (fun text p => replace p.1 p.2 text) text

/-- Whether a pattern can come about around a value: with a beginning of the pattern before it and an
end of the pattern behind it, neither of them the whole, the value holds the pattern. -/
def Completes (value pattern : List Char) : Prop :=
  ∃ front ∈ pattern.inits, ∃ back ∈ pattern.tails, front ≠ pattern ∧ back ≠ pattern ∧
    pattern <:+: front ++ value ++ back

instance (value pattern : List Char) : Decidable (Completes value pattern) :=
  inferInstanceAs (Decidable (∃ front ∈ pattern.inits, ∃ back ∈ pattern.tails,
    front ≠ pattern ∧ back ≠ pattern ∧ pattern <:+: front ++ value ++ back))

/-- A beginning and an end of a pattern, neither of them the whole. -/
structure Flanks (pattern front back : List Char) : Prop where
  begun : front <+: pattern
  broken : front ≠ pattern
  goesOn : back <:+ pattern
  short : back ≠ pattern

theorem completes_iff {value pattern : List Char} : Completes value pattern ↔
    ∃ front back, Flanks pattern front back ∧ pattern <:+: front ++ (value ++ back) := by
  constructor
  · rintro ⟨front, begun, back, goesOn, broken, short, holds⟩
    rw [List.append_assoc] at holds
    exact ⟨front, back,
      ⟨(List.mem_inits _ _).mp begun, broken, (List.mem_tails _ _).mp goesOn, short⟩, holds⟩
  · rintro ⟨front, back, flanks, holds⟩
    rw [← List.append_assoc] at holds
    exact ⟨front, (List.mem_inits _ _).mpr flanks.begun, back,
      (List.mem_tails _ _).mpr flanks.goesOn, flanks.broken, flanks.short, holds⟩

/-! ## Placeholders -/

/-- A name between braces. -/
def IsPlaceholder (pattern : List Char) : Prop :=
  ∃ name, pattern = '\x7b' :: (name ++ ['\x7d']) ∧ '\x7b' ∉ name ∧ '\x7d' ∉ name

/-- Placeholders, each of them once. -/
structure Fills.Proper (fills : Fills) : Prop where
  placeholders : ∀ p ∈ fills, IsPlaceholder p.1
  distinct : (fills.map Prod.fst).Nodup

variable {fills : Fills} {P Q value text front back s t u v : List Char}

theorem IsPlaceholder.ne_nil (h : IsPlaceholder P) : P ≠ [] := by
  obtain ⟨name, rfl, -, -⟩ := h
  simp

/-- Of two texts without a character, each followed by it, neither is longer. -/
theorem eq_of_append_cons_eq {c : Char} {a b : List Char} (ha : c ∉ a) (hb : c ∉ b)
    (h : a ++ c :: s = b ++ c :: t) : a = b := by
  induction a generalizing b with
  | nil =>
    cases b with
    | nil => rfl
    | cons d b =>
      obtain ⟨rfl, -⟩ := List.cons.inj h
      exact absurd List.mem_cons_self hb
  | cons d a ih =>
    cases b with
    | nil =>
      obtain ⟨rfl, -⟩ := List.cons.inj h
      exact absurd List.mem_cons_self ha
    | cons e b =>
      obtain ⟨rfl, rest⟩ := List.cons.inj h
      rw [ih (List.not_mem_of_not_mem_cons ha) (List.not_mem_of_not_mem_cons hb) rest]

theorem IsPlaceholder.eq_of_append_eq (hP : IsPlaceholder P) (hQ : IsPlaceholder Q)
    (h : P ++ s = Q ++ t) : P = Q := by
  obtain ⟨n, rfl, -, hn⟩ := hP
  obtain ⟨m, rfl, -, hm⟩ := hQ
  have inside : n ++ '\x7d' :: s = m ++ '\x7d' :: t := by simpa using h
  rw [eq_of_append_cons_eq hn hm inside]

/-- What is left of a placeholder without its beginning has no opening brace. -/
theorem IsPlaceholder.notMem_of_suffix (h : IsPlaceholder P) (hs : s <:+ P) (proper : s ≠ P) :
    '\x7b' ∉ s := by
  obtain ⟨name, rfl, open_, -⟩ := h
  rcases List.suffix_cons_iff.mp hs with rfl | hs
  · exact absurd rfl proper
  · intro mem
    have mem : '\x7b' ∈ name ++ ['\x7d'] := hs.subset mem
    simp [open_] at mem

/-- A placeholder that is broken off has no closing brace, and an opening one at its start only. -/
theorem IsPlaceholder.prefix_cases (h : IsPlaceholder P) (hs : s <+: P) (proper : s ≠ P) :
    s = [] ∨ ∃ begun, s = '\x7b' :: begun ∧ '\x7b' ∉ begun ∧ '\x7d' ∉ begun := by
  obtain ⟨name, rfl, open_, close⟩ := h
  rcases List.prefix_cons_iff.mp hs with rfl | ⟨begun, rfl, short⟩
  · exact .inl rfl
  · have short : begun <+: name := by
      rcases List.prefix_concat_iff.mp short with rfl | short
      · exact absurd rfl proper
      · exact short
    exact .inr ⟨begun, rfl, fun mem => open_ (short.subset mem), fun mem => close (short.subset mem)⟩

/-- No placeholder begins where one is broken off by an opening brace. -/
theorem IsPlaceholder.not_prefix_broken (h : IsPlaceholder Q) {begun : List Char}
    (open_ : '\x7b' ∉ begun) (close : '\x7d' ∉ begun) :
    ¬Q <+: '\x7b' :: (begun ++ '\x7b' :: t) := by
  obtain ⟨name, rfl, hopen, -⟩ := h
  rintro ⟨rest, whole⟩
  have inside : name ++ '\x7d' :: rest = begun ++ '\x7b' :: t := by simpa using whole
  rcases List.append_eq_append_iff.mp inside with ⟨more, rfl, eq⟩ | ⟨more, rfl, eq⟩
  · cases more with
    | nil => cases eq
    | cons c more =>
      obtain ⟨rfl, -⟩ := List.cons.inj eq
      simp at close
  · cases more with
    | nil => cases eq
    | cons c more =>
      obtain ⟨rfl, -⟩ := List.cons.inj eq
      simp at hopen

/-! ## One pass, step by step -/

theorem fillStart?_eq_none_iff :
    fillStart? fills text = none ↔ ∀ p ∈ fills, p.1 ≠ [] → ¬p.1 <+: text := by
  rw [fillStart?, List.findSome?_eq_none_iff]
  refine forall₂_congr fun p _ => ?_
  split
  · next empty => simp [List.isEmpty_iff.mp empty]
  · next some =>
    have some : p.1 ≠ [] := mt List.isEmpty_iff.mpr some
    rw [Option.map_eq_none_iff, Option.eq_none_iff_forall_ne_some]
    simp only [some, ne_eq, not_false_eq_true, forall_const, dropStart?_eq_some_iff]
    exact ⟨fun none ⟨rest, eq⟩ => none rest eq.symm, fun none rest eq => none ⟨rest, eq.symm⟩⟩

theorem fillStart?_eq_some_iff (proper : fills.Proper) {rest : List Char} :
    fillStart? fills text = some (value, rest) ↔ ∃ P, (P, value) ∈ fills ∧ text = P ++ rest := by
  constructor
  · intro found
    obtain ⟨P, mem, -, eq⟩ := exists_of_fillStart? found
    exact ⟨P, mem, eq⟩
  · rintro ⟨P, mem, rfl⟩
    cases found : fillStart? fills (P ++ rest) with
    | none =>
      have hP := proper.placeholders _ mem
      exact absurd (List.prefix_append P rest) (fillStart?_eq_none_iff.mp found _ mem hP.ne_nil)
    | some first =>
      obtain ⟨Q, mem', -, eq⟩ := exists_of_fillStart? found
      have same : P = Q :=
        (proper.placeholders _ mem).eq_of_append_eq (proper.placeholders _ mem') eq
      subst same
      have pair := List.inj_on_of_nodup_map proper.distinct mem mem' rfl
      cases pair
      rw [List.append_cancel_left eq]

theorem fillChars_of_some {after : List Char} (h : fillStart? fills text = some (value, after)) :
    fillChars fills text = value ++ fillChars fills after := by
  obtain ⟨pattern, -, some, rfl⟩ := exists_of_fillStart? h
  obtain ⟨c, rest, eq⟩ := List.exists_cons_of_ne_nil (List.append_ne_nil_of_left_ne_nil some after)
  rw [eq] at h ⊢
  rw [fillChars]
  split
  · next found => cases h.symm.trans found; rfl
  · next missing => cases h.symm.trans missing

theorem fillChars_cons {c : Char} (h : fillStart? fills (c :: text) = none) :
    fillChars fills (c :: text) = c :: fillChars fills text := by
  rw [fillChars]
  split
  · next found => cases h.symm.trans found
  · rfl

theorem fillChars_append_of_none (h : ∀ y, y <:+ s → y ≠ [] → fillStart? fills (y ++ t) = none) :
    fillChars fills (s ++ t) = s ++ fillChars fills t := by
  induction s with
  | nil => rfl
  | cons c s ih =>
    have first : fillStart? fills (c :: (s ++ t)) = none :=
      h (c :: s) (List.suffix_refl _) (List.cons_ne_nil _ _)
    have others : fillChars fills (s ++ t) = s ++ fillChars fills t :=
      ih fun y suffix => h y (suffix.trans (List.suffix_cons c s))
    rw [List.cons_append, fillChars_cons first, others, List.cons_append]

/-- Replacing a pattern is a pass with this pattern alone. -/
theorem replaceChars_eq_fillChars (some : P ≠ []) : replaceChars P v t = fillChars [(P, v)] t := by
  have start (text : List Char) : fillStart? [(P, v)] text = (dropStart? P text).map (v, ·) := by
    simp [fillStart?, some]
  fun_induction replaceChars P v t with
  | case1 => rw [fillChars]
  | case2 c rest after found empty => exact absurd (List.isEmpty_iff.mp empty) some
  | case3 c rest after found _ ih =>
    rw [ih]
    refine (fillChars_of_some ?_).symm
    rw [start, found]
    rfl
  | case4 c rest missing ih =>
    rw [ih]
    refine (fillChars_cons ?_).symm
    rw [start, missing]
    rfl

theorem fillChars_append_of_notMem (placeholders : ∀ p ∈ fills, IsPlaceholder p.1)
    (h : '\x7b' ∉ s) : fillChars fills (s ++ t) = s ++ fillChars fills t := by
  refine fillChars_append_of_none fun y suffix some => fillStart?_eq_none_iff.mpr ?_
  rintro p mem - ⟨rest, eq⟩
  obtain ⟨name, start, -, -⟩ := placeholders p mem
  obtain ⟨c, y, rfl⟩ := List.exists_cons_of_ne_nil some
  rw [start] at eq
  obtain ⟨rfl, -⟩ := List.cons.inj eq
  exact h (suffix.subset List.mem_cons_self)

theorem fillChars_append_of_foreign (placeholders : ∀ p ∈ fills, IsPlaceholder p.1)
    (hP : IsPlaceholder P) (foreign : ∀ p ∈ fills, p.1 ≠ P) :
    fillChars fills (P ++ t) = P ++ fillChars fills t := by
  have first : fillStart? fills (P ++ t) = none := by
    refine fillStart?_eq_none_iff.mpr ?_
    rintro p mem - ⟨rest, eq⟩
    exact foreign p mem ((placeholders p mem).eq_of_append_eq hP eq)
  obtain ⟨name, rfl, open_, -⟩ := hP
  have rest : '\x7b' ∉ name ++ ['\x7d'] := by simp [open_]
  rw [List.cons_append] at first ⊢
  rw [fillChars_cons first, fillChars_append_of_notMem placeholders rest, List.cons_append]

theorem fillChars_append_of_mem (proper : fills.Proper) (mem : (P, v) ∈ fills) :
    fillChars fills (P ++ t) = v ++ fillChars fills t :=
  fillChars_of_some ((fillStart?_eq_some_iff proper).mpr ⟨P, mem, rfl⟩)

theorem fillChars_append_of_broken (placeholders : ∀ p ∈ fills, IsPlaceholder p.1)
    (hP : IsPlaceholder P) (begun : front <+: P) (broken : front ≠ P) (hQ : IsPlaceholder Q) :
    fillChars fills (front ++ (Q ++ t)) = front ++ fillChars fills (Q ++ t) := by
  obtain ⟨name, rfl, -, -⟩ := hQ
  rcases hP.prefix_cases begun broken with rfl | ⟨begun, rfl, open_, close⟩
  · rfl
  · refine fillChars_append_of_none fun y suffix some => fillStart?_eq_none_iff.mpr ?_
    rintro p mem - start
    rcases List.suffix_cons_iff.mp suffix with rfl | suffix
    · exact (placeholders p mem).not_prefix_broken open_ close (by simpa using start)
    · -- an opening brace stands at the front only
      obtain ⟨name, eq, -, -⟩ := placeholders p mem
      obtain ⟨c, y, rfl⟩ := List.exists_cons_of_ne_nil some
      obtain ⟨rest, start⟩ := start
      rw [eq] at start
      obtain ⟨rfl, -⟩ := List.cons.inj start
      exact open_ (suffix.subset List.mem_cons_self)

/-- A value that does not let a pattern come about is passed over. -/
theorem replaceChars_append_of_not_completes (some : P ≠ []) (h : ¬Completes u P) :
    replaceChars P v (u ++ t) = u ++ replaceChars P v t := by
  rw [replaceChars_eq_fillChars some, replaceChars_eq_fillChars some]
  refine fillChars_append_of_none fun y suffix nonempty => fillStart?_eq_none_iff.mpr ?_
  obtain ⟨before, rfl⟩ := suffix
  rintro p mem - ⟨rest, eq⟩
  cases List.mem_singleton.mp mem
  rcases List.append_eq_append_iff.mp eq with ⟨after, rfl, -⟩ | ⟨after, rfl, -⟩
  · -- the value holds the pattern
    have flanks : Flanks P [] [] := ⟨P.nil_prefix, some.symm, P.nil_suffix, some.symm⟩
    exact h (completes_iff.mpr ⟨[], [], flanks, before, after, by simp⟩)
  · -- the pattern begins in the value and goes on behind it
    have short : after ≠ y ++ after := fun same => nonempty (List.append_left_eq_self.mp same.symm)
    have flanks : Flanks (y ++ after) [] after :=
      ⟨List.nil_prefix, some.symm, List.suffix_append y after, short⟩
    exact h (completes_iff.mpr ⟨[], after, flanks, before, [], by simp⟩)

/-- Where a pattern that was begun goes on in a text with placeholders filled, it went on before, if
no value lets it come about. -/
theorem prefix_of_prefix_fillChars (apart : ∀ p ∈ fills, ¬Completes p.2 (front ++ back))
    (begun : front ≠ []) (h : back <+: fillChars fills text) : back <+: text := by
  fun_induction fillChars fills text generalizing front back with
  | case1 => exact h
  | case2 c rest value after found ih =>
    by_cases nothing : back = []
    · rw [nothing]
      exact List.nil_prefix
    · exfalso
      obtain ⟨pattern, mem, -, -⟩ := exists_of_fillStart? found
      have broken : front ≠ front ++ back := fun same =>
        nothing (List.append_right_eq_self.mp same.symm)
      obtain ⟨rest, eq⟩ := h
      rcases List.append_eq_append_iff.mp eq with ⟨more, rfl, -⟩ | ⟨more, rfl, -⟩
      · -- the value goes on with the rest of the pattern
        have flanks : Flanks (front ++ back) front [] := ⟨List.prefix_append _ _, broken,
          List.nil_suffix, (List.append_ne_nil_of_left_ne_nil begun _).symm⟩
        exact apart _ mem (completes_iff.mpr ⟨front, [], flanks, [], more, by simp⟩)
      · -- the value stands in the middle of the pattern
        have short : more ≠ front ++ (value ++ more) := fun same => by
          have length := congrArg List.length same
          have : 0 < front.length := List.length_pos_iff.mpr begun
          simp only [List.length_append] at length
          omega
        have flanks : Flanks (front ++ (value ++ more)) front more :=
          ⟨List.prefix_append _ _, broken, ⟨front ++ value, by simp⟩, short⟩
        exact apart _ mem (completes_iff.mpr ⟨front, more, flanks, [], [], by simp⟩)
  | case3 c rest missing ih =>
    cases back with
    | nil => exact List.nil_prefix
    | cons d back =>
      obtain ⟨rfl, tail⟩ := List.cons_prefix_cons.mp h
      have regroup : front ++ d :: back = (front ++ [d]) ++ back := by simp
      rw [regroup] at apart
      exact List.cons_prefix_cons.mpr ⟨rfl, ih apart (by simp) tail⟩

/-! ## One placeholder after the other -/

/-- Fills placeholders one after the other. -/
def replaceCharsInTurn (fills : Fills) (text : List Char) : List Char :=
  fills.foldl (fun text p => replaceChars p.1 p.2 text) text

theorem replaceCharsInTurn_append (early late : Fills) (text : List Char) :
    replaceCharsInTurn (early ++ late) text =
      replaceCharsInTurn late (replaceCharsInTurn early text) :=
  List.foldl_append

theorem fillStart?_concat (solid : P ≠ []) : fillStart? (fills ++ [(P, v)]) text =
    (fillStart? fills text).or ((dropStart? P text).map (v, ·)) := by
  simp [fillStart?, List.findSome?_append, solid]

theorem fillStart?_concat_of_some (solid : P ≠ []) {first : List Char × List Char}
    (found : fillStart? fills text = some first) :
    fillStart? (fills ++ [(P, v)]) text = some first := by
  rw [fillStart?_concat solid, found]
  rfl

theorem fillStart?_concat_of_none (solid : P ≠ []) (missing : fillStart? fills text = none) :
    fillStart? (fills ++ [(P, v)]) text = (dropStart? P text).map (v, ·) := by
  rw [fillStart?_concat solid, missing]
  rfl

theorem length_lt_of_eq_append (solid : P ≠ []) (h : text = P ++ t) : t.length < text.length := by
  have : 0 < P.length := List.length_pos_iff.mpr solid
  rw [h, List.length_append]
  omega

theorem replaceChars_append (solid : P ≠ []) :
    replaceChars P v (P ++ t) = v ++ replaceChars P v t := by
  rw [replaceChars_eq_fillChars solid, replaceChars_eq_fillChars solid]
  refine fillChars_of_some ?_
  simp [fillStart?, solid, dropStart?_eq_some_iff.mpr rfl]

theorem replaceChars_cons {c : Char} (h : ¬P <+: c :: text) :
    replaceChars P v (c :: text) = c :: replaceChars P v text := by
  rw [replaceChars]
  split
  · next found => exact absurd ⟨_, (dropStart?_eq_some_iff.mp found).symm⟩ h
  · rfl

/-- A placeholder that takes its own place can be left out of a pass. -/
theorem fillChars_concat_self (placeholders : ∀ p ∈ fills, IsPlaceholder p.1) (hP : IsPlaceholder P)
    (text : List Char) :
    fillChars (fills ++ [(P, P)]) text = fillChars fills text := by
  fun_induction fillChars fills text with
  | case1 => rw [fillChars]
  | case2 c rest value after found ih =>
    rw [fillChars_of_some (fillStart?_concat_of_some hP.ne_nil found), ih]
  | case3 c rest missing ih =>
    have both : fillStart? (fills ++ [(P, P)]) (c :: rest) =
        (dropStart? P (c :: rest)).map (P, ·) := fillStart?_concat_of_none hP.ne_nil missing
    rw [← ih]
    cases start : dropStart? P (c :: rest) with
    | none =>
      rw [start] at both
      exact fillChars_cons both
    | some after =>
      -- past its brace, the placeholder is passed over
      rw [start] at both
      obtain ⟨name, eqP, open_, -⟩ := id hP
      have others : ∀ p ∈ fills ++ [(P, P)], IsPlaceholder p.1 :=
        List.forall_mem_append.mpr ⟨placeholders, List.forall_mem_singleton.mpr hP⟩
      have braceless : '\x7b' ∉ name ++ ['\x7d'] := by simp [open_]
      obtain ⟨rfl, rest_eq⟩ : c = '\x7b' ∧ rest = (name ++ ['\x7d']) ++ after := by
        have text_eq : c :: rest = P ++ after := dropStart?_eq_some_iff.mp start
        rw [eqP] at text_eq
        exact List.cons.inj text_eq
      rw [fillChars_of_some both, rest_eq, fillChars_append_of_notMem others braceless]
      exact congrArg (· ++ fillChars (fills ++ [(P, P)]) after) eqP

/-- A pass whose values let no placeholder come about leaves what does not begin with one. -/
theorem not_prefix_cons_fillChars (hP : IsPlaceholder P) (apart : ∀ p ∈ fills, ¬Completes p.2 P)
    {c : Char} (h : ¬P <+: c :: text) : ¬P <+: c :: fillChars fills text := by
  obtain ⟨name, rfl, -, -⟩ := hP
  intro start
  obtain ⟨rfl, tail⟩ := List.cons_prefix_cons.mp start
  have begun : ['\x7b'] ≠ [] := List.cons_ne_nil _ _
  exact h (List.cons_prefix_cons.mpr ⟨rfl, prefix_of_prefix_fillChars apart begun tail⟩)

/-- A pass can be followed by one for another placeholder, or the two be made one, if no value of the
first lets the other placeholder come about. -/
theorem replaceChars_fillChars (placeholders : ∀ p ∈ fills, IsPlaceholder p.1)
    (hP : IsPlaceholder P) (foreign : ∀ p ∈ fills, p.1 ≠ P)
    (apart : ∀ p ∈ fills, ¬Completes p.2 P) (text : List Char) :
    replaceChars P v (fillChars fills text) = fillChars (fills ++ [(P, v)]) text := by
  induction length : text.length using Nat.strong_induction_on generalizing text with
  | h n ih =>
  subst length
  cases text with
  | nil => simp [fillChars, replaceChars]
  | cons c rest =>
    cases found : fillStart? fills (c :: rest) with
    | some first =>
      obtain ⟨value, after⟩ := first
      obtain ⟨pattern, mem, solid, eq⟩ := exists_of_fillStart? found
      rw [fillChars_of_some found, fillChars_of_some (fillStart?_concat_of_some hP.ne_nil found),
        replaceChars_append_of_not_completes hP.ne_nil (apart _ mem),
        ih _ (length_lt_of_eq_append solid eq) after rfl]
    | none =>
      have both : fillStart? (fills ++ [(P, v)]) (c :: rest) =
          (dropStart? P (c :: rest)).map (v, ·) := fillStart?_concat_of_none hP.ne_nil found
      cases start : dropStart? P (c :: rest) with
      | some after =>
        rw [start] at both
        obtain eq : c :: rest = P ++ after := dropStart?_eq_some_iff.mp start
        rw [fillChars_of_some both, eq, fillChars_append_of_foreign placeholders hP foreign,
          replaceChars_append hP.ne_nil, ih _ (length_lt_of_eq_append hP.ne_nil eq) after rfl]
      | none =>
        have absent : ¬P <+: c :: rest := by
          rintro ⟨after, eq⟩
          rw [dropStart?_eq_some_iff.mpr eq.symm] at start
          cases start
        rw [start] at both
        rw [fillChars_cons found, fillChars_cons both,
          replaceChars_cons (not_prefix_cons_fillChars hP apart absent), ih _ (by simp) rest rfl]

theorem replaceChars_self (solid : P ≠ []) (text : List Char) : replaceChars P P text = text := by
  fun_induction replaceChars P P text with
  | case1 => rfl
  | case2 c rest after found empty => exact absurd (List.isEmpty_iff.mp empty) solid
  | case3 c rest after found _ ih => rw [ih, dropStart?_eq_some_iff.mp found]
  | case4 c rest missing ih => rw [ih]

/-- Placeholders filled one after the other come to what they come to in one pass, if no value lets
a later placeholder come about that it would change. -/
theorem replaceCharsInTurn_fillChars (done : Fills) {more : Fills} (proper : (done ++ more).Proper)
    (apart : (done ++ more).Pairwise fun p q => Completes p.2 q.1 → q.2 = q.1) (text : List Char) :
    replaceCharsInTurn more (fillChars done text) = fillChars (done ++ more) text := by
  induction more generalizing done with
  | nil => rw [List.append_nil, replaceCharsInTurn, List.foldl_nil]
  | cons p more ih =>
    have regroup : done ++ p :: more = (done ++ [p]) ++ more := by simp
    obtain ⟨P, v⟩ := p
    have hP : IsPlaceholder P := proper.placeholders (P, v) (by simp)
    have placeholders : ∀ q ∈ done, IsPlaceholder q.1 := fun q mem =>
      proper.placeholders q (List.mem_append_left _ mem)
    have foreign : ∀ q ∈ done, q.1 ≠ P := by
      intro q mem same
      have distinct := proper.distinct
      rw [List.map_append, List.nodup_append] at distinct
      exact distinct.2.2 q.1 (List.mem_map_of_mem mem) P (by simp) same
    have first : replaceChars P v (fillChars done text) = fillChars (done ++ [(P, v)]) text := by
      by_cases own : v = P
      · rw [own, replaceChars_self hP.ne_nil, fillChars_concat_self placeholders hP]
      · refine replaceChars_fillChars placeholders hP foreign (fun q mem completes => own ?_) text
        exact (List.pairwise_append.mp apart).2.2 q mem (P, v) List.mem_cons_self completes
    have step : replaceCharsInTurn ((P, v) :: more) (fillChars done text) =
        replaceCharsInTurn more (replaceChars P v (fillChars done text)) := rfl
    rw [regroup] at proper apart ⊢
    rw [step, first, ih _ proper apart]

theorem replaceCharsInTurn_eq_fillChars (proper : fills.Proper)
    (apart : fills.Pairwise fun p q => Completes p.2 q.1 → q.2 = q.1) (text : List Char) :
    replaceCharsInTurn fills text = fillChars fills text := by
  have nothing : fillChars [] text = text := by
    induction text with
    | nil => rw [fillChars]
    | cons c rest ih => rw [fillChars_cons rfl, ih]
  simpa [nothing] using replaceCharsInTurn_fillChars [] proper apart text

/-! ## Where the order matters -/

/-- Every occurrence that is replaced gives its characters for those of the value. -/
theorem exists_countP_replaceChars (solid : P ≠ []) (v text : List Char) :
    ∃ k, (P <:+: text → 0 < k) ∧ ∀ p : Char → Bool,
      (replaceChars P v text).countP p + k * P.countP p = text.countP p + k * v.countP p := by
  fun_induction replaceChars P v text with
  | case1 => exact ⟨0, fun holds => absurd (List.infix_nil.mp holds) solid, fun p => by simp⟩
  | case2 c rest after found empty => exact absurd (List.isEmpty_iff.mp empty) solid
  | case3 c rest after found _ ih =>
    obtain ⟨k, -, counts⟩ := ih
    refine ⟨k + 1, fun _ => k.succ_pos, fun p => ?_⟩
    have count := counts p
    rw [dropStart?_eq_some_iff.mp found, List.countP_append, List.countP_append, Nat.add_mul,
      Nat.add_mul, Nat.one_mul, Nat.one_mul]
    omega
  | case4 c rest missing ih =>
    obtain ⟨k, some_, counts⟩ := ih
    refine ⟨k, fun holds => some_ ?_, fun p => ?_⟩
    · rcases List.infix_cons_iff.mp holds with ⟨after, start⟩ | holds
      · rw [dropStart?_eq_some_iff.mpr start.symm] at missing
        cases missing
      · exact holds
    · have count := counts p
      rw [List.countP_cons, List.countP_cons]
      omega

/-- A text that holds a pattern stays as it is only if the pattern takes its own place. -/
theorem eq_of_replaceChars_eq_self (solid : P ≠ []) (h : replaceChars P v text = text)
    (holds : P <:+: text) : v = P := by
  have same : v.length = P.length := by
    obtain ⟨k, some_, counts⟩ := exists_countP_replaceChars solid v text
    have count : text.length + k * P.length = text.length + k * v.length := by
      simpa only [h, List.countP_true] using counts fun _ => true
    exact (Nat.eq_of_mul_eq_mul_left (some_ holds) (Nat.add_left_cancel count)).symm
  fun_induction replaceChars P v text with
  | case1 => exact absurd (List.infix_nil.mp holds) solid
  | case2 c rest after found empty => exact absurd (List.isEmpty_iff.mp empty) solid
  | case3 c rest after found _ ih =>
    rw [dropStart?_eq_some_iff.mp found] at h
    exact (List.append_inj h same).1
  | case4 c rest missing ih =>
    refine ih (List.cons.inj h).2 ?_
    rcases List.infix_cons_iff.mp holds with ⟨after, start⟩ | holds
    · rw [dropStart?_eq_some_iff.mpr start.symm] at missing
      cases missing
    · exact holds

theorem count_le_replaceChars {d : Char} (solid : P ≠ []) (h : d ∉ P) (v text : List Char) :
    text.count d ≤ (replaceChars P v text).count d := by
  obtain ⟨k, -, counts⟩ := exists_countP_replaceChars solid v text
  have count : (replaceChars P v text).count d + k * P.count d = text.count d + k * v.count d :=
    counts (· == d)
  rw [List.count_eq_zero.mpr h] at count
  omega

/-- If a value has a character that the pattern does not have, a text with that character as often as
before did not hold the pattern. -/
theorem not_infix_of_count_eq {d : Char} (solid : P ≠ []) (h : d ∉ P) (hv : d ∈ v)
    (same : (replaceChars P v text).count d = text.count d) : ¬P <:+: text := by
  intro holds
  obtain ⟨k, some_, counts⟩ := exists_countP_replaceChars solid v text
  have count : (replaceChars P v text).count d + k * P.count d = text.count d + k * v.count d :=
    counts (· == d)
  have more : 0 < k * v.count d := Nat.mul_pos (some_ holds) (List.count_pos_iff.mpr hv)
  rw [List.count_eq_zero.mpr h] at count
  omega

theorem replaceChars_of_absent (solid : P ≠ []) (h : ¬P <:+: text) :
    replaceChars P v text = text := by
  rw [replaceChars_eq_fillChars solid]
  have passed : fillChars [(P, v)] (text ++ []) = text ++ fillChars [(P, v)] [] := by
    refine fillChars_append_of_none fun y suffix _ => fillStart?_eq_none_iff.mpr ?_
    rintro p mem - start
    cases List.mem_singleton.mp mem
    rw [List.append_nil] at start
    exact h (start.isInfix.trans suffix.isInfix)
  simpa [fillChars] using passed

section

variable (hP : IsPlaceholder P) (flanks : Flanks P front back)
include hP flanks

theorem fillChars_back (placeholders : ∀ p ∈ fills, IsPlaceholder p.1) :
    fillChars fills back = back := by
  have passed : fillChars fills (back ++ []) = back ++ fillChars fills [] :=
    fillChars_append_of_notMem placeholders (hP.notMem_of_suffix flanks.goesOn flanks.short)
  have nothing : fillChars fills [] = [] := by rw [fillChars]
  rwa [nothing, List.append_nil] at passed

/-- A placeholder between two parts of another one is filled, and nothing else. -/
theorem fillChars_between (proper : fills.Proper) (mem : (Q, u) ∈ fills) :
    fillChars fills (front ++ (Q ++ back)) = front ++ (u ++ back) := by
  have hQ : IsPlaceholder Q := proper.placeholders _ mem
  rw [fillChars_append_of_broken proper.placeholders hP flanks.begun flanks.broken hQ,
    fillChars_append_of_mem proper mem, fillChars_back hP flanks proper.placeholders]

theorem replaceChars_between_self (hQ : IsPlaceholder Q) :
    replaceChars Q u (front ++ (Q ++ back)) = front ++ (u ++ back) := by
  have alone : Fills.Proper [(Q, u)] :=
    ⟨List.forall_mem_singleton.mpr hQ, List.nodup_singleton Q⟩
  rw [replaceChars_eq_fillChars hQ.ne_nil]
  exact fillChars_between hP flanks alone (List.mem_singleton_self _)

/-- Between two parts of a placeholder no other placeholder is filled than the one that stands
there. -/
theorem replaceChars_between (hQ : IsPlaceholder Q) {R : List Char} (hR : IsPlaceholder R)
    (other : R ≠ Q) : replaceChars R v (front ++ (Q ++ back)) = front ++ (Q ++ back) := by
  have placeholders : ∀ p ∈ [(R, v)], IsPlaceholder p.1 := List.forall_mem_singleton.mpr hR
  rw [replaceChars_eq_fillChars hR.ne_nil,
    fillChars_append_of_broken placeholders hP flanks.begun flanks.broken hQ,
    fillChars_append_of_foreign placeholders hQ (by simpa using other),
    fillChars_back hP flanks placeholders]

end

/-- If a value lets another placeholder come about, it matters which of the two is filled first. -/
theorem exists_turns_ne {p q : List Char × List Char} {rest : Fills}
    (proper : Fills.Proper (p :: q :: rest)) (completes : Completes p.2 q.1) (changes : q.2 ≠ q.1) :
    ∃ text, replaceCharsInTurn (rest ++ [p, q]) text ≠ replaceCharsInTurn (rest ++ [q, p]) text := by
  obtain ⟨front, back, flanks, holds⟩ := completes_iff.mp completes
  have hp : IsPlaceholder p.1 := proper.placeholders p (by simp)
  have hq : IsPlaceholder q.1 := proper.placeholders q (by simp)
  have others : ∀ r ∈ q :: rest, IsPlaceholder r.1 ∧ r.1 ≠ p.1 := by
    intro r mem
    refine ⟨proper.placeholders r (List.mem_cons_of_mem _ mem), fun same => ?_⟩
    have distinct := proper.distinct
    rw [List.map_cons, List.nodup_cons] at distinct
    exact distinct.1 (same ▸ List.mem_map_of_mem mem)
  -- the placeholder of the value, between two parts of the other one
  let text := front ++ (p.1 ++ back)
  have passed (early : Fills) (h : ∀ r ∈ early, IsPlaceholder r.1 ∧ r.1 ≠ p.1) :
      replaceCharsInTurn early text = text := by
    induction early with
    | nil => rfl
    | cons r early ih =>
      obtain ⟨⟨hr, other⟩, more⟩ := List.forall_mem_cons.mp h
      have step : replaceCharsInTurn (r :: early) text =
          replaceCharsInTurn early (replaceChars r.1 r.2 text) := rfl
      rw [step, replaceChars_between hq flanks hp hr other, ih more]
  have filled : replaceChars p.1 p.2 text = front ++ (p.2 ++ back) :=
    replaceChars_between_self hq flanks hp
  have early : replaceCharsInTurn (rest ++ [p, q]) text =
      replaceChars q.1 q.2 (front ++ (p.2 ++ back)) := by
    rw [replaceCharsInTurn_append, passed rest fun r mem => others r (List.mem_cons_of_mem _ mem),
      ← filled]
    rfl
  have late : replaceCharsInTurn (rest ++ [q, p]) text = front ++ (p.2 ++ back) := by
    have regroup : rest ++ [q, p] = (rest ++ [q]) ++ [p] := by simp
    have before : ∀ r ∈ rest ++ [q], IsPlaceholder r.1 ∧ r.1 ≠ p.1 := fun r mem =>
      others r (List.mem_cons.mpr ((List.mem_append.mp mem).symm.imp List.mem_singleton.mp id))
    rw [regroup, replaceCharsInTurn_append, passed _ before]
    exact filled
  refine ⟨text, fun same => changes ?_⟩
  rw [early, late] at same
  exact eq_of_replaceChars_eq_self hq.ne_nil same holds

theorem Fills.Proper.of_perm {order : Fills} (proper : fills.Proper) (perm : order.Perm fills) :
    order.Proper where
  placeholders p mem := proper.placeholders p (perm.mem_iff.mp mem)
  distinct := (perm.map Prod.fst).nodup_iff.mpr proper.distinct

theorem fillChars_perm {order : Fills} (proper : fills.Proper) (perm : order.Perm fills)
    (text : List Char) : fillChars order text = fillChars fills text := by
  have proper' := proper.of_perm perm
  have start (text : List Char) : fillStart? order text = fillStart? fills text := by
    refine Option.ext fun first => ?_
    obtain ⟨value, rest⟩ := first
    rw [fillStart?_eq_some_iff proper', fillStart?_eq_some_iff proper]
    simp only [perm.mem_iff]
  fun_induction fillChars fills text with
  | case1 => rw [fillChars]
  | case2 c rest value after found ih =>
    rw [fillChars_of_some ((start _).trans found), ih]
  | case3 c rest missing ih =>
    rw [fillChars_cons ((start _).trans missing), ih]

/-- If a character comes in with each value of a pattern and was not lost before, nothing was
replaced. -/
theorem eq_of_replaceChars_of_count_le {d : Char} (solid : P ≠ []) (h : d ∉ P) (hv : d ∈ v)
    (eq : replaceChars P v s = t) (kept : t.count d ≤ s.count d) : s = t ∧ ¬P <:+: t := by
  have more := count_le_replaceChars solid h v s
  rw [eq] at more
  have absent : ¬P <:+: s :=
    not_infix_of_count_eq solid h hv (by rw [eq]; exact Nat.le_antisymm kept more)
  rw [replaceChars_of_absent solid absent] at eq
  exact ⟨eq, eq ▸ absent⟩

/-- Three placeholders, the last of which brings in a character that the other two do not have, come
to the same in turn and in one pass exactly if neither of the first two values lets the last one come
about, and the first value lets the second placeholder come about only if that takes its own place. -/
theorem replaceCharsInTurn_eq_fillChars_iff {p q r : List Char × List Char} {d : Char}
    (proper : Fills.Proper [p, q, r]) (hq : d ∉ q.1) (hr : d ∉ r.1) (brought : d ∈ r.2) :
    (∀ text, replaceCharsInTurn [p, q, r] text = fillChars [p, q, r] text) ↔
      ¬Completes p.2 r.1 ∧ ¬Completes q.2 r.1 ∧ (Completes p.2 q.1 → q.2 = q.1) := by
  have first : IsPlaceholder p.1 := proper.placeholders p (by simp)
  have second : IsPlaceholder q.1 := proper.placeholders q (by simp)
  have third : IsPlaceholder r.1 := proper.placeholders r (by simp)
  have distinct : p.1 ≠ q.1 := by
    have distinct := proper.distinct
    simp only [List.map_cons, List.nodup_cons, List.mem_cons, not_or] at distinct
    exact distinct.1.1
  constructor
  · intro agree
    have turns (text : List Char) : replaceChars r.1 r.2 (replaceChars q.1 q.2
        (replaceChars p.1 p.2 text)) = fillChars [p, q, r] text := agree text
    -- what stands between two parts of a placeholder is left alone by the later ones
    have afterFirst {P front back : List Char} (hP : IsPlaceholder P)
        (flanks : Flanks P front back) :
        replaceChars q.1 q.2 (front ++ (p.2 ++ back)) = front ++ (p.2 ++ back) ∧
          ¬r.1 <:+: front ++ (p.2 ++ back) := by
      have filled := turns (front ++ (p.1 ++ back))
      rw [fillChars_between hP flanks proper List.mem_cons_self,
        replaceChars_between_self hP flanks first] at filled
      exact eq_of_replaceChars_of_count_le third.ne_nil hr brought filled
        (count_le_replaceChars second.ne_nil hq _ _)
    have afterSecond {P front back : List Char} (hP : IsPlaceholder P)
        (flanks : Flanks P front back) : ¬r.1 <:+: front ++ (q.2 ++ back) := by
      have filled := turns (front ++ (q.1 ++ back))
      rw [fillChars_between hP flanks proper (by simp : q ∈ [p, q, r]),
        replaceChars_between hP flanks second first distinct,
        replaceChars_between_self hP flanks second] at filled
      exact (eq_of_replaceChars_of_count_le third.ne_nil hr brought filled le_rfl).2
    refine ⟨fun completes => ?_, fun completes => ?_, fun completes => ?_⟩ <;>
      obtain ⟨front, back, flanks, holds⟩ := completes_iff.mp completes
    · exact (afterFirst third flanks).2 holds
    · exact afterSecond third flanks holds
    · exact eq_of_replaceChars_eq_self second.ne_nil (afterFirst second flanks).1 holds
  · rintro ⟨firstApart, secondApart, own⟩
    refine replaceCharsInTurn_eq_fillChars proper ?_
    simp only [List.pairwise_cons, List.mem_cons, List.not_mem_nil, or_false, forall_eq_or_imp,
      forall_eq, false_implies, implies_true, List.Pairwise.nil, and_true]
    exact ⟨⟨own, fun completes => absurd completes firstApart⟩,
      fun completes => absurd completes secondApart⟩

/-- Around a part of its name, a placeholder comes about. -/
theorem completes_of_infix {name : List Char} (h : value <:+: name) :
    Completes value ('\x7b' :: (name ++ ['\x7d'])) := by
  obtain ⟨before, after, rfl⟩ := h
  have flanks : Flanks ('\x7b' :: (before ++ value ++ after ++ ['\x7d'])) ('\x7b' :: before)
      (after ++ ['\x7d']) :=
    { begun := ⟨value ++ after ++ ['\x7d'], by simp⟩
      broken := by simp
      goesOn := ⟨'\x7b' :: (before ++ value), by simp⟩
      short := fun same => by
        have length := congrArg List.length same
        simp only [List.length_append, List.length_cons] at length
        omega }
  exact completes_iff.mpr ⟨_, _, flanks, [], [], by simp⟩

/-- A placeholder that comes about around a value without braces has the opening one from what stands
before it, and the closing one from what stands behind it. -/
theorem exists_of_completes {name : List Char} (open_ : '\x7b' ∉ name) (close : '\x7d' ∉ name)
    (hopen : '\x7b' ∉ value) (hclose : '\x7d' ∉ value)
    (h : Completes value ('\x7b' :: (name ++ ['\x7d']))) :
    ∃ begun rest after, '\x7d' ∉ begun ∧ '\x7d' ∉ rest ∧
      name ++ '\x7d' :: after = begun ++ value ++ rest ++ ['\x7d'] := by
  have hP : IsPlaceholder ('\x7b' :: (name ++ ['\x7d'])) := ⟨name, rfl, open_, close⟩
  obtain ⟨front, back, flanks, before, after, eq⟩ := completes_iff.mp h
  have noneBehind : '\x7b' ∉ back := hP.notMem_of_suffix flanks.goesOn flanks.short
  obtain rfl | ⟨begun, rfl, begun_open, begun_close⟩ := hP.prefix_cases flanks.begun flanks.broken
  · have mem : '\x7b' ∈ value ++ back := by
      rw [List.nil_append] at eq
      simp [← eq]
    exact absurd mem (by simp [hopen, noneBehind])
  have begins : before = [] := by
    cases before with
    | nil => rfl
    | cons c before =>
      have tail : before ++ '\x7b' :: (name ++ ['\x7d']) ++ after = begun ++ (value ++ back) :=
        (List.cons.inj eq).2
      have mem : '\x7b' ∈ begun ++ (value ++ back) := tail ▸ (by simp)
      exact absurd mem (by simp [begun_open, hopen, noneBehind])
  subst begins
  have tail : name ++ '\x7d' :: after = begun ++ value ++ back := by simpa using eq
  have ends : back = [] ∨ ∃ rest, back = rest ++ ['\x7d'] ∧ rest <:+ name := by
    rcases List.suffix_cons_iff.mp flanks.goesOn with rfl | goesOn
    · exact absurd rfl flanks.short
    · exact List.suffix_concat_iff.mp goesOn
  obtain rfl | ⟨rest, rfl, rest_suffix⟩ := ends
  · have mem : '\x7d' ∈ begun ++ value ++ [] := tail ▸ (by simp)
    exact absurd mem (by simp [begun_close, hclose])
  · exact ⟨begun, rest, after, begun_close, fun mem => close (rest_suffix.subset mem),
      by simpa using tail⟩

/-- A value without braces lets a placeholder come about exactly if it is a part of its name. -/
theorem completes_iff_infix (name : List Char) (open_ : '\x7b' ∉ name) (close : '\x7d' ∉ name)
    (hopen : '\x7b' ∉ value) (hclose : '\x7d' ∉ value) :
    Completes value ('\x7b' :: (name ++ ['\x7d'])) ↔ value <:+: name := by
  refine ⟨fun completes => ?_, completes_of_infix⟩
  obtain ⟨begun, rest, after, begun_close, rest_close, eq⟩ :=
    exists_of_completes open_ close hopen hclose completes
  rw [eq_of_append_cons_eq close (by simp [begun_close, hclose, rest_close]) eq]
  exact ⟨begun, rest, rfl⟩

/-! ## Texts -/

theorem toList_replaceInTurn (fills : List (String × String)) (text : String) :
    (replaceInTurn fills text).toList = replaceCharsInTurn (chars fills) text.toList := by
  induction fills generalizing text with
  | nil => rfl
  | cons p fills ih =>
    have step : replaceInTurn (p :: fills) text = replaceInTurn fills (replace p.1 p.2 text) := rfl
    rw [step, ih, replace, String.toList_ofList]
    rfl

theorem toList_fill (fills : List (String × String)) (text : String) :
    (fill fills text).toList = fillChars (chars fills) text.toList :=
  String.toList_ofList

end CoverageMatrix.Text
