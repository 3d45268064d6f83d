import CoverageMatrix.Proofs.Toml.Values

/-! What the writer puts under one another reads back line by line. -/
namespace CoverageMatrix.Toml

/-! ## Rows of lines -/

/-- A text reads as some lines, whatever follows it. -/
def ReadsAs (text : List Char) (lines : List Line) : Prop :=
  ∀ (rest : List Char) (fuel : Nat), (text ++ rest).length ≤ fuel → ∃ left, rest.length ≤ left ∧
    lines? fuel (text ++ rest) = (lines? left rest).map (lines ++ ·)

theorem ReadsAs.nil : ReadsAs [] [] := by
  intro rest fuel long
  refine ⟨fuel, long, ?_⟩
  simp

theorem ReadsAs.append {a b : List Char} {as bs : List Line} (first : ReadsAs a as)
    (second : ReadsAs b bs) : ReadsAs (a ++ b) (as ++ bs) := by
  intro rest fuel long
  rw [List.append_assoc] at long ⊢
  obtain ⟨middle, longer, before⟩ := first _ fuel long
  obtain ⟨left, enough, after⟩ := second rest middle longer
  refine ⟨left, enough, ?_⟩
  rw [before, after, Option.map_map]
  refine congrArg (Option.map · _) (funext fun lines => ?_)
  exact (List.append_assoc as bs lines).symm

/-- A line up to its end. -/
theorem ReadsAs.line (body : List Char) (line : Line)
    (h : ∀ (rest : List Char) (fuel : Nat), body.length < fuel →
      lineBody? fuel (body ++ '\n' :: rest) = some (line, '\n' :: rest)) :
    ReadsAs (body ++ ['\n']) [line] := by
  intro rest fuel long
  simp only [List.length_append, List.length_cons, List.length_nil] at long
  obtain ⟨fuel, rfl⟩ : ∃ n, fuel = n + 1 := ⟨fuel - 1, by omega⟩
  refine ⟨fuel, by omega, ?_⟩
  have ending : lineEnd? ('\n' :: rest) = some rest := rfl
  have filled : body ++ '\n' :: rest = [] → False := by simp
  rw [List.append_assoc, List.singleton_append, lines?, h _ _ (by omega)]
  · simp only [Option.bind_eq_bind, Option.bind_some, ending]
    cases lines? fuel rest <;> rfl
  · exact filled

theorem readsAs_blank : ReadsAs ['\n'] [.blank] :=
  ReadsAs.line [] .blank fun _ _ _ => rfl

/-- A document that has been read through. -/
theorem ReadsAs.lines? {text : List Char} {lines : List Line} (h : ReadsAs text lines) {fuel : Nat}
    (long : text.length ≤ fuel) : Toml.lines? fuel text = some lines := by
  obtain ⟨left, -, read⟩ := h [] fuel (by simpa using long)
  rw [List.append_nil] at read
  rw [read]
  cases left <;> simp [Toml.lines?]

/-! ## Entries -/

theorem lineBody?_key {c : Char} (begins : BeginsKey c) (fuel : Nat) (cs : List Char) :
    lineBody? fuel (c :: cs) = (do
      let (k, rest) ← dottedKey? keyLimit (c :: cs)
      match rest with
      | '=' :: rest =>
        let (d, rest) ← value? fuel depthLimit (skipSpace rest)
        return (.entry k d, rest)
      | _ => none) := by
  have apart := begins.not_mem
  simp only [List.mem_cons, not_or] at apart
  have space : isSpace c = false := by simp [isSpace, apart]
  unfold lineBody?
  rw [skipSpace_cons space]
  split
  · next eq => cases eq
  · next eq => exact absurd (List.cons.inj eq).1 apart.2.2.1
  · next eq => exact absurd (List.cons.inj eq).1 apart.2.2.2.1
  · next eq => exact absurd (List.cons.inj eq).1 apart.2.2.2.2.1
  · next eq => exact absurd (List.cons.inj eq).1 apart.2.2.2.2.2.1
  · next eq => exact absurd (List.cons.inj eq).1 apart.2.2.2.2.2.1
  · rfl

theorem readsAs_entry (k : String) {d : Data} {text : List Char}
    (value : Renders depthLimit d text) :
    ReadsAs (writeKey k ++ [' ', '=', ' '] ++ text ++ ['\n']) [.entry [k] d] := by
  refine ReadsAs.line _ _ fun rest fuel long => ?_
  simp only [List.length_append, List.length_cons, List.length_nil] at long
  obtain ⟨c, cs, written, begins⟩ := writeKey_eq_cons k
  have key : dottedKey? keyLimit (writeKey k ++ ' ' :: '=' :: ' ' :: (text ++ '\n' :: rest)) =
      some ([k], '=' :: ' ' :: (text ++ '\n' :: rest)) :=
    dottedKey?_last k 78 ⟨by simp [EndsKey, isBareKeyChar], by simp [skipSpace, isSpace]⟩
  have read := value.reads ('\n' :: rest) fuel (by simp [EndsValue]) (by omega)
  have blank : skipSpace (' ' :: (text ++ '\n' :: rest)) = text ++ '\n' :: rest := by
    obtain ⟨c, cs, rfl, begins⟩ := value.begins
    exact skipSpace_value begins _
  simp only [List.append_assoc, List.cons_append, List.nil_append]
  rw [written, List.cons_append] at key ⊢
  rw [lineBody?_key begins, key]
  simp only [Option.bind_eq_bind, Option.bind_some, blank, read]
  rfl

/-! ## Headers -/

theorem header?_writePath {path : List String} (filled : path ≠ []) (short : path.length ≤ keyLimit)
    (close : List Char) (bracket : close.head? = some ']') (rest : List Char) :
    header? close (writePath path ++ (close ++ rest)) = some (path, rest) := by
  obtain ⟨c, cs, rfl⟩ : ∃ c cs, close = c :: cs := by
    cases close with
    | nil => cases bracket
    | cons c cs => exact ⟨c, cs, rfl⟩
  cases bracket
  have space : skipSpace (']' :: (cs ++ rest)) = ']' :: (cs ++ rest) := skipSpace_cons rfl _
  have key : dottedKey? keyLimit (writePath path ++ (']' :: cs ++ rest)) =
      some (path, ']' :: (cs ++ rest)) := by
    rw [List.cons_append, dottedKey?_writePath filled short, space]
    exact ⟨by simp [EndsKey, isBareKeyChar], by simp [space]⟩
  rw [header?, key]
  simp

theorem writePath_eq_cons {path : List String} (filled : path ≠ []) :
    ∃ c cs, writePath path = c :: cs ∧ BeginsKey c := by
  obtain ⟨k, path, rfl⟩ := List.exists_cons_of_ne_nil filled
  obtain ⟨c, cs, written, begins⟩ := writeKey_eq_cons k
  by_cases last : path = []
  · rw [last, writePath_singleton]
    exact ⟨c, cs, written, begins⟩
  · rw [writePath_cons k last, written]
    exact ⟨c, _, rfl, begins⟩

theorem lineBody?_table {path : List String} (filled : path ≠ []) (short : path.length ≤ keyLimit)
    (fuel : Nat) (rest : List Char) :
    lineBody? fuel ('[' :: (writePath path ++ ']' :: rest)) = some (.table path, rest) := by
  obtain ⟨c, cs, written, begins⟩ := writePath_eq_cons filled
  have header := header?_writePath filled short [']'] rfl rest
  have apart : c ≠ '[' := by
    rintro rfl
    exact begins.not_mem (by simp)
  simp only [List.cons_append, List.nil_append, written] at header ⊢
  unfold lineBody?
  rw [skipSpace_cons rfl]
  split
  · next eq => cases eq
  · next eq => cases eq
  · next eq => cases eq
  · next eq => cases eq
  · next eq => exact absurd (List.cons.inj (List.cons.inj eq).2).1 apart
  · next eq =>
    rw [← (List.cons.inj eq).2, header]
    rfl
  · next other => exact absurd rfl (other _)

theorem readsAs_table {path : List String} (filled : path ≠ []) (short : path.length ≤ keyLimit) :
    ReadsAs ('[' :: writePath path ++ [']', '\n']) [.table path] := by
  have line := ReadsAs.line ('[' :: (writePath path ++ [']'])) (.table path)
  simp only [List.cons_append, List.append_assoc, List.nil_append] at line ⊢
  exact line fun rest fuel _ => lineBody?_table filled short fuel _

theorem lineBody?_listTable {path : List String} (filled : path ≠ [])
    (short : path.length ≤ keyLimit) (fuel : Nat) (rest : List Char) :
    lineBody? fuel ('[' :: '[' :: (writePath path ++ ']' :: ']' :: rest)) =
      some (.listTable path, rest) := by
  have header := header?_writePath filled short [']', ']'] rfl rest
  simp only [List.cons_append, List.nil_append] at header
  rw [lineBody?, skipSpace_cons rfl]
  simp only [header]
  rfl

theorem readsAs_listTable {path : List String} (filled : path ≠ [])
    (short : path.length ≤ keyLimit) :
    ReadsAs (['[', '['] ++ writePath path ++ [']', ']', '\n']) [.listTable path] := by
  have line := ReadsAs.line ('[' :: '[' :: (writePath path ++ [']', ']'])) (.listTable path)
  simp only [List.cons_append, List.append_assoc, List.nil_append] at line ⊢
  exact line fun rest fuel _ => lineBody?_listTable filled short fuel _

end CoverageMatrix.Toml
