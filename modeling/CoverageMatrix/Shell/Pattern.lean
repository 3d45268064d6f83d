/-!
Patterns of the shell: `*` matches any characters, `?` any one, and brackets any one of a set.
Quoted characters match themselves.
-/
namespace CoverageMatrix.Shell

/-- A character of an expanded word, and whether it was quoted. -/
structure Mark where
  char : Char
  quoted : Bool
deriving DecidableEq

inductive Glob where
  | literal (c : Char)
  | any
  | many
  | oneOf (negated : Bool) (ranges : List (Char × Char))

namespace Glob

/-- The ranges of a set from its members. -/
def ranges : List Char → List (Char × Char)
  | a :: '-' :: b :: rest => (a, b) :: ranges rest
  | a :: rest => (a, a) :: ranges rest
  | [] => []

/-- The characters up to the bracket that closes a set, and what follows. -/
def closeSet (first : Bool) : List Mark → Option (List Char × List Mark)
  | [] => none
  | m :: rest =>
    if m.char = ']' ∧ ¬m.quoted ∧ ¬first then some ([], rest)
    else (closeSet false rest).map fun (cs, rest) => (m.char :: cs, rest)

theorem length_closeSet {first : Bool} {ms rest : List Mark} {cs : List Char}
    (h : closeSet first ms = some (cs, rest)) : rest.length < ms.length := by
  induction ms generalizing first cs with
  | nil => simp [closeSet] at h
  | cons m ms ih =>
    simp only [closeSet] at h
    split at h
    · simp only [Option.some.injEq, Prod.mk.injEq] at h
      simp [h.2]
    · obtain ⟨⟨cs', rest'⟩, h', he⟩ := Option.map_eq_some_iff.1 h
      obtain ⟨rfl, rfl⟩ := Prod.mk.inj he
      exact Nat.lt_succ_of_lt (ih h')

/-- A set from what stands between its brackets. -/
def ofMembers : List Char → Glob
  | '!' :: members => .oneOf true (ranges members)
  | members => .oneOf false (ranges members)

def ofMarks (ms : List Mark) : List Glob :=
  match ms with
  | [] => []
  | m :: rest =>
    if m.quoted then .literal m.char :: ofMarks rest
    else if m.char = '*' then .many :: ofMarks rest
    else if m.char = '?' then .any :: ofMarks rest
    else if m.char = '[' then
      match _h : closeSet true rest with
      | some (members, after) => ofMembers members :: ofMarks after
      | none => .literal '[' :: ofMarks rest
    else .literal m.char :: ofMarks rest
termination_by ms.length
decreasing_by
  · simp
  · simp
  · simp
  · exact Nat.lt_succ_of_lt (length_closeSet _h)
  · simp
  · simp

/-- Whether a piece that stands for one character accepts it. -/
def accepts (g : Glob) (c : Char) : Bool :=
  match g with
  | literal d => c = d
  | any | many => true
  | oneOf negated ranges => (ranges.any fun r => r.1 ≤ c && c ≤ r.2) != negated

def isMatch : List Glob → List Char → Bool
  | [], cs => cs.isEmpty
  | .many :: gs, [] => isMatch gs []
  | .many :: gs, c :: cs => isMatch gs (c :: cs) || isMatch (.many :: gs) cs
  | _ :: _, [] => false
  | g :: gs, c :: cs => accepts g c && isMatch gs cs
termination_by gs cs => gs.length + cs.length

/-- Whether marks hold a character that makes them a pattern. -/
def isPattern (ms : List Mark) : Bool :=
  ms.any fun m => !m.quoted && (m.char = '*' || m.char = '?' || m.char = '[')

end Glob
end CoverageMatrix.Shell
