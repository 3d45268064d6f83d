/-!
Finding and replacing a text inside another. Matches are taken from left to right and do not
overlap.
-/
namespace CoverageMatrix.Text

/-- What follows `pattern` at the beginning of a text, if it begins with it. -/
def dropStart? : List Char → List Char → Option (List Char)
  | [], text => some text
  | _ :: _, [] => none
  | p :: pattern, c :: text => if p = c then dropStart? pattern text else none

theorem dropStart?_eq_some_iff {pattern text rest : List Char} :
    dropStart? pattern text = some rest ↔ text = pattern ++ rest := by
  induction pattern generalizing text with
  | nil => simp [dropStart?]
  | cons p pattern ih =>
    cases text with
    | nil => simp [dropStart?]
    | cons c text =>
      by_cases h : p = c
      · simp [dropStart?, h, ih]
      · simp [dropStart?, h, Ne.symm h]

def occursIn (pattern : List Char) : List Char → Bool
  | [] => pattern.isEmpty
  | c :: text => (dropStart? pattern (c :: text)).isSome || occursIn pattern text

/-- Replaces each occurrence of a nonempty pattern, from left to right. -/
def replaceChars (pattern value : List Char) (text : List Char) : List Char :=
  match text with
  | [] => []
  | c :: rest =>
    match _h : dropStart? pattern (c :: rest) with
    | some after =>
      if pattern.isEmpty then c :: replaceChars pattern value rest
      else value ++ replaceChars pattern value after
    | none => c :: replaceChars pattern value rest
termination_by text.length
decreasing_by
  · simp
  · rename_i hp
    have hlen := congrArg List.length (dropStart?_eq_some_iff.1 _h)
    have : 0 < pattern.length := by
      cases pattern with
      | nil => simp at hp
      | cons => simp
    simp only [List.length_append, List.length_cons] at hlen ⊢
    omega
  · simp

def replace (pattern value text : String) : String :=
  String.ofList (replaceChars pattern.toList value.toList text.toList)

def contains (text pattern : String) : Bool :=
  occursIn pattern.toList text.toList

end CoverageMatrix.Text
