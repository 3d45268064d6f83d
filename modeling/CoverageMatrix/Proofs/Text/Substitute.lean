import CoverageMatrix.Text.Substitute

/-!
# What substitution leaves of a text

Nothing is left of a text in which a pattern was replaced if and only if the text is made of copies
of the pattern, and the value that takes its place is empty where there is a copy.
-/
namespace CoverageMatrix.Text

theorem replaceChars_eq_nil_iff {pattern value text : List Char} (nonempty : pattern ≠ []) :
    replaceChars pattern value text = [] ↔
      ∃ k, text = (List.replicate k pattern).flatten ∧ (k = 0 ∨ value = []) := by
  fun_induction replaceChars pattern value text with
  | case1 => exact iff_of_true rfl ⟨0, rfl, .inl rfl⟩
  | case2 c rest after found empty => exact absurd (List.isEmpty_iff.mp empty) nonempty
  | case3 c rest after found _ ih =>
    obtain text_eq : c :: rest = pattern ++ after := dropStart?_eq_some_iff.mp found
    rw [List.append_eq_nil_iff, ih, text_eq]
    constructor
    · rintro ⟨rfl, k, rfl, -⟩
      exact ⟨k + 1, rfl, .inr rfl⟩
    · rintro ⟨_ | k, copies, gone⟩
      · exact absurd (List.append_eq_nil_iff.mp copies).1 nonempty
      · have gone : value = [] := gone.resolve_left k.succ_ne_zero
        exact ⟨gone, k, List.append_cancel_left copies, .inr gone⟩
  | case4 c rest found ih =>
    refine iff_of_false (List.cons_ne_nil _ _) ?_
    rintro ⟨_ | k, copies, -⟩
    · cases copies
    · -- a copy at the beginning would have been found
      rw [dropStart?_eq_some_iff.mpr copies] at found
      cases found

theorem replace_eq_empty_iff {pattern value text : String} (nonempty : pattern ≠ "") :
    replace pattern value text = "" ↔
      ∃ k, text = String.join (List.replicate k pattern) ∧ (k = 0 ∨ value = "") := by
  have nonempty : pattern.toList ≠ [] := by simpa using nonempty
  have copies (k : Nat) : text.toList = (List.replicate k pattern.toList).flatten ↔
      text = String.join (List.replicate k pattern) := by
    rw [← String.toList_inj, String.toList_join, List.flatMap_replicate]
  rw [replace, String.ofList_eq_empty_iff, replaceChars_eq_nil_iff nonempty]
  simp only [copies, String.toList_eq_nil_iff]

theorem replace_eq_empty_iff_of_ne {pattern value text : String} (nonempty : pattern ≠ "")
    (filled : value ≠ "") : replace pattern value text = "" ↔ text = "" := by
  rw [replace_eq_empty_iff nonempty]
  constructor
  · rintro ⟨k, rfl, rfl | gone⟩
    · rfl
    · exact absurd gone filled
  · rintro rfl
    exact ⟨0, rfl, .inl rfl⟩

end CoverageMatrix.Text
