import SuiteScore.Text.Basic

/-! Where texts are cut. -/

namespace SuiteScore.Text

/-- A cut text is the part before the cut, the separator and the part after it, by induction on the
text.
-/
theorem eq_of_cut? {sep : Char} {text before after : Text}
    (h : cut? sep text = some (before, after))
    : text = before ++ sep :: after := by
  induction text generalizing before with
  | nil => cases h
  | cons c rest ih =>
      unfold cut? at h
      split at h
      · next hc =>
          cases h
          rw [hc]
          rfl
      · obtain ⟨⟨front, back⟩, hf, he⟩ := Option.map_eq_some_iff.mp h
        cases he
        rw [ih hf]
        rfl

/-- A text is cut at its first separator, by induction on the text. -/
theorem cut?_eq_some_iff {sep : Char} {text before after : Text}
    : cut? sep text = some (before, after) ↔ text = before ++ sep :: after ∧ sep ∉ before := by
  refine ⟨fun h => ⟨eq_of_cut? h, ?_⟩, ?_⟩
  · induction text generalizing before with
    | nil => cases h
    | cons c rest ih =>
        unfold cut? at h
        split at h
        · cases h
          simp
        · next hc =>
            obtain ⟨⟨front, back⟩, hf, he⟩ := Option.map_eq_some_iff.mp h
            cases he
            rw [List.mem_cons, not_or]
            exact ⟨fun he => hc he.symm, ih hf⟩
  · rintro ⟨rfl, h⟩
    induction before with
    | nil => simp [cut?]
    | cons c rest ih =>
        rw [List.mem_cons, not_or] at h
        rw [List.cons_append, cut?, if_neg fun hc => h.1 hc.symm, ih h.2]
        rfl

/-- The last separator of a text is found when none follows it, by induction on the text before it.
-/
theorem cutLast?_append {sep : Char} {before after : Text} (h : sep ∉ after)
    : cutLast? sep (before ++ sep :: after) = some (before, after) := by
  have hnone : cutLast? sep after = none := by
    induction after with
    | nil => rfl
    | cons c rest ih =>
        rw [List.mem_cons, not_or] at h
        rw [cutLast?, ih h.2]
        exact if_neg fun hc => h.1 hc.symm
  induction before with
  | nil => rw [List.nil_append, cutLast?, hnone, if_pos rfl]
  | cons c rest ih => rw [List.cons_append, cutLast?, ih]

end SuiteScore.Text
