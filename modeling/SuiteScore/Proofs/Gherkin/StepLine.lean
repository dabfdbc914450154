import SuiteScore.Proofs.Gherkin.Line

/-! What step lines and example rows are does not depend on the blanks around them. -/

namespace SuiteScore.Gherkin

open Text

/-- A line is commented out with or without blanks around it. -/
theorem isCommented_trim (line : Text) : isCommented (trim line) = isCommented line := by
  refine apply_trim (fun text => ?_) (fun text blanks hb => ?_) line
  · rw [isCommented, isCommented, trimStart_trimStart]
  · rw [isCommented, isCommented, trimStart_append_blanks text hb]
    cases trimStart text <;> rfl

/-- Blanks at the end stay behind a line that is taken out of its comment. -/
theorem uncommented_append_blanks {blanks : Text} (text : Text)
    (h : ∀ c ∈ blanks, isBlank c = true)
    : uncommented (text ++ blanks)
      = if (uncommented text).isEmpty then [] else uncommented text ++ blanks := by
  rw [uncommented, uncommented, trimStart_append_blanks text h]
  cases trimStart text with
  | nil => rfl
  | cons c rest =>
      by_cases hc : c = '#'
      · subst hc
        exact trimStart_append_blanks rest h
      · simp [hc]

/-- A line is an example row with or without blanks around it. -/
theorem isExampleRow_trim (line : Text) : isExampleRow (trim line) = isExampleRow line := by
  refine apply_trim (fun text => ?_) (fun text blanks hb => ?_) line
  · rw [isExampleRow, isExampleRow, uncommented, uncommented, trimStart_trimStart]
  · rw [isExampleRow, isExampleRow, uncommented_append_blanks text hb]
    cases uncommented text with
    | nil => rfl
    | cons c rest =>
        by_cases hc : c = '|'
        · subst hc
          simp [trimEnd_append_blanks hb]
        · simp [hc]

end SuiteScore.Gherkin
