import SuiteScore.Support.Block

/-! The parts of a block: its first line with text, the lines of the body, and an `end`. -/

namespace SuiteScore.Support

open Text

/-- The lines of a block without the blanks around them and without blank lines. -/
def contentLines (lines : List Text) : List Text :=
  (lines.map trim).filter fun line => !line.isEmpty

/-- The last line of a block: an `end`, perhaps with a comment behind it. -/
def IsEnd (line : Text) : Prop :=
  line = "end" ∨ ("end #" : Text) <+: line

/-- The lines that are comments. -/
def commentsOf (lines : List Text) : List Text :=
  lines.filter fun line => decide (line.head? = some '#')

/-- The lines that are no comments. -/
def codeOf (lines : List Text) : List Text :=
  lines.filter fun line => !decide (line.head? = some '#')

namespace BlockParts

variable {lines middle : List Text} {line : Text} {parts : BlockParts}

theorem isEnd_iff : isEnd line = true ↔ IsEnd line := by
  rw [isEnd, Bool.or_eq_true, beq_iff_eq, List.isPrefixOf_iff_prefix, IsEnd]

/-- A block has parts exactly if it has a header and, behind it, an `end` as the last line. -/
theorem ofLines_eq_ok_iff
    : ofLines lines = .ok parts
      ↔ ∃ middle last, contentLines lines = parts.header :: (middle ++ [last]) ∧ IsEnd last
        ∧ parts.body = middle.map BodyLine.of := by
  unfold ofLines
  rw [← contentLines]
  cases contentLines lines with
  | nil => simp
  | cons header rest =>
      rcases List.eq_nil_or_concat rest with rfl | ⟨middle, last, rfl⟩
      · simp
      · simp only [List.concat_eq_append, List.getLast?_concat, Option.any_some,
          List.dropLast_concat]
        constructor
        · intro h
          split at h
          · next hend =>
              cases h
              exact ⟨middle, last, rfl, isEnd_iff.mp hend, rfl⟩
          · cases h
        · rintro ⟨middle', last', hl, hend, hbody⟩
          obtain ⟨hheader, hrest⟩ := List.cons.inj hl
          obtain ⟨rfl, hlast⟩ := List.append_inj' hrest rfl
          cases hlast
          rw [if_pos (isEnd_iff.mpr hend), hheader, ← hbody]

/-- A block that starts with a line with text has that line as its header, and it has parts exactly
if the last of the lines with text behind it is an `end`.
-/
theorem ofLines_cons {header : Text} (rest : List Text) (h : trim header ≠ [])
    : ((∃ parts, ofLines (header :: rest) = .ok parts)
        ↔ ∃ last, (contentLines rest).getLast? = some last ∧ IsEnd last)
      ∧ ∀ {parts}, ofLines (header :: rest) = .ok parts → parts.header = trim header := by
  have hlines : contentLines (header :: rest) = trim header :: contentLines rest := by
    simp [contentLines, h]
  simp only [ofLines_eq_ok_iff, hlines, List.cons.injEq, List.getLast?_eq_some_iff]
  refine ⟨⟨?_, ?_⟩, ?_⟩
  · rintro ⟨parts, middle, last, ⟨_, hl⟩, hend, _⟩
    exact ⟨last, ⟨middle, hl⟩, hend⟩
  · rintro ⟨last, ⟨middle, hl⟩, hend⟩
    exact ⟨⟨trim header, middle.map BodyLine.of⟩, middle, last, ⟨rfl, hl⟩, hend, rfl⟩
  · rintro parts ⟨middle, last, ⟨hheader, _⟩, _⟩
    exact hheader.symm

/-- Every line of a body is a comment or code. -/
theorem split_eq (h : parts.body = middle.map BodyLine.of)
    : parts.comments = commentsOf middle ∧ parts.code = codeOf middle := by
  have hcomment : BodyLine.comment? ∘ BodyLine.of
      = Option.guard fun line => decide (line.head? = some '#') := by
    funext line
    by_cases hc : line.head? = some '#' <;>
      simp [BodyLine.of, BodyLine.comment?, Option.guard, hc]
  have hcode : BodyLine.code? ∘ BodyLine.of
      = Option.guard fun line => !decide (line.head? = some '#') := by
    funext line
    by_cases hc : line.head? = some '#' <;> simp [BodyLine.of, BodyLine.code?, Option.guard, hc]
  rw [comments, code, h, List.filterMap_map, List.filterMap_map, hcomment, hcode]
  exact ⟨by rw [List.filterMap_eq_filter]; rfl, by rw [List.filterMap_eq_filter]; rfl⟩

end BlockParts

end SuiteScore.Support
