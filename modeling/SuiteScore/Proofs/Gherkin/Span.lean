import SuiteScore.Gherkin.Span
import SuiteScore.Proofs.Gherkin.Growth

/-! Where the lines of an element begin and end, and how the end moves when the element grows. -/

namespace SuiteScore.Gherkin

/-- A running minimum is below its start and all its entries, and it is one of them, by induction on
the entries.
-/
theorem foldl_min_facts (entries : List Nat) (first : Nat)
    : entries.foldl min first ≤ first
      ∧ (∀ entry ∈ entries, entries.foldl min first ≤ entry)
      ∧ (entries.foldl min first = first ∨ entries.foldl min first ∈ entries) := by
  induction entries generalizing first with
  | nil => simp
  | cons entry rest ih =>
      obtain ⟨hle, hall, hone⟩ := ih (min first entry)
      rw [List.foldl_cons]
      refine ⟨Nat.le_trans hle (Nat.min_le_left ..), fun other ho => ?_, ?_⟩
      · rcases List.mem_cons.mp ho with rfl | ho
        · exact Nat.le_trans hle (Nat.min_le_right ..)
        · exact hall other ho
      · rcases hone with hone | hone
        · rw [hone]
          rcases Nat.le_total first entry with h | h
          · exact Or.inl (Nat.min_eq_left h)
          · exact Or.inr (by simp [Nat.min_eq_right h])
        · exact Or.inr (List.mem_cons_of_mem _ hone)

namespace Span

variable {element : Element}

theorem firstOf_le_line : firstOf element ≤ element.line :=
  (foldl_min_facts _ _).1

theorem firstOf_le_comment {comment : Comment} (h : comment ∈ element.comments)
    : firstOf element ≤ comment.line :=
  (foldl_min_facts _ _).2.1 _ (List.mem_append_left _ (List.mem_map_of_mem h))

theorem firstOf_le_tag {tag : Tag} (h : tag ∈ element.tags) : firstOf element ≤ tag.line :=
  (foldl_min_facts _ _).2.1 _ (List.mem_append_right _ (List.mem_map_of_mem h))

/-- The first line of an element is its keyword line or one of its comments or tags. -/
theorem firstOf_cases (element : Element)
    : firstOf element = element.line
      ∨ (∃ comment ∈ element.comments, comment.line = firstOf element)
      ∨ ∃ tag ∈ element.tags, tag.line = firstOf element := by
  have h := (foldl_min_facts
    (element.comments.map (·.line) ++ element.tags.map (·.line)) element.line).2.2
  rcases h with h | h
  · exact Or.inl h
  · refine Or.inr ((List.mem_append.mp h).imp ?_ ?_)
    · exact List.mem_map.mp
    · exact List.mem_map.mp

end Span

/-- Examples without their description. -/
def Examples.undescribed (examples : Examples) : Examples :=
  { examples with description := [] }

namespace Element

/-- Whether an element has nothing but a description. -/
def isStepless (element : Element) : Bool :=
  element.steps.isEmpty && element.examples.isEmpty

/-- An element without the descriptions of its examples. -/
def settled (element : Element) : Element :=
  { element with examples := element.examples.map Examples.undescribed }

/-- What is left out of an element that is settled does not count for its last line. -/
theorem lastOf_settled (element : Element) : Span.lastOf element.settled = Span.lastOf element := by
  unfold Span.lastOf
  simp only [settled, List.getLast?_map]
  cases element.examples.getLast? <;> rfl

theorem isStepless_settled (element : Element)
    : element.settled.isStepless = element.isStepless := by
  simp [isStepless, settled]

/-- A step without an argument is the last line of its element. -/
theorem lastOf_addStep (element : Element) (step : Step) (he : element.examples = [])
    (ha : step.argument = none)
    : Span.lastOf { element with steps := element.steps ++ [step] } = step.line := by
  simp [Span.lastOf, he, Step.lastLine, ha]

/-- An examples line without rows is the last line of its element. -/
theorem lastOf_addExamples (element : Element) (examples : Examples) (hr : examples.rows = [])
    : Span.lastOf { element with examples := element.examples ++ [examples] }
      = examples.line := by
  simp [Span.lastOf, hr]

/-- A row is the last line of its element, in examples and in a table. -/
theorem lastOf_addRow {element grown : Element} {row : Row} (h : element.addRow row = .ok grown)
    : Span.lastOf grown = row.line ∧ grown.isStepless = false := by
  rcases addRow_cases h with ⟨front, last, _, rfl⟩ | ⟨he, front, last, _, hd, rfl⟩
  · simp [Span.lastOf, Examples.addRow, isStepless]
  · refine ⟨?_, by simp [isStepless]⟩
    simp only [Span.lastOf, he, List.getLast?_nil, List.getLast?_concat]
    obtain ⟨keyword, text, line, comments, argument⟩ := last
    cases argument with
    | none => rfl
    | some argument =>
        cases argument with
        | table rows => simp [Step.addRow, Step.lastLine]
        | docString content first final => exact absurd rfl (hd content first final)

/-- The closing delimiter of a doc string is the last line of its element. -/
theorem lastOf_attach {element : Element} (content : List Text) (first last : Nat)
    (h : element.awaitsArgument = true)
    : Span.lastOf (element.attach (.docString content first last)) = last
      ∧ (element.attach (.docString content first last)).isStepless = false := by
  obtain ⟨he, _, _, _, _, hattach⟩ := attach_of_awaitsArgument (.docString content first last) h
  rw [hattach]
  simp [Span.lastOf, he, Step.lastLine, isStepless]

/-- A line of a description changes a settled element only as long as there is nothing else. -/
theorem settled_of_describe? {element described : Element} {text : Text}
    (h : element.describe? text = some described)
    : element.isStepless = true
        ∧ described = { element with description := element.description ++ [text] }
      ∨ described.settled = element.settled := by
  rcases describe?_cases h with ⟨hs, he, rfl⟩ | ⟨front, last, hl, _, rfl⟩
  · exact Or.inl ⟨by simp [isStepless, hs, he], rfl⟩
  · refine Or.inr ?_
    simp [settled, hl, Examples.undescribed]

end Element

end SuiteScore.Gherkin
