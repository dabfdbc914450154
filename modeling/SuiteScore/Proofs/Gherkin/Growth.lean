import Mathlib.Data.List.Basic
import Mathlib.Data.List.Induction
import SuiteScore.Gherkin.Growth

/-! What changes when a tree grows at its end, and what does not. -/

namespace SuiteScore.Gherkin

/-- The last entry of a list with one more entry is that entry. -/
@[simp] theorem amendLast_concat (change : α → α) (front : List α) (last : α)
    : amendLast change (front ++ [last]) = front ++ [change last] := by
  induction front with
  | nil => rfl
  | cons first rest ih =>
      cases rest with
      | nil => rfl
      | cons second more => simpa [amendLast] using ih

@[simp] theorem getLast?_amendLast (change : α → α) (entries : List α)
    : (amendLast change entries).getLast? = entries.getLast?.map change := by
  cases entries using List.reverseRecOn with
  | nil => rfl
  | append_singleton front last => simp

@[simp] theorem amendLast_eq_nil (change : α → α) (entries : List α)
    : amendLast change entries = [] ↔ entries = [] := by
  cases entries using List.reverseRecOn with
  | nil => simp [amendLast]
  | append_singleton front last => simp

/-- A map takes an amended entry to an amended entry when it commutes with the change. -/
theorem map_amendLast (change : α → α) (changed : β → β) {f : α → β}
    (h : ∀ entry, f (change entry) = changed (f entry)) (entries : List α)
    : (amendLast change entries).map f = amendLast changed (entries.map f) := by
  cases entries using List.reverseRecOn with
  | nil => rfl
  | append_singleton front last => simp [h]

namespace Element

variable {element grown : Element}

/-- A row goes to the examples opened last or, where there are none, to the last step, which has no
doc string.
-/
theorem addRow_cases {row : Row} (h : element.addRow row = .ok grown)
    : (∃ front last, element.examples = front ++ [last]
        ∧ grown = { element with examples := front ++ [last.addRow row] })
      ∨ element.examples = []
        ∧ ∃ front last, element.steps = front ++ [last]
          ∧ (∀ content first final, last.argument ≠ some (.docString content first final))
          ∧ grown = { element with steps := front ++ [last.addRow row] } := by
  unfold addRow at h
  split at h
  · next he =>
      obtain ⟨front, last, hl⟩ :=
        (List.eq_nil_or_concat' element.examples).resolve_left (by simpa using he)
      cases h
      exact Or.inl ⟨front, last, hl, by simp [hl]⟩
  · next he =>
      split at h
      · cases h
      · next last hs =>
          obtain ⟨front, hl⟩ := List.getLast?_eq_some_iff.mp hs
          split at h
          · cases h
          · next hd =>
              cases h
              exact Or.inr ⟨by simpa using he, front, last, hl,
                fun content first final ha => hd content first final ha, by simp [hl]⟩

/-- A line of a description goes to the element as long as it has nothing else, or to the examples
opened last as long as these have no rows.
-/
theorem describe?_cases {text : Text} (h : element.describe? text = some grown)
    : element.steps = [] ∧ element.examples = []
        ∧ grown = { element with description := element.description ++ [text] }
      ∨ ∃ front last, element.examples = front ++ [last] ∧ last.rows = []
        ∧ grown = { element with
            examples := front ++ [{ last with description := last.description ++ [text] }] } := by
  unfold describe? at h
  split at h
  · next he =>
      rw [Bool.and_eq_true, List.isEmpty_iff, List.isEmpty_iff] at he
      cases h
      exact Or.inl ⟨he.1, he.2, rfl⟩
  · split at h
    · next hr =>
        obtain ⟨last, hlast, hrows⟩ := (Option.any_eq_true _ _).mp hr
        obtain ⟨front, hl⟩ := List.getLast?_eq_some_iff.mp hlast
        cases h
        exact Or.inr ⟨front, last, hl, by simpa using hrows, by simp [hl]⟩
    · cases h

/-- An element that awaits an argument has no examples, and its last step takes the argument. -/
theorem attach_of_awaitsArgument (argument : Argument) (h : element.awaitsArgument = true)
    : element.examples = []
      ∧ ∃ front last, element.steps = front ++ [last] ∧ last.argument = none
        ∧ element.attach argument
          = { element with steps := front ++ [{ last with argument := some argument }] } := by
  simp only [awaitsArgument, Bool.and_eq_true, List.isEmpty_iff] at h
  obtain ⟨he, hs⟩ := h
  obtain ⟨last, hlast, hn⟩ := (Option.any_eq_true _ _).mp hs
  obtain ⟨front, hl⟩ := List.getLast?_eq_some_iff.mp hlast
  exact ⟨he, front, last, hl, Option.isNone_iff_eq_none.mp hn, by simp [attach, hl]⟩

end Element

/-- A feature with one more element is not bare. -/
theorem FeatureTree.not_isBare_add (tree : FeatureTree) (element : Element)
    : (tree.add element).isBare = false := by
  unfold add isBare
  split <;> simp

end SuiteScore.Gherkin
