import Mathlib.Data.List.Infix
import SuiteScore.Text.Basic

/-! The occurrences of a part in a text that a search from the left finds. It goes on behind each
occurrence that it has found, so it passes those that overlap with one of these.
-/

namespace SuiteScore.Text

/-- The search for a part reaches its occurrence at a position, if none that it reaches begins less
than the length of the part before. It starts behind the characters that are skipped.
-/
def IsReached (part : Text) (skipped : Nat) (text : Text) (i : Nat) : Prop :=
  skipped ≤ i
  ∧ part <+: text.drop i
  ∧ ∀ j, j < i → i < j + part.length → ¬IsReached part skipped text j
termination_by i

/-- How much is skipped behind the first character of a text: the rest of what was, or of the part
if it stands there.
-/
def skippedNext (part : Text) (skipped : Nat) (text : Text) : Nat :=
  match skipped with
  | within + 1 => within
  | 0 => if part <+: text then part.length - 1 else 0

variable {part text : Text} {skipped : Nat}

theorem IsReached.occurs {i : Nat} (h : IsReached part skipped text i) : part <+: text.drop i := by
  rw [IsReached] at h
  exact h.2.1

-----------------------------------------------------------------------------------------
-- The search, character by character
-----------------------------------------------------------------------------------------

/-- At the first character an occurrence is reached if nothing is skipped. -/
theorem isReached_zero_iff : IsReached part skipped text 0 ↔ skipped = 0 ∧ part <+: text := by
  rw [IsReached]
  simp

/-- Behind the first character the search goes on, by induction on the positions. -/
theorem isReached_cons_succ_iff (hne : part ≠ []) {c : Char} {i : Nat}
    : IsReached part skipped (c :: text) (i + 1)
      ↔ IsReached part (skippedNext part skipped (c :: text)) text i := by
  induction i using Nat.strong_induction_on with
  | _ i ih =>
      have hpos : 0 < part.length := List.length_pos_iff.mpr hne
      have hbefore : (∀ j, j < i + 1 → i + 1 < j + part.length →
            ¬IsReached part skipped (c :: text) j)
          ↔ (i + 1 < part.length → ¬(skipped = 0 ∧ part <+: c :: text))
            ∧ ∀ j, j < i → i < j + part.length →
                ¬IsReached part (skippedNext part skipped (c :: text)) text j := by
        rw [← isReached_zero_iff]
        constructor
        · intro h
          refine ⟨fun hlt => h 0 (by omega) (by omega), ?_⟩
          intro j hj hlt
          rw [← ih j hj]
          exact h (j + 1) (by omega) (by omega)
        · intro h j hj hlt
          cases j with
          | zero => exact h.1 (by omega)
          | succ j =>
              rw [ih j (by omega)]
              exact h.2 j (by omega) (by omega)
      have hstart : (skipped ≤ i + 1 ∧ (i + 1 < part.length → ¬(skipped = 0 ∧ part <+: c :: text)))
          ↔ skippedNext part skipped (c :: text) ≤ i := by
        unfold skippedNext
        cases skipped with
        | succ within => simp
        | zero =>
            by_cases hp : part <+: c :: text
            · simp only [hp, if_true, and_true, not_true_eq_false, imp_false]
              omega
            · simp [hp]
      rw [IsReached, IsReached, List.drop_succ_cons, hbefore, ← hstart]
      tauto

/-- An occurrence is found at the first character or behind it. -/
theorem mem_occurrences_cons_iff {before : Option Char} {c : Char} {found : Option Char × Text}
    : found ∈ occurrences part skipped before (c :: text)
      ↔ ((skipped = 0 ∧ part <+: c :: text) ∧ found = (before, (c :: text).drop part.length))
        ∨ found ∈ occurrences part (skippedNext part skipped (c :: text)) (some c) text := by
  cases skipped with
  | succ within => simp [occurrences, skippedNext]
  | zero =>
      by_cases hp : part <+: c :: text
      · obtain ⟨after, ha⟩ := hp
        have hafter : part.isPrefixOf? (c :: text) = some after :=
          List.isPrefixOf?_eq_some_iff_append_eq.mpr ha
        have hdrop : (c :: text).drop part.length = after := by
          rw [← ha, List.drop_left]
        have hpart : part <+: c :: text := ⟨after, ha⟩
        rw [occurrences, hafter, List.mem_cons, skippedNext, if_pos hpart, hdrop]
        simp [hpart]
      · have hnone : part.isPrefixOf? (c :: text) = none := by
          rw [Option.eq_none_iff_forall_ne_some]
          intro after ha
          exact hp ⟨after, List.isPrefixOf?_eq_some_iff_append_eq.mp ha⟩
        rw [occurrences, hnone, skippedNext, if_neg hp]
        simp [hp]

/-- Behind the first character something is known to stand before a position. -/
theorem getLast?_cons_or (front : Text) (c : Char) (before : Option Char)
    : (c :: front).getLast?.or before = front.getLast?.or (some c) := by
  rw [List.getLast?_cons]
  cases front.getLast? <;> rfl

/-- What is found in a text are the occurrences that are reached, each with what stands before and
behind it, by induction on the text.
-/
theorem mem_occurrences_from_iff (hne : part ≠ []) {before : Option Char}
    {found : Option Char × Text}
    : found ∈ occurrences part skipped before text
      ↔ ∃ i, IsReached part skipped text i
          ∧ found = ((text.take i).getLast?.or before, text.drop (i + part.length)) := by
  induction text generalizing skipped before with
  | nil =>
      have hnone : ∀ i, ¬IsReached part skipped [] i := by
        intro i h
        have hoccurs := h.occurs
        rw [List.drop_nil] at hoccurs
        exact hne (List.prefix_nil.mp hoccurs)
      cases skipped <;> simp [occurrences, hnone]
  | cons c rest ih =>
      have hplace : ∀ i, (((c :: rest).take (i + 1)).getLast?.or before,
            (c :: rest).drop (i + 1 + part.length))
          = ((rest.take i).getLast?.or (some c), rest.drop (i + part.length)) := by
        intro i
        rw [List.take_succ_cons, getLast?_cons_or, Nat.add_right_comm, List.drop_succ_cons]
      rw [mem_occurrences_cons_iff, ← isReached_zero_iff, ih]
      constructor
      · intro h
        rcases h with ⟨hreached, hfound⟩ | ⟨i, hreached, hfound⟩
        · exact ⟨0, hreached, by simpa using hfound⟩
        · refine ⟨i + 1, (isReached_cons_succ_iff hne).mpr hreached, ?_⟩
          rw [hplace, hfound]
      · intro h
        obtain ⟨i, hreached, hfound⟩ := h
        cases i with
        | zero => exact .inl ⟨hreached, by simpa using hfound⟩
        | succ i =>
            refine .inr ⟨i, (isReached_cons_succ_iff hne).mp hreached, ?_⟩
            rw [hfound, hplace]

/-- The search through a whole text finds the occurrences that it reaches. -/
theorem mem_occurrences_iff (hne : part ≠ []) {found : Option Char × Text}
    : found ∈ occurrences part 0 none text
      ↔ ∃ i, IsReached part 0 text i
          ∧ found = ((text.take i).getLast?, text.drop (i + part.length)) := by
  simp only [mem_occurrences_from_iff hne, Option.or_none]

-----------------------------------------------------------------------------------------
-- Occurrences that overlap
-----------------------------------------------------------------------------------------

section Overlap

variable {i j : Nat} (hj : part <+: text.drop j) (hji : j < i)

include hj hji

/-- Where a part occurs twice, and the second time inside the first, it begins as it ends. -/
theorem drop_prefix_of_overlap (hi : part <+: text.drop i) : part.drop (i - j) <+: part := by
  have hrest : part.drop (i - j) <+: text.drop i := by
    have hdrop := hj.drop (i - j)
    rwa [List.drop_drop, Nat.add_sub_cancel' hji.le] at hdrop
  exact List.prefix_of_prefix_length_le hrest hi (by simp)

/-- What stands before a position inside an occurrence stands in the part. -/
theorem getLast?_take_of_overlap (hij : i < j + part.length)
    : (text.take i).getLast? = (part.take (i - j)).getLast? := by
  have hinside : (text.drop j).take (i - j) = part.take (i - j) := by
    obtain ⟨after, ha⟩ := hj
    rw [← ha, List.take_append_of_le_length (by omega)]
  have hsplit : text.take i = text.take j ++ part.take (i - j) := by
    rw [← hinside, ← List.take_add, Nat.add_sub_cancel' hji.le]
  have hsome : part.take (i - j) ≠ [] := by
    apply List.ne_nil_of_length_pos
    rw [List.length_take]
    omega
  rw [hsplit, List.getLast?_append_of_ne_nil _ hsome]

end Overlap

end SuiteScore.Text
