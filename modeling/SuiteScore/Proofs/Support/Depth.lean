import Mathlib.Data.List.Infix
import SuiteScore.Proofs.Total
import SuiteScore.Support.Nesting

/-! How deep lines lead, one after another, and how deep the header of a block leads. -/

namespace SuiteScore.Support

open Text

-----------------------------------------------------------------------------------------
-- Depth of lines
-----------------------------------------------------------------------------------------

/-- By how much the lines make the nesting deeper. -/
def depthOf (lines : List Text) : Int :=
  total (fun line => nestingDelta (trim line)) lines

/-- The nesting never gets below where the lines begin, and it ends there. -/
structure Balanced (lines : List Text) : Prop where
  above : ∀ front, front <+: lines → 0 ≤ depthOf front
  level : depthOf lines = 0

instance (lines : List Text) : Decidable (Balanced lines) :=
  decidable_of_iff ((∀ front ∈ lines.inits, 0 ≤ depthOf front) ∧ depthOf lines = 0)
    ⟨fun h => ⟨fun front hf => h.1 front ((List.mem_inits _ _).mpr hf), h.2⟩,
      fun h => ⟨fun front hf => h.above front ((List.mem_inits _ _).mp hf), h.level⟩⟩

@[simp] theorem depthOf_nil : depthOf [] = 0 := rfl

@[simp] theorem depthOf_cons (raw : Text) (rest : List Text)
    : depthOf (raw :: rest) = nestingDelta (trim raw) + depthOf rest :=
  rfl

theorem depthOf_append (front back : List Text)
    : depthOf (front ++ back) = depthOf front + depthOf back :=
  total_append _ _ _

/-- An `end` leads one level back. -/
theorem nestingDelta_end : nestingDelta "end" = -1 := by
  decide

-----------------------------------------------------------------------------------------
-- Depth of headers
-----------------------------------------------------------------------------------------

/-- Whether a text begins with the first letter of a word that opens a header. -/
def hasInitial (text : Text) : Bool :=
  text.head?.any fun c => ['A', 'B', 'G', 'T', 'W', 'a'].contains c

/-- What follows an initial does not count. -/
theorem hasInitial_append {front : Text} (h : hasInitial front = true) (rest : Text)
    : hasInitial (front ++ rest) = true := by
  cases front with
  | nil => cases h
  | cons c more => exact h

/-- Whether a block is opened on the right of an assignment and not closed at the end of the line.
-/
def opensInside (line : Text) : Bool :=
  assignsBlock line && !endsWithEnd line

/-- No word without an initial starts a line with one. -/
theorem startsWithWord_of_hasInitial {word line : Text} (hne : word ≠ [])
    (hw : hasInitial word = false) (hl : hasInitial line = true)
    : startsWithWord word line = false := by
  cases word with
  | nil => exact absurd rfl hne
  | cons first rest =>
      cases line with
      | nil => cases hl
      | cons c more =>
          have hapart : (first == c) = false := by
            refine beq_false_of_ne ?_
            rintro rfl
            exact Bool.false_ne_true (hw.symm.trans hl)
          rw [startsWithWord, afterWord?, List.isPrefixOf?, hapart]
          rfl

/-- A header is deeper by one for a block on the right of an assignment that it leaves open, and by
one for a `do` at its end. Witness: no word that opens or closes a block starts as a header does.
-/
theorem nestingDelta_of_hasInitial {line : Text} (h : hasInitial line = true)
    : nestingDelta line
      = (if opensInside line then 1 else 0) + (if endsWithDo line then 1 else 0) := by
  have hopening : ∀ word ∈ openingWords, word ≠ [] ∧ hasInitial word = false := by decide
  have hstarts : startsBlock line = false := by
    refine List.any_eq_false.mpr fun word hword => ?_
    obtain ⟨hne, hw⟩ := hopening word hword
    rw [startsWithWord_of_hasInitial hne hw h]
    exact Bool.false_ne_true
  have hends : startsWithEnd line = false :=
    startsWithWord_of_hasInitial (by decide) (by decide) h
  have hcomment : line.head? ≠ some '#' := by
    intro he
    rw [hasInitial, he] at h
    cases h
  rw [nestingDelta, if_neg hcomment, hstarts, hends]
  simp only [Bool.false_or, opensInside]
  have hclosed : ∀ depth : Int, 1 + depth - 1 = depth := fun depth => by omega
  by_cases hassigns : assignsBlock line = true <;> by_cases hend : endsWithEnd line = true <;>
    simp [hassigns, hend, hclosed]

end SuiteScore.Support
