import SuiteScore.Proofs.Text.Trim
import SuiteScore.Text.Word

/-! Blanks belong to no word, and what is found behind some text is found anywhere in the whole. -/

namespace SuiteScore.Text

/-- The codes of the blanks. -/
def blankCodes : List Nat :=
  [9, 10, 11, 12, 13, 0x20, 0x85, 0xA0, 0x1680, 0x2000, 0x2001, 0x2002, 0x2003, 0x2004, 0x2005,
    0x2006, 0x2007, 0x2008, 0x2009, 0x200A, 0x2028, 0x2029, 0x202F, 0x205F, 0x3000]

/-- What holds for all codes of blanks holds for a blank. -/
theorem of_isBlank {p : Char → Prop} (h : ∀ n ∈ blankCodes, p (Char.ofNat n)) {c : Char}
    (hc : isBlank c = true)
    : p c := by
  have hn : c.toNat ∈ blankCodes := by
    simp only [isBlank, Bool.or_eq_true, Bool.and_eq_true, decide_eq_true_eq, beq_iff_eq] at hc
    simp only [blankCodes, List.mem_cons, List.not_mem_nil, or_false]
    omega
  rw [← c.ofNat_toNat]
  exact h _ hn

/-- No blank is a character of a word, by trying all blanks. -/
theorem isWord_of_isBlank {c : Char} (h : isBlank c = true) : isWord c = false := by
  have hall : ∀ n ∈ blankCodes, isWord (Char.ofNat n) = false := by decide +kernel
  exact of_isBlank (p := fun c => isWord c = false) hall h

/-- No blank is a digit, by trying all blanks. -/
theorem isDecimalDigit_of_isBlank {c : Char} (h : isBlank c = true)
    : isDecimalDigit c = false := by
  have hall : ∀ n ∈ blankCodes, isDecimalDigit (Char.ofNat n) = false := by decide +kernel
  exact of_isBlank (p := fun c => isDecimalDigit c = false) hall h

/-- Blanks at the end do not change whether a word begins or ends at a place. -/
theorem isBoundary_append_blanks {blanks : Text} (before : Option Char) (text : Text)
    (h : ∀ c ∈ blanks, isBlank c = true)
    : isBoundary before (text ++ blanks) = isBoundary before text := by
  cases text with
  | cons c rest => rfl
  | nil =>
      cases blanks with
      | nil => rfl
      | cons c rest => simp [isBoundary, isWord_of_isBlank (h c List.mem_cons_self)]

/-- A blank before a place is like nothing before it. -/
theorem isBoundary_some_blank {c : Char} (h : isBlank c = true) (rest : Text)
    : isBoundary (some c) rest = isBoundary none rest := by
  simp [isBoundary, isWord_of_isBlank h]

/-- A place that is found behind some text is found in the whole, by induction on that text. -/
theorem anywhere_append {test : Option Char → Text → Bool} {before : Option Char}
    {front back : Text} (h : test (front.getLast?.or before) back = true)
    : anywhere test before (front ++ back) = true := by
  induction front generalizing before with
  | nil =>
      cases back with
      | nil => exact h
      | cons c rest =>
          rw [List.nil_append, anywhere, Bool.or_eq_true]
          exact Or.inl h
  | cons c rest ih =>
      rw [List.cons_append, anywhere, Bool.or_eq_true]
      refine Or.inr (ih ?_)
      cases rest with
      | nil => exact h
      | cons d more =>
          rw [List.getLast?_cons_cons] at h
          cases hl : (d :: more).getLast? with
          | none => cases List.getLast?_eq_none_iff.mp hl
          | some last => rwa [hl] at h

/-- A place that is found has some text before it and the rest behind it, by induction on the text.
-/
theorem exists_of_anywhere {test : Option Char → Text → Bool} {before : Option Char} {text : Text}
    (h : anywhere test before text = true)
    : ∃ front back, text = front ++ back ∧ test (front.getLast?.or before) back = true := by
  induction text generalizing before with
  | nil => exact ⟨[], [], rfl, h⟩
  | cons c rest ih =>
      rw [anywhere, Bool.or_eq_true] at h
      rcases h with h | h
      · exact ⟨[], c :: rest, rfl, h⟩
      · obtain ⟨front, back, rfl, htest⟩ := ih h
        refine ⟨c :: front, back, rfl, ?_⟩
        cases front with
        | nil => exact htest
        | cons d more =>
            rw [List.getLast?_cons_cons]
            cases hl : (d :: more).getLast? with
            | none => cases List.getLast?_eq_none_iff.mp hl
            | some last => rwa [hl] at htest

-----------------------------------------------------------------------------------------
-- Places between blanks
-----------------------------------------------------------------------------------------

/-- A test that passes at no blank and does not see the blanks around a text. -/
structure PassesBlanks (test : Option Char → Text → Bool) : Prop where
  before : ∀ {c}, isBlank c = true → ∀ rest, test (some c) rest = test none rest
  nil : ∀ before, test before [] = false
  blank : ∀ {c}, isBlank c = true → ∀ before rest, test before (c :: rest) = false
  after
    : ∀ {blanks}, (∀ c ∈ blanks, isBlank c = true) →
        ∀ before text, test before (text ++ blanks) = test before text

namespace PassesBlanks

variable {test : Option Char → Text → Bool} {blanks : Text}

/-- Blanks before a text hold no place that passes, by induction on the blanks. -/
theorem anywhere_blanks_append (h : PassesBlanks test) (hb : ∀ c ∈ blanks, isBlank c = true)
    (text : Text)
    : anywhere test none (blanks ++ text) = anywhere test none text := by
  have hstart : ∀ {c}, isBlank c = true →
      anywhere test (some c) text = anywhere test none text := by
    intro c hc
    cases text <;> simp [anywhere, h.before hc]
  suffices hall : ∀ before, (∀ c ∈ before, isBlank c = true) →
      anywhere test before (blanks ++ text) = anywhere test none text from hall none (by simp)
  induction blanks with
  | nil =>
      intro before hbefore
      cases before with
      | none => rfl
      | some c => exact hstart (hbefore c rfl)
  | cons c rest ih =>
      intro before _
      have hc := hb c List.mem_cons_self
      rw [List.cons_append, anywhere, h.blank hc, Bool.false_or]
      refine ih (fun c hin => hb c (List.mem_cons_of_mem _ hin)) (some c) fun found hf => ?_
      cases hf
      exact hc

/-- No place in blanks passes, by induction on the blanks. -/
theorem anywhere_blanks (h : PassesBlanks test) (hb : ∀ c ∈ blanks, isBlank c = true)
    (before : Option Char)
    : anywhere test before blanks = false := by
  induction blanks generalizing before with
  | nil => exact h.nil before
  | cons c rest ih =>
      rw [anywhere, h.blank (hb c List.mem_cons_self), Bool.false_or]
      exact ih (fun c hin => hb c (List.mem_cons_of_mem _ hin)) (some c)

/-- Blanks after a text hold no place that passes, by induction on the text. -/
theorem anywhere_append_blanks (h : PassesBlanks test) (hb : ∀ c ∈ blanks, isBlank c = true)
    (before : Option Char) (text : Text)
    : anywhere test before (text ++ blanks) = anywhere test before text := by
  induction text generalizing before with
  | nil => rw [List.nil_append, h.anywhere_blanks hb, anywhere, h.nil]
  | cons c rest ih =>
      rw [List.cons_append, anywhere, anywhere, ih, ← List.cons_append, h.after hb]

/-- The places that pass in a line are those in the line without the blanks around it. -/
theorem anywhere_trim (h : PassesBlanks test) (line : Text)
    : anywhere test none (trim line) = anywhere test none line := by
  refine apply_trim (fun text => ?_) (fun text blanks hb => ?_) line
  · obtain ⟨blanks, he, hb⟩ := exists_eq_append_trimStart text
    conv => rhs; rw [he]
    exact (h.anywhere_blanks_append hb _).symm
  · exact h.anywhere_append_blanks hb none text

end PassesBlanks

end SuiteScore.Text
