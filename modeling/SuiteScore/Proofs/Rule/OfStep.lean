import SuiteScore.Proofs.Gherkin.StepLine
import SuiteScore.Proofs.Text.Word
import SuiteScore.Rule.OfStep

/-! What the rules about steps see of a line: nothing of the blanks around it. The words and dates
they look for hold no blanks at their ends.
-/

namespace SuiteScore.Rule

open Text Gherkin

variable {word blanks line twin : Text}

-----------------------------------------------------------------------------------------
-- Words
-----------------------------------------------------------------------------------------

/-- A blank has no other case, by trying all blanks. -/
theorem smallLetter_of_isBlank {c : Char} (h : isBlank c = true) : smallLetter c = c := by
  have hall : ∀ n ∈ blankCodes, smallLetter (Char.ofNat n) = Char.ofNat n := by decide +kernel
  exact of_isBlank (p := fun c => smallLetter c = c) hall h

/-- Whether a word is there and neither begins nor ends with a blank. -/
def isTight (word : Text) : Bool :=
  word.head?.any (fun c => !isBlank c) && word.getLast?.any fun c => !isBlank c

theorem isTight_of_mem : ∀ word ∈ implementationWords, isTight word = true := by
  decide

/-- No word that ends in a letter is found in blanks, by induction on the word. -/
theorem afterLetters?_blanks (hn : word ≠ []) (hw : ∀ c ∈ word.getLast?, isBlank c = false)
    (hb : ∀ c ∈ blanks, isBlank c = true)
    : afterLetters? word blanks = none := by
  induction word generalizing blanks with
  | nil => exact absurd rfl hn
  | cons letter rest ih =>
      cases blanks with
      | nil => rfl
      | cons c more =>
          have hc := hb c List.mem_cons_self
          rw [afterLetters?, smallLetter_of_isBlank hc]
          split
          · next hletter =>
              subst hletter
              cases rest with
              | nil =>
                  have hlast := hw c rfl
                  rw [hc] at hlast
                  cases hlast
              | cons next others =>
                  rw [List.getLast?_cons_cons] at hw
                  exact ih (List.cons_ne_nil _ _) hw fun c hin => hb c (List.mem_cons_of_mem _ hin)
          · rfl

/-- Blanks at the end stay behind a word that ends in a letter, by induction on the word. -/
theorem afterLetters?_append_blanks (hw : ∀ c ∈ word.getLast?, isBlank c = false)
    (hb : ∀ c ∈ blanks, isBlank c = true) (text : Text)
    : afterLetters? word (text ++ blanks) = (afterLetters? word text).map (· ++ blanks) := by
  induction word generalizing text with
  | nil => rfl
  | cons letter rest ih =>
      cases text with
      | nil => exact afterLetters?_blanks (List.cons_ne_nil _ _) hw hb
      | cons c more =>
          have hrest : ∀ c ∈ rest.getLast?, isBlank c = false := by
            intro c hc
            refine hw c ?_
            cases rest with
            | nil => cases hc
            | cons next others => rwa [List.getLast?_cons_cons]
          rw [List.cons_append, afterLetters?, afterLetters?]
          split
          · exact ih hrest more
          · rfl

/-- Looking for a tight word sees no blanks around a line. -/
theorem passesBlanks_word (h : isTight word = true)
    : PassesBlanks fun before rest =>
        isBoundary before rest && (afterLetters? word rest).any (isBoundary word.getLast?) := by
  simp only [isTight, Bool.and_eq_true] at h
  obtain ⟨hhead, hlast⟩ := h
  obtain ⟨letter, rest, rfl⟩ : ∃ letter rest, word = letter :: rest := by
    cases word with
    | nil => cases hhead
    | cons letter rest => exact ⟨letter, rest, rfl⟩
  have hletter : isBlank letter = false := by simpa using hhead
  constructor
  · intro c hc rest
    rw [isBoundary_some_blank hc]
  · intro before
    rw [afterLetters?, Option.any_none, Bool.and_false]
  · intro c hc before others
    have hne : ¬smallLetter c = letter := by
      rw [smallLetter_of_isBlank hc]
      rintro rfl
      rw [hc] at hletter
      cases hletter
    rw [afterLetters?, if_neg hne, Option.any_none, Bool.and_false]
  · intro blanks hb before text
    have hends : ∀ c ∈ (letter :: rest).getLast?, isBlank c = false := by
      intro c hc
      rw [hc] at hlast
      simpa using hlast
    rw [isBoundary_append_blanks before text hb, afterLetters?_append_blanks hends hb,
      Option.any_map]
    congr 2
    funext after
    exact isBoundary_append_blanks _ after hb

/-- A line uses an implementation word with or without blanks around it. -/
theorem uses_trim (line : Text) (h : word ∈ implementationWords)
    : uses (trim line) word = uses line word :=
  (passesBlanks_word (isTight_of_mem word h)).anywhere_trim line

-----------------------------------------------------------------------------------------
-- Dates
-----------------------------------------------------------------------------------------

/-- Blanks at the end stay behind digits. -/
theorem digits_append_blanks (hb : ∀ c ∈ blanks, isBlank c = true) (text : Text)
    : digits (text ++ blanks) = ((digits text).1, (digits text).2 ++ blanks) := by
  have hnone : blanks.takeWhile isDecimalDigit = [] ∧ blanks.dropWhile isDecimalDigit = blanks := by
    cases blanks with
    | nil => exact ⟨rfl, rfl⟩
    | cons c rest =>
        have hc := isDecimalDigit_of_isBlank (hb c List.mem_cons_self)
        exact ⟨List.takeWhile_cons_of_neg (by simp [hc]), List.dropWhile_cons_of_neg (by simp [hc])⟩
  induction text with
  | nil => simp [digits, hnone]
  | cons c rest ih =>
      simp only [digits, Prod.mk.injEq] at ih ⊢
      cases hc : isDecimalDigit c with
      | true => simp [hc, ih]
      | false => simp [hc]

/-- The number of digits before a separator at the start of a text, and the text after it. -/
def part? (separator : Char) (text : Text) : Option (Nat × Text) :=
  match digits text with
  | (count, c :: rest) => if c = separator then some (count, rest) else none
  | _ => none

/-- Whether a number of digits stands at the start of a text and no word goes on behind them. -/
def endsWithDigits (allowed : Nat → Bool) (text : Text) : Bool :=
  allowed (digits text).1 && !(digits text).2.head?.any isWord

/-- A date is two parts and the digits at its end. -/
theorem startsWithDate_eq (text : Text)
    : startsWithDate text
      = ((part? '/' text).any (fun day =>
          (part? '/' day.2).any fun month =>
            (day.1 == 1 || day.1 == 2) && (month.1 == 1 || month.1 == 2)
              && endsWithDigits (fun count => 2 ≤ count && count ≤ 4) month.2)
        || (part? '-' text).any fun year =>
          (part? '-' year.2).any fun month =>
            year.1 == 4 && month.1 == 2 && endsWithDigits (· == 2) month.2) := by
  unfold startsWithDate part? endsWithDigits
  rcases digits text with ⟨first, _ | ⟨c, rest⟩⟩
  · rfl
  · by_cases hslash : c = '/'
    · subst hslash
      rcases hrest : digits rest with ⟨second, _ | ⟨d, others⟩⟩
      · simp [hrest]
      · by_cases hd : d = '/'
        · subst hd
          simp [hrest, Bool.and_assoc]
        · simp [hrest, hd]
    · by_cases hdash : c = '-'
      · subst hdash
        rcases hrest : digits rest with ⟨second, _ | ⟨d, others⟩⟩
        · simp [hrest]
        · by_cases hd : d = '-'
          · subst hd
            simp [hrest, Bool.and_assoc]
          · simp [hrest, hd]
      · simp [hslash, hdash]

/-- Blanks at the end stay behind a part. -/
theorem part?_append_blanks {separator : Char} (hs : isBlank separator = false)
    (hb : ∀ c ∈ blanks, isBlank c = true) (text : Text)
    : part? separator (text ++ blanks)
      = (part? separator text).map fun part => (part.1, part.2 ++ blanks) := by
  rw [part?, part?, digits_append_blanks hb]
  rcases digits text with ⟨count, _ | ⟨c, rest⟩⟩
  · cases blanks with
    | nil => rfl
    | cons c rest =>
        have hne : ¬c = separator := by
          rintro rfl
          rw [hb c List.mem_cons_self] at hs
          cases hs
        exact if_neg hne
  · by_cases hc : c = separator
    · simp [hc]
    · simp [hc]

/-- Blanks at the end do not go on with a word. -/
theorem endsWithDigits_append_blanks (allowed : Nat → Bool)
    (hb : ∀ c ∈ blanks, isBlank c = true) (text : Text)
    : endsWithDigits allowed (text ++ blanks) = endsWithDigits allowed text := by
  have hsame := isBoundary_append_blanks none (digits text).2 hb
  simp only [isBoundary, Option.any_none, Bool.false_bne] at hsame
  rw [endsWithDigits, endsWithDigits, digits_append_blanks hb, hsame]

/-- A date stands at the start of a text with or without blanks at the end. -/
theorem startsWithDate_append_blanks (hb : ∀ c ∈ blanks, isBlank c = true) (text : Text)
    : startsWithDate (text ++ blanks) = startsWithDate text := by
  have hslash : isBlank '/' = false := by decide
  have hdash : isBlank '-' = false := by decide
  simp only [startsWithDate_eq, part?_append_blanks hslash hb, part?_append_blanks hdash hb,
    Option.any_map, endsWithDigits_append_blanks _ hb]

/-- No date stands at a blank. -/
theorem startsWithDate_blank {c : Char} (hc : isBlank c = true) (rest : Text)
    : startsWithDate (c :: rest) = false := by
  have hdigits : digits (c :: rest) = (0, c :: rest) := by
    simp [digits, isDecimalDigit_of_isBlank hc]
  have hnone : ∀ separator, isBlank separator = false → part? separator (c :: rest) = none := by
    intro separator hs
    rw [part?, hdigits]
    refine if_neg ?_
    rintro rfl
    rw [hc] at hs
    cases hs
  rw [startsWithDate_eq, hnone '/' (by decide), hnone '-' (by decide)]
  rfl

/-- Looking for a date sees no blanks around a line. -/
theorem passesBlanks_date
    : PassesBlanks fun before rest => isBoundary before rest && startsWithDate rest := by
  constructor
  · intro c hc rest
    rw [isBoundary_some_blank hc]
  · intro before
    exact Bool.and_false _
  · intro c hc before rest
    rw [startsWithDate_blank hc, Bool.and_false]
  · intro blanks hb before text
    rw [isBoundary_append_blanks before text hb, startsWithDate_append_blanks hb]

/-- A line holds a date with or without blanks around it. -/
theorem hasDate_trim (line : Text) : hasDate (trim line) = hasDate line :=
  passesBlanks_date.anywhere_trim line

-----------------------------------------------------------------------------------------
-- Steps
-----------------------------------------------------------------------------------------

/-- Two step lines are the same, or they are one step with different blanks around it. -/
def IsSameStep (line twin : Text) : Prop :=
  line = twin ∨ trim line = trim twin ∧ ∃ keyword text, Line.of line = .step keyword text

theorem IsSameStep.isCommented_eq (h : IsSameStep line twin)
    : isCommented line = isCommented twin := by
  rcases h with rfl | ⟨htrim, _⟩
  · rfl
  · rw [← isCommented_trim line, htrim, isCommented_trim]

theorem IsSameStep.stepKeyword?_eq (h : IsSameStep line twin)
    : stepKeyword? line = stepKeyword? twin := by
  rcases h with rfl | ⟨htrim, keyword, text, hline⟩
  · rfl
  · have htwin : Line.of twin = .step keyword text := by rw [← hline, Line.of, Line.of, htrim]
    rw [stepKeyword?_of_step hline, stepKeyword?_of_step htwin]

/-- A step line uses an asterisk with or without blanks around it. Witness: more than the asterisk
and one blank stand in it.
-/
theorem usesAsterisk_trim {keyword : StepKeyword} {text : Text}
    (h : Line.of line = .step keyword text)
    : usesAsterisk (trim line) = usesAsterisk line := by
  have hfits := Line.fits_ofTrimmed (trim line)
  rw [← Line.of, h] at hfits
  obtain ⟨c, rest, htrim, _, _⟩ := hfits
  obtain ⟨dropped, hstart, _⟩ := exists_eq_dropEndWhile_append isBlank (trimStart line)
  have hwhole : trimStart line = trim line ++ dropped := hstart
  rw [usesAsterisk, usesAsterisk, trimStart_trim, hwhole, htrim]
  cases keyword <;> rfl

theorem IsSameStep.usesAsterisk_eq (h : IsSameStep line twin)
    : usesAsterisk line = usesAsterisk twin := by
  rcases h with rfl | ⟨htrim, keyword, text, hline⟩
  · rfl
  · have htwin : Line.of twin = .step keyword text := by rw [← hline, Line.of, Line.of, htrim]
    rw [← usesAsterisk_trim hline, htrim, usesAsterisk_trim htwin]

theorem IsSameStep.implementationWordsIn_eq (h : IsSameStep line twin)
    : implementationWordsIn line = implementationWordsIn twin := by
  have hwords : implementationWords.countP (uses line)
      = implementationWords.countP (uses twin) := by
    refine List.countP_congr fun word hin => ?_
    rcases h with rfl | ⟨htrim, _⟩
    · rfl
    · rw [← uses_trim line hin, htrim, uses_trim twin hin]
  rw [implementationWordsIn, implementationWordsIn, h.isCommented_eq, isStepLine, isStepLine,
    h.stepKeyword?_eq, hwords]

theorem IsSameStep.hasDate_eq (h : IsSameStep line twin) : hasDate line = hasDate twin := by
  rcases h with rfl | ⟨htrim, _⟩
  · rfl
  · rw [← hasDate_trim line, htrim, hasDate_trim]

end SuiteScore.Rule
