import Mathlib.Data.List.DropRight
import Mathlib.Data.List.TakeWhile
import SuiteScore.Text.Blank

/-! Trimming looks past blanks at both ends, and tokens start where no blank does. -/

namespace SuiteScore.Text

/-- Every text is what is left of its end and a run of dropped characters, by splitting the reversed
text. -/
theorem exists_eq_dropEndWhile_append (drop : Char → Bool) (text : Text)
    : ∃ dropped, text = dropEndWhile drop text ++ dropped ∧ ∀ c ∈ dropped, drop c = true := by
  refine ⟨(text.reverse.takeWhile drop).reverse, ?_, ?_⟩
  · rw [dropEndWhile, ← List.reverse_append, List.takeWhile_append_dropWhile, List.reverse_reverse]
  · intro c hc
    exact List.all_eq_true.mp (List.all_takeWhile (l := text.reverse)) c (List.mem_reverse.mp hc)

/-- Every text is a run of blanks and the text after them. -/
theorem exists_eq_append_trimStart (text : Text)
    : ∃ blanks, text = blanks ++ trimStart text ∧ ∀ c ∈ blanks, isBlank c = true := by
  refine ⟨text.takeWhile isBlank, List.takeWhile_append_dropWhile.symm, fun c hc => ?_⟩
  exact List.all_eq_true.mp List.all_takeWhile c hc

/-- What is left of an end does not end in a dropped character. -/
theorem getLast?_dropEndWhile (drop : Char → Bool) (text : Text)
    : ∀ c ∈ (dropEndWhile drop text).getLast?, drop c = false := by
  intro c hc
  rw [dropEndWhile, List.getLast?_reverse] at hc
  have h := List.head?_dropWhile_not drop text.reverse
  rw [hc] at h
  simpa using h

/-- Dropping from an end keeps only characters of the text. -/
theorem mem_of_mem_dropEndWhile {drop : Char → Bool} {text : Text} {c : Char}
    (h : c ∈ dropEndWhile drop text)
    : c ∈ text := by
  have hc := List.mem_reverse.mp h
  exact List.mem_reverse.mp ((List.dropWhile_sublist drop).subset hc)

/-- Trimming keeps only characters of the text. -/
theorem mem_of_mem_trim {text : Text} {c : Char} (h : c ∈ trim text) : c ∈ text :=
  (List.dropWhile_sublist _).subset (mem_of_mem_dropEndWhile h)

/-- Dropping from an end does not see what it drops. -/
theorem dropEndWhile_append {drop : Char → Bool} {dropped : Text} (text : Text)
    (h : ∀ c ∈ dropped, drop c = true)
    : dropEndWhile drop (text ++ dropped) = dropEndWhile drop text := by
  have hd : ∀ c ∈ dropped.reverse, drop c = true := fun c hc => h c (List.mem_reverse.mp hc)
  rw [dropEndWhile, dropEndWhile, List.reverse_append, List.dropWhile_append_of_pos hd]

/-- A run of blanks at the end is not seen by the end of trimming. -/
theorem trimEnd_append_blanks {text blanks : Text} (h : ∀ c ∈ blanks, isBlank c = true)
    : trimEnd (text ++ blanks) = trimEnd text :=
  dropEndWhile_append text h

/-- A run of blanks at the end is not seen by trimming. -/
theorem trim_append_blanks {text blanks : Text} (h : ∀ c ∈ blanks, isBlank c = true)
    : trim (text ++ blanks) = trim text := by
  unfold trim trimStart
  rw [List.dropWhile_append]
  split
  · next he =>
      have hn : blanks.dropWhile isBlank = [] := List.dropWhile_eq_nil_iff.mpr h
      rw [hn, List.isEmpty_iff.mp he]
  · exact trimEnd_append_blanks h

/-- Dropping some blanks from an end is not seen by trimming. -/
theorem trim_dropEndWhile {drop : Char → Bool} (text : Text)
    (h : ∀ c, drop c = true → isBlank c = true)
    : trim (dropEndWhile drop text) = trim text := by
  obtain ⟨dropped, he, hd⟩ := exists_eq_dropEndWhile_append drop text
  conv => rhs; rw [he]
  exact (trim_append_blanks fun c hc => h c (hd c hc)).symm

/-- What does not see blanks at either end does not see trimming. -/
theorem apply_trim {look : Text → α} (hstart : ∀ text, look (trimStart text) = look text)
    (hend
      : ∀ text blanks, (∀ c ∈ blanks, isBlank c = true) → look (text ++ blanks) = look text)
    (line : Text)
    : look (trim line) = look line := by
  obtain ⟨dropped, he, hd⟩ := exists_eq_dropEndWhile_append isBlank (trimStart line)
  calc look (trim line)
      = look (trim line ++ dropped) := (hend _ _ hd).symm
    _ = look (trimStart line) := congrArg look he.symm
    _ = look line := hstart line

/-- Blanks at the end stay behind what starts with no blank, and nothing else is left of blanks. -/
theorem trimStart_append_blanks {blanks : Text} (text : Text) (h : ∀ c ∈ blanks, isBlank c = true)
    : trimStart (text ++ blanks)
      = if (trimStart text).isEmpty then [] else trimStart text ++ blanks := by
  rw [trimStart, trimStart, List.dropWhile_append, List.dropWhile_eq_nil_iff.mpr h]

/-- Blanks before a text are not seen by trimming at the start. -/
theorem trimStart_blanks_append {blanks : Text} (text : Text) (h : ∀ c ∈ blanks, isBlank c = true)
    : trimStart (blanks ++ text) = trimStart text :=
  List.dropWhile_append_of_pos h

/-- Nothing is trimmed before a character that is not blank. -/
theorem trimStart_cons {c : Char} (rest : Text) (h : isBlank c = false)
    : trimStart (c :: rest) = c :: rest :=
  List.dropWhile_cons_of_neg (by simp [h])

theorem trimStart_trimStart (text : Text) : trimStart (trimStart text) = trimStart text :=
  List.dropWhile_idempotent isBlank text

/-- Nothing is left to trim at the start of a trimmed text. -/
theorem trimStart_trim (text : Text) : trimStart (trim text) = trim text := by
  obtain ⟨dropped, hstart, _⟩ := exists_eq_dropEndWhile_append isBlank (trimStart text)
  have hwhole : trimStart text = trim text ++ dropped := hstart
  cases htrim : trim text with
  | nil => rfl
  | cons c rest =>
      have hhead := List.head?_dropWhile_not isBlank text
      rw [← trimStart, hwhole, htrim] at hhead
      exact List.dropWhile_cons_of_neg (by simpa using hhead)

/-- A text that neither starts nor ends with a blank. -/
structure IsTrimmed (text : Text) : Prop where
  first : ∀ c ∈ text.head?, isBlank c = false
  last : ∀ c ∈ text.getLast?, isBlank c = false

theorem isTrimmed_trim (text : Text) : IsTrimmed (trim text) := by
  refine ⟨fun c hc => ?_, getLast?_dropEndWhile isBlank (trimStart text)⟩
  rw [← trimStart_trim] at hc
  have hfirst := List.head?_dropWhile_not isBlank (trim text)
  rw [← trimStart, hc] at hfirst
  simpa using hfirst

/-- Nothing is dropped from an end whose last character stays. -/
theorem dropEndWhile_eq {drop : Char → Bool} {text : Text}
    (h : ∀ c ∈ text.getLast?, drop c = false)
    : dropEndWhile drop text = text := by
  rcases List.eq_nil_or_concat text with rfl | ⟨front, c, rfl⟩
  · rfl
  · have hc : drop c = false := h c (by simp)
    simp [dropEndWhile, hc]

/-- Trimming takes nothing from a text without blanks around it. -/
theorem IsTrimmed.trim_eq {text : Text} (h : IsTrimmed text) : trim text = text := by
  have hstart : trimStart text = text := by
    cases text with
    | nil => rfl
    | cons c rest => exact trimStart_cons rest (h.first c rfl)
  rw [trim, hstart]
  exact dropEndWhile_eq h.last

/-- A text that starts with a character that is not blank has a first token, which starts with it.
-/
theorem exists_tokens_cons {c : Char} (rest : Text) (h : isBlank c = false)
    : ∃ token others, tokens (c :: rest) = (c :: token) :: others := by
  cases rest with
  | nil => exact ⟨[], [], by simp [tokens, h]⟩
  | cons d more =>
      unfold tokens
      simp only [h, Bool.false_eq_true, if_false]
      split
      · exact ⟨[], _, rfl⟩
      · split
        · exact ⟨[], [], rfl⟩
        · next token others _ => exact ⟨token, others, rfl⟩

end SuiteScore.Text
