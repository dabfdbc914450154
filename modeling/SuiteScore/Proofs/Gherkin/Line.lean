import Mathlib.Data.List.Basic
import SuiteScore.Gherkin.Line
import SuiteScore.Gherkin.StepLine
import SuiteScore.Proofs.Text.Trim

/-! What the characters of a line are when it is read as one kind of line or another. -/

namespace SuiteScore.Gherkin

open Text

-----------------------------------------------------------------------------------------
-- Step keywords
-----------------------------------------------------------------------------------------

/-- No step keyword is the beginning of another, by comparing all pairs. -/
theorem StepKeyword.eq_of_isPrefix {one other : StepKeyword} (h : one.text <+: other.text)
    : one = other := by
  revert h
  cases one <;> cases other <;> decide

/-- Among some step keywords one is found where it begins a text. Witness: of two keywords that
begin one text the shorter begins the longer.
-/
theorem StepKeyword.findSome?_of_mem {keywords : List StepKeyword} {keyword : StepKeyword}
    (h : keyword ∈ keywords) (rest : Text)
    : (keywords.findSome? fun other =>
        (other.text.isPrefixOf? (keyword.text ++ rest)).map (other, ·)) = some (keyword, rest) := by
  have hmap : (keyword.text.isPrefixOf? (keyword.text ++ rest)).map (keyword, ·)
      = some (keyword, rest) := by
    rw [List.isPrefixOf?_eq_some_iff_append_eq.mpr rfl]
    rfl
  cases hf : keywords.findSome? fun other =>
      (other.text.isPrefixOf? (keyword.text ++ rest)).map (other, ·) with
  | none =>
      have hn := List.findSome?_eq_none_iff.mp hf keyword h
      rw [hmap] at hn
      cases hn
  | some found =>
      obtain ⟨other, _, ho⟩ := List.exists_of_findSome?_eq_some hf
      obtain ⟨after, ha, rfl⟩ := Option.map_eq_some_iff.mp ho
      have hp := List.isPrefixOf?_eq_some_iff_append_eq.mp ha
      have hsame : other = keyword := by
        rcases List.prefix_or_prefix_of_prefix ⟨after, hp⟩ (List.prefix_append keyword.text rest)
          with h | h
        · exact eq_of_isPrefix h
        · exact (eq_of_isPrefix h).symm
      subst hsame
      rw [List.append_cancel_left hp]

/-- A step keyword opens exactly the texts that it begins. -/
theorem StepKeyword.open?_eq_some_iff {line rest : Text} {keyword : StepKeyword}
    : open? line = some (keyword, rest) ↔ line = keyword.text ++ rest := by
  constructor
  · intro h
    obtain ⟨found, _, hf⟩ := List.exists_of_findSome?_eq_some h
    obtain ⟨after, ha, he⟩ := Option.map_eq_some_iff.mp hf
    obtain ⟨rfl, rfl⟩ := Prod.mk.inj he
    exact (List.isPrefixOf?_eq_some_iff_append_eq.mp ha).symm
  · rintro rfl
    have hall : keyword ∈ all := by cases keyword <;> decide
    exact findSome?_of_mem hall rest

-----------------------------------------------------------------------------------------
-- Kinds of lines
-----------------------------------------------------------------------------------------

namespace Line

/-- What a line without blanks around it is when it is read as a line of each kind. -/
def Fits (trimmed : Text) : Line → Prop
  | .blank => trimmed = []
  | .comment text => text = trimmed ∧ trimmed.head? = some '#'
  | .tags found =>
    trimmed.head? = some '@'
      ∧ found = (tokens trimmed).takeWhile fun token => token.head? != some '#'
  | .feature name => titled? FeatureTree.keyword trimmed = some name
  | .element keyword name => titled? keyword.text trimmed = some name
  | .examples keyword name => titled? keyword.text trimmed = some name
  | .step keyword text =>
    ∃ c rest, trimmed = keyword.text ++ c :: rest ∧ isBlank c = true ∧ text = trimStart rest
  | .row text => text = trimmed ∧ trimmed.head? = some '|'
  | .fence delimiter => delimiter.text <+: trimmed
  | .prose text => text = trimmed

theorem fits_feature {trimmed : Text} {line : Line} (h : feature? trimmed = some line)
    : Fits trimmed line := by
  obtain ⟨name, hn, rfl⟩ := Option.map_eq_some_iff.mp h
  exact hn

theorem fits_element {trimmed : Text} {line : Line} (h : element? trimmed = some line)
    : Fits trimmed line := by
  obtain ⟨keyword, _, hk⟩ := List.exists_of_findSome?_eq_some h
  obtain ⟨name, hn, rfl⟩ := Option.map_eq_some_iff.mp hk
  exact hn

theorem fits_examples {trimmed : Text} {line : Line} (h : examples? trimmed = some line)
    : Fits trimmed line := by
  obtain ⟨keyword, _, hk⟩ := List.exists_of_findSome?_eq_some h
  obtain ⟨name, hn, rfl⟩ := Option.map_eq_some_iff.mp hk
  exact hn

theorem fits_step {trimmed : Text} {line : Line} (h : step? trimmed = some line)
    : Fits trimmed line := by
  unfold step? at h
  split at h
  · next keyword c rest ho =>
      split at h
      · next hb =>
          cases h
          exact ⟨c, rest, StepKeyword.open?_eq_some_iff.mp ho, hb, rfl⟩
      · cases h
  · cases h

theorem fits_row {trimmed : Text} {line : Line} (h : row? trimmed = some line)
    : Fits trimmed line := by
  unfold row? at h
  split at h
  · next hb => cases h; exact ⟨rfl, hb⟩
  · cases h

theorem fits_fence {trimmed : Text} {line : Line} (h : fence? trimmed = some line)
    : Fits trimmed line := by
  unfold fence? at h
  split at h
  · next hb => cases h; exact List.isPrefixOf_iff_prefix.mp hb
  · split at h
    · next hb => cases h; exact List.isPrefixOf_iff_prefix.mp hb
    · cases h

/-- Every line is what its reading says, by the order in which the readings are tried. -/
theorem fits_ofTrimmed (trimmed : Text) : Fits trimmed (ofTrimmed trimmed) := by
  unfold ofTrimmed
  split
  · exact rfl
  · exact ⟨rfl, rfl⟩
  · exact ⟨rfl, rfl⟩
  · cases hl : feature? trimmed <|> element? trimmed <|> examples? trimmed <|> step? trimmed
        <|> row? trimmed <|> fence? trimmed with
    | none => exact rfl
    | some line =>
        simp only [Option.orElse_eq_orElse, Option.orElse_eq_or, Option.or_eq_some_iff] at hl
        rcases hl with h | ⟨_, h | ⟨_, h | ⟨_, h | ⟨_, h | ⟨_, h⟩⟩⟩⟩⟩
        · exact fits_feature h
        · exact fits_element h
        · exact fits_examples h
        · exact fits_step h
        · exact fits_row h
        · exact fits_fence h

/-- A tag line has a first token that is no comment, since the line starts with an at sign. -/
theorem tokens_ne_nil {raw : Text} {found : List Text} (h : of raw = .tags found) : found ≠ [] := by
  have hs := fits_ofTrimmed (trim raw)
  rw [← of, h] at hs
  obtain ⟨hhead, rfl⟩ := hs
  cases ht : trim raw with
  | nil => rw [ht] at hhead; cases hhead
  | cons c rest =>
      rw [ht] at hhead
      cases hhead
      have hat : isBlank '@' = false := by decide
      obtain ⟨token, others, he⟩ := exists_tokens_cons rest hat
      rw [he, List.takeWhile_cons]
      simp

end Line

-----------------------------------------------------------------------------------------
-- Step lines
-----------------------------------------------------------------------------------------

/-- What the grammar reads as a step starts with the keyword and a blank when its leading blanks are
dropped: what trimming drops at its end comes after that blank.
-/
theorem exists_trimStart_of_step {raw text : Text} {keyword : StepKeyword}
    (h : Line.of raw = .step keyword text)
    : ∃ c rest, trimStart raw = keyword.text ++ c :: rest ∧ isBlank c = true := by
  have hs := Line.fits_ofTrimmed (trim raw)
  rw [← Line.of, h] at hs
  obtain ⟨c, rest, he, hc, _⟩ := hs
  obtain ⟨dropped, hd, _⟩ := exists_eq_dropEndWhile_append isBlank (trimStart raw)
  refine ⟨c, rest ++ dropped, ?_, hc⟩
  rw [hd, ← trimEnd, ← trim, he]
  simp

/-- A line that reads as a step is not commented out. -/
theorem isCommented_of_step {raw text : Text} {keyword : StepKeyword}
    (h : Line.of raw = .step keyword text)
    : isCommented raw = false := by
  obtain ⟨c, rest, hstart, _⟩ := exists_trimStart_of_step h
  rw [isCommented, hstart]
  cases keyword <;> rfl

/-- A line that is not commented out has the keyword that it starts with, when a blank follows. -/
theorem stepKeyword?_eq_some_iff {line : Text} {keyword : StepKeyword}
    (h : isCommented line = false)
    : stepKeyword? line = some keyword
      ↔ ∃ c rest, trimStart line = keyword.text ++ c :: rest ∧ isBlank c = true := by
  have hplain : uncommented line = trimStart line := by
    unfold uncommented
    split
    · next hash =>
        rw [isCommented, hash] at h
        cases h
    · rfl
  rw [stepKeyword?, hplain]
  constructor
  · intro hkeyword
    split at hkeyword
    · next found c rest hopen =>
        split at hkeyword
        · next hc =>
            cases hkeyword
            exact ⟨c, rest, StepKeyword.open?_eq_some_iff.mp hopen, hc⟩
        · cases hkeyword
    · cases hkeyword
  · rintro ⟨c, rest, hstart, hc⟩
    rw [StepKeyword.open?_eq_some_iff.mpr hstart]
    exact if_pos hc

/-- What the grammar reads as a step is a step line with the same keyword. -/
theorem stepKeyword?_of_step {raw text : Text} {keyword : StepKeyword}
    (h : Line.of raw = .step keyword text)
    : stepKeyword? raw = some keyword :=
  (stepKeyword?_eq_some_iff (isCommented_of_step h)).mpr (exists_trimStart_of_step h)

theorem isStepLine_of_step {raw text : Text} {keyword : StepKeyword}
    (h : Line.of raw = .step keyword text)
    : isStepLine raw = true := by
  rw [isStepLine, stepKeyword?_of_step h]
  rfl

end SuiteScore.Gherkin
