import Mathlib.Data.List.Nodup
import SuiteScore.Proofs.Text.Pieces
import SuiteScore.Support.Hook

/-! Tags of hooks that are given twice or contradict each other. Both are told from the tokens of
all tags, however these are spread over the tags and in whatever order they stand.
-/

namespace SuiteScore.Support

open Text

variable {hook other : Hook}

-----------------------------------------------------------------------------------------
-- Tokens
-----------------------------------------------------------------------------------------

/-- Tags that are written as pieces with commas between them have the tokens of the pieces, whatever
pieces stand in one tag, by induction on the tags.
-/
theorem Hook.tagTokens_of_groups {groups : List (List Text)}
    (h : hook.tags = groups.map (joined ","))
    : hook.tagTokens = (withoutBlanks groups.flatten).flatMap commaPieces := by
  rw [tagTokens, h, flatMap_commaPieces_withoutBlanks, List.flatMap_map]
  clear h
  induction groups with
  | nil => rfl
  | cons pieces rest ih =>
      rw [List.flatMap_cons, commaPieces_joined, ih, List.flatten_cons, List.flatMap_append]

/-- Hooks with the same tags in another order have the same tokens in another order. -/
theorem Hook.tagTokens_perm (h : hook.tags.Perm other.tags)
    : hook.tagTokens.Perm other.tagTokens :=
  h.flatMap_right commaPieces

-----------------------------------------------------------------------------------------
-- Faults
-----------------------------------------------------------------------------------------

/-- Two hooks are alike in whether they have tags twice, and in whether they have conflicting tags.
-/
def Hook.SameTagFaults (hook other : Hook) : Prop :=
  hook.hasDuplicateTags = other.hasDuplicateTags
    ∧ hook.hasConflictingTags = other.hasConflictingTags

/-- Tags are repeated when they are not all different, by induction on them. -/
theorem Hook.hasRepetition_iff {tags : List Text} : hasRepetition tags = true ↔ ¬tags.Nodup := by
  induction tags with
  | nil => simp [hasRepetition]
  | cons first rest ih =>
      rw [hasRepetition, Bool.or_eq_true, List.contains_iff_mem, ih, List.nodup_cons]
      tauto

/-- A hook has a tag twice when two tokens are the same. -/
theorem Hook.hasDuplicateTags_iff
    : hook.hasDuplicateTags = true
      ↔ ∃ (i j : Nat) (token : Text),
          i < j ∧ hook.tagTokens[i]? = some token ∧ hook.tagTokens[j]? = some token := by
  rw [hasDuplicateTags, hasRepetition_iff, List.Nodup, List.pairwise_iff_getElem]
  constructor
  · intro h
    push Not at h
    obtain ⟨i, j, hi, hj, hij, hsame⟩ := h
    refine ⟨i, j, hook.tagTokens[j], hij, ?_, List.getElem?_eq_getElem hj⟩
    rw [List.getElem?_eq_getElem hi, hsame]
  · intro h hall
    obtain ⟨i, j, token, hij, hi, hj⟩ := h
    obtain ⟨hilt, rfl⟩ := List.getElem?_eq_some_iff.mp hi
    obtain ⟨hjlt, hsame⟩ := List.getElem?_eq_some_iff.mp hj
    exact hall i j hilt hjlt hij hsame.symm

/-- A hook has conflicting tags when a token is also there behind the sign of negation. -/
theorem Hook.hasConflictingTags_iff
    : hook.hasConflictingTags = true
      ↔ ∃ token ∈ hook.tagTokens, token.head? ≠ some '~' ∧ '~' :: token ∈ hook.tagTokens := by
  simp only [hasConflictingTags, List.any_eq_true, Bool.and_eq_true, bne_iff_ne,
    List.contains_iff_mem]

/-- Tokens that are there and others do not undo a fault: what is not different stays so, and what
is there stays there.
-/
theorem Hook.faults_of_perm_append {more : List Text}
    (h : other.tagTokens.Perm (hook.tagTokens ++ more))
    : (hook.hasDuplicateTags = true → other.hasDuplicateTags = true)
      ∧ (hook.hasConflictingTags = true → other.hasConflictingTags = true) := by
  constructor
  · rw [hasDuplicateTags, hasDuplicateTags, hasRepetition_iff, hasRepetition_iff, h.nodup_iff]
    intro htwice hnodup
    exact htwice (List.nodup_append.mp hnodup).1
  · rw [hasConflictingTags_iff, hasConflictingTags_iff]
    intro hconflict
    obtain ⟨token, hin, hplain, hnegated⟩ := hconflict
    refine ⟨token, ?_, hplain, ?_⟩
    · exact h.mem_iff.mpr (List.mem_append_left _ hin)
    · exact h.mem_iff.mpr (List.mem_append_left _ hnegated)

/-- Hooks with the same tokens, in any order, have the same faults: each has those of the other. -/
theorem Hook.sameTagFaults_of_perm (h : hook.tagTokens.Perm other.tagTokens)
    : hook.SameTagFaults other := by
  have hforth : other.tagTokens.Perm (hook.tagTokens ++ []) := by simpa using h.symm
  have hback : hook.tagTokens.Perm (other.tagTokens ++ []) := by simpa using h
  obtain ⟨hduplicate, hconflict⟩ := faults_of_perm_append hforth
  obtain ⟨hduplicate', hconflict'⟩ := faults_of_perm_append hback
  exact ⟨Bool.eq_iff_iff.mpr ⟨hduplicate, hduplicate'⟩,
    Bool.eq_iff_iff.mpr ⟨hconflict, hconflict'⟩⟩

/-- What the faults of tags depend on. Where tags are written as pieces without commas, the tokens
are the pieces without blanks around them, but for those that are blank. A tag is there twice
exactly if one token stands at two places, and tags conflict exactly if a token that is not negated
is there with its negation. So hooks with the same tokens in any order have the same faults: tags in
another order, pieces that are spread over the tags in another way, and blanks around pieces or
blank pieces change nothing; and further tags undo no fault.
-/
theorem tagFaults_of_tokens (hook : Hook)
    : (∀ groups : List (List Text),
          hook.tags = groups.map (joined ",") →
          (∀ piece ∈ groups.flatten, ',' ∉ piece) →
          hook.tagTokens = withoutBlanks groups.flatten)
      ∧ (hook.hasDuplicateTags = true
          ↔ ∃ (i j : Nat) (token : Text),
              i < j ∧ hook.tagTokens[i]? = some token ∧ hook.tagTokens[j]? = some token)
      ∧ (hook.hasConflictingTags = true
          ↔ ∃ token ∈ hook.tagTokens, token.head? ≠ some '~' ∧ '~' :: token ∈ hook.tagTokens)
      ∧ (∀ other : Hook, hook.tagTokens.Perm other.tagTokens → hook.SameTagFaults other)
      ∧ (∀ other : Hook, hook.tags.Perm other.tags → hook.SameTagFaults other)
      ∧ (∀ (other : Hook) (groups regrouped : List (List Text)),
          hook.tags = groups.map (joined ",") →
          other.tags = regrouped.map (joined ",") →
          (withoutBlanks groups.flatten).Perm (withoutBlanks regrouped.flatten) →
          hook.SameTagFaults other)
      ∧ ∀ (other : Hook) (more : List Text),
          other.tags.Perm (hook.tags ++ more) →
          (hook.hasDuplicateTags = true → other.hasDuplicateTags = true)
            ∧ (hook.hasConflictingTags = true → other.hasConflictingTags = true) := by
  refine ⟨?_, Hook.hasDuplicateTags_iff, Hook.hasConflictingTags_iff,
    fun _ => Hook.sameTagFaults_of_perm, ?_, ?_, ?_⟩
  · intro groups hgroups hcomma
    rw [Hook.tagTokens_of_groups hgroups, flatMap_commaPieces_withoutBlanks,
      flatMap_commaPieces_of_not_mem hcomma]
  · intro other h
    exact Hook.sameTagFaults_of_perm (Hook.tagTokens_perm h)
  · intro other groups regrouped hgroups hregrouped h
    apply Hook.sameTagFaults_of_perm
    rw [Hook.tagTokens_of_groups hgroups, Hook.tagTokens_of_groups hregrouped]
    exact h.flatMap_right commaPieces
  · intro other more h
    have htokens : other.tagTokens.Perm (hook.tagTokens ++ more.flatMap commaPieces) := by
      have hall := h.flatMap_right commaPieces
      rwa [List.flatMap_append] at hall
    exact Hook.faults_of_perm_append htokens

/-- A hook with these tags and nothing else. -/
def taggedHook (tags : List Text) : Hook where
  location := "hooks.rb:1"
  name := []
  tags
  type := .before
  parameters := []
  code := []
  comments := []

/-- Three tokens that conflict, in two tags and in one, in another order and with other blanks. -/
theorem tagFaults_of_regroupedTags
    : (taggedHook ["@a, ~@b", "@b"]).SameTagFaults (taggedHook [" @b,,@a ,~@b"])
      ∧ (taggedHook ["@a, ~@b", "@b"]).hasConflictingTags = true := by
  have hfaults := tagFaults_of_tokens (taggedHook ["@a, ~@b", "@b"])
  obtain ⟨_, _, hconflict, _, _, hregroup, _⟩ := hfaults
  refine ⟨?_, hconflict.mpr ⟨"@b", by decide, by decide, by decide⟩⟩
  exact hregroup (taggedHook [" @b,,@a ,~@b"]) [["@a", " ~@b"], ["@b"]]
    [[" @b", "", "@a ", "~@b"]] (by decide) (by decide) (by decide)

end SuiteScore.Support
