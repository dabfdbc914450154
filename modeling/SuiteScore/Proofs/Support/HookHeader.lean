import SuiteScore.Proofs.Support.Depth
import SuiteScore.Proofs.Support.HookGrammar

/-! Whatever is written as the header of a hook also looks like one to a scan for blocks, and ends
with `do`: what stands between its word and its `do` is apart from words.
-/

namespace SuiteScore.Support

open Text

/-- A text that neither starts nor ends inside a word. -/
def IsApart (text : Text) : Prop :=
  (∀ c ∈ text.head?, isWord c = false) ∧ ∀ c ∈ text.getLast?, isWord c = false

/-- A text without characters of words is apart from words. -/
theorem isApart_of_forall {text : Text} (h : ∀ c ∈ text, isWord c = false) : IsApart text :=
  ⟨fun c hc => h c (List.mem_of_mem_head? hc), fun c hc => h c (List.mem_of_mem_getLast? hc)⟩

/-- What stands between two texts that are apart does not count. -/
theorem IsApart.surround {front back : Text} (hf : IsApart front) (hb : IsApart back)
    (middle : Text)
    (hne : front ≠ []) (hback : back ≠ [])
    : IsApart (front ++ middle ++ back) := by
  refine ⟨fun c hc => hf.1 c ?_, fun c hc => hb.2 c ?_⟩
  · rwa [List.append_assoc, List.head?_append_of_ne_nil _ hne] at hc
  · rwa [List.getLast?_append_of_ne_nil _ hback] at hc

namespace HookType

/-- Every word for a type ends in a letter. -/
theorem getLast?_of_mem_words {word : Text} {type : HookType} (h : (word, type) ∈ words)
    : word.getLast?.any isWord = true := by
  have hall : ∀ entry ∈ words, entry.1.getLast?.any isWord = true := by decide
  exact hall _ h

/-- Every word for a type starts with an initial. -/
theorem hasInitial_of_mem_words {word : Text} {type : HookType} (h : (word, type) ∈ words)
    : hasInitial word = true := by
  have hall : ∀ entry ∈ words, hasInitial entry.1 = true := by decide
  exact hall _ h

end HookType

-----------------------------------------------------------------------------------------
-- Ends of headers
-----------------------------------------------------------------------------------------

/-- A word that begins a text without going on there is found at its start. -/
theorem afterWord?_append {word : Text} (rest : Text) (hw : word.getLast?.any isWord = true)
    (hr : ∀ c ∈ rest.head?, isWord c = false)
    : afterWord? word (word ++ rest) = some rest := by
  have hboundary : isBoundary word.getLast? rest = true := by
    rw [isBoundary, hw]
    cases hh : rest.head? with
    | none => rfl
    | some c => rw [Option.any_some, hr c hh]; rfl
  rw [afterWord?, List.isPrefixOf?_eq_some_iff_append_eq.mpr rfl, Option.filter_some, hboundary,
    if_pos rfl]

/-- A `do` between texts that are apart stands alone. -/
theorem isBoundary_do {before : Option Char} {rest : Text} (h : before.any isWord = false)
    : isBoundary before (("do" : Text) ++ rest) = true := by
  rw [isBoundary, h]
  rfl

/-- A `do` with a proper end behind some text is found at the end of the line. -/
theorem endsWithDo_append {front rest : Text} (hf : ∀ c ∈ front.getLast?, isWord c = false)
    (hr : isDoTail rest = true)
    : endsWithDo (front ++ (("do" : Text) ++ rest)) = true := by
  refine anywhere_append ?_
  have hbefore : (front.getLast?.or none).any isWord = false := by
    cases hl : front.getLast? with
    | none => rfl
    | some c => exact hf c hl
  rw [isBoundary_do hbefore, List.isPrefixOf?_eq_some_iff_append_eq.mpr rfl, Option.any_some, hr]
  rfl

/-- A `do` behind some text is found as a word. -/
theorem hasWord_do_append {before : Option Char} {front rest : Text} (hne : front ≠ [])
    (hf : ∀ c ∈ front.getLast?, isWord c = false) (hr : ∀ c ∈ rest.head?, isWord c = false)
    : hasWord "do" before (front ++ (("do" : Text) ++ rest)) = true := by
  refine anywhere_append ?_
  have hbefore : (front.getLast?.or before).any isWord = false := by
    cases hl : front.getLast? with
    | none => exact absurd (List.getLast?_eq_none_iff.mp hl) hne
    | some c => exact hf c hl
  have hword : startsWithWord "do" (("do" : Text) ++ rest) = true := by
    rw [startsWithWord, afterWord?_append rest (by decide) hr]
    rfl
  rw [isBoundary_do hbefore, hword]
  rfl

namespace HookHeader

variable {line before list after bars comment : Text} {tags parameters : List Text}

/-- Nothing that stands for parameters and a comment starts a word, and blanks before it do not. -/
theorem WritesParameters.head?_isWord (h : WritesParameters parameters bars)
    (hc : WritesComment comment) (ha : AreBlank after)
    : ∀ c ∈ (after ++ (bars ++ comment)).head?, isWord c = false := by
  intro c hin
  cases after with
  | cons _ rest =>
      cases hin
      exact isWord_of_isBlank (ha c List.mem_cons_self)
  | nil =>
      cases h with
      | present =>
          cases hin
          rfl
      | absent =>
          cases hc with
          | absent => cases hin
          | present =>
              cases hin
              rfl

/-- A comment in one line ends the line. -/
theorem WritesComment.isCommentOrEnd (h : WritesComment comment) (hn : '\n' ∉ comment)
    : isCommentOrEnd comment = true := by
  cases h with
  | absent => rfl
  | present text =>
      have htext : '\n' ∉ text := fun hc => hn (List.mem_cons_of_mem _ hc)
      simpa [Support.isCommentOrEnd] using htext

/-- What stands behind the `do` of a header can stand behind a `do` that opens a block. -/
theorem WritesParameters.isDoTail (h : WritesParameters parameters bars)
    (hc : WritesComment comment) (ha : AreBlank after) (hn : '\n' ∉ comment)
    : isDoTail (after ++ (bars ++ comment)) = true := by
  have hend := hc.isCommentOrEnd hn
  rw [Support.isDoTail, trimStart_blanks_append _ ha, (h.facts hc).1]
  cases h with
  | absent =>
      cases hc with
      | absent => rfl
      | present text => exact hend
  | @present names blanks hbar hb =>
      have hcut : cut? '|' (names ++ '|' :: (blanks ++ comment))
          = some (names, blanks ++ comment) := cut?_eq_some_iff.mpr ⟨rfl, hbar⟩
      have htrim := (WritesParameters.absent.facts hc).1
      rw [List.nil_append] at htrim
      simp only [List.cons_append, List.append_assoc, hcut, Option.any_some,
        trimStart_blanks_append _ hb, htrim, hend]

/-- Tags in parentheses stand apart from words, and so do the blanks before them. -/
theorem WritesTagList.isApart (h : WritesTagList tags list) (hb : AreBlank before)
    : IsApart (before ++ list) := by
  have hword : ∀ {blanks : Text}, AreBlank blanks → ∀ c ∈ blanks, isWord c = false :=
    fun hblanks c hc => isWord_of_isBlank (hblanks c hc)
  cases h with
  | absent => simpa using isApart_of_forall (hword hb)
  | @present _ inside after hi ha =>
      have hopen : IsApart (before ++ ['(']) := by
        refine isApart_of_forall fun c hc => ?_
        rcases List.mem_append.mp hc with hc | hc
        · exact hword hb c hc
        · rw [List.mem_singleton.mp hc]
          rfl
      have hclose : IsApart (')' :: after) := by
        refine isApart_of_forall fun c hc => ?_
        rcases List.mem_cons.mp hc with rfl | hc
        · rfl
        · exact hword ha c hc
      simpa using hopen.surround hclose inside (by simp) (by simp)

/-- An accepted header is a word for a type, something apart, `do`, and a proper end. -/
theorem exists_of_ofLine {header : HookHeader} (hn : '\n' ∉ line) (h : ofLine line = .ok header)
    : ∃ word front rest, (word, header.type) ∈ HookType.words
        ∧ line = word ++ (front ++ (("do" : Text) ++ rest))
        ∧ front ≠ [] ∧ IsApart front
        ∧ isDoTail rest = true ∧ ∀ c ∈ rest.head?, isWord c = false := by
  obtain @⟨word, type, rest, before, tags, list, after, parameters, bars, comment, hw, hi, rfl, hb,
    hl, ha, hp, hc⟩ := ofLine_eq_ok_iff.mp h
  have hcomment : '\n' ∉ comment := fun hin => hn (by simp [hin])
  refine ⟨word, before ++ list, after ++ (bars ++ comment), hw, by simp, ?_, hl.isApart hb,
    hp.isDoTail hc ha hcomment, hp.head?_isWord hc ha⟩
  intro hnil
  obtain ⟨rfl, rfl⟩ := List.append_eq_nil_iff.mp hnil
  -- The word would go on with the first letter of `do`.
  cases hi 'd' rfl

/-- An accepted header looks like one, and it ends with `do`. -/
theorem isHookHeader_of_ofLine {header : HookHeader} (hn : '\n' ∉ line)
    (h : ofLine line = .ok header)
    : isHookHeader line = true ∧ endsWithDo line = true ∧ hasInitial line = true := by
  obtain ⟨word, front, rest, hword, rfl, hne, hfront, htail, hhead⟩ := exists_of_ofLine hn h
  refine ⟨?_, ?_, ?_⟩
  · refine List.any_eq_true.mpr ⟨_, hword, ?_⟩
    have hafter := afterWord?_append (front ++ (("do" : Text) ++ rest))
      (HookType.getLast?_of_mem_words hword) fun c hc => hfront.1 c ?_
    · simp only [hafter, Option.any_some]
      exact hasWord_do_append hne hfront.2 hhead
    · rwa [List.head?_append_of_ne_nil _ hne] at hc
  · rw [← List.append_assoc]
    refine endsWithDo_append (fun c hc => hfront.2 c ?_) htail
    rwa [List.getLast?_append_of_ne_nil _ hne] at hc
  · exact hasInitial_append (HookType.hasInitial_of_mem_words hword) _

end HookHeader

end SuiteScore.Support
