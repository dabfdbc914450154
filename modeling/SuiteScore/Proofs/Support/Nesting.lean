import SuiteScore.Proofs.Support.HookHeader

/-! What the lines between the header and the end of a block do to the nesting: plain lines leave
it, and a line that opens a construct leads one level deeper, except where two of its words count
or an `end` in the same line does.
-/

namespace SuiteScore.Support

open Text HookHeader

-----------------------------------------------------------------------------------------
-- Plain lines
-----------------------------------------------------------------------------------------

/-- The words that open or close a construct. -/
def nestingWords : List Text :=
  "do" :: "end" :: openingWords

/-- A comment, or a line without words that open or close a construct. -/
def IsPlain (line : Text) : Prop :=
  line.head? = some '#' ∨ ∀ word ∈ nestingWords, hasWord word none line = false

instance (line : Text) : Decidable (IsPlain line) :=
  inferInstanceAs (Decidable (_ ∨ _))

/-- Every word of nesting starts with a letter. -/
theorem head?_of_mem_nestingWords {word : Text} (h : word ∈ nestingWords)
    : word.head?.any isWord = true := by
  have hall : ∀ word ∈ nestingWords, word.head?.any isWord = true := by decide
  exact hall word h

/-- Every word that an assignment can open a block with opens one on its own. -/
theorem mem_nestingWords_of_assignable {word : Text} (h : word ∈ assignableWords)
    : word ∈ nestingWords := by
  have hall : ∀ word ∈ assignableWords, word ∈ nestingWords := by decide
  exact hall word h

/-- A word that starts a part of a line is a word of the line if nothing before the part belongs to
a word.
-/
theorem hasWord_of_startsWithWord {word back : Text} (front : Text)
    (hw : word.head?.any isWord = true) (hf : ∀ c ∈ front.getLast?, isWord c = false)
    (hs : startsWithWord word back = true)
    : hasWord word none (front ++ back) = true := by
  refine anywhere_append ?_
  have hbefore : (front.getLast?.or none).any isWord = false := by
    cases hl : front.getLast? with
    | none => rfl
    | some c => exact hf c hl
  have hafter : back.head?.any isWord = true := by
    obtain ⟨rest, hrest⟩ := Option.isSome_iff_exists.mp hs
    obtain ⟨hp, _⟩ := Option.filter_eq_some_iff.mp hrest
    obtain rfl := List.isPrefixOf?_eq_some_iff_append_eq.mp hp
    cases word with
    | nil => cases hw
    | cons c more => exact hw
  rw [isBoundary, hbefore, hafter, hs]
  rfl

/-- What ends a line behind `do` does not go on with the word. -/
theorem head?_of_isDoTail {rest : Text} (h : isDoTail rest = true)
    : ∀ c ∈ rest.head?, isWord c = false := by
  intro c hc
  cases rest with
  | nil => cases hc
  | cons d more =>
      cases hc
      by_cases hb : isBlank c = true
      · exact isWord_of_isBlank hb
      · rw [isDoTail, trimStart_cons more (Bool.eq_false_iff.mpr hb)] at h
        split at h
        · next he =>
            cases he
            rfl
        · unfold isCommentOrEnd at h
          split at h
          · next he => cases he
          · next he =>
              cases he
              rfl
          · cases h

/-- A line that starts with a word of nesting has that word. -/
theorem exists_hasWord_of_startsBlock {line : Text} (h : startsBlock line = true)
    : ∃ word ∈ nestingWords, hasWord word none line = true := by
  obtain ⟨word, hw, hs⟩ := List.any_eq_true.mp h
  have hin : word ∈ nestingWords := by simp [nestingWords, hw]
  exact ⟨word, hin, hasWord_of_startsWithWord [] (head?_of_mem_nestingWords hin)
    (by simp) hs⟩

/-- A line in which an assignment opens a block has the word that opens it: before the word there
are blanks or a sign.
-/
theorem exists_hasWord_of_assignsBlock {line : Text} (h : assignsBlock line = true)
    : ∃ word ∈ nestingWords, hasWord word none line = true := by
  obtain ⟨front, back, rfl, hat⟩ := exists_of_anywhere h
  obtain ⟨sign, hsign, hvalue⟩ := List.any_eq_true.mp hat
  obtain ⟨value, hp, hwords⟩ := (Option.any_eq_true _ _).mp hvalue
  obtain ⟨word, hw, hs⟩ := List.any_eq_true.mp hwords
  have hin := mem_nestingWords_of_assignable hw
  obtain ⟨blanks, hblanks, hb⟩ := exists_eq_append_trimStart value
  have hline : front ++ back = front ++ sign ++ blanks ++ trimStart value := by
    rw [← List.isPrefixOf?_eq_some_iff_append_eq.mp hp]
    conv => lhs; rw [hblanks]
    simp
  have hsigns : ∀ sign ∈ [("=" : Text), "<<", "("],
      sign ≠ [] ∧ (sign.any fun c => isWord c) = false := by
    decide
  obtain ⟨hne, hsign⟩ := hsigns sign hsign
  refine ⟨word, hin, hline ▸ hasWord_of_startsWithWord _ (head?_of_mem_nestingWords hin) ?_ hs⟩
  intro c hc
  rw [List.append_assoc, List.getLast?_append_of_ne_nil _ (by simp [hne])] at hc
  rcases List.mem_append.mp (List.mem_of_mem_getLast? hc) with hc | hc
  · exact Bool.eq_false_iff.mpr (List.any_eq_false.mp hsign c hc)
  · exact isWord_of_isBlank (hb c hc)

/-- A line with a `do` at its end has that word. -/
theorem hasWord_of_endsWithDo {line : Text} (h : endsWithDo line = true)
    : hasWord "do" none line = true := by
  obtain ⟨front, back, rfl, hat⟩ := exists_of_anywhere h
  rw [Bool.and_eq_true] at hat
  obtain ⟨hboundary, htail⟩ := hat
  obtain ⟨rest, hp, hrest⟩ := (Option.any_eq_true _ _).mp htail
  obtain rfl := List.isPrefixOf?_eq_some_iff_append_eq.mp hp
  refine anywhere_append ?_
  rw [hboundary, startsWithWord, afterWord?_append rest (by decide) (head?_of_isDoTail hrest)]
  rfl

/-- A plain line leaves the nesting as it is. -/
theorem nestingDelta_of_isPlain {line : Text} (h : IsPlain line) : nestingDelta line = 0 := by
  unfold nestingDelta
  split
  · rfl
  · next hcomment =>
      have hnone := h.resolve_left hcomment
      have habsent : ¬∃ word ∈ nestingWords, hasWord word none line = true := by
        rintro ⟨word, hin, hword⟩
        exact Bool.false_ne_true ((hnone word hin).symm.trans hword)
      have hstarts : startsBlock line = false :=
        Bool.eq_false_iff.mpr fun hs => habsent (exists_hasWord_of_startsBlock hs)
      have hassigns : assignsBlock line = false :=
        Bool.eq_false_iff.mpr fun hs => habsent (exists_hasWord_of_assignsBlock hs)
      have hdo : endsWithDo line = false :=
        Bool.eq_false_iff.mpr fun hs => habsent ⟨_, by decide, hasWord_of_endsWithDo hs⟩
      have hend : startsWithEnd line = false := Bool.eq_false_iff.mpr fun hs =>
        habsent ⟨"end", by decide, hasWord_of_startsWithWord [] (by decide) (by simp) hs⟩
      simp [hstarts, hassigns, hdo, hend]

-----------------------------------------------------------------------------------------
-- Lines that open a construct
-----------------------------------------------------------------------------------------

/-- A line that opens a construct: it starts with a word that opens one, it is a call with `do` and
perhaps parameters at its end, or it assigns what a word opens.
-/
inductive Opens : Text → Prop
  | word {word rest} (hw : word ∈ openingWords) (hr : ∀ c ∈ rest.head?, isWord c = false)
    : Opens (word ++ rest)
  | call {callee after parameters bars comment} (hc : callee.head? ≠ some '#')
    (hl : ∀ c ∈ callee.getLast?, isWord c = false) (ha : AreBlank after)
    (hp : WritesParameters parameters bars) (he : WritesComment comment) (hn : '\n' ∉ comment)
    : Opens (callee ++ (("do" : Text) ++ (after ++ (bars ++ comment))))
  | assignment {target blanks word rest} (ht : target.head? ≠ some '#') (hb : AreBlank blanks)
    (hw : word ∈ assignableWords) (hr : ∀ c ∈ rest.head?, isWord c = false)
    : Opens (target ++ '=' :: (blanks ++ (word ++ rest)))

/-- Whether a line counts for a word that opens a construct, at its start or behind a sign, and for
a `do` at its end as well.
-/
def countsTwice (line : Text) : Bool :=
  (startsBlock line || assignsBlock line) && endsWithDo line

/-- Whether an `end` in the line itself counts: at its start, or at its end, which can be the end of
a comment, in a line with a word that opens a construct.
-/
def isTakenBack (line : Text) : Bool :=
  startsWithEnd line || (startsBlock line || assignsBlock line) && endsWithEnd line

/-- A word that starts a line without going on there is found. -/
theorem startsWithWord_append {word rest : Text} (hw : word.getLast?.any isWord = true)
    (hr : ∀ c ∈ rest.head?, isWord c = false)
    : startsWithWord word (word ++ rest) = true := by
  rw [startsWithWord, afterWord?_append rest hw hr]
  rfl

/-- What a word opens is assigned behind an equals sign. -/
theorem assignsBlock_append {blanks word rest : Text} (target : Text) (hb : AreBlank blanks)
    (hw : word ∈ assignableWords) (hr : ∀ c ∈ rest.head?, isWord c = false)
    : assignsBlock (target ++ '=' :: (blanks ++ (word ++ rest))) = true := by
  have hletter : word.getLast?.any isWord = true := by
    have hall : ∀ word ∈ assignableWords, word.getLast?.any isWord = true := by decide
    exact hall word hw
  have hvalue : trimStart (blanks ++ (word ++ rest)) = word ++ rest := by
    have hhead := head?_of_mem_nestingWords (mem_nestingWords_of_assignable hw)
    rw [trimStart_blanks_append _ hb]
    cases word with
    | nil => cases hhead
    | cons c more =>
        refine trimStart_cons _ (Bool.eq_false_iff.mpr fun hblank => ?_)
        rw [List.head?_cons, Option.any_some, isWord_of_isBlank hblank] at hhead
        cases hhead
  refine anywhere_append (List.any_eq_true.mpr ⟨"=", by simp, ?_⟩)
  refine (Option.any_eq_true _ _).mpr ⟨blanks ++ (word ++ rest), rfl, ?_⟩
  refine List.any_eq_true.mpr ⟨word, hw, ?_⟩
  rw [hvalue]
  exact startsWithWord_append hletter hr

/-- A line that starts with a word that opens a construct counts for it. -/
theorem startsBlock_append {word rest : Text} (hw : word ∈ openingWords)
    (hr : ∀ c ∈ rest.head?, isWord c = false)
    : startsBlock (word ++ rest) = true := by
  have hall : ∀ word ∈ openingWords, word.getLast?.any isWord = true := by decide
  exact List.any_eq_true.mpr ⟨word, hw, startsWithWord_append (hall word hw) hr⟩

/-- A line that opens a construct is no comment, and it counts for a word that opens one or for a
`do` at its end.
-/
theorem Opens.counts {line : Text} (h : Opens line)
    : line.head? ≠ some '#'
      ∧ ((startsBlock line || assignsBlock line) || endsWithDo line) = true := by
  cases h with
  | @word word rest hw hr =>
      refine ⟨?_, by rw [startsBlock_append hw hr]; rfl⟩
      have hall : ∀ word ∈ openingWords, word.head?.any (· != '#') = true := by decide
      have hhead := hall word hw
      cases word with
      | nil => cases hhead
      | cons c more => simpa using hhead
  | @call callee after parameters bars comment hc hl ha hp he hn =>
      refine ⟨?_, by rw [endsWithDo_append hl (hp.isDoTail he ha hn), Bool.or_true]⟩
      cases callee with
      | nil => simp
      | cons c rest => exact hc
  | @assignment target blanks word rest ht hb hw hr =>
      refine ⟨?_, by rw [assignsBlock_append target hb hw hr, Bool.or_true, Bool.true_or]⟩
      cases target with
      | nil => simp
      | cons c more => exact ht

/-- A line that opens a construct leads one level deeper, and once more if it counts twice, unless
an `end` in it takes one level back.
-/
theorem nestingDelta_of_opens {line : Text} (h : Opens line)
    : nestingDelta line
      = 1 + (if countsTwice line then 1 else 0) - (if isTakenBack line then 1 else 0) := by
  obtain ⟨hcomment, hcounts⟩ := h.counts
  rw [nestingDelta, if_neg hcomment, countsTwice, isTakenBack]
  generalize (startsBlock line || assignsBlock line) = opens at hcounts ⊢
  cases opens with
  | false =>
      rw [Bool.false_or] at hcounts
      simp [hcounts]
  | true => simp

-----------------------------------------------------------------------------------------
-- Loops
-----------------------------------------------------------------------------------------

/-- The words that loops start with. -/
def loopWords : List Text :=
  ["while", "until", "for"]

/-- The header of a loop that is written with its `do`. -/
inductive IsDoLoop : Text → Prop
  | header {word condition after comment} (hw : word ∈ loopWords) (hne : condition ≠ [])
    (hc : IsApart condition) (ha : AreBlank after) (he : WritesComment comment)
    (hn : '\n' ∉ comment)
    : IsDoLoop (word ++ (condition ++ (("do" : Text) ++ (after ++ comment))))

/-- A loop that is written with its `do` opens one construct, but counts for its word and for the
`do`.
-/
theorem IsDoLoop.countsTwice {line : Text} (h : IsDoLoop line)
    : Opens line ∧ countsTwice line = true := by
  obtain @⟨word, condition, after, comment, hw, hne, hc, ha, he, hn⟩ := h
  have hopening : word ∈ openingWords := by
    have hall : ∀ word ∈ loopWords, word ∈ openingWords := by decide
    exact hall word hw
  have hrest : ∀ c ∈ (condition ++ (("do" : Text) ++ (after ++ comment))).head?,
      isWord c = false := by
    rw [List.head?_append_of_ne_nil _ hne]
    exact hc.1
  have hlast : ∀ c ∈ (word ++ condition).getLast?, isWord c = false := by
    rw [List.getLast?_append_of_ne_nil _ hne]
    exact hc.2
  have hdo := endsWithDo_append hlast (WritesParameters.absent.isDoTail he ha hn)
  rw [List.append_assoc, List.nil_append] at hdo
  refine ⟨.word hopening hrest, ?_⟩
  rw [Support.countsTwice, startsBlock_append hopening hrest, hdo]
  rfl

end SuiteScore.Support
