import Mathlib.Data.List.Basic
import SuiteScore.Proofs.Support.Parts
import SuiteScore.Proofs.Text.Cut
import SuiteScore.Proofs.Text.Trim
import SuiteScore.Proofs.Text.Word
import SuiteScore.Support.Hook

/-! The grammar of hooks: the header as a sequence of parts with blanks between them, then the lines
of the body, then an `end`. A block is read as a hook exactly if it is written by the grammar.
-/

namespace SuiteScore.Support

open Text

/-- A step that is followed by another has a result that the other takes. -/
theorem bind_eq_ok_iff {first : Except ε α} {next : α → Except ε β} {result : β}
    : (first >>= next) = .ok result ↔ ∃ value, first = .ok value ∧ next value = .ok result := by
  cases first with
  | error _ => simp [bind, Except.bind]
  | ok value => simp [bind, Except.bind]

-----------------------------------------------------------------------------------------
-- Grammar of headers
-----------------------------------------------------------------------------------------

/-- Blanks, or nothing. -/
def AreBlank (text : Text) : Prop :=
  ∀ c ∈ text, isBlank c = true

instance (text : Text) : Decidable (AreBlank text) :=
  decidable_of_iff (text.all isBlank = true) List.all_eq_true

namespace HookHeader

/-- A tag between two single or two double quotes, which are not in the tag. -/
inductive WritesTag (tag : Text) : Text → Prop
  | quoted {quote : Char} (hq : quote = '\x27' ∨ quote = '\x22') (hn : quote ∉ tag)
    : WritesTag tag (quote :: (tag ++ [quote]))

/-- One tag or more, with commas between them. -/
inductive WritesTags : List Text → Text → Prop
  | one {tag written} (ht : WritesTag tag written) : WritesTags [tag] written
  | more {tag written before after tags others} (ht : WritesTag tag written)
    (hb : AreBlank before) (ha : AreBlank after) (ho : WritesTags tags others)
    : WritesTags (tag :: tags) (written ++ (before ++ ',' :: (after ++ others)))

/-- What stands between parentheses: no tags, or tags with or without a comma behind the last. -/
inductive WritesInside : List Text → Text → Prop
  | blanks {blanks} (hb : AreBlank blanks) : WritesInside [] blanks
  | tags {before tags written after} (hb : AreBlank before) (ht : WritesTags tags written)
    (ha : AreBlank after)
    : WritesInside tags (before ++ (written ++ after))
  | comma {before tags written after last} (hb : AreBlank before) (ht : WritesTags tags written)
    (ha : AreBlank after) (hl : AreBlank last)
    : WritesInside tags (before ++ (written ++ (after ++ ',' :: last)))

/-- Tags in parentheses with blanks behind them, or nothing. -/
inductive WritesTagList : List Text → Text → Prop
  | absent : WritesTagList [] []
  | present {tags inside after} (hi : WritesInside tags inside) (ha : AreBlank after)
    : WritesTagList tags ('(' :: (inside ++ ')' :: after))

/-- Parameters between bars with blanks behind them, or nothing. -/
inductive WritesParameters : List Text → Text → Prop
  | absent : WritesParameters [] []
  | present {names after} (hn : '|' ∉ names) (ha : AreBlank after)
    : WritesParameters (commaPieces names) ('|' :: (names ++ '|' :: after))

/-- A comment, or nothing. -/
inductive WritesComment : Text → Prop
  | absent : WritesComment []
  | present (comment : Text) : WritesComment ('#' :: comment)

/-- A header: the word for a type, which ends where no letter follows, perhaps tags, the word `do`,
and perhaps parameters and a comment.
-/
inductive Writes : HookHeader → Text → Prop
  | parts {word type rest before tags list after parameters bars comment}
    (hw : (word, type) ∈ HookType.words)
    (hi : ∀ c ∈ rest.head?, isIdentifier c = false)
    (hr : rest = before ++ (list ++ (("do" : Text) ++ (after ++ (bars ++ comment)))))
    (hb : AreBlank before) (hl : WritesTagList tags list) (ha : AreBlank after)
    (hp : WritesParameters parameters bars) (hc : WritesComment comment)
    : Writes ⟨type, tags, parameters⟩ (word ++ rest)

-----------------------------------------------------------------------------------------
-- Reading of tags
-----------------------------------------------------------------------------------------

variable {text line after rest : Text} {tags parameters : List Text} {tag : Text}

/-- A tag is read exactly if it stands at the start. -/
theorem readQuoted_eq_ok_iff
    : readQuoted text = .ok (tag, rest)
      ↔ ∃ written, WritesTag tag written ∧ text = written ++ rest := by
  constructor
  · intro h
    unfold readQuoted at h
    split at h
    · cases h
    · next quote _ =>
        split at h
        · next hq =>
            split at h
            · next hcut =>
                cases h
                obtain ⟨he, hn⟩ := cut?_eq_some_iff.mp hcut
                exact ⟨_, .quoted hq hn, by simp [he]⟩
            · cases h
        · cases h
  · rintro ⟨_, @⟨quote, hq, hn⟩, rfl⟩
    have hcut : cut? quote (tag ++ quote :: rest) = some (tag, rest) :=
      cut?_eq_some_iff.mpr ⟨rfl, hn⟩
    rw [List.cons_append, List.append_assoc, List.singleton_append, readQuoted, if_pos hq, hcut]

/-- A tag is read behind blanks, and no parenthesis is: it starts with a quote. -/
theorem WritesTag.read {written before : Text} (h : WritesTag tag written) (hb : AreBlank before)
    (rest : Text)
    : (∀ more, trimStart (before ++ (written ++ rest)) ≠ ')' :: more)
      ∧ readQuoted (trimStart (before ++ (written ++ rest))) = .ok (tag, rest) := by
  have hread : readQuoted (written ++ rest) = .ok (tag, rest) :=
    readQuoted_eq_ok_iff.mpr ⟨written, h, rfl⟩
  obtain @⟨quote, hq, _⟩ := h
  rw [List.cons_append] at hread
  rw [trimStart_blanks_append _ hb, List.cons_append]
  rcases hq with rfl | rfl
  · rw [trimStart_cons _ (by decide)]
    exact ⟨by simp, hread⟩
  · rw [trimStart_cons _ (by decide)]
    exact ⟨by simp, hread⟩

/-- Tags end where the parenthesis is closed. -/
theorem readTags_close (h : trimStart text = ')' :: rest) : readTags text = .ok ([], rest) := by
  rw [readTags]
  split
  · next more hm =>
      rw [hm] at h
      cases h
      rfl
  · next hnone => exact absurd h (hnone rest)

/-- The last tag is followed by the parenthesis. -/
theorem readTags_last (hne : ∀ more, trimStart text ≠ ')' :: more)
    (hq : readQuoted (trimStart text) = .ok (tag, after)) (ha : trimStart after = ')' :: rest)
    : readTags text = .ok ([tag], rest) := by
  rw [readTags]
  split
  · next hm => exact absurd hm (hne _)
  · split
    · next hm => cases hm.symm.trans hq
    · next hm =>
        cases hm.symm.trans hq
        split
        · next hm => cases hm.symm.trans ha
        · next hm =>
            cases hm.symm.trans ha
            rfl
        · next hnone => exact absurd ha (hnone _)

/-- A comma behind a tag leads to more tags. -/
theorem readTags_comma {more : Text} (hne : ∀ more, trimStart text ≠ ')' :: more)
    (hq : readQuoted (trimStart text) = .ok (tag, after)) (ha : trimStart after = ',' :: more)
    (hm : readTags more = .ok (tags, rest))
    : readTags text = .ok (tag :: tags, rest) := by
  rw [readTags]
  split
  · next ht => exact absurd ht (hne _)
  · split
    · next he => cases he.symm.trans hq
    · next he =>
        cases he.symm.trans hq
        split
        · next he =>
            cases he.symm.trans ha
            simp only [hm]
        · next he => cases he.symm.trans ha
        · next hnone _ => exact absurd ha (hnone _)

/-- Tags are read from what stands for them, by induction on the tags. What follows them closes the
parenthesis, or it is a comma and more that is read.
-/
theorem readTags_of_writesTags {written : Text} (h : WritesTags tags written) {before : Text}
    (hb : AreBlank before)
    (hrest
      : trimStart after = ')' :: rest
        ∨ ∃ more, trimStart after = ',' :: more ∧ readTags more = .ok ([], rest))
    : readTags (before ++ (written ++ after)) = .ok (tags, rest) := by
  induction h generalizing before with
  | one ht =>
      obtain ⟨hne, hq⟩ := ht.read hb after
      rcases hrest with hclose | ⟨more, hcomma, hmore⟩
      · exact readTags_last hne hq hclose
      · exact readTags_comma hne hq hcomma hmore
  | more ht hbefore hafter _ ih =>
      rw [List.append_assoc]
      obtain ⟨hne, hq⟩ := ht.read hb _
      refine readTags_comma hne hq ?_ (ih hafter)
      rw [List.append_assoc, trimStart_blanks_append _ hbefore, List.cons_append, List.append_assoc]
      exact trimStart_cons _ (by decide)

/-- What stands between parentheses is read to the closing one. -/
theorem readTags_of_writesInside {inside : Text} (h : WritesInside tags inside)
    : readTags (inside ++ ')' :: rest) = .ok (tags, rest) := by
  have hclose : ∀ {blanks}, AreBlank blanks → trimStart (blanks ++ ')' :: rest) = ')' :: rest :=
    fun hb => (trimStart_blanks_append _ hb).trans (trimStart_cons _ (by decide))
  cases h with
  | blanks hb => exact readTags_close (hclose hb)
  | tags hb ht ha =>
      rw [List.append_assoc, List.append_assoc]
      exact readTags_of_writesTags ht hb (Or.inl (hclose ha))
  | comma hb ht ha hl =>
      rw [List.append_assoc, List.append_assoc, List.append_assoc]
      refine readTags_of_writesTags ht hb (Or.inr ⟨_, ?_, readTags_close (hclose hl)⟩)
      rw [trimStart_blanks_append _ ha]
      exact trimStart_cons _ (by decide)

/-- A tag before a comma joins the tags behind it. -/
theorem WritesInside.cons {before written after inside : Text} (hb : AreBlank before)
    (ht : WritesTag tag written) (ha : AreBlank after) (h : WritesInside tags inside)
    : WritesInside (tag :: tags) (before ++ (written ++ (after ++ ',' :: inside))) := by
  cases h with
  | blanks hl => exact .comma hb (.one ht) ha hl
  | @tags before' _ written' after' hb' ht' ha' =>
      have h := WritesInside.tags hb (.more ht ha hb' ht') ha'
      simpa only [List.append_assoc, List.cons_append] using h
  | comma hb' ht' ha' hl =>
      have h := WritesInside.comma hb (.more ht ha hb' ht') ha' hl
      simpa only [List.append_assoc, List.cons_append] using h

/-- Tags that are read stand before a closing parenthesis, by the recursion of the reader. -/
theorem exists_of_readTags (h : readTags text = .ok (tags, rest))
    : ∃ inside, WritesInside tags inside ∧ text = inside ++ ')' :: rest := by
  fun_induction readTags text generalizing tags rest with
  | case1 text left ht =>
      cases h
      obtain ⟨blanks, he, hb⟩ := exists_eq_append_trimStart text
      rw [ht] at he
      exact ⟨blanks, .blanks hb, he⟩
  | case2 | case3 | case6 => cases h
  | case4 text tag afterTag more hm found left hr hnone hq _ ih =>
      cases h
      obtain ⟨before, hbefore, hb⟩ := exists_eq_append_trimStart text
      obtain ⟨after, hafter, ha⟩ := exists_eq_append_trimStart afterTag
      obtain ⟨written, ht, htag⟩ := readQuoted_eq_ok_iff.mp hq
      obtain ⟨inside, hi, hmore⟩ := ih hr
      refine ⟨_, .cons hb ht ha hi, ?_⟩
      rw [hbefore, htag, hafter, hm, hmore]
      simp
  | case5 text tag afterTag more hm hnone hq =>
      cases h
      obtain ⟨before, hbefore, hb⟩ := exists_eq_append_trimStart text
      obtain ⟨after, hafter, ha⟩ := exists_eq_append_trimStart afterTag
      obtain ⟨written, ht, htag⟩ := readQuoted_eq_ok_iff.mp hq
      refine ⟨_, .tags hb (.one ht) ha, ?_⟩
      rw [hbefore, htag, hafter, hm]
      simp

/-- Tags in parentheses are read from what stands for them, in front of what starts with neither a
blank nor a parenthesis.
-/
theorem readTagList_of_writes {before list : Text} (h : WritesTagList tags list)
    (hb : AreBlank before) (ha : trimStart after = after) (hne : ∀ more, after ≠ '(' :: more)
    : readTagList (before ++ (list ++ after)) = .ok (tags, after) := by
  unfold readTagList
  rw [trimStart_blanks_append _ hb]
  cases h with
  | absent =>
      rw [List.nil_append, ha]
      split
      · exact absurd rfl (hne _)
      · rfl
  | present hi hblank =>
      rw [List.cons_append, trimStart_cons _ (by decide), List.append_assoc, List.cons_append]
      simp only [readTags_of_writesInside hi, trimStart_blanks_append _ hblank, ha]

/-- What is read as tags in parentheses stands for them, with blanks before it. -/
theorem exists_of_readTagList (h : readTagList text = .ok (tags, after))
    : ∃ before list, AreBlank before ∧ WritesTagList tags list
        ∧ text = before ++ (list ++ after) := by
  obtain ⟨before, hbefore, hb⟩ := exists_eq_append_trimStart text
  unfold readTagList at h
  split at h
  · next opened ho =>
      split at h
      · cases h
      · next found tail hr =>
          cases h
          obtain ⟨inside, hi, hopened⟩ := exists_of_readTags hr
          obtain ⟨blanks, hblanks, ha⟩ := exists_eq_append_trimStart tail
          refine ⟨before, _, hb, .present hi ha, ?_⟩
          rw [hbefore, ho, hopened]
          conv => lhs; rw [hblanks]
          simp
  · cases h
    exact ⟨before, [], hb, .absent, hbefore⟩

-----------------------------------------------------------------------------------------
-- Reading of headers
-----------------------------------------------------------------------------------------

/-- The type is read from its word, which is as long as it can be. -/
theorem readType_eq_ok_iff {type : HookType}
    : readType line = .ok (type, after)
      ↔ ∃ word, (word, type) ∈ HookType.words ∧ line = word ++ after
        ∧ ∀ c ∈ after.head?, isIdentifier c = false := by
  constructor
  · intro h
    simp only [readType] at h
    split at h
    · next key found hfound =>
        cases h
        have hword : key = line.takeWhile isIdentifier := by
          simpa using List.find?_some hfound
        refine ⟨line.takeWhile isIdentifier, hword ▸ List.mem_of_find?_eq_some hfound,
          List.takeWhile_append_dropWhile.symm, fun c hc => ?_⟩
        have hdropped := List.head?_dropWhile_not isIdentifier line
        rw [hc] at hdropped
        simpa using hdropped
    · cases h
  · rintro ⟨word, hw, rfl, hi⟩
    have hwords : ∀ entry ∈ HookType.words,
        entry.1.all isIdentifier = true
        ∧ HookType.words.find? (fun other => other.1 = entry.1) = some entry := by
      decide
    obtain ⟨hletters, hfind⟩ := hwords _ hw
    have hend : after.takeWhile isIdentifier = [] ∧ after.dropWhile isIdentifier = after := by
      cases after with
      | nil => exact ⟨rfl, rfl⟩
      | cons c rest => simp [hi c rfl]
    have htake : (word ++ after).takeWhile isIdentifier = word := by
      rw [List.takeWhile_append_of_pos (List.all_eq_true.mp hletters), hend.1, List.append_nil]
    have hdrop : (word ++ after).dropWhile isIdentifier = after := by
      rw [List.dropWhile_append_of_pos (List.all_eq_true.mp hletters), hend.2]
    simp only [readType, htake, hdrop, hfind]

/-- No blank is a letter of an identifier, by trying all blanks. -/
theorem isIdentifier_of_isBlank {c : Char} (h : isBlank c = true) : isIdentifier c = false := by
  have hall : ∀ n ∈ blankCodes, isIdentifier (Char.ofNat n) = false := by decide
  exact of_isBlank (p := fun c => isIdentifier c = false) hall h

theorem not_any_head?_iff
    : ¬text.head?.any isIdentifier = true ↔ ∀ c ∈ text.head?, isIdentifier c = false := by
  cases text <;> simp

/-- The word `do` is read where no letter follows it. -/
theorem readDo_eq_ok_iff
    : readDo text = .ok after
      ↔ ∃ rest, text = ("do" : Text) ++ rest ∧ (∀ c ∈ rest.head?, isIdentifier c = false)
        ∧ after = trimStart rest := by
  unfold readDo
  constructor
  · intro h
    split at h
    · next rest hp =>
        split at h
        · cases h
        · next hi =>
            cases h
            exact ⟨rest, (List.isPrefixOf?_eq_some_iff_append_eq.mp hp).symm,
              not_any_head?_iff.mp hi, rfl⟩
    · cases h
  · rintro ⟨rest, rfl, hi, rfl⟩
    have hp : ("do" : Text).isPrefixOf? (("do" : Text) ++ rest) = some rest :=
      List.isPrefixOf?_eq_some_iff_append_eq.mpr rfl
    simp only [hp, if_neg (not_any_head?_iff.mpr hi)]

/-- Nothing but a comment is read as the end of a header. -/
theorem readEnd_eq_ok_iff : readEnd text = .ok () ↔ WritesComment text := by
  constructor
  · intro h
    unfold readEnd at h
    split at h
    · exact .absent
    · exact .present _
    · cases h
  · rintro (_ | _) <;> rfl

/-- Parameters are read from what stands for them, in front of a comment. -/
theorem readParameters_of_writes {bars comment : Text} (h : WritesParameters parameters bars)
    (hc : WritesComment comment)
    : readParameters (bars ++ comment) = .ok (parameters, comment) := by
  have htrim : trimStart comment = comment := by
    cases hc with
    | absent => rfl
    | present more => exact trimStart_cons more (by decide)
  cases h with
  | absent =>
      cases hc with
      | absent => rfl
      | present _ => rfl
  | @present names after hn ha =>
      have hcut : cut? '|' (names ++ '|' :: (after ++ comment)) = some (names, after ++ comment) :=
        cut?_eq_some_iff.mpr ⟨rfl, hn⟩
      rw [List.cons_append, List.append_assoc, List.cons_append, readParameters, hcut]
      simp only [trimStart_blanks_append _ ha, htrim]

/-- What is read as parameters stands for them. -/
theorem exists_of_readParameters (h : readParameters text = .ok (parameters, after))
    : ∃ bars, WritesParameters parameters bars ∧ text = bars ++ after := by
  unfold readParameters at h
  split at h
  · split at h
    · next names tail hcut =>
        cases h
        obtain ⟨rfl, hn⟩ := cut?_eq_some_iff.mp hcut
        obtain ⟨blanks, hblanks, hb⟩ := exists_eq_append_trimStart tail
        refine ⟨_, .present hn hb, ?_⟩
        conv => lhs; rw [hblanks]
        simp
    · cases h
  · cases h
    exact ⟨[], .absent, rfl⟩

/-- What stands behind the `do` of a header starts with neither a blank nor a letter. -/
theorem WritesParameters.facts {bars comment : Text} (h : WritesParameters parameters bars)
    (hc : WritesComment comment)
    : trimStart (bars ++ comment) = bars ++ comment
      ∧ ∀ c ∈ (bars ++ comment).head?, isIdentifier c = false := by
  cases h with
  | absent =>
      cases hc with
      | absent => exact ⟨rfl, by simp⟩
      | present more => exact ⟨trimStart_cons _ (by decide), by rintro c ⟨⟩; rfl⟩
  | present => exact ⟨trimStart_cons _ (by decide), by rintro c ⟨⟩; rfl⟩

/-- A line is read as a header exactly if it is written as one. -/
theorem ofLine_eq_ok_iff {header : HookHeader} : ofLine line = .ok header ↔ Writes header line := by
  constructor
  · intro h
    unfold ofLine at h
    obtain ⟨⟨type, afterType⟩, htype, h⟩ := bind_eq_ok_iff.mp h
    obtain ⟨⟨tags, afterTags⟩, htags, h⟩ := bind_eq_ok_iff.mp h
    obtain ⟨afterDo, hdo, h⟩ := bind_eq_ok_iff.mp h
    obtain ⟨⟨parameters, left⟩, hparameters, h⟩ := bind_eq_ok_iff.mp h
    obtain ⟨_, hend, h⟩ := bind_eq_ok_iff.mp h
    cases h
    obtain ⟨word, hw, rfl, hi⟩ := readType_eq_ok_iff.mp htype
    obtain ⟨before, list, hb, hl, rfl⟩ := exists_of_readTagList htags
    obtain ⟨rest, rfl, _, rfl⟩ := readDo_eq_ok_iff.mp hdo
    obtain ⟨after, hafter, ha⟩ := exists_eq_append_trimStart rest
    obtain ⟨bars, hp, hbars⟩ := exists_of_readParameters hparameters
    refine .parts hw hi ?_ hb hl ha hp (readEnd_eq_ok_iff.mp hend)
    rw [← hbars, ← hafter]
  · rintro @⟨word, type, rest, before, tags, list, after, parameters, bars, comment, hw, hi, rfl,
      hb, hl, ha, hp, hc⟩
    obtain ⟨htrim, hstop⟩ := hp.facts hc
    have htail : trimStart (after ++ (bars ++ comment)) = bars ++ comment := by
      rw [trimStart_blanks_append _ ha, htrim]
    have hletter : ∀ c ∈ (after ++ (bars ++ comment)).head?, isIdentifier c = false := by
      intro c hc
      cases after with
      | nil => exact hstop c hc
      | cons _ more =>
          cases hc
          exact isIdentifier_of_isBlank (ha c List.mem_cons_self)
    have hdo : readDo (("do" : Text) ++ (after ++ (bars ++ comment))) = .ok (bars ++ comment) :=
      readDo_eq_ok_iff.mpr ⟨_, rfl, hletter, htail.symm⟩
    have hlist : readTagList (before ++ (list ++ (("do" : Text) ++ (after ++ (bars ++ comment)))))
        = .ok (tags, ("do" : Text) ++ (after ++ (bars ++ comment))) :=
      readTagList_of_writes hl hb (trimStart_cons _ (by decide)) (by simp)
    have htype := readType_eq_ok_iff.mpr ⟨word, hw, rfl, hi⟩
    exact bind_eq_ok_iff.mpr ⟨_, htype, bind_eq_ok_iff.mpr ⟨_, hlist, bind_eq_ok_iff.mpr ⟨_, hdo,
      bind_eq_ok_iff.mpr ⟨_, readParameters_of_writes hp hc, bind_eq_ok_iff.mpr
        ⟨(), readEnd_eq_ok_iff.mpr hc, rfl⟩⟩⟩⟩⟩

end HookHeader

-----------------------------------------------------------------------------------------
-- Hooks
-----------------------------------------------------------------------------------------

namespace Hook

variable {lines : List Text}

/-- The lines of a block are written as a hook: a header, a body, and an `end`. The hook has what
the header says, and every line of the body, comments apart from code.
-/
def IsWritten (location : Text) (lines : List Text) (hook : Hook) : Prop :=
  ∃ header first middle last,
    contentLines lines = first :: (middle ++ [last]) ∧ HookHeader.Writes header first ∧ IsEnd last
    ∧ hook = {
        location
        name := []
        tags := header.tags
        type := header.type
        parameters := header.parameters
        code := codeOf middle
        comments := commentsOf middle }

/-- The parts of a hook are those of a block whose first line is written as a header. -/
theorem partsOf_eq_ok_iff {header : HookHeader} {parts : BlockParts}
    : partsOf lines = .ok (header, parts)
      ↔ BlockParts.ofLines lines = .ok parts ∧ HookHeader.Writes header parts.header := by
  rw [← HookHeader.ofLine_eq_ok_iff]
  constructor
  · intro h
    unfold partsOf at h
    split at h
    · cases h
    · next found hparts =>
        cases hf : HookHeader.ofLine found.header with
        | error fault => simp [hf, Except.map] at h
        | ok other =>
            simp only [hf, Except.map, Except.ok.injEq, Prod.mk.injEq] at h
            obtain ⟨rfl, rfl⟩ := h
            exact ⟨hparts, hf⟩
  · rintro ⟨hparts, hheader⟩
    rw [partsOf, hparts]
    simp only [hheader, Except.map]

/-- A block is read as a hook exactly if it is written as that hook. All errors carry the location.
-/
theorem ofBlock_eq_ok_iff_isWritten (location : Text) (lines : List Text)
    : (∀ hook, ofBlock location lines = .ok hook ↔ hook.IsWritten location lines)
      ∧ ∀ error, ofBlock location lines = .error error → ∃ fault, error = .hook location fault := by
  constructor
  · intro hook
    constructor
    · intro h
      unfold ofBlock at h
      split at h
      · cases h
      · next header parts hp =>
          cases h
          obtain ⟨hparts, hwritten⟩ := partsOf_eq_ok_iff.mp hp
          obtain ⟨middle, last, hl, hend, hbody⟩ := BlockParts.ofLines_eq_ok_iff.mp hparts
          obtain ⟨hcomments, hcode⟩ := BlockParts.split_eq hbody
          exact ⟨header, parts.header, middle, last, hl, hwritten, hend, by
            rw [ofParts, hcomments, hcode]⟩
    · rintro ⟨header, first, middle, last, hl, hwritten, hend, rfl⟩
      have hparts : BlockParts.ofLines lines = .ok ⟨first, middle.map BodyLine.of⟩ :=
        BlockParts.ofLines_eq_ok_iff.mpr ⟨middle, last, hl, hend, rfl⟩
      obtain ⟨hcomments, hcode⟩ : _ ∧ _ :=
        @BlockParts.split_eq middle ⟨first, middle.map BodyLine.of⟩ rfl
      rw [ofBlock, partsOf_eq_ok_iff.mpr ⟨hparts, hwritten⟩]
      simp only [ofParts, hcomments, hcode]
  · intro error h
    unfold ofBlock at h
    split at h
    · cases h
      exact ⟨_, rfl⟩
    · cases h

end Hook

end SuiteScore.Support
