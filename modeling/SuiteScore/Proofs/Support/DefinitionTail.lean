import SuiteScore.Proofs.Support.HookHeader
import SuiteScore.Support.StepDefinition

/-! What stands behind the pattern of a step definition: perhaps flags, perhaps a parenthesis, the
word `do`, and perhaps parameters and a comment.
-/

namespace SuiteScore.Support

open Text HookHeader

-----------------------------------------------------------------------------------------
-- Parentheses
-----------------------------------------------------------------------------------------

/-- Blanks, with or without a parenthesis among them. -/
inductive WritesParenthesis (sign : Char) : Text → Prop
  | absent {blanks} (hb : AreBlank blanks) : WritesParenthesis sign blanks
  | present {before after} (hb : AreBlank before) (ha : AreBlank after)
    : WritesParenthesis sign (before ++ sign :: after)

/-- What is skipped before a text is a parenthesis, or blanks alone. -/
theorem exists_of_skipParenthesis (sign : Char) (text : Text)
    : ∃ gap, WritesParenthesis sign gap ∧ text = gap ++ skipParenthesis sign text := by
  obtain ⟨before, hbefore, hb⟩ := exists_eq_append_trimStart text
  unfold skipParenthesis
  split
  · next hnil => exact ⟨before, .absent hb, by rw [hnil] at hbefore; exact hbefore⟩
  · next c rest hcons =>
      rw [hcons] at hbefore
      split
      · next hc =>
          obtain ⟨after, hafter, ha⟩ := exists_eq_append_trimStart rest
          refine ⟨before ++ sign :: after, .present hb ha, ?_⟩
          rw [hbefore, hc]
          conv => lhs; rw [hafter]
          simp
      · exact ⟨before, .absent hb, hbefore⟩

/-- A parenthesis and the blanks around it are skipped up to what is neither of them. -/
theorem skipParenthesis_append {sign c : Char} {gap : Text} (h : WritesParenthesis sign gap)
    (hs : isBlank sign = false) (hb : isBlank c = false) (hc : c ≠ sign) (rest : Text)
    : skipParenthesis sign (gap ++ c :: rest) = c :: rest := by
  cases h with
  | absent hblanks =>
      rw [skipParenthesis, trimStart_blanks_append _ hblanks, trimStart_cons rest hb]
      simp only [if_neg hc]
  | @present before after hbefore hafter =>
      rw [List.append_assoc, List.cons_append, skipParenthesis, trimStart_blanks_append _ hbefore,
        trimStart_cons _ hs]
      simp only [if_true]
      rw [trimStart_blanks_append _ hafter, trimStart_cons rest hb]

-----------------------------------------------------------------------------------------
-- Tails of headers
-----------------------------------------------------------------------------------------

/-- What can follow a pattern: perhaps a parenthesis, `do`, and perhaps parameters and a comment. -/
inductive WritesTail : List Text → Text → Prop
  | parts {closing after parameters bars comment} (hc : WritesParenthesis ')' closing)
    (ha : AreBlank after) (hp : WritesParameters parameters bars) (he : WritesComment comment)
    (hn : '\n' ∉ comment)
    : WritesTail parameters (closing ++ (("do" : Text) ++ (after ++ (bars ++ comment))))

/-- Nothing is left of a header but perhaps a comment in the same line. -/
theorem isCommentOrEnd_iff {text : Text}
    : isCommentOrEnd text = true ↔ WritesComment text ∧ '\n' ∉ text := by
  refine ⟨fun h => ?_, fun ⟨hc, hn⟩ => hc.isCommentOrEnd hn⟩
  unfold isCommentOrEnd at h
  split at h
  · exact ⟨.absent, by simp⟩
  · next comment =>
      refine ⟨.present comment, ?_⟩
      simpa using h
  · cases h

/-- The parameters of a step definition are read as those of a hook are, and nothing but a comment
follows them.
-/
theorem readTail_eq_some_iff_readParameters {text : Text} {parameters : List Text}
    : DefinitionHeader.readTail text = some parameters
      ↔ ∃ rest comment, ("do" : Text).isPrefixOf? (skipParenthesis ')' text) = some rest
          ∧ readParameters (trimStart rest) = .ok (parameters, comment)
          ∧ isCommentOrEnd comment = true := by
  constructor
  · intro h
    unfold DefinitionHeader.readTail at h
    split at h
    · cases h
    · next rest hp =>
        split at h
        · next names hnames =>
            obtain ⟨⟨inside, tail⟩, hcut, h⟩ := Option.bind_eq_some_iff.mp h
            obtain ⟨hend, h⟩ := Option.ite_none_right_eq_some.mp h
            cases h
            exact ⟨rest, trimStart tail, hp, by rw [hnames, readParameters, hcut], hend⟩
        · next hbar =>
            obtain ⟨hend, h⟩ := Option.ite_none_right_eq_some.mp h
            cases h
            refine ⟨rest, trimStart rest, hp, ?_, hend⟩
            unfold readParameters
            split
            · next hnames => exact absurd hnames (hbar _)
            · rfl
  · rintro ⟨rest, comment, hp, hparameters, hend⟩
    unfold readParameters at hparameters
    rw [DefinitionHeader.readTail, hp]
    split at hparameters
    · next names hnames =>
        split at hparameters
        · next inside tail hcut =>
            cases hparameters
            simp only [hnames, hcut, Option.bind_some, hend, if_true]
        · cases hparameters
    · cases hparameters
      simp only [hend, if_true]

/-- A text is read as what follows a pattern exactly if it is written so. -/
theorem readTail_eq_some_iff {text : Text} {parameters : List Text}
    : DefinitionHeader.readTail text = some parameters ↔ WritesTail parameters text := by
  rw [readTail_eq_some_iff_readParameters]
  constructor
  · rintro ⟨rest, comment, hp, hparameters, hend⟩
    obtain ⟨closing, hclosing, htext⟩ := exists_of_skipParenthesis ')' text
    obtain ⟨after, hafter, ha⟩ := exists_eq_append_trimStart rest
    obtain ⟨bars, hbars, hrest⟩ := exists_of_readParameters hparameters
    obtain ⟨hcomment, hn⟩ := isCommentOrEnd_iff.mp hend
    rw [htext, ← List.isPrefixOf?_eq_some_iff_append_eq.mp hp, hafter, hrest]
    exact .parts hclosing ha hbars hcomment hn
  · rintro @⟨closing, after, parameters, bars, comment, hclosing, ha, hp, he, hn⟩
    have hskip : skipParenthesis ')' (closing ++ (("do" : Text) ++ (after ++ (bars ++ comment))))
        = ("do" : Text) ++ (after ++ (bars ++ comment)) :=
      skipParenthesis_append hclosing (by decide) (by decide) (by decide) _
    refine ⟨after ++ (bars ++ comment), comment, ?_, ?_, he.isCommentOrEnd hn⟩
    · rw [hskip]
      exact List.isPrefixOf?_eq_some_iff_append_eq.mpr rfl
    · rw [trimStart_blanks_append _ ha, (hp.facts he).1]
      exact readParameters_of_writes hp he

-----------------------------------------------------------------------------------------
-- Flags
-----------------------------------------------------------------------------------------

/-- Small letters of ASCII, or nothing. -/
def AreFlags (text : Text) : Prop :=
  ∀ c ∈ text, ('a' ≤ c && c ≤ 'z') = true

instance (text : Text) : Decidable (AreFlags text) :=
  decidable_of_iff ((text.all fun c => 'a' ≤ c && c ≤ 'z') = true) List.all_eq_true

/-- The ways to read flags are the ways to split a text behind small letters. -/
theorem mem_flagSplits {text flags rest : Text}
    : (flags, rest) ∈ DefinitionHeader.flagSplits text ↔ text = flags ++ rest ∧ AreFlags flags := by
  have hletters : AreFlags (text.takeWhile fun c => 'a' ≤ c && c ≤ 'z') :=
    fun c hc => List.all_eq_true.mp List.all_takeWhile c hc
  simp only [DefinitionHeader.flagSplits, List.mem_reverse, List.mem_map, List.mem_range,
    Prod.mk.injEq]
  constructor
  · rintro ⟨n, hn, rfl, rfl⟩
    refine ⟨(List.take_append_drop n text).symm, fun c hc => hletters c ?_⟩
    rw [← List.takeWhile_append_dropWhile (p := fun c => 'a' ≤ c && c ≤ 'z') (l := text),
      List.take_append_of_le_length (Nat.lt_succ_iff.mp hn)] at hc
    exact List.mem_of_mem_take hc
  · rintro ⟨rfl, hf⟩
    refine ⟨flags.length, ?_, List.take_left, List.drop_left⟩
    rw [List.takeWhile_append_of_pos hf, List.length_append]
    omega

/-- What follows a pattern starts with a parenthesis or with `do`, blanks aside. -/
theorem WritesTail.exists_head {text : Text} {parameters : List Text}
    (h : WritesTail parameters text)
    : ∃ blanks c rest, text = blanks ++ c :: rest ∧ AreBlank blanks ∧ (c = ')' ∨ c = 'd') := by
  obtain @⟨closing, after, parameters, bars, comment, hclosing, _, _, _, _⟩ := h
  cases hclosing with
  | absent hb => exact ⟨closing, 'd', _, rfl, hb, Or.inr rfl⟩
  | @present before after hb _ =>
      exact ⟨before, ')', _, by rw [List.append_assoc]; rfl, hb, Or.inl rfl⟩

/-- No blank is a small letter, by trying all blanks. -/
theorem not_flag_of_isBlank {c : Char} (h : isBlank c = true)
    : ('a' ≤ c && c ≤ 'z') = false := by
  have hall : ∀ n ∈ blankCodes, ('a' ≤ Char.ofNat n && Char.ofNat n ≤ 'z') = false := by decide
  exact of_isBlank (p := fun c => ('a' ≤ c && c ≤ 'z') = false) hall h

/-- Parameters and a comment start with a bar or with a comment sign, if there are any. -/
theorem head?_of_writesParameters {parameters : List Text} {bars comment : Text}
    (hp : WritesParameters parameters bars) (he : WritesComment comment)
    : ∀ c ∈ (bars ++ comment).head?, c = '|' ∨ c = '#' := by
  intro c hc
  cases hp with
  | present =>
      cases hc
      exact Or.inl rfl
  | absent =>
      cases he with
      | absent => cases hc
      | present =>
          cases hc
          exact Or.inr rfl

/-- A tail that starts with a small letter starts with `do`, and behind that there is neither a
small letter nor another tail.
-/
theorem WritesTail.exists_of_flag {c : Char} {rest : Text} {parameters : List Text}
    (h : WritesTail parameters (c :: rest)) (hc : ('a' ≤ c && c ≤ 'z') = true)
    : c = 'd' ∧ ∃ back, rest = 'o' :: back ∧ (∀ d ∈ back.head?, ('a' ≤ d && d ≤ 'z') = false)
        ∧ ∀ others, ¬WritesTail others back := by
  generalize htext : c :: rest = text at h
  obtain @⟨closing, after, parameters, bars, comment, hclosing, ha, hp, he, _⟩ := h
  have hnil : closing = [] := by
    cases hclosing with
    | absent hb =>
        cases closing with
        | nil => rfl
        | cons d more =>
            cases htext
            exact absurd hc (Bool.eq_false_iff.mp (not_flag_of_isBlank (hb c List.mem_cons_self)))
    | @present before _ hb _ =>
        cases before with
        | nil =>
            cases htext
            cases hc
        | cons d more =>
            cases htext
            exact absurd hc (Bool.eq_false_iff.mp (not_flag_of_isBlank (hb c List.mem_cons_self)))
  subst hnil
  obtain ⟨rfl, rfl⟩ : c = 'd' ∧ rest = 'o' :: (after ++ (bars ++ comment)) :=
    List.cons_eq_cons.mp htext
  have hhead := head?_of_writesParameters hp he
  refine ⟨rfl, _, rfl, fun d hd => ?_, fun others hother => ?_⟩
  · cases after with
    | nil => rcases hhead d hd with rfl | rfl <;> rfl
    | cons e more =>
        cases hd
        exact not_flag_of_isBlank (ha d List.mem_cons_self)
  · obtain ⟨blanks, d, rest, hback, hb, hd⟩ := hother.exists_head
    have htrim := congrArg trimStart hback
    have hblank : isBlank d = false := by rcases hd with rfl | rfl <;> decide
    rw [trimStart_blanks_append _ ha, (hp.facts he).1, trimStart_blanks_append _ hb,
      trimStart_cons rest hblank] at htrim
    rw [htrim] at hhead
    rcases hd with rfl | rfl <;> simp at hhead

/-- No small letters can stand between the flags of a pattern and its tail. -/
theorem WritesTail.eq_nil_of_flags {letters tail : Text} {parameters others : List Text}
    (h : WritesTail parameters (letters ++ tail)) (hf : AreFlags letters)
    (ht : WritesTail others tail)
    : letters = [] := by
  cases letters with
  | nil => rfl
  | cons c more =>
      obtain ⟨rfl, back, hrest, hback, hnone⟩ := h.exists_of_flag (hf c List.mem_cons_self)
      cases more with
      | nil =>
          have htail : tail = 'o' :: back := hrest
          rw [htail] at ht
          exact absurd (ht.exists_of_flag rfl).1 (by decide)
      | cons d more =>
          obtain ⟨rfl, hmore⟩ : d = 'o' ∧ more ++ tail = back := List.cons_eq_cons.mp hrest
          cases more with
          | nil =>
              have htail : tail = back := hmore
              exact absurd (htail ▸ ht) (hnone others)
          | cons e more =>
              have hflag := hf e (by simp)
              rw [hback e (by rw [← hmore]; rfl)] at hflag
              cases hflag

/-- A text is split into flags and a tail in one way only. -/
theorem WritesTail.flags_unique {flags letters tail rest : Text} {parameters others : List Text}
    (he : flags ++ tail = letters ++ rest) (hf : AreFlags flags) (hl : AreFlags letters)
    (ht : WritesTail parameters tail) (hr : WritesTail others rest)
    : flags = letters ∧ tail = rest := by
  rcases List.append_eq_append_iff.mp he with ⟨more, rfl, rfl⟩ | ⟨more, rfl, rfl⟩
  · have hnil := ht.eq_nil_of_flags (fun c hc => hl c (List.mem_append_right _ hc)) hr
    simp [hnil]
  · have hnil := hr.eq_nil_of_flags (fun c hc => hf c (List.mem_append_right _ hc)) ht
    simp [hnil]

end SuiteScore.Support
