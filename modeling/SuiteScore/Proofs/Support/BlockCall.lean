import Mathlib.Tactic.IntervalCases
import SuiteScore.Proofs.Text.Occurrences
import SuiteScore.Support.Hook

/-! Calls of the block that a hook goes around. They are searched from the left, and a call that is
rejected for its neighbors can hide one behind it that it overlaps with. Only some names of blocks
allow for this, since the call of such a name begins again before it ends.
-/

namespace SuiteScore.Support

open Text

-----------------------------------------------------------------------------------------
-- Calls in lines
-----------------------------------------------------------------------------------------

/-- Beside a call stands nothing, or a character that is no letter, number or underscore. -/
def IsFree (neighbor : Option Char) : Prop :=
  ∀ c ∈ neighbor, isAlphanumeric c = false ∧ c ≠ '_'

/-- The call of what a name stands for. -/
def callOf (name : Text) : Text :=
  name ++ ".call"

/-- At a position of a line stands the call of a name and not of a longer one. -/
structure CallStandsAt (name line : Text) (i : Nat) : Prop where
  occurs : callOf name <+: line.drop i
  before : IsFree (line.take i).getLast?
  after : IsFree (line.drop (i + (callOf name).length)).head?

/-- A call can begin inside another call of the same name, and stand there by itself. -/
def HidesCalls (name : Text) : Prop :=
  ∃ k, 0 < k
    ∧ k < (callOf name).length
    ∧ (callOf name).drop k <+: callOf name
    ∧ IsFree ((callOf name).take k).getLast?

variable {name line : Text} {i : Nat}

theorem callOf_ne_nil (name : Text) : callOf name ≠ [] := by
  simp [callOf]

/-- A line is taken to call a name when a call that the search reaches stands by itself. -/
theorem callsIn_iff
    : Hook.callsIn name line = true
      ↔ ∃ i, CallStandsAt name line i ∧ IsReached (callOf name) 0 line i := by
  have hfree : ∀ neighbor : Option Char,
      (!neighbor.any fun c => isAlphanumeric c || c == '_') = true ↔ IsFree neighbor := by
    intro neighbor
    cases neighbor <;> simp [IsFree]
  unfold Hook.callsIn
  simp only [List.any_eq_true, Bool.and_eq_true, Prod.exists, hfree]
  constructor
  · intro h
    obtain ⟨before, after, hfound, hbefore, hafter⟩ := h
    obtain ⟨i, hreached, hplace⟩ := (mem_occurrences_iff (callOf_ne_nil name)).mp hfound
    cases hplace
    exact ⟨i, ⟨hreached.occurs, hbefore, hafter⟩, hreached⟩
  · intro h
    obtain ⟨i, hstands, hreached⟩ := h
    exact ⟨_, _, (mem_occurrences_iff (callOf_ne_nil name)).mpr ⟨i, hreached, rfl⟩,
      hstands.before, hstands.after⟩

/-- A call that stands by itself is reached, if no call can hide it: what is reached less than its
length before would be a call that it begins in.
-/
theorem CallStandsAt.isReached (h : CallStandsAt name line i) (hn : ¬HidesCalls name)
    : IsReached (callOf name) 0 line i := by
  rw [IsReached]
  refine ⟨Nat.zero_le i, h.occurs, ?_⟩
  intro j hji hij hj
  apply hn
  refine ⟨i - j, by omega, by omega, drop_prefix_of_overlap hj.occurs hji h.occurs, ?_⟩
  rw [← getLast?_take_of_overlap hj.occurs hji hij]
  exact h.before

/-- Some letter is not the first character of a text. -/
theorem exists_letter (text : Text) : ∃ c, isAlphanumeric c = true ∧ text.head? ≠ some c := by
  by_cases ha : text.head? = some 'a'
  · exact ⟨'b', by decide, by rw [ha]; decide⟩
  · exact ⟨'a', by decide, ha⟩

-----------------------------------------------------------------------------------------
-- Calls that are missed
-----------------------------------------------------------------------------------------

/-- A letter, and behind it a call that a second one begins in. -/
def overlappingCalls (letter : Char) (name : Text) (k : Nat) : Text :=
  letter :: ((callOf name).take k ++ callOf name)

section Overlapping

variable {letter : Char} {k : Nat}

/-- The second of two calls that overlap stands by itself. -/
theorem callStandsAt_overlappingCalls (hpos : 0 < k) (hlt : k < (callOf name).length)
    (hfree : IsFree ((callOf name).take k).getLast?)
    : CallStandsAt name (overlappingCalls letter name k) (k + 1) := by
  have hlength : ((callOf name).take k).length = k := List.length_take_of_le hlt.le
  constructor
  · rw [overlappingCalls, List.drop_succ_cons, List.drop_left' hlength]
  · rw [overlappingCalls, List.take_succ_cons, List.take_left' hlength,
      List.getLast?_cons_of_ne_nil]
    · exact hfree
    · exact List.ne_nil_of_length_pos (by omega)
  · have hend : (overlappingCalls letter name k).length = k + 1 + (callOf name).length := by
      rw [overlappingCalls, List.length_cons, List.length_append, hlength, Nat.add_right_comm]
    rw [List.drop_eq_nil_of_le hend.le]
    intro c hc
    cases hc

/-- No call begins at a letter that is not its first. -/
theorem not_isReached_zero_overlappingCalls (hhead : (callOf name).head? ≠ some letter)
    : ¬IsReached (callOf name) 0 (overlappingCalls letter name k) 0 := by
  intro hreached
  obtain ⟨after, ha⟩ := hreached.occurs
  rw [List.drop_zero, overlappingCalls] at ha
  cases hcall : callOf name with
  | nil => exact callOf_ne_nil name hcall
  | cons c rest =>
      rw [hcall] at ha hhead
      exact hhead (congrArg some (List.cons.inj ha).1)

/-- The first of two calls that overlap is reached. -/
theorem isReached_one_overlappingCalls (hagain : (callOf name).drop k <+: callOf name)
    (hhead : (callOf name).head? ≠ some letter)
    : IsReached (callOf name) 0 (overlappingCalls letter name k) 1 := by
  rw [IsReached]
  refine ⟨Nat.zero_le 1, ?_, ?_⟩
  · rw [overlappingCalls, List.drop_one, List.tail_cons]
    conv_lhs => rw [← List.take_append_drop k (callOf name)]
    exact (List.prefix_append_right_inj _).mpr hagain
  · intro j hj _
    rw [Nat.lt_one_iff.mp hj]
    exact not_isReached_zero_overlappingCalls hhead

/-- Of two calls that overlap only the first is reached: behind both is no room for another. -/
theorem eq_one_of_isReached_overlappingCalls (hlt : k < (callOf name).length)
    (hagain : (callOf name).drop k <+: callOf name) (hhead : (callOf name).head? ≠ some letter)
    (h : IsReached (callOf name) 0 (overlappingCalls letter name k) i)
    : i = 1 := by
  rcases Nat.lt_trichotomy i 1 with hi | hi | hi
  · rw [Nat.lt_one_iff.mp hi] at h
    exact absurd h (not_isReached_zero_overlappingCalls hhead)
  · exact hi
  · have hroom := h.occurs.length_le
    simp only [overlappingCalls, List.length_drop, List.length_cons, List.length_append,
      List.length_take_of_le hlt.le] at hroom
    rw [IsReached] at h
    exact absurd (isReached_one_overlappingCalls hagain hhead) (h.2.2 1 hi (by omega))

end Overlapping

/-- A name that can hide its calls does so in some line. Witness: two calls that overlap, behind a
letter for which the first is rejected.
-/
theorem HidesCalls.exists_line (h : HidesCalls name)
    : ∃ line i, CallStandsAt name line i ∧ Hook.callsIn name line = false := by
  obtain ⟨k, hpos, hlt, hagain, hfree⟩ := h
  obtain ⟨letter, hletter, hhead⟩ := exists_letter (callOf name)
  refine ⟨overlappingCalls letter name k, k + 1,
    callStandsAt_overlappingCalls hpos hlt hfree, ?_⟩
  rw [Bool.eq_false_iff]
  intro hcalls
  obtain ⟨i, hstands, hreached⟩ := callsIn_iff.mp hcalls
  obtain rfl := eq_one_of_isReached_overlappingCalls hlt hagain hhead hreached
  have hno := (hstands.before letter rfl).1
  rw [hletter] at hno
  cases hno

-----------------------------------------------------------------------------------------
-- Names that hide calls
-----------------------------------------------------------------------------------------

/-- What a call begins with is the beginning of its name, up to the first dot. -/
theorem isPrefix_of_dotless {front : Text} (h : front <+: callOf name) (hdot : '.' ∉ front)
    : front <+: name := by
  have hname : name <+: callOf name := List.prefix_append name _
  rcases Nat.le_total front.length name.length with hle | hle
  · exact List.prefix_of_prefix_length_le h hname hle
  · obtain ⟨after, rfl⟩ := List.prefix_of_prefix_length_le hname h hle
    have hrest : after <+: (".call" : Text) := (List.prefix_append_right_inj name).mp h
    cases after with
    | nil => rw [List.append_nil]
    | cons c rest =>
        have hc : c = '.' := (List.cons_prefix_cons.mp hrest).1
        exact absurd (List.mem_append_right name (hc ▸ List.mem_cons_self)) hdot

/-- A call is a name with a dot behind it and then the word for a call. -/
theorem callOf_eq (name : Text) : callOf name = (name ++ ".") ++ ("call" : Text) := by
  simp [callOf]

theorem length_append_dot (name : Text) : (name ++ ("." : Text)).length = name.length + 1 := by
  simp

/-- A call that begins in the word behind the dot begins with that word, if nothing stands beside
it: behind the first letter of the word stand letters.
-/
theorem call_isPrefix_of_word {m : Nat} (hlt : name.length + 1 + m < (callOf name).length)
    (hagain : (callOf name).drop (name.length + 1 + m) <+: callOf name)
    (hfree : IsFree ((callOf name).take (name.length + 1 + m)).getLast?)
    : ("call" : Text) <+: name := by
  have htake : (callOf name).take (name.length + 1 + m)
      = (name ++ ".") ++ ("call" : Text).take m := by
    rw [callOf_eq, ← length_append_dot, List.take_length_add_append]
  have hdrop : (callOf name).drop (name.length + 1 + m) = ("call" : Text).drop m := by
    rw [callOf_eq, ← length_append_dot, List.drop_length_add_append]
  have hm : m < 4 := by
    rw [callOf_eq, List.length_append, length_append_dot] at hlt
    exact Nat.lt_of_add_lt_add_left hlt
  rw [htake] at hfree
  rw [hdrop] at hagain
  interval_cases m
  · exact isPrefix_of_dotless hagain (by decide)
  · exact absurd (hfree 'c' (by simp)).1 (by decide)
  · exact absurd (hfree 'a' (by simp)).1 (by decide)
  · exact absurd (hfree 'l' (by simp)).1 (by decide)

/-- No call of a name without dots begins in the name behind its first character: its dot would
stand in the name.
-/
theorem not_isPrefix_of_name (hdot : '.' ∉ name) {k : Nat} (hpos : 0 < k) (hk : k ≤ name.length)
    : ¬(callOf name).drop k <+: callOf name := by
  intro hagain
  have hinside : name.drop k ++ ("." : Text) <+: callOf name := by
    refine List.IsPrefix.trans ?_ hagain
    rw [callOf, List.drop_append_of_le_length hk]
    exact (List.prefix_append_right_inj _).mpr ⟨"call", rfl⟩
  have hshort : (name.drop k ++ ("." : Text)).length ≤ name.length := by
    rw [List.length_append, List.length_drop]
    have hone : ("." : Text).length = 1 := rfl
    omega
  have hname := List.prefix_of_prefix_length_le hinside (List.prefix_append name _) hshort
  exact hdot (hname.subset (by simp))

/-- A name that begins with the word for a call hides calls: its call begins again behind the dot.
-/
theorem hidesCalls_of_call (h : ("call" : Text) <+: name) : HidesCalls name := by
  refine ⟨name.length + 1, by omega, ?_, ?_, ?_⟩
  · rw [callOf_eq, List.length_append, length_append_dot]
    simp
  · rw [callOf_eq, List.drop_left' (length_append_dot name), ← callOf_eq]
    exact h.trans (List.prefix_append name _)
  · rw [callOf_eq, List.take_left' (length_append_dot name)]
    intro c hc
    have hdot : c = '.' := by simpa using hc.symm
    rw [hdot]
    decide

/-- The call of a name without dots has its only dot behind the name, so that only the word behind
the dot can be the beginning of a call that nothing stands beside.
-/
theorem hidesCalls_iff (hdot : '.' ∉ name) : HidesCalls name ↔ ("call" : Text) <+: name := by
  constructor
  · intro h
    obtain ⟨k, hpos, hlt, hagain, hfree⟩ := h
    rcases Nat.lt_or_ge name.length k with hk | hk
    · obtain ⟨m, rfl⟩ := Nat.exists_eq_add_of_le hk
      exact call_isPrefix_of_word hlt hagain hfree
    · exact absurd hagain (not_isPrefix_of_name hdot hpos hk)
  · exact hidesCalls_of_call

-----------------------------------------------------------------------------------------
-- Calls in hooks
-----------------------------------------------------------------------------------------

/-- The code of a hook calls its second parameter. -/
def Hook.HasCall (hook : Hook) : Prop :=
  ∃ block, hook.parameters[1]? = some block
    ∧ ∃ line ∈ hook.code, ∃ i, CallStandsAt block line i

/-- When a hook is taken to call its block. It is when a call of the second parameter stands by
itself in a line of code and is reached there. For a name that hides no calls, this is to have a
call at all; for every other name there is code whose only call is missed. Names without dots hide
calls exactly if they begin with the word for a call.
-/
theorem callsBlock_of_hook (hook : Hook)
    : (hook.callsBlock = true
          ↔ ∃ block, hook.parameters[1]? = some block
            ∧ ∃ line ∈ hook.code, ∃ i,
                CallStandsAt block line i ∧ IsReached (callOf block) 0 line i)
      ∧ ((∀ block, hook.parameters[1]? = some block → ¬HidesCalls block) →
          (hook.callsBlock = true ↔ hook.HasCall))
      ∧ (∀ block, hook.parameters[1]? = some block → HidesCalls block →
          ∃ code, Hook.HasCall { hook with code }
            ∧ Hook.callsBlock { hook with code } = false)
      ∧ ∀ block : Text, '.' ∉ block → (HidesCalls block ↔ ("call" : Text) <+: block) := by
  have hreach : hook.callsBlock = true
      ↔ ∃ block, hook.parameters[1]? = some block
        ∧ ∃ line ∈ hook.code, ∃ i,
            CallStandsAt block line i ∧ IsReached (callOf block) 0 line i := by
    unfold Hook.callsBlock
    cases hook.parameters[1]? with
    | none => simp
    | some block => simp [callsIn_iff]
  refine ⟨hreach, ?_, ?_, fun block => hidesCalls_iff⟩
  · intro hnone
    rw [hreach, Hook.HasCall]
    constructor
    · intro h
      obtain ⟨block, hblock, line, hline, i, hstands, _⟩ := h
      exact ⟨block, hblock, line, hline, i, hstands⟩
    · intro h
      obtain ⟨block, hblock, line, hline, i, hstands⟩ := h
      exact ⟨block, hblock, line, hline, i, hstands, hstands.isReached (hnone block hblock)⟩
  · intro block hblock hhides
    obtain ⟨line, i, hstands, hmissed⟩ := hhides.exists_line
    refine ⟨[line], ⟨block, hblock, line, List.mem_singleton_self line, i, hstands⟩, ?_⟩
    simp [Hook.callsBlock, hblock, hmissed]

/-- The first line calls something with a longer name. -/
def lateCallHook : Hook where
  location := "hooks.rb:1"
  name := []
  tags := []
  type := .around
  parameters := ["scenario", "block"]
  code := ["myblock.call", "x = block.call(1)"]
  comments := []

/-- The name of the block hides no calls, and the call in the second line is found. -/
theorem callsBlock_of_lateCall
    : (∀ block, lateCallHook.parameters[1]? = some block → ¬HidesCalls block)
      ∧ lateCallHook.HasCall
      ∧ lateCallHook.callsBlock = true := by
  obtain ⟨_, hfound, _, hdotless⟩ := callsBlock_of_hook lateCallHook
  have hnone : ∀ block, lateCallHook.parameters[1]? = some block → ¬HidesCalls block := by
    intro block hblock
    cases hblock
    rw [hdotless "block" (by decide)]
    decide
  have hcall : lateCallHook.HasCall := by
    refine ⟨"block", rfl, "x = block.call(1)", by decide, 4, ⟨by decide, ?_, ?_⟩⟩
    · intro c hc
      cases hc
      decide
    · intro c hc
      cases hc
      decide
  exact ⟨hnone, hcall, (hfound hnone).mpr hcall⟩

/-- The first call of the code is rejected for the letter behind it, and hides the second. -/
def hiddenCallHook : Hook where
  location := "hooks.rb:1"
  name := []
  tags := []
  type := .around
  parameters := ["scenario", "callback"]
  code := ["callback.callback.call"]
  comments := []

/-- In a hook that is read from lines, a call can be missed that stands by itself. -/
theorem not_forall_calls_found
    : ¬∀ (location : Text) (lines : List Text) (hook : Hook),
        Hook.ofBlock location lines = .ok hook → (hook.callsBlock = true ↔ hook.HasCall) := by
  intro h
  have hread : Hook.ofBlock "hooks.rb:1"
      ["Around do |scenario, callback|", "  callback.callback.call", "end"]
        = .ok hiddenCallHook := by decide
  have hcall : hiddenCallHook.HasCall := by
    refine ⟨"callback", rfl, "callback.callback.call", by decide, 9, ⟨by decide, ?_, ?_⟩⟩
    · intro c hc
      cases hc
      decide
    · intro c hc
      cases hc
  exact absurd ((h _ _ _ hread).mpr hcall) (by decide)

end SuiteScore.Support
