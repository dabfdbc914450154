import SuiteScore.Proofs.Support.Locality
import SuiteScore.Proofs.Support.Nesting

/-! Blocks with well-nested lines between header and end. Such a block ends at its own `end` as far
as every line that opens a construct leads exactly one level deeper.
-/

namespace SuiteScore.Support

open Text

-----------------------------------------------------------------------------------------
-- Well-nested lines
-----------------------------------------------------------------------------------------

/-- Lines are well nested, and these of them, without the blanks around them, open constructs: they
are plain lines and constructs, which go from a line that opens one over well-nested lines to an
`end`.
-/
inductive Nests : List Text → List Text → Prop
  | nil : Nests [] []
  | plain {openers lines raw} (hp : IsPlain (trim raw)) (hrest : Nests openers lines)
    : Nests openers (raw :: lines)
  | construct {inner inside openers lines opener closer} (ho : Opens (trim opener))
    (hinside : Nests inner inside) (hc : trim closer = "end") (hrest : Nests openers lines)
    : Nests (trim opener :: (inner ++ openers)) (opener :: (inside ++ closer :: lines))

namespace Nests

variable {openers lines : List Text}

/-- Well-nested lines lead deeper by one for every opener that counts twice, and back by one for
every opener that has an `end` of its own, by induction on the nesting.
-/
theorem depthOf_eq (h : Nests openers lines)
    : depthOf lines = (openers.countP countsTwice : Int) - openers.countP isTakenBack := by
  induction h with
  | nil => rfl
  | plain hp _ ih => rw [depthOf_cons, nestingDelta_of_isPlain hp, ih, Int.zero_add]
  | @construct inner inside openers lines opener closer ho _ hc _ ihinside ihrest =>
      rw [depthOf_cons, depthOf_append, depthOf_cons, nestingDelta_of_opens ho, hc,
        nestingDelta_end, ihinside, ihrest]
      simp only [List.countP_cons, List.countP_append]
      by_cases htwice : countsTwice (trim opener) = true <;>
        by_cases hback : isTakenBack (trim opener) = true <;>
        simp [htwice, hback] <;> omega

/-- Well-nested lines never lead out of where they begin if no opener has an `end` of its own, by
induction on the nesting.
-/
theorem depthOf_prefix (h : Nests openers lines)
    (hback : ∀ opener ∈ openers, isTakenBack opener = false)
    : ∀ part, part <+: lines → 0 ≤ depthOf part := by
  induction h with
  | nil =>
      intro part hpart
      rw [List.prefix_nil.mp hpart]
      rfl
  | plain hp _ ih =>
      intro part hpart
      rcases List.prefix_cons_iff.mp hpart with rfl | ⟨rest, rfl, hrest⟩
      · rfl
      · rw [depthOf_cons, nestingDelta_of_isPlain hp, Int.zero_add]
        exact ih hback rest hrest
  | @construct inner inside openers lines opener closer ho hinside hc _ ihinside ihrest =>
      have hinner := fun other hin =>
        hback other (List.mem_cons_of_mem _ (List.mem_append_left openers hin))
      have hopeners := fun other hin =>
        hback other (List.mem_cons_of_mem _ (List.mem_append_right inner hin))
      have hdeeper : 1 ≤ nestingDelta (trim opener) := by
        rw [nestingDelta_of_opens ho, hback _ List.mem_cons_self]
        split <;> decide
      intro part hpart
      rcases List.prefix_cons_iff.mp hpart with rfl | ⟨rest, rfl, hrest⟩
      · rfl
      · rw [depthOf_cons]
        -- The part ends inside the construct, or it goes on to its `end`.
        rcases List.prefix_or_prefix_of_prefix hrest (List.prefix_append inside _) with
          hbefore | ⟨behind, rfl⟩
        · have hdepth := ihinside hinner rest hbefore
          omega
        · have hdepth := ihinside hinner inside (List.prefix_refl _)
          rw [depthOf_append]
          have hbehind := (List.prefix_append_right_inj inside).mp hrest
          rcases List.prefix_cons_iff.mp hbehind with rfl | ⟨after, rfl, hafter⟩
          · simp only [depthOf_nil]
            omega
          · have hrestDepth := ihrest hopeners after hafter
            rw [depthOf_cons, hc, nestingDelta_end]
            omega

end Nests

-----------------------------------------------------------------------------------------
-- Blocks
-----------------------------------------------------------------------------------------

/-- A block is written with well-nested lines: it has a header that leads one level deeper, lines in
which these openers open constructs, and an `end`.
-/
inductive Block.IsNested (openers : List Text) : Block → Prop
  | lines {kind line header body footer} (hh : BlockKind.IsHeader header kind)
    (hd : nestingDelta (trim header) = 1) (hb : Nests openers body) (hf : trim footer = "end")
    : IsNested openers ⟨kind, line, header :: (body ++ [footer])⟩

namespace Block.IsNested

variable {openers : List Text} {block : Block}

/-- What a nested block leaves open behind its `end` is what its openers do. -/
theorem depthOf_eq (h : block.IsNested openers)
    : depthOf block.lines = (openers.countP countsTwice : Int) - openers.countP isTakenBack := by
  obtain @⟨kind, line, header, body, footer, _, hd, hb, hf⟩ := h
  simp only [depthOf_cons, depthOf_append, depthOf_nil, hd, hf, nestingDelta_end, hb.depthOf_eq]
  omega

/-- A nested block starts with a header. -/
theorem isHeaded (h : block.IsNested openers) : block.IsHeaded := by
  obtain ⟨hh, _, _, _⟩ := h
  exact ⟨_, _, rfl, hh⟩

/-- A nested block stays open up to its `end` if no opener has an `end` of its own. -/
theorem staysOpen (h : block.IsNested openers)
    (hback : ∀ opener ∈ openers, isTakenBack opener = false)
    : block.StaysOpen := by
  obtain ⟨_, hd, hb, _⟩ := h
  refine Block.staysOpen_of_forall fun part hpart => ?_
  have hdepth := hb.depthOf_prefix hback part hpart
  omega

end Block.IsNested

section Source

variable {source : Text} {openers front back : List Text} {block : Block}

/-- A block with well-nested lines, behind lines that leave none open, is found up to its `end`
exactly if its nesting stays open so far and its openers do not count twice more often than they
have an `end` of their own, or nothing follows. If no opener has an `end` of its own, it is found
exactly if none counts twice or nothing follows. A loop that is written with its `do` counts twice.
-/
theorem nested_mem_blocks_iff (hnested : block.IsNested openers)
    (hs : Text.lines source = front ++ (block.lines ++ back))
    (hline : block.line = front.length + 1) (hfront : LeavesNoneOpen front)
    : (block ∈ blocks source
        ↔ block.StaysOpen
          ∧ (openers.countP countsTwice ≤ openers.countP isTakenBack ∨ back = []))
      ∧ ((∀ opener ∈ openers, isTakenBack opener = false) →
          (block ∈ blocks source ↔ (∀ opener ∈ openers, countsTwice opener = false) ∨ back = []))
      ∧ ∀ opener ∈ openers, IsDoLoop opener → countsTwice opener = true := by
  have hfound : block ∈ blocks source
      ↔ block.StaysOpen
        ∧ (openers.countP countsTwice ≤ openers.countP isTakenBack ∨ back = []) := by
    have hcloses : depthOf block.lines ≤ 0
        ↔ openers.countP countsTwice ≤ openers.countP isTakenBack := by
      rw [hnested.depthOf_eq]
      omega
    rw [blocks, hs, mem_blocksOfLines_iff hline, hcloses]
    simp only [hfront, hnested.isHeaded, true_and]
  refine ⟨hfound, fun hback => ?_, fun opener _ hloop => hloop.countsTwice.2⟩
  have hnone : openers.countP isTakenBack = 0 :=
    List.countP_eq_zero.mpr fun opener hin => Bool.eq_false_iff.mp (hback opener hin)
  rw [hfound, hnone, Nat.le_zero, List.countP_eq_zero]
  simp only [hnested.staysOpen hback, true_and, Bool.not_eq_true]

/-- A hook with a loop inside a condition. -/
def retryingHook : Block :=
  ⟨.hook, 1,
    ["Before do", "  if stale?", "    while busy?", "      wait", "    end", "  end", "end"]⟩

theorem nested_mem_blocks_of_retryingHook
    : Block.IsNested ["if stale?", "while busy?"] retryingHook
      ∧ LeavesNoneOpen []
      ∧ Text.lines (joined "\n" (retryingHook.lines ++ [("After do" : Text), "end"]))
        = retryingHook.lines ++ [("After do" : Text), "end"]
      ∧ retryingHook
        ∈ blocks (joined "\n" (retryingHook.lines ++ [("After do" : Text), "end"])) := by
  have hwhile : Opens (trim "    while busy?") :=
    @Opens.word "while" " busy?" (by decide) (by rintro c ⟨⟩; rfl)
  have hif : Opens (trim "  if stale?") :=
    @Opens.word "if" " stale?" (by decide) (by rintro c ⟨⟩; rfl)
  have hplain : Nests [] ["      wait"] := .plain (by decide) .nil
  have hloop : Nests ["while busy?"] ["    while busy?", "      wait", "    end"] :=
    .construct hwhile hplain (by decide) .nil
  have hcondition : Nests ["if stale?", "while busy?"]
      ["  if stale?", "    while busy?", "      wait", "    end", "  end"] :=
    .construct hif hloop (by decide) .nil
  have hnested : Block.IsNested ["if stale?", "while busy?"] retryingHook :=
    .lines (headerKind?_eq_some_iff.mp (by decide)) (by decide) hcondition (by decide)
  have hfront : LeavesNoneOpen [] := by decide
  have hs : Text.lines (joined "\n" (retryingHook.lines ++ [("After do" : Text), "end"]))
      = [] ++ (retryingHook.lines ++ [("After do" : Text), "end"]) := rfl
  obtain ⟨_, hfound, _⟩ := nested_mem_blocks_iff hnested hs rfl hfront
  exact ⟨hnested, hfront, hs, (hfound (by decide)).mpr (Or.inl (by decide))⟩

/-- Not every block with well-nested lines ends at its `end`: here a loop is written with its `do`,
and the hook behind the block is lost in it.
-/
theorem not_forall_nested_mem_blocks
    : ¬∀ source openers front back block, Block.IsNested openers block →
        Text.lines source = front ++ (block.lines ++ back) → block.line = front.length + 1 →
        LeavesNoneOpen front → block ∈ blocks source := by
  intro hall
  have hopens : Opens (trim "  while ready do") :=
    @Opens.word "while" " ready do" (by decide) (by rintro c ⟨⟩; rfl)
  have hplain : Nests [] ["    wait"] := .plain (by decide) .nil
  have hloop : Nests ["while ready do"] ["  while ready do", "    wait", "  end"] :=
    .construct hopens hplain (by decide) .nil
  have hnested : Block.IsNested ["while ready do"]
      ⟨.hook, 1, ["Before do", "  while ready do", "    wait", "  end", "end"]⟩ :=
    .lines (headerKind?_eq_some_iff.mp (by decide)) (by decide) hloop (by decide)
  have hfound := hall "Before do\n  while ready do\n    wait\n  end\nend\nAfter do\nend\n" _ []
    ["After do", "end"] _ hnested rfl rfl (by decide)
  revert hfound
  decide

end Source

end SuiteScore.Support
