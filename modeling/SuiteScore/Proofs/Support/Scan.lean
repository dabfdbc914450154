import SuiteScore.Proofs.Support.Depth
import SuiteScore.Support.Block

/-! What a scan does with many lines: it passes over those between blocks, an open block takes all
lines until its depth is gone, and what is closed stays as it is.
-/

namespace SuiteScore.Support

open Text

namespace BlockScan

variable {next : Nat} {closed : List Block} {block : Block} {depth : Int}

-----------------------------------------------------------------------------------------
-- Runs
-----------------------------------------------------------------------------------------

/-- Lines that are no headers are passed over outside blocks, by induction on the lines. -/
theorem foldl_take_gap {lines : List Text} (h : ∀ line ∈ lines, headerKind? (trim line) = none)
    : lines.foldl take ⟨next, closed, none⟩ = ⟨next + lines.length, closed, none⟩ := by
  induction lines generalizing next with
  | nil => rfl
  | cons raw rest ih =>
      have hfirst : take ⟨next, closed, none⟩ raw = ⟨next + 1, closed, none⟩ := by
        simp only [take, h raw List.mem_cons_self]
      rw [List.foldl_cons, hfirst, ih fun line hin => h line (List.mem_cons_of_mem _ hin),
        List.length_cons, Nat.add_assoc, Nat.add_comm 1]

/-- An open block takes lines as long as its depth stays positive, by induction on the lines. -/
theorem foldl_take_open {lines : List Text}
    (h : ∀ front, front <+: lines → 0 < depth + depthOf front)
    : lines.foldl take ⟨next, closed, some ⟨block, depth⟩⟩
      = ⟨next + lines.length, closed,
          some ⟨{ block with lines := block.lines ++ lines }, depth + depthOf lines⟩⟩ := by
  induction lines generalizing next block depth with
  | nil => simp
  | cons raw rest ih =>
      have hpositive := h [raw] (List.prefix_append [raw] rest)
      have hstep : take ⟨next, closed, some ⟨block, depth⟩⟩ raw
          = ⟨next + 1, closed, some ⟨{ block with lines := block.lines ++ [raw] },
              depth + nestingDelta (trim raw)⟩⟩ := by
        rw [depthOf_cons, depthOf_nil, Int.add_zero] at hpositive
        simp only [take, place, if_neg (Int.not_le.mpr hpositive)]
      rw [List.foldl_cons, hstep, ih]
      · simp [Nat.add_assoc, Nat.add_comm 1, Int.add_assoc]
      · intro front hfront
        have hlater := h (raw :: front) (List.cons_prefix_cons.mpr ⟨rfl, hfront⟩)
        rwa [depthOf_cons, ← Int.add_assoc] at hlater

-----------------------------------------------------------------------------------------
-- Blocks of a run
-----------------------------------------------------------------------------------------

/-- A block that begins at the next line or later, or where the open block begins. -/
def IsLater (scan : BlockScan) (block : Block) : Prop :=
  scan.next ≤ block.line ∨ ∃ opened, scan.opened = some opened ∧ block.line = opened.block.line

/-- Closed blocks stay closed in `after`, and what comes later there comes later before. -/
structure Extends (scan after : BlockScan) : Prop where
  closed : ∃ newly, after.closed = scan.closed ++ newly ∧ ∀ block ∈ newly, scan.IsLater block
  later : ∀ block, after.IsLater block → scan.IsLater block

/-- A block that begins later extends the scan where it is placed. -/
theorem extends_place {scan : BlockScan} {placed : Block} (depth : Int) (h : scan.IsLater placed)
    : scan.Extends (scan.place placed depth) := by
  unfold place
  split
  · refine ⟨⟨[placed], rfl, by simpa using h⟩, fun block hlater => ?_⟩
    rcases hlater with hnext | ⟨opened, ho, _⟩
    · exact Or.inl (Nat.le_of_succ_le hnext)
    · cases ho
  · refine ⟨⟨[], (List.append_nil _).symm, by simp⟩, fun block hlater => ?_⟩
    rcases hlater with hnext | ⟨opened, ho, hline⟩
    · exact Or.inl (Nat.le_of_succ_le hnext)
    · cases ho
      rw [IsLater, hline]
      exact h

/-- Every line extends the scan, by what the line does. -/
theorem extends_take (scan : BlockScan) (raw : Text) : scan.Extends (scan.take raw) := by
  simp only [take]
  split
  · next block depth ho => exact extends_place _ (Or.inr ⟨_, ho, rfl⟩)
  · split
    · exact extends_place _ (Or.inl (Nat.le_refl _))
    · refine ⟨⟨[], (List.append_nil _).symm, by simp⟩, fun block hlater => ?_⟩
      exact hlater.imp_left Nat.le_of_succ_le

/-- Closed blocks stay in front, and every other block comes later, by induction on the lines. -/
theorem exists_found (lines : List Text) (scan : BlockScan)
    : ∃ found, (lines.foldl take scan).blocks = scan.closed ++ found
        ∧ ∀ block ∈ found, scan.IsLater block := by
  induction lines generalizing scan with
  | nil =>
      refine ⟨_, rfl, fun block hin => Or.inr ?_⟩
      obtain ⟨opened, ho, rfl⟩ := Option.map_eq_some_iff.mp (Option.mem_toList.mp hin)
      exact ⟨opened, ho, rfl⟩
  | cons raw rest ih =>
      obtain ⟨found, hfound, hlater⟩ := ih (scan.take raw)
      obtain ⟨⟨newly, hnewly, hplaced⟩, hback⟩ := extends_take scan raw
      refine ⟨newly ++ found, by rw [List.foldl_cons, hfound, hnewly, List.append_assoc], ?_⟩
      intro block hin
      rcases List.mem_append.mp hin with hin | hin
      · exact hplaced block hin
      · exact hback block (hlater block hin)

/-- An open block is found with all its lines, and with more if any line follows, by induction on
the lines.
-/
theorem exists_grown (lines : List Text) (next : Nat) (closed : List Block) (block : Block)
    (depth : Int)
    : ∃ more found,
        (lines.foldl take ⟨next, closed, some ⟨block, depth⟩⟩).blocks
          = closed ++ { block with lines := block.lines ++ more } :: found
        ∧ (lines ≠ [] → more ≠ []) := by
  induction lines generalizing next block depth with
  | nil => exact ⟨[], [], by simp [blocks], fun h => absurd rfl h⟩
  | cons raw rest ih =>
      rw [List.foldl_cons, take]
      simp only
      unfold place
      split
      · obtain ⟨found, hfound, _⟩ := exists_found rest
          ⟨next + 1, closed ++ [{ block with lines := block.lines ++ [raw] }], none⟩
        exact ⟨[raw], found, by rw [hfound]; simp, by simp⟩
      · obtain ⟨more, found, hfound, _⟩ := ih (next + 1)
          { block with lines := block.lines ++ [raw] } (depth + nestingDelta (trim raw))
        exact ⟨raw :: more, found, by rw [hfound]; simp, by simp⟩

end BlockScan

end SuiteScore.Support
