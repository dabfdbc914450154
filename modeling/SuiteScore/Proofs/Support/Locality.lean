import SuiteScore.Proofs.Support.Selection

/-! Blocks are found where they stand, whatever stands around them: where no block is open, a scan
goes on as if the file began there.
-/

namespace SuiteScore.Support

open Text

/-- The block as many lines further down. -/
def Block.moved (down : Nat) (block : Block) : Block :=
  { block with line := block.line + down }

/-- The open block as many lines further down. -/
def OpenBlock.moved (down : Nat) (opened : OpenBlock) : OpenBlock :=
  { opened with block := opened.block.moved down }

/-- No block is open behind the lines. -/
def LeavesNoneOpen (lines : List Text) : Prop :=
  (lines.foldl BlockScan.take (.start 1)).opened = none

instance (lines : List Text) : Decidable (LeavesNoneOpen lines) :=
  inferInstanceAs (Decidable (_ = none))

/-- A block stays open up to its last line if no part of the lines between that and the header leads
out of what the header opens.
-/
theorem Block.staysOpen_of_forall {kind : BlockKind} {line : Nat} {header footer : Text}
    {body : List Text} (h : ∀ part, part <+: body → 0 < nestingDelta (trim header) + depthOf part)
    : Block.StaysOpen ⟨kind, line, header :: (body ++ [footer])⟩ := by
  intro front back hl hfront hback
  obtain ⟨first, part, rfl⟩ := List.exists_cons_of_ne_nil hfront
  obtain ⟨rfl, htail⟩ : header = first ∧ body ++ [footer] = part ++ back := List.cons_eq_cons.mp hl
  obtain ⟨rest, last, rfl⟩ := List.eq_nil_or_concat back |>.resolve_left hback
  rw [List.concat_eq_append, ← List.append_assoc] at htail
  exact h part ⟨rest, (List.append_inj' htail rfl).1.symm⟩

namespace BlockScan

variable {block : Block} {front lines : List Text}

-----------------------------------------------------------------------------------------
-- Scans further down
-----------------------------------------------------------------------------------------

/-- The scan as it is as many lines further down and behind other closed blocks. -/
def behind (down : Nat) (closed : List Block) (scan : BlockScan) : BlockScan where
  next := scan.next + down
  closed := closed ++ scan.closed.map (Block.moved down)
  opened := scan.opened.map (OpenBlock.moved down)

/-- A block is placed further down as it is placed here. -/
theorem place_behind (down : Nat) (closed : List Block) (scan : BlockScan) (block : Block)
    (depth : Int)
    : (scan.behind down closed).place (block.moved down) depth
      = (scan.place block depth).behind down closed := by
  unfold place
  split <;> simp [behind, OpenBlock.moved, Nat.add_right_comm]

/-- A line is taken further down as it is taken here, by what the line does. -/
theorem take_behind (down : Nat) (closed : List Block) (scan : BlockScan) (raw : Text)
    : (scan.behind down closed).take raw = (scan.take raw).behind down closed := by
  obtain ⟨next, found, opened⟩ := scan
  cases opened with
  | some opened =>
      obtain ⟨block, depth⟩ := opened
      exact place_behind down closed ⟨next, found, some ⟨block, depth⟩⟩
        { block with lines := block.lines ++ [raw] } (depth + nestingDelta (trim raw))
  | none =>
      simp only [behind, take, Option.map_none]
      cases headerKind? (trim raw) with
      | some kind =>
          exact place_behind down closed ⟨next, found, none⟩ ⟨kind, next, [raw]⟩ _
      | none => simp [Nat.add_right_comm]

/-- Lines are taken further down as they are taken here. -/
theorem foldl_take_behind (down : Nat) (closed : List Block) (scan : BlockScan)
    (lines : List Text)
    : lines.foldl take (scan.behind down closed) = (lines.foldl take scan).behind down closed :=
  List.foldl_hom (behind down closed) (take_behind down closed)

theorem blocks_behind (down : Nat) (closed : List Block) (scan : BlockScan)
    : (scan.behind down closed).blocks = closed ++ scan.blocks.map (Block.moved down) := by
  obtain ⟨next, found, opened⟩ := scan
  cases opened <;> simp [blocks, behind, OpenBlock.moved]

/-- Where no block is open, the scan goes on as one that starts there. -/
theorem foldl_take_of_leavesNoneOpen (h : LeavesNoneOpen front)
    : front.foldl take (start 1) = (start 1).behind front.length (blocksOfLines front) := by
  have hnext := (found_start.foldl_take front).next
  have hblocks : blocksOfLines front = (front.foldl take (start 1)).closed := by
    rw [blocksOfLines, blocks, h, Option.map_none, Option.toList_none, List.append_nil]
  rw [hblocks]
  unfold LeavesNoneOpen at h
  cases hscan : front.foldl take (start 1) with
  | mk next closed opened =>
      rw [hscan] at h hnext
      simp only at h hnext
      simp [behind, start, h, hnext, Nat.add_comm 1]

-----------------------------------------------------------------------------------------
-- Single blocks
-----------------------------------------------------------------------------------------

/-- A block is taken from its header to its last line as long as it stays open, and it is placed
where its last line says.
-/
theorem foldl_take_block {closed : List Block} {header : Text} {rest : List Text}
    (hl : block.lines = header :: rest) (hh : block.kind.IsHeader header) (ho : block.StaysOpen)
    : block.lines.foldl take ⟨block.line, closed, none⟩
      = place ⟨block.line + rest.length, closed, none⟩ block (depthOf block.lines) := by
  obtain ⟨kind, line, lines⟩ := block
  cases hl
  have hheader : ∀ depth, nestingDelta (trim header) = depth →
      take ⟨line, closed, none⟩ header
        = place ⟨line, closed, none⟩ ⟨kind, line, [header]⟩ depth := by
    rintro _ rfl
    simp only [take, headerKind?_eq_some_iff.mpr hh]
  rcases List.eq_nil_or_concat rest with rfl | ⟨middle, last, rfl⟩
  · exact hheader _ (by simp)
  · have hpositive : 0 < nestingDelta (trim header) := by
      simpa using ho [header] (middle.concat last) rfl (by simp) (by simp)
    rw [List.concat_eq_append, List.foldl_cons, hheader _ rfl, place,
      if_neg (Int.not_le.mpr hpositive), List.foldl_append, foldl_take_open]
    · simp [take, depthOf_append, Nat.add_assoc, Nat.add_comm 1, Int.add_assoc]
      rfl
    · rintro front ⟨back, rfl⟩
      exact ho (header :: front) (back ++ [last]) (by simp) (by simp) (by simp)

end BlockScan

-----------------------------------------------------------------------------------------
-- Blocks of many lines
-----------------------------------------------------------------------------------------

section Locality

variable {source : Text} {front back first second : List Text} {block : Block}

/-- The blocks behind lines that leave none open are those of the remaining lines alone, as many
lines further down.
-/
theorem blocksOfLines_append (h : LeavesNoneOpen front) (back : List Text)
    : blocksOfLines (front ++ back)
      = blocksOfLines front ++ (blocksOfLines back).map (Block.moved front.length) := by
  rw [blocksOfLines, List.foldl_append, BlockScan.foldl_take_of_leavesNoneOpen h,
    BlockScan.foldl_take_behind, BlockScan.blocks_behind]
  rfl

/-- A block begins only where none is open: a block that is open takes the next line. -/
theorem leavesNoneOpen_of_mem (hin : block ∈ blocksOfLines (front ++ back)) (hne : back ≠ [])
    (hline : block.line = front.length + 1)
    : LeavesNoneOpen front := by
  have hfound := BlockScan.found_start.foldl_take front
  have hselected := isSelection_blocksOfLines (front ++ back)
  unfold LeavesNoneOpen
  cases hscan : front.foldl BlockScan.take (.start 1) with
  | mk next closed opened =>
      cases opened with
      | none => rfl
      | some opened =>
          obtain ⟨other, depth⟩ := opened
          obtain ⟨more, found, hblocks, hmore⟩ :=
            BlockScan.exists_grown back next closed other depth
          rw [hscan] at hfound
          obtain ⟨_, _, hstop⟩ := hfound.opened _ rfl
          have hopen : other ∈ (BlockScan.mk next closed (some ⟨other, depth⟩)).blocks := by
            simp [BlockScan.blocks]
          have hlt := hfound.selected.line_lt_stop hopen
          have hgrown : { other with lines := other.lines ++ more }
              ∈ blocksOfLines (front ++ back) := by
            rw [blocksOfLines, List.foldl_append, hscan, hblocks]
            exact List.mem_append_right _ List.mem_cons_self
          have hlength := List.length_pos_iff.mpr (hmore hne)
          simp only [Block.stop, List.nil_append] at hstop hlt
          have hsame := hselected.eq_of_covers hin hgrown (by
            simp only [Block.Covers, Block.stop, List.length_append]
            omega)
          rw [← hsame] at hline
          simp only at hline
          omega

/-- Lines are found as a block exactly if no block is open before them, they start with a header,
and their nesting stays open up to the last of them and not behind it, unless nothing follows.
-/
theorem mem_blocksOfLines_iff (hline : block.line = front.length + 1)
    : block ∈ blocksOfLines (front ++ (block.lines ++ back))
      ↔ LeavesNoneOpen front ∧ block.IsHeaded ∧ block.StaysOpen
        ∧ (depthOf block.lines ≤ 0 ∨ back = []) := by
  constructor
  · intro hin
    have hselected := isSelection_blocksOfLines (front ++ (block.lines ++ back))
    have hheaded := hselected.headed block hin
    have hne : block.lines ++ back ≠ [] := by
      obtain ⟨header, rest, hl, _⟩ := hheaded
      simp [hl]
    refine ⟨leavesNoneOpen_of_mem hin hne hline, hheaded,
      hselected.staysOpen block hin, (hselected.closes block hin).imp_right fun ⟨_, hstop⟩ => ?_⟩
    simp only [Block.stop, hline, List.length_append] at hstop
    exact List.length_eq_zero_iff.mp (by omega)
  · rintro ⟨hfront, ⟨header, rest, hl, hheader⟩, hopen, hcloses⟩
    have hstart : (BlockScan.start 1).behind front.length (blocksOfLines front)
        = ⟨block.line, blocksOfLines front, none⟩ := by
      simp [BlockScan.behind, BlockScan.start, hline, Nat.add_comm 1]
    rw [blocksOfLines, List.foldl_append, BlockScan.foldl_take_of_leavesNoneOpen hfront, hstart,
      List.foldl_append, BlockScan.foldl_take_block hl hheader hopen]
    rcases hcloses with hclosed | rfl
    · obtain ⟨found, hfound, _⟩ := BlockScan.exists_found back (BlockScan.place
        ⟨block.line + rest.length, blocksOfLines front, none⟩ block (depthOf block.lines))
      rw [hfound, BlockScan.place, if_pos hclosed]
      simp
    · simp

/-- Blocks are local. Behind lines that leave none open the blocks are those of the remaining lines
alone, as many lines further down. A block that is closed stays as it is when the lines behind it
are changed, and it moves with the lines before it when these are changed, as long as they leave
none open.
-/
theorem blocks_of_lines_append (hs : Text.lines source = first ++ second)
    (hfirst : LeavesNoneOpen first)
    : blocks source
        = blocksOfLines first ++ (blocksOfLines second).map (Block.moved first.length)
      ∧ ∀ block ∈ blocks source, depthOf block.lines ≤ 0 →
          ∃ front back,
            Text.lines source = front ++ (block.lines ++ back) ∧ block.line = front.length + 1
            ∧ (∀ after, block ∈ blocksOfLines (front ++ (block.lines ++ after)))
            ∧ ∀ before,
                { block with line := before.length + 1 }
                    ∈ blocksOfLines (before ++ (block.lines ++ back))
                  ↔ LeavesNoneOpen before := by
  refine ⟨?_, fun block hin hclosed => ?_⟩
  · rw [blocks, hs]
    exact blocksOfLines_append hfirst second
  · obtain ⟨front, back, hl, hline⟩ := (isSelection_blocks source).verbatim block hin
    rw [blocks, hl] at hin
    obtain ⟨hfront, hheaded, hopen, _⟩ := (mem_blocksOfLines_iff hline).mp hin
    refine ⟨front, back, hl, hline, fun after => ?_, fun before => ?_⟩
    · exact (mem_blocksOfLines_iff hline).mpr ⟨hfront, hheaded, hopen, Or.inl hclosed⟩
    · exact (mem_blocksOfLines_iff rfl).trans
        ⟨fun h => h.1, fun h => ⟨h, hheaded, hopen, Or.inl hclosed⟩⟩

/-- A hook and behind it a step definition that is cut off. -/
theorem blocks_of_hookAndRest
    : Text.lines "Before do\n  run\nend\n\nGiven /x/ do\n  run\n"
        = [("Before do" : Text), "  run", "end"] ++ [("" : Text), "Given /x/ do", "  run"]
      ∧ LeavesNoneOpen ["Before do", "  run", "end"]
      ∧ blocks "Before do\n  run\nend\n\nGiven /x/ do\n  run\n"
        = [⟨.hook, 1, ["Before do", "  run", "end"]⟩,
            ⟨.stepDefinition, 5, ["Given /x/ do", "  run"]⟩] := by
  have hs : Text.lines "Before do\n  run\nend\n\nGiven /x/ do\n  run\n"
      = [("Before do" : Text), "  run", "end"] ++ [("" : Text), "Given /x/ do", "  run"] := rfl
  have hfirst : LeavesNoneOpen ["Before do", "  run", "end"] := by decide
  exact ⟨hs, hfirst, (blocks_of_lines_append hs hfirst).1.trans (by decide)⟩

end Locality

end SuiteScore.Support
