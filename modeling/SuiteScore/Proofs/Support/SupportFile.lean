import SuiteScore.Proofs.Support.Locality
import SuiteScore.Proofs.Support.WrittenBlock

/-! Support files that are written as blocks with other lines between them, and which of them are
taken apart into these blocks again.
-/

namespace SuiteScore.Support

open Text

-----------------------------------------------------------------------------------------
-- Written files
-----------------------------------------------------------------------------------------

/-- Lines that are no headers. -/
structure Gap where
  lines : List Text
  plain : ∀ line ∈ lines, headerKind? (trim line) = none

/-- A support file as it is written: blocks, each behind a gap, and a gap behind them all. -/
inductive SupportFile where
  | rest (gap : Gap)
  | piece (gap : Gap) (block : WrittenBlock) (later : SupportFile)

namespace SupportFile

/-- The lines of the file. -/
def lines : SupportFile → List Text
  | rest gap => gap.lines
  | piece gap block later => gap.lines ++ (block.lines ++ later.lines)

/-- The blocks of the file, the first line of which has the given number. -/
def blocksFrom (next : Nat) : SupportFile → List Block
  | rest _ => []
  | piece gap block later =>
    { kind := block.kind, line := next + gap.lines.length, lines := block.lines }
      :: later.blocksFrom (next + gap.lines.length + block.lines.length)

/-- Whether every header of the file is found and opens one level, which its `end` closes. Where
nothing follows, a second level does no harm.
-/
def keepsApart : SupportFile → Bool
  | rest _ => true
  | piece _ block later =>
    block.isFound && (block.levels == 1 || block.levels == 2 && later.lines.isEmpty)
      && later.keepsApart

/-- A file without lines has no blocks. -/
theorem facts_of_lines_nil {file : SupportFile} (h : file.lines = []) (next : Nat)
    : file.blocksFrom next = [] ∧ file.keepsApart = true := by
  cases file with
  | rest gap => exact ⟨rfl, rfl⟩
  | piece gap block later => simp [lines, WrittenBlock.lines] at h

end SupportFile

-----------------------------------------------------------------------------------------
-- Scans of written blocks
-----------------------------------------------------------------------------------------

namespace WrittenBlock

/-- No header opens more than two levels. -/
theorem levels_le (block : WrittenBlock) : block.levels ≤ 2 := by
  unfold levels
  split <;> split <;> decide

variable {next : Nat} {closed : List Block} (block : WrittenBlock) (later : List Text)

/-- The block as it should be found at a line. -/
def foundAt (line : Nat) : Block :=
  { kind := block.kind, line, lines := block.lines }

/-- A block whose header is not found is not among the blocks, since all others begin later. -/
theorem blocks_ne_of_lost (h : block.isFound = false) (others : List Block)
    : ((block.lines ++ later).foldl BlockScan.take ⟨next, closed, none⟩).blocks
      ≠ closed ++ block.foundAt next :: others := by
  have hkind := block.header_facts.1
  rw [h, if_neg Bool.false_ne_true] at hkind
  have hheader : BlockScan.take ⟨next, closed, none⟩ block.header = ⟨next + 1, closed, none⟩ := by
    simp only [BlockScan.take, hkind]
  obtain ⟨found, hf, hlater⟩ := BlockScan.exists_found (block.body ++ [block.footer] ++ later)
    ⟨next + 1, closed, none⟩
  rw [lines, List.cons_append, List.foldl_cons, hheader, hf]
  intro he
  rcases hlater (block.foundAt next) (List.append_cancel_left he ▸ List.mem_cons_self) with
    hline | ⟨_, ho, _⟩
  · exact absurd hline (Nat.not_succ_le_self next)
  · cases ho

/-- A block whose header opens no level is cut off behind the header. -/
theorem blocks_ne_of_flat (h : block.isFound = true) (hl : block.levels = 0) (others : List Block)
    : ((block.lines ++ later).foldl BlockScan.take ⟨next, closed, none⟩).blocks
      ≠ closed ++ block.foundAt next :: others := by
  obtain ⟨hkind, hdelta⟩ := block.header_facts
  rw [h, if_pos rfl] at hkind
  rw [hl] at hdelta
  have hheader : BlockScan.take ⟨next, closed, none⟩ block.header
      = ⟨next + 1, closed ++ [{ block.foundAt next with lines := [block.header] }], none⟩ := by
    simp only [BlockScan.take, hkind, hdelta]
    rfl
  obtain ⟨found, hf, _⟩ := BlockScan.exists_found (block.body ++ [block.footer] ++ later)
    ⟨next + 1, closed ++ [{ block.foundAt next with lines := [block.header] }], none⟩
  rw [lines, List.cons_append, List.foldl_cons, hheader, hf, List.append_assoc]
  intro he
  have hlines := congrArg Block.lines (List.cons.inj (List.append_cancel_left he)).1
  simp [foundAt, lines] at hlines

/-- A header with levels keeps its block open up to the `end`, which closes one of them. -/
theorem foldl_take_block {levels : Nat} (h : block.isFound = true)
    (hl : block.levels = levels + 1)
    : block.lines.foldl BlockScan.take ⟨next, closed, none⟩
      = BlockScan.place ⟨next + block.body.length + 1, closed, none⟩ (block.foundAt next)
          levels := by
  obtain ⟨hkind, hdelta⟩ := block.header_facts
  rw [h, if_pos rfl] at hkind
  rw [hl] at hdelta
  have hopen : (block.foundAt next).StaysOpen := by
    refine Block.staysOpen_of_forall fun part hpart => ?_
    have habove := block.balanced.above part hpart
    omega
  have hdepth : depthOf block.lines = levels := by
    simp only [lines, depthOf_cons, depthOf_append, depthOf_nil, hdelta, block.balanced.level,
      block.closes, nestingDelta_end]
    omega
  have hfold : block.lines.foldl BlockScan.take ⟨next, closed, none⟩
      = BlockScan.place ⟨next + (block.body ++ [block.footer]).length, closed, none⟩
          (block.foundAt next) (depthOf block.lines) :=
    BlockScan.foldl_take_block rfl (headerKind?_eq_some_iff.mp hkind) hopen
  rw [hfold, hdepth, List.length_append, List.length_singleton, Nat.add_assoc]

/-- A block whose header opens one level is closed by its `end`. -/
theorem foldl_take_closed (h : block.isFound = true) (hl : block.levels = 1)
    : block.lines.foldl BlockScan.take ⟨next, closed, none⟩
      = ⟨next + block.lines.length, closed ++ [block.foundAt next], none⟩ := by
  rw [block.foldl_take_block h hl]
  simp [BlockScan.place, lines, Nat.add_assoc]

/-- A block whose header opens two levels takes what follows its `end`. -/
theorem blocks_ne_of_deep (h : block.isFound = true) (hl : block.levels = 2) (hne : later ≠ [])
    (others : List Block)
    : ((block.lines ++ later).foldl BlockScan.take ⟨next, closed, none⟩).blocks
      ≠ closed ++ block.foundAt next :: others := by
  obtain ⟨more, found, hf, hgrown⟩ := BlockScan.exists_grown later
    (next + block.body.length + 1 + 1) closed (block.foundAt next) 1
  rw [List.foldl_append, block.foldl_take_block h hl]
  intro he
  have hlines := congrArg Block.lines
    (List.cons.inj (List.append_cancel_left (hf.symm.trans he))).1
  exact hgrown hne (List.append_right_eq_self.mp hlines)

/-- A block whose header opens two levels is found whole where nothing follows. -/
theorem blocks_of_deep (h : block.isFound = true) (hl : block.levels = 2)
    : (block.lines.foldl BlockScan.take ⟨next, closed, none⟩).blocks
      = closed ++ [block.foundAt next] := by
  rw [block.foldl_take_block h hl]
  rfl

end WrittenBlock

-----------------------------------------------------------------------------------------
-- Scans of written files
-----------------------------------------------------------------------------------------

namespace SupportFile

/-- A file is taken apart into its blocks only if it keeps them apart, by induction on the file. The
scan goes wrong for good at the first header that is not found or does not open one level.
-/
theorem blocks_foldl_iff (file : SupportFile) (next : Nat) (closed : List Block)
    : (file.lines.foldl BlockScan.take ⟨next, closed, none⟩).blocks
        = closed ++ file.blocksFrom next
      ↔ file.keepsApart = true := by
  induction file generalizing next closed with
  | rest gap =>
      rw [lines, BlockScan.foldl_take_gap gap.plain]
      simp [BlockScan.blocks, blocksFrom, keepsApart]
  | piece gap block later ih =>
      rw [lines, List.foldl_append, BlockScan.foldl_take_gap gap.plain, blocksFrom, keepsApart]
      change _ = closed ++ block.foundAt (next + gap.lines.length) :: _ ↔ _
      generalize next + gap.lines.length = first
      cases hfound : block.isFound with
      | false => simpa using block.blocks_ne_of_lost later.lines hfound _
      | true =>
          have hle := block.levels_le
          rcases Nat.lt_or_ge block.levels 1 with hflat | hone
          · have hzero : block.levels = 0 := by omega
            simpa [hzero] using block.blocks_ne_of_flat later.lines hfound hzero _
          rcases Nat.lt_or_ge block.levels 2 with hsingle | hdeep
          · have hlevels : block.levels = 1 := by omega
            rw [List.foldl_append, block.foldl_take_closed hfound hlevels]
            simpa [hlevels] using ih (first + block.lines.length) (closed ++ [block.foundAt first])
          · have hlevels : block.levels = 2 := by omega
            cases hlater : later.lines with
            | nil =>
                obtain ⟨hnone, hapart⟩ := facts_of_lines_nil hlater (first + block.lines.length)
                rw [List.append_nil, block.blocks_of_deep hfound hlevels, hnone]
                simp [hlevels, hapart]
            | cons raw rest =>
                simpa [hlevels] using
                  block.blocks_ne_of_deep (raw :: rest) hfound hlevels (by simp) _

/-- The blocks of a support file are found exactly if the file keeps them apart. -/
theorem blocks_eq_iff {source : Text} (file : SupportFile) (h : Text.lines source = file.lines)
    : blocks source = file.blocksFrom 1 ↔ file.keepsApart = true := by
  rw [blocks, blocksOfLines, h]
  exact file.blocks_foldl_iff 1 []

/-- A hook with nested lines, a comment, and a step definition. -/
def keptFile : SupportFile :=
  .piece ⟨[], by decide⟩
    { kind := .hook
      header := "Before do |scenario|"
      body := ["  value = if scenario", "  end"]
      footer := "end"
      isLine := by decide
      accepted := ⟨_, rfl⟩
      balanced := by decide
      closes := by decide }
    (.piece ⟨["# steps"], by decide⟩
      { kind := .stepDefinition
        header := "Given(/^x$/) do"
        body := []
        footer := "end"
        isLine := by decide
        accepted := ⟨_, rfl⟩
        balanced := by decide
        closes := by decide }
      (.rest ⟨[], by decide⟩))

theorem blocks_of_keptFile
    : blocks ("Before do |scenario|\n  value = if scenario\n  end\nend\n# steps\n"
          ++ "Given(/^x$/) do\nend\n" : Text)
      = keptFile.blocksFrom 1 :=
  (blocks_eq_iff keptFile (by decide)).mpr (by decide)

/-- A step definition whose pattern starts a group with a word that opens a block, and a hook. -/
def mergedFile : SupportFile :=
  .piece ⟨[], by decide⟩
    { kind := .stepDefinition
      header := "Given /^I (begin|start)$/ do"
      body := []
      footer := "end"
      isLine := by decide
      accepted := ⟨_, rfl⟩
      balanced := by decide
      closes := by decide }
    (.piece ⟨[], by decide⟩
      { kind := .hook
        header := "After do"
        body := []
        footer := "end"
        isLine := by decide
        accepted := ⟨_, rfl⟩
        balanced := by decide
        closes := by decide }
      (.rest ⟨[], by decide⟩))

/-- A support file can be taken apart into other blocks: the hook is merged into the step
definition.
-/
theorem not_forall_blocks_eq
    : ¬∀ (file : SupportFile) (source : Text), Text.lines source = file.lines
        → blocks source = file.blocksFrom 1 := by
  intro h
  have hmerged := h mergedFile ("Given /^I (begin|start)$/ do\nend\nAfter do\nend\n" : Text)
    (by decide)
  exact absurd hmerged (by decide)

end SupportFile

end SuiteScore.Support
