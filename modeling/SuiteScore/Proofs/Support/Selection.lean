import Mathlib.Data.List.Sort
import SuiteScore.Proofs.Support.Scan

/-! The blocks of a file as a selection of its lines: ranges that follow one another, each from a
header to the line that closes its nesting, with no header outside them. There is only one such
selection.
-/

namespace SuiteScore.Support

open Text

-----------------------------------------------------------------------------------------
-- Selections
-----------------------------------------------------------------------------------------

/-- Whether a line is the header of a block of some kind. A hook is preferred to a step definition.
-/
def BlockKind.IsHeader (raw : Text) : BlockKind → Prop
  | hook => isHookHeader (trim raw) = true
  | stepDefinition => isHookHeader (trim raw) = false ∧ isDefinitionHeader (trim raw) = true

namespace Block

/-- The number of the first line behind the block. -/
def stop (block : Block) : Nat :=
  block.line + block.lines.length

/-- The line with this number belongs to the block. -/
def Covers (block : Block) (number : Nat) : Prop :=
  block.line ≤ number ∧ number < block.stop

/-- The block starts with a header of its kind. -/
def IsHeaded (block : Block) : Prop :=
  ∃ header rest, block.lines = header :: rest ∧ block.kind.IsHeader header

/-- The lines of the block are lines of a file, from its number on. -/
def StandsIn (lines : List Text) (block : Block) : Prop :=
  ∃ front back, lines = front ++ (block.lines ++ back) ∧ block.line = front.length + 1

/-- The nesting is not closed before the last line of the block. -/
def StaysOpen (block : Block) : Prop :=
  ∀ front back, block.lines = front ++ back → front ≠ [] → back ≠ [] → 0 < depthOf front

end Block

/-- Blocks that are ranges of the lines of a file, one after another. They leave out no header, and
each goes on until its nesting is closed or the file ends.
-/
structure IsSelection (lines : List Text) (blocks : List Block) : Prop where
  verbatim : ∀ block ∈ blocks, block.StandsIn lines
  increasing : blocks.Pairwise fun block later => block.stop ≤ later.line
  headed : ∀ block ∈ blocks, block.IsHeaded
  outside
    : ∀ i raw, lines[i]? = some raw → (∀ block ∈ blocks, ¬block.Covers (i + 1)) →
        ∀ kind : BlockKind, ¬kind.IsHeader raw
  staysOpen : ∀ block ∈ blocks, block.StaysOpen
  closes
    : ∀ block ∈ blocks,
        depthOf block.lines ≤ 0
        ∨ (blocks.getLast? = some block ∧ block.stop = lines.length + 1)

/-- A line has the kind of the header that it is. -/
theorem headerKind?_eq_some_iff {raw : Text} {kind : BlockKind}
    : headerKind? (trim raw) = some kind ↔ kind.IsHeader raw := by
  cases hh : isHookHeader (trim raw) <;> cases hd : isDefinitionHeader (trim raw) <;>
    cases kind <;> simp [headerKind?, BlockKind.IsHeader, hh, hd]

/-- A line without a kind is no header. -/
theorem headerKind?_eq_none_iff {raw : Text}
    : headerKind? (trim raw) = none ↔ ∀ kind : BlockKind, ¬kind.IsHeader raw := by
  simp only [Option.eq_none_iff_forall_ne_some, ne_eq, headerKind?_eq_some_iff]

namespace Block

variable {block : Block} {lines : List Text} {raw : Text}

/-- More lines behind a block do not move it. -/
theorem StandsIn.append (h : block.StandsIn lines) (more : List Text)
    : block.StandsIn (lines ++ more) := by
  obtain ⟨front, back, hl, hline⟩ := h
  exact ⟨front, back ++ more, by simp [hl], hline⟩

/-- A block ends in its file. -/
theorem StandsIn.stop_le (h : block.StandsIn lines) : block.stop ≤ lines.length + 1 := by
  obtain ⟨front, back, hl, hline⟩ := h
  simp only [stop, hline, hl, List.length_append]
  omega

/-- A block at the end of the lines goes on with the line behind them. -/
theorem StandsIn.grow (h : block.StandsIn lines) (hs : block.stop = lines.length + 1)
    : { block with lines := block.lines ++ [raw] }.StandsIn (lines ++ [raw]) := by
  obtain ⟨front, back, hl, hline⟩ := h
  have hback : back = [] := by
    simp only [stop, hline, hl, List.length_append] at hs
    exact List.length_eq_zero_iff.mp (by omega)
  exact ⟨front, [], by simp [hl, hback], hline⟩

/-- A block that is open with all its lines stays open when it goes on. -/
theorem StaysOpen.grow (h : block.StaysOpen) (ho : 0 < depthOf block.lines)
    : { block with lines := block.lines ++ [raw] }.StaysOpen := by
  intro front back hl hfront hback
  rcases List.eq_nil_or_concat back with rfl | ⟨rest, last, rfl⟩
  · exact absurd rfl hback
  · rw [List.concat_eq_append, ← List.append_assoc] at hl
    obtain ⟨hl, _⟩ := List.append_inj' hl rfl
    by_cases hrest : rest = []
    · rw [hrest, List.append_nil] at hl
      exact hl ▸ ho
    · exact h front rest hl hfront hrest

end Block

-----------------------------------------------------------------------------------------
-- What a scan selects
-----------------------------------------------------------------------------------------

namespace BlockScan

variable {scan : BlockScan} {lines : List Text} {raw : Text}

/-- What a scan knows after some lines: it has selected blocks from them, the last of which may go
on.
-/
structure Found (lines : List Text) (scan : BlockScan) : Prop where
  next : scan.next = lines.length + 1
  selected : IsSelection lines scan.blocks
  closed : ∀ block ∈ scan.closed, depthOf block.lines ≤ 0
  opened
    : ∀ opened, scan.opened = some opened →
        opened.depth = depthOf opened.block.lines ∧ 0 < opened.depth
        ∧ opened.block.stop = lines.length + 1

@[simp] theorem blocks_place (block : Block) (depth : Int)
    : (scan.place block depth).blocks = scan.closed ++ [block] := by
  unfold place
  split <;> simp [blocks]

/-- A placed block that ends in a new line, and takes the place of the block that was open, belongs
to the selection.
-/
theorem Found.place {placed : Block} (h : scan.Found lines)
    (hstands : placed.StandsIn (lines ++ [raw])) (hstop : placed.stop = lines.length + 2)
    (hheaded : placed.IsHeaded) (hopen : placed.StaysOpen)
    (hlater : ∀ block ∈ scan.closed, block.stop ≤ placed.line)
    (hgrown : ∀ opened, scan.opened = some opened → opened.block.line = placed.line)
    : (scan.place placed (depthOf placed.lines)).Found (lines ++ [raw]) := by
  have hclosed : ∀ block ∈ scan.closed, block ∈ scan.blocks := fun block hin =>
    List.mem_append_left _ hin
  have hfirst : placed.line ≤ lines.length + 1 := by
    obtain ⟨header, rest, hl, _⟩ := hheaded
    simp only [Block.stop, hl, List.length_cons] at hstop
    omega
  refine ⟨?_, ⟨?_, ?_, ?_, ?_, ?_, ?_⟩, ?_, ?_⟩
  · have hnext := h.next
    unfold BlockScan.place
    split <;> simp [hnext]
  · simp only [blocks_place, List.forall_mem_append, List.forall_mem_singleton]
    exact ⟨fun block hin => (h.selected.verbatim block (hclosed block hin)).append _, hstands⟩
  · simp only [blocks_place, List.pairwise_append, List.pairwise_singleton, true_and,
      List.forall_mem_singleton]
    exact ⟨h.selected.increasing.sublist (List.sublist_append_left _ _), hlater⟩
  · simp only [blocks_place, List.forall_mem_append, List.forall_mem_singleton]
    exact ⟨fun block hin => h.selected.headed block (hclosed block hin), hheaded⟩
  · simp only [blocks_place, List.forall_mem_append, List.forall_mem_singleton]
    rintro i line hline ⟨hnone, hplaced⟩
    have hi : i < lines.length := by
      obtain ⟨hlt, _⟩ := List.getElem?_eq_some_iff.mp hline
      simp only [List.length_append, List.length_singleton] at hlt
      simp only [Block.Covers] at hplaced
      omega
    rw [List.getElem?_append_left hi] at hline
    refine h.selected.outside i line hline fun block hin hcovers => ?_
    rcases List.mem_append.mp hin with hin | hin
    · exact hnone block hin hcovers
    · obtain ⟨opened, ho, rfl⟩ := Option.map_eq_some_iff.mp (Option.mem_toList.mp hin)
      have hsame := hgrown opened ho
      simp only [Block.Covers] at hplaced hcovers
      omega
  · simp only [blocks_place, List.forall_mem_append, List.forall_mem_singleton]
    exact ⟨fun block hin => h.selected.staysOpen block (hclosed block hin), hopen⟩
  · simp only [blocks_place, List.forall_mem_append, List.forall_mem_singleton]
    refine ⟨fun block hin => Or.inl (h.closed block hin), ?_⟩
    exact Or.inr ⟨by simp, by simp [hstop]⟩
  · unfold BlockScan.place
    split
    · next hdepth =>
        simp only [List.forall_mem_append, List.forall_mem_singleton]
        exact ⟨h.closed, hdepth⟩
    · exact h.closed
  · unfold BlockScan.place
    split
    · simp
    · next hdepth =>
        rintro opened ho
        cases ho
        exact ⟨rfl, Int.not_le.mp hdepth, by simp [hstop]⟩

/-- A line between blocks is passed over. -/
theorem Found.pass (h : scan.Found lines) (hnone : scan.opened = none)
    (hkind : headerKind? (trim raw) = none)
    : ({ scan with next := scan.next + 1 } : BlockScan).Found (lines ++ [raw]) := by
  have hblocks : scan.blocks = scan.closed := by simp [blocks, hnone]
  refine ⟨by simp [h.next], ⟨?_, h.selected.increasing, h.selected.headed, ?_,
    h.selected.staysOpen, ?_⟩, h.closed, by simp [hnone]⟩
  · exact fun block hin => (h.selected.verbatim block hin).append _
  · intro i line hline hnot
    rcases Nat.lt_or_ge i lines.length with hi | hi
    · rw [List.getElem?_append_left hi] at hline
      exact h.selected.outside i line hline hnot
    · rw [List.getElem?_append_right hi] at hline
      have hraw : line = raw := by
        obtain ⟨hlt, he⟩ := List.getElem?_eq_some_iff.mp hline
        simpa using he.symm
      exact hraw ▸ headerKind?_eq_none_iff.mp hkind
  · exact fun block hin => Or.inl (h.closed block (hblocks ▸ hin))

/-- Every line keeps what a scan knows, by what the line does. -/
theorem Found.take (h : scan.Found lines) (raw : Text)
    : (scan.take raw).Found (lines ++ [raw]) := by
  simp only [BlockScan.take]
  split
  · next block depth ho =>
      obtain ⟨hdepth, hpositive, hstop⟩ := h.opened _ ho
      have hin : block ∈ scan.blocks := by simp [blocks, ho]
      have hgrown : depth + nestingDelta (trim raw) = depthOf (block.lines ++ [raw]) := by
        rw [depthOf_append, depthOf_cons, depthOf_nil, Int.add_zero]
        exact congrArg (· + nestingDelta (trim raw)) hdepth
      rw [hgrown]
      refine h.place ((h.selected.verbatim block hin).grow hstop) ?_ ?_ ?_ ?_ ?_
      · simp only [Block.stop, List.length_append, List.length_singleton] at hstop ⊢
        omega
      · obtain ⟨header, rest, hl, hheader⟩ := h.selected.headed block hin
        exact ⟨header, rest ++ [raw], by simp [hl], hheader⟩
      · exact (h.selected.staysOpen block hin).grow (hdepth ▸ hpositive)
      · have hincreasing := h.selected.increasing
        simp only [blocks, ho, Option.map_some, Option.toList_some, List.pairwise_append,
          List.forall_mem_singleton] at hincreasing
        exact hincreasing.2.2
      · rintro opened he
        cases ho.symm.trans he
        rfl
  · next hnone =>
      split
      · next kind hkind =>
          have hdepth : nestingDelta (trim raw) = depthOf [raw] := by simp
          rw [hdepth]
          refine h.place ?_ ?_ ?_ ?_ ?_ ?_
          · exact ⟨lines, [], rfl, h.next⟩
          · simp [Block.stop, h.next]
          · exact ⟨raw, [], rfl, headerKind?_eq_some_iff.mp hkind⟩
          · intro front back hl hfront hback
            have hlength := congrArg List.length hl
            have hf := List.length_pos_iff.mpr hfront
            have hb := List.length_pos_iff.mpr hback
            simp only [List.length_singleton, List.length_append] at hlength
            omega
          · intro block hin
            have hle := (h.selected.verbatim block (List.mem_append_left _ hin)).stop_le
            exact h.next.symm ▸ hle
          · simp [hnone]
      · next hkind => exact h.pass hnone hkind

/-- Many lines keep what a scan knows, by induction on the lines. -/
theorem Found.foldl_take (h : scan.Found lines) (more : List Text)
    : (more.foldl BlockScan.take scan).Found (lines ++ more) := by
  induction more generalizing lines scan with
  | nil => simpa using h
  | cons raw rest ih =>
      rw [List.foldl_cons, List.append_cons]
      exact ih (h.take raw)

/-- A scan that starts with the first line has selected nothing. -/
theorem found_start : (start 1).Found [] := by
  refine ⟨rfl, ⟨?_, ?_, ?_, ?_, ?_, ?_⟩, ?_, ?_⟩ <;> simp [start, blocks]

end BlockScan

-----------------------------------------------------------------------------------------
-- Selections of the same lines
-----------------------------------------------------------------------------------------

/-- A line is the header of one kind of block at most. -/
theorem BlockKind.IsHeader.unique {raw : Text} {kind other : BlockKind} (h : kind.IsHeader raw)
    (ho : other.IsHeader raw)
    : kind = other :=
  Option.some.inj ((headerKind?_eq_some_iff.mpr h).symm.trans (headerKind?_eq_some_iff.mpr ho))

namespace IsSelection

variable {lines : List Text} {blocks others : List Block} {block other : Block}

theorem line_lt_stop (h : IsSelection lines blocks) (hin : block ∈ blocks)
    : block.line < block.stop := by
  obtain ⟨header, rest, hl, _⟩ := h.headed block hin
  simp [Block.stop, hl]

/-- A block with the first line of another is that block, since the ranges do not overlap. -/
theorem eq_of_covers (h : IsSelection lines blocks) (hin : block ∈ blocks) (ho : other ∈ blocks)
    (hcovers : other.Covers block.line)
    : other = block := by
  have hstop := h.line_lt_stop hin
  obtain ⟨i, hi, rfl⟩ := List.getElem_of_mem hin
  obtain ⟨j, hj, rfl⟩ := List.getElem_of_mem ho
  have hapart := List.pairwise_iff_getElem.mp h.increasing
  obtain ⟨hfirst, hlast⟩ := hcovers
  rcases Nat.lt_trichotomy i j with hlt | rfl | hgt
  · have hle := hapart i j hi hj hlt
    omega
  · rfl
  · have hle := hapart j i hj hi hgt
    omega

/-- A block of a selection is not cut off before a block with the same first line ends. -/
theorem lines_eq_of_isPrefix (h : IsSelection lines blocks) (hin : block ∈ blocks)
    (hstands : other.StandsIn lines) (hopen : other.StaysOpen) (hline : block.line = other.line)
    (hp : block.lines <+: other.lines)
    : block.lines = other.lines := by
  obtain ⟨more, hmore⟩ := hp
  by_cases hnil : more = []
  · rw [← hmore, hnil, List.append_nil]
  · have hlength := List.length_pos_iff.mpr hnil
    have hne : block.lines ≠ [] := by
      obtain ⟨header, rest, hl, _⟩ := h.headed block hin
      simp [hl]
    have hdepth := hopen block.lines more hmore.symm hne hnil
    rcases h.closes block hin with hclosed | ⟨_, hend⟩
    · exact absurd hdepth (Int.not_lt.mpr hclosed)
    · have hle := hstands.stop_le
      simp only [Block.stop, ← hmore, List.length_append] at hle hend
      omega

/-- Blocks with the same first line are the same in two selections. -/
theorem eq_of_line_eq (h : IsSelection lines blocks) (ho : IsSelection lines others)
    (hin : block ∈ blocks) (hother : other ∈ others) (hline : block.line = other.line)
    : block = other := by
  obtain ⟨front, back, hl, hfront⟩ := h.verbatim block hin
  obtain ⟨before, behind, hl', hbefore⟩ := ho.verbatim other hother
  have hlength : front.length = before.length := by omega
  have hrest := (List.append_inj (hl.symm.trans hl') hlength).2
  have hlines : block.lines = other.lines := by
    rcases List.append_eq_append_iff.mp hrest with ⟨more, hmore, _⟩ | ⟨more, hmore, _⟩
    · exact h.lines_eq_of_isPrefix hin (ho.verbatim other hother) (ho.staysOpen other hother) hline
        ⟨more, hmore.symm⟩
    · exact (ho.lines_eq_of_isPrefix hother (h.verbatim block hin) (h.staysOpen block hin)
        hline.symm ⟨more, hmore.symm⟩).symm
  have hkind : block.kind = other.kind := by
    obtain ⟨header, rest, hheader, hkind⟩ := h.headed block hin
    obtain ⟨header', rest', hheader', hkind'⟩ := ho.headed other hother
    rw [hlines, hheader'] at hheader
    cases hheader
    exact hkind.unique hkind'
  cases block
  cases other
  simp only at hline hlines hkind
  rw [hline, hlines, hkind]

/-- A block of one selection is in every other, by induction on its first line. The header there is
not left out, and a block that began earlier would be in both.
-/
theorem mem_of_mem (h : IsSelection lines blocks) (ho : IsSelection lines others)
    (hin : block ∈ blocks)
    : block ∈ others := by
  induction hn : block.line using Nat.strongRecOn generalizing blocks others block with
  | ind n ih =>
      obtain ⟨header, rest, hl, hheader⟩ := h.headed block hin
      obtain ⟨front, back, hlines, hline⟩ := h.verbatim block hin
      have hat : lines[front.length]? = some header := by simp [hlines, hl]
      have hcovered : ∃ other ∈ others, other.Covers block.line := by
        by_contra hnone
        simp only [not_exists, not_and] at hnone
        exact ho.outside front.length header hat (fun other hother => hline ▸ hnone other hother)
          _ hheader
      obtain ⟨other, hother, hcovers⟩ := hcovered
      rcases Nat.lt_or_eq_of_le hcovers.1 with hbefore | hsame
      · have hboth := ih other.line (hn ▸ hbefore) ho h hother rfl
        rw [← h.eq_of_covers hin hboth hcovers]
        exact hother
      · rw [h.eq_of_line_eq ho hin hother hsame.symm]
        exact hother

/-- There is only one selection of some lines. -/
theorem unique (h : IsSelection lines blocks) (ho : IsSelection lines others)
    : blocks = others := by
  have hsorted : ∀ {found}, IsSelection lines found
      → found.Pairwise fun block later => block.line < later.line := fun hfound =>
    hfound.increasing.imp_of_mem fun hin _ hle => Nat.lt_of_lt_of_le (hfound.line_lt_stop hin) hle
  have hnodup : ∀ {found}, IsSelection lines found → found.Nodup := by
    intro found hfound
    refine (hsorted hfound).imp ?_
    rintro block _ hlt rfl
    exact Nat.lt_irrefl _ hlt
  have hperm : blocks.Perm others := (List.perm_ext_iff_of_nodup (hnodup h) (hnodup ho)).mpr
    fun block => ⟨h.mem_of_mem ho, ho.mem_of_mem h⟩
  exact hperm.eq_of_pairwise (fun _ _ _ _ hlt hgt => absurd hlt (Nat.lt_asymm hgt)) (hsorted h)
    (hsorted ho)

end IsSelection

theorem isSelection_blocksOfLines (lines : List Text) : IsSelection lines (blocksOfLines lines) :=
  (BlockScan.found_start.foldl_take lines).selected

theorem isSelection_blocks (source : Text) : IsSelection (Text.lines source) (blocks source) :=
  isSelection_blocksOfLines (Text.lines source)

/-- The blocks of a file are the one selection of its lines. -/
theorem isSelection_iff_eq_blocks (source : Text) (found : List Block)
    : IsSelection (Text.lines source) found ↔ found = blocks source := by
  refine ⟨fun h => h.unique (isSelection_blocks source), ?_⟩
  rintro rfl
  exact isSelection_blocks source

end SuiteScore.Support
