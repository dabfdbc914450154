import SuiteScore.Proofs.Support.HookHeader
import SuiteScore.Support.Declaration

/-! Blocks as they are written: a header that is accepted with an `end` below it, lines that keep
the balance, and an `end`.
-/

namespace SuiteScore.Support

open Text

/-- A block whose header declares what its kind stands for. -/
structure WrittenBlock where
  kind : BlockKind
  header : Text
  body : List Text
  footer : Text
  isLine : '\n' ∉ header
  accepted : ∃ declaration, Block.read [] ⟨kind, 1, [header, "end"]⟩ = .ok declaration
  balanced : Balanced body
  closes : trim footer = "end"

/-- A line is accepted as the header of a block of some kind. -/
def BlockKind.Accepts (line : Text) : BlockKind → Prop
  | hook => ∃ header, HookHeader.ofLine line = .ok header
  | stepDefinition => ∃ header, DefinitionHeader.ofLine line = some header

/-- A block declares something exactly if it has parts, and its header is accepted. -/
theorem Block.exists_read_iff {block : Block} {path : Text}
    : (∃ declaration, block.read path = .ok declaration)
      ↔ ∃ parts, BlockParts.ofLines block.lines = .ok parts ∧ block.kind.Accepts parts.header := by
  unfold Block.read
  cases hk : block.kind with
  | hook =>
      simp only [Hook.ofBlock, Hook.partsOf, BlockKind.Accepts]
      cases BlockParts.ofLines block.lines with
      | error fault => simp [Except.map]
      | ok parts => cases hh : HookHeader.ofLine parts.header <;> simp [Except.map, hh]
  | stepDefinition =>
      simp only [StepDefinition.ofBlock, BlockKind.Accepts]
      cases BlockParts.ofLines block.lines with
      | error fault => simp [Except.map]
      | ok parts => cases hh : DefinitionHeader.ofLine parts.header <;> simp [Except.map, hh]

/-- The header of a step definition is none of a hook, since no word for a hook starts like its
keyword.
-/
theorem DefinitionHeader.exists_of_ofLine {line : Text} {header : DefinitionHeader}
    (h : ofLine line = some header)
    : isHookHeader line = false ∧ hasInitial line = true := by
  obtain ⟨⟨keyword, rest⟩, hkeyword, _⟩ := Option.bind_eq_some_iff.mp h
  obtain ⟨found, hin, hf⟩ := List.exists_of_findSome?_eq_some hkeyword
  obtain ⟨after, ha, he⟩ := Option.map_eq_some_iff.mp hf
  have hline := List.isPrefixOf?_eq_some_iff_append_eq.mp ha
  subst hline
  have hstart : ∀ keyword ∈ definitionKeywords,
      hasInitial keyword.text = true ∧ 2 ≤ keyword.text.length
      ∧ ∀ entry ∈ HookType.words,
          2 ≤ entry.1.length ∧ entry.1.take 2 ≠ keyword.text.take 2 := by
    decide
  obtain ⟨hinitial, hlength, hwords⟩ := hstart found hin
  refine ⟨List.any_eq_false.mpr fun entry hentry => ?_, hasInitial_append hinitial after⟩
  obtain ⟨hlong, hne⟩ := hwords entry hentry
  have hnone : entry.1.isPrefixOf? (found.text ++ after) = none := by
    cases hp : entry.1.isPrefixOf? (found.text ++ after) with
    | none => rfl
    | some more =>
        have htake := congrArg (List.take 2) (List.isPrefixOf?_eq_some_iff_append_eq.mp hp)
        rw [List.take_append_of_le_length hlong, List.take_append_of_le_length hlength] at htake
        exact absurd htake hne
  simp [afterWord?, hnone]

namespace WrittenBlock

variable (block : WrittenBlock)

/-- The lines of the block as they stand in the file. -/
def lines : List Text :=
  block.header :: (block.body ++ [block.footer])

/-- Whether the scan takes the header for one: that of a hook always, that of a step definition if
it looks like one.
-/
def isFound : Bool :=
  block.kind == .hook || isDefinitionHeader (trim block.header)

/-- The number of levels that the header opens: one for the `do` of the block, which counts for a
step definition only as a word of its own, and one for a block that an assignment opens in the
header.
-/
def levels : Nat :=
  (if block.kind == .hook || endsWithDo (trim block.header) then 1 else 0)
    + if opensInside (trim block.header) then 1 else 0

/-- The header of the block is accepted. Without text in it, the `end` below would be the header.
-/
theorem accepts : block.kind.Accepts (trim block.header) := by
  obtain ⟨parts, hparts, haccepts⟩ := Block.exists_read_iff.mp block.accepted
  by_cases hne : trim block.header = []
  · obtain ⟨middle, last, hl, _⟩ := BlockParts.ofLines_eq_ok_iff.mp hparts
    have honly : contentLines [block.header, "end"] = ["end"] := by
      rw [contentLines, List.map_cons, hne]
      decide
    have hlength := congrArg List.length (honly.symm.trans hl)
    simp at hlength
  · rwa [(BlockParts.ofLines_cons _ hne).2 hparts] at haccepts

/-- The scan finds the header with its kind or not at all, and then it opens its levels. -/
theorem header_facts
    : headerKind? (trim block.header) = (if block.isFound then some block.kind else none)
      ∧ nestingDelta (trim block.header) = block.levels := by
  cases hk : block.kind with
  | hook =>
      have haccepts := block.accepts
      rw [hk] at haccepts
      obtain ⟨header, hh⟩ := haccepts
      obtain ⟨hlooks, hdo, hinitial⟩ :=
        HookHeader.isHookHeader_of_ofLine (fun hn => block.isLine (mem_of_mem_trim hn)) hh
      refine ⟨by simp [headerKind?, hlooks, isFound, hk], ?_⟩
      rw [nestingDelta_of_hasInitial hinitial, levels, hk, hdo]
      by_cases ho : opensInside (trim block.header) = true <;> simp [ho]
  | stepDefinition =>
      have haccepts := block.accepts
      rw [hk] at haccepts
      obtain ⟨header, hh⟩ := haccepts
      obtain ⟨hlooks, hinitial⟩ := DefinitionHeader.exists_of_ofLine hh
      refine ⟨by simp [headerKind?, hlooks, isFound, hk], ?_⟩
      rw [nestingDelta_of_hasInitial hinitial, levels, hk]
      by_cases ho : opensInside (trim block.header) = true <;>
        by_cases hd : endsWithDo (trim block.header) = true <;> simp [ho, hd]

end WrittenBlock

end SuiteScore.Support
