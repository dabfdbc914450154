import Mathlib.Data.List.Forall2
import SuiteScore.Proofs.Feature.Elements
import SuiteScore.Proofs.Text.Replace
import SuiteScore.Support.Block

/-! Line ends do not matter. Texts with the same lines are read the same, a carriage return before
each line feed is no part of a line, and a scenario keeps its lines without the characters of line
ends behind them.
-/

namespace SuiteScore

open Text Gherkin

-----------------------------------------------------------------------------------------
-- Whole texts
-----------------------------------------------------------------------------------------

/-- A carriage return that is put before every line feed is no part of a line, by induction on the
text. The text has none of its own, which would be left at the end of a line.
-/
theorem Text.lines_replace_newline {text : Text} (h : '\r' ∉ text)
    : lines (replace "\n" "\r\n" text) = lines text := by
  induction text with
  | nil => rfl
  | cons c rest ih =>
      rw [List.mem_cons, not_or] at h
      have hc : c ≠ '\r' := fun he => h.1 he.symm
      have hrest := ih h.2
      have hreplace := replace_singleton_cons '\n' c "\r\n" rest
      by_cases hn : '\n' = c
      · subst hn
        rw [if_pos rfl] at hreplace
        calc lines (replace "\n" "\r\n" ('\n' :: rest))
            = lines ('\r' :: '\n' :: replace "\n" "\r\n" rest) := congrArg lines hreplace
          _ = [] :: lines rest := congrArg ([] :: ·) hrest
          _ = lines ('\n' :: rest) := rfl
      · rw [if_neg hn] at hreplace
        have hne : c ≠ '\n' := fun he => hn he.symm
        calc lines (replace "\n" "\r\n" (c :: rest))
            = lines (c :: replace "\n" "\r\n" rest) := congrArg lines hreplace
          _ = lines (c :: rest) := by
                rw [lines_cons hne fun he => absurd he hc, lines_cons hne fun he => absurd he hc,
                  ← hrest]

section SameLines

variable {source other : Text} (h : Text.lines source = Text.lines other)

include h

/-- Only its lines count when a text is read as a feature file. -/
theorem Gherkin.FeatureTree.ofText_congr_lines
    : FeatureTree.ofText source = FeatureTree.ofText other := by
  rw [FeatureTree.ofText, FeatureTree.ofText, h]

/-- Only its lines count for the feature of a text, also when it is blank. -/
theorem Feature.ofText_congr_lines (path : Text)
    : ofText FeatureTree.ofText path source = ofText FeatureTree.ofText path other := by
  rw [ofText, ofText, h, FeatureTree.ofText_congr_lines h]

/-- Only its lines count for the blocks of a text. -/
theorem Support.blocks_congr_lines : blocks source = blocks other := by
  rw [blocks, blocks, h]

end SameLines

-----------------------------------------------------------------------------------------
-- Lines of a block
-----------------------------------------------------------------------------------------

/-- A line is another one with some characters of line ends behind it. -/
def AddsLineEnds (line longer : Text) : Prop :=
  ∃ ends : Text, (∀ c ∈ ends, c = '\r' ∨ c = '\n') ∧ longer = line ++ ends

/-- Line ends behind the lines of a block are not kept, line by line. -/
theorem keptLines_of_addsLineEnds {block longer : List Text}
    (h : List.Forall₂ AddsLineEnds block longer)
    : keptLines longer = keptLines block := by
  induction h with
  | nil => rfl
  | @cons line other rest others hline _ ih =>
      obtain ⟨ends, hends, rfl⟩ := hline
      have hdrop : ∀ c ∈ ends, (c == '\r' || c == '\n') = true := by
        simpa only [Bool.or_eq_true, beq_iff_eq] using hends
      rw [keptLines, keptLines] at ih ⊢
      rw [List.map_cons, List.map_cons, ih, dropEndWhile_append line hdrop]

/-- Only the lines that are kept count when a scenario is read. -/
theorem Scenario.ofBlock_congr_keptLines {block other : List Text}
    (h : keptLines block = keptLines other) (grammar : Grammar) (location : Text)
    : ofBlock grammar location block = ofBlock grammar location other := by
  rw [keptLines, keptLines] at h
  rw [ofBlock, ofBlock, h]

-----------------------------------------------------------------------------------------
-- Other line ends
-----------------------------------------------------------------------------------------

/-- Line ends do not matter. A text without carriage returns is read the same when each of its line
feeds gets one, as a feature file by itself, as a feature with its scenarios, and as a support file.
A scenario is the same for every grammar when characters of line ends are put behind its lines.
-/
theorem readings_of_lineEnds
    : (∀ source : Text, '\r' ∉ source →
        FeatureTree.ofText (replace "\n" "\r\n" source) = FeatureTree.ofText source
        ∧ (∀ path, Feature.ofText FeatureTree.ofText path (replace "\n" "\r\n" source)
            = Feature.ofText FeatureTree.ofText path source)
        ∧ Support.blocks (replace "\n" "\r\n" source) = Support.blocks source)
      ∧ ∀ (grammar : Grammar) (location : Text) (block longer : List Text),
          List.Forall₂ AddsLineEnds block longer →
          Scenario.ofBlock grammar location longer = Scenario.ofBlock grammar location block := by
  refine ⟨fun source h => ?_, fun grammar location block longer h => ?_⟩
  · have hlines := lines_replace_newline h
    exact ⟨FeatureTree.ofText_congr_lines hlines, Feature.ofText_congr_lines hlines,
      Support.blocks_congr_lines hlines⟩
  · exact Scenario.ofBlock_congr_keptLines (keptLines_of_addsLineEnds h) grammar location

/-- A doc string in it has an empty line, and its last line has no end. -/
def unendedSource : Text :=
  "Feature: f\n  Scenario: s\n    Given x\n      \"\"\"\n\n      y\n      \"\"\"\n    * z"

theorem readings_of_unendedSource
    : '\r' ∉ unendedSource
      ∧ (∃ tree,
          FeatureTree.ofText unendedSource = .ok tree
          ∧ FeatureTree.ofText (replace "\n" "\r\n" unendedSource) = .ok tree)
      ∧ List.Forall₂ AddsLineEnds ["Scenario: s", "  Given x"]
          ["Scenario: s\r", "  Given x\n\r\n"]
      ∧ (Scenario.ofBlock FeatureTree.ofText "f:2" ["Scenario: s\r", "  Given x\n\r\n"]).steps
        = ["  Given x"] := by
  have hsource : '\r' ∉ unendedSource := by decide
  have hlonger : List.Forall₂ AddsLineEnds ["Scenario: s", "  Given x"]
      ["Scenario: s\r", "  Given x\n\r\n"] :=
    .cons ⟨"\r", by simp, rfl⟩ (.cons ⟨"\n\r\n", by simp, rfl⟩ .nil)
  obtain ⟨hsame, hblock⟩ := readings_of_lineEnds
  refine ⟨hsource, ⟨_, rfl, (hsame unendedSource hsource).1.trans rfl⟩, hlonger, ?_⟩
  rw [hblock FeatureTree.ofText "f:2" _ _ hlonger]
  rfl

end SuiteScore
