import SuiteScore.Proofs.Feature.Examples
import SuiteScore.Proofs.Text.Split

/-! Rows are rendered in one form, with nothing but bars between their cells. It is the form of a
line that reads as the same row again.
-/

namespace SuiteScore

open Text Gherkin

namespace Gherkin

-----------------------------------------------------------------------------------------
-- Cells
-----------------------------------------------------------------------------------------

/-- What can stand in a cell: no bar, and no blank at either end. -/
structure IsCell (cell : Text) : Prop where
  bar : '|' ∉ cell
  trimmed : IsTrimmed cell

/-- The cells of a line are the pieces between its bars. -/
theorem cells_between_bars (inner : Text)
    : cells ('|' :: (inner ++ ['|'])) = (inner.splitOn '|').map trim := by
  simp [cells]

section Rows

variable {text : Text} (hbar : text.head? = some '|') (hrow : isRow text = true)

include hbar hrow

/-- A row starts with one bar and ends with another. -/
theorem exists_between_bars : ∃ inner, text = '|' :: (inner ++ ['|']) := by
  simp only [isRow, Bool.and_eq_true, beq_iff_eq, decide_eq_true_eq] at hrow
  obtain ⟨hlast, hlength⟩ := hrow
  cases text with
  | nil => cases hbar
  | cons c rest =>
      cases hbar
      rcases List.eq_nil_or_concat rest with rfl | ⟨inner, last, rfl⟩
      · exact absurd hlength (by decide)
      · rw [List.concat_eq_append, ← List.cons_append, List.getLast?_concat] at hlast
        exact ⟨inner, by rw [List.concat_eq_append, Option.some.inj hlast]⟩

/-- There is a cell between each bar and the next one. -/
theorem length_cells : (cells text).length + 1 = text.count '|' := by
  obtain ⟨inner, rfl⟩ := exists_between_bars hbar hrow
  rw [cells_between_bars, List.length_map, length_splitOn]
  simp

theorem cells_ne_nil : cells text ≠ [] := by
  obtain ⟨inner, rfl⟩ := exists_between_bars hbar hrow
  rw [cells_between_bars]
  simp

/-- A cell holds only characters of its line, but no bar and no blanks around it. -/
theorem facts_of_mem_cells {cell : Text} (h : cell ∈ cells text) : IsCell cell ∧ cell ⊆ text := by
  obtain ⟨inner, rfl⟩ := exists_between_bars hbar hrow
  rw [cells_between_bars] at h
  obtain ⟨piece, hpiece, rfl⟩ := List.mem_map.mp h
  obtain ⟨hsub, hnone⟩ := facts_of_mem_splitOn hpiece
  refine ⟨⟨fun hin => hnone (mem_of_mem_trim hin), isTrimmed_trim piece⟩, fun c hc => ?_⟩
  apply List.mem_cons_of_mem
  exact List.mem_append_left _ (hsub (mem_of_mem_trim hc))

end Rows

-----------------------------------------------------------------------------------------
-- Rendered rows
-----------------------------------------------------------------------------------------

namespace Row

variable (row : Row)

theorem render_eq : row.render = '|' :: (joined "|" row.cells ++ ['|']) := by
  simp [render]

/-- A rendered row starts and ends with a bar, and these are two. -/
theorem isRow_render : isRow row.render = true := by
  rw [render_eq, ← List.cons_append, isRow, List.getLast?_concat]
  simp

theorem isTrimmed_render : IsTrimmed row.render := by
  rw [render_eq]
  refine ⟨fun c hc => ?_, fun c hc => ?_⟩
  · cases hc
    decide
  · rw [← List.cons_append, List.getLast?_concat] at hc
    cases hc
    decide

/-- A rendered row reads as a row, since no other kind of line starts with a bar. -/
theorem of_render : Line.of row.render = .row row.render := by
  rw [Line.of, row.isTrimmed_render.trim_eq, render_eq]
  rfl

/-- A rendered row has the cells of the row: these are what stands between its bars. -/
theorem cells_render (hsome : row.cells ≠ []) (hcells : ∀ cell ∈ row.cells, IsCell cell)
    : Gherkin.cells row.render = row.cells := by
  have hsplit : (joined "|" row.cells).splitOn '|' = row.cells :=
    List.splitOn_intercalate '|' (fun cell hin => (hcells cell hin).bar) hsome
  have htrim : row.cells.map trim = row.cells.map id :=
    List.map_congr_left fun cell hin => (hcells cell hin).trimmed.trim_eq
  rw [render_eq, cells_between_bars, hsplit, htrim, List.map_id]

/-- What is in a rendered row is a bar or in a cell. -/
theorem mem_render {c : Char} (h : c ∈ row.render) : c = '|' ∨ ∃ cell ∈ row.cells, c ∈ cell := by
  rw [render_eq, List.mem_cons, List.mem_append, List.mem_singleton] at h
  rcases h with hbar | hinner | hbar
  · exact .inl hbar
  · exact (mem_joined hinner).imp_left List.mem_singleton.mp
  · exact .inl hbar

end Row

/-- A row with the cells of a line stands for this line: rendered, it is an example row and reads
as the same row again.
-/
structure Row.StandsFor (row : Row) (raw : Text) : Prop where
  reads : Line.of row.render = .row row.render
  isRow : isRow row.render = true
  cells : Gherkin.cells row.render = row.cells
  stable : ∀ again : Row, again.cells = Gherkin.cells row.render → again.render = row.render
  count : row.cells.length + 1 = (trim raw).count '|'
  each : ∀ cell ∈ row.cells, IsCell cell
  rendered : isExampleRow row.render = true
  written : isExampleRow raw = true

/-- The row of a line stands for it. -/
theorem Row.standsFor_of_row {raw text : Text} (hline : '\n' ∉ raw)
    (hreads : Line.of raw = .row text) (hbars : Gherkin.isRow text = true) {row : Row}
    (hcells : row.cells = Gherkin.cells text)
    : row.StandsFor raw := by
  have hfits := Line.fits_ofTrimmed (trim raw)
  rw [← Line.of, hreads] at hfits
  obtain ⟨rfl, hbar⟩ := hfits
  have hfacts : ∀ cell ∈ row.cells, IsCell cell ∧ cell ⊆ trim raw := fun cell hin =>
    facts_of_mem_cells hbar hbars (hcells ▸ hin)
  have hsome : row.cells ≠ [] := hcells ▸ cells_ne_nil hbar hbars
  have hagain := row.cells_render hsome fun cell hin => (hfacts cell hin).1
  have hbreak : '\n' ∉ row.render := by
    intro hin
    rcases row.mem_render hin with hbar | ⟨cell, hcell, hc⟩
    · cases hbar
    · exact hline (mem_of_mem_trim ((hfacts cell hcell).2 hc))
  refine ⟨row.of_render, row.isRow_render, hagain, fun again hsame => ?_, ?_,
    fun cell hin => (hfacts cell hin).1, ?_, ?_⟩
  · rw [render_eq, render_eq, hsame, hagain]
  · rw [hcells]
    exact length_cells hbar hbars
  · exact (isExampleRow_of_row row.of_render row.isRow_render hbreak).1
  · exact (isExampleRow_of_row hreads hbars hline).1

/-- A reader takes only rows between two bars. -/
theorem Reader.isRow_of_addRow {reader next : Reader} {n : Nat} {text : Text}
    (h : reader.addRow n text = .ok next)
    : isRow text = true := by
  unfold addRow at h
  split at h
  · cases h
  · next hbars => simpa using hbars

/-- All that a reader keeps of a row are its cells. -/
theorem Reader.addRow_congr (reader : Reader) (n : Nat) {text other : Text}
    (h : isRow text = true) (ho : isRow other = true) (hcells : cells text = cells other)
    : reader.addRow n text = reader.addRow n other := by
  simp only [addRow, h, ho, hcells]

end Gherkin

/-- A line that a reader takes as a row is rendered as a line that it takes as the same row, with
the same outcome, and both are example rows. So a scenario that can be read leaves out none of the
lines of the rows that it has from its element.
-/
theorem rows_of_lines
    : (∀ (reader next : Reader) (n : Nat) (raw text : Text), '\n' ∉ raw →
        reader.docString = none → Line.of raw = .row text → reader.takeRaw n raw = .ok next →
        ∀ row : Row, row.cells = cells text →
          row.StandsFor raw ∧ reader.takeRaw n row.render = .ok next)
      ∧ ∀ (path source : Text) (tree : FeatureTree), FeatureTree.ofText source = .ok tree →
          ∃ feature, Feature.ofText FeatureTree.ofText path source = .ok feature
            ∧ List.Forall₂
                (fun scenario element =>
                  element.kind = .outline → scenario.syntaxError = false →
                    scenario.examples
                      = exampleLines source (Scenario.exampleRows element.examples))
                feature.elements tree.allElements := by
  refine ⟨fun reader next n raw text hline hdoc hreads htakes row hcells => ?_,
    fun path source tree h => ?_⟩
  · have htake : ∀ line, reader.takeRaw n line = reader.take n (Line.of line) := fun line => by
      rw [Reader.takeRaw, hdoc]
    rw [htake, hreads] at htakes
    have hbars : isRow text = true := Reader.isRow_of_addRow htakes
    have hstands := Row.standsFor_of_row hline hreads hbars hcells
    refine ⟨hstands, ?_⟩
    rw [htake, hstands.reads]
    exact (reader.addRow_congr n hstands.isRow hbars (hstands.cells.trans hcells)).trans htakes
  · obtain ⟨feature, hfeature, hbackground, hscenarios⟩ := exists_feature path h
    refine ⟨feature, hfeature, ?_⟩
    rw [elements_of_parts hbackground hscenarios, List.forall₂_map_left_iff, List.forall₂_same]
    intro element he hkind hread
    rw [scenarioOf_eq_scenarioIn path h he] at hread ⊢
    unfold scenarioIn at hread ⊢
    split at hread
    · cases hread
    · next hmarked =>
        rw [if_neg hmarked, ← rowLines_spanLine? h he (Scenario.exampleRows_subset _)]
        simp [toldOf, toldKind, toldRows, Scenario.examples, hkind]

/-- A row with an empty cell, and with blanks of several kinds around it and around its cells. -/
def looseRow : Text := "\t| a ||  b\u00a0|  \r"

/-- A file where the row is the header of examples, with a commented-out row before the data. -/
def looseFile : Text :=
  "Feature: f\nScenario Outline: o\nGiven x\nExamples:\n" ++ looseRow
    ++ "\n# | 0 |\n# note\n| 1 | 2 | 3 |\n"

/-- A reader behind the first step of a scenario. -/
def stepReader : Reader :=
  { Reader.start with
    feature := some ⟨"f", [], [], [], 1, none, []⟩
    current := some ⟨.scenario, "s", [], [], [], 2, [⟨.context, "x", 3, [], none⟩], []⟩ }

theorem rows_of_looseRow
    : ∃ next : Reader,
        '\n' ∉ looseRow
        ∧ Reader.start.takeAll 1 ["Feature: f", "Scenario: s", "Given x"] = .ok stepReader
        ∧ stepReader.docString = none
        ∧ Line.of looseRow = .row "| a ||  b\u00a0|"
        ∧ stepReader.takeRaw 4 looseRow = .ok next
        ∧ stepReader.takeRaw 4 "|a||b|" = .ok next
        ∧ isExampleRow looseRow = true
        ∧ ∃ tree, FeatureTree.ofText looseFile = .ok tree
          ∧ ∃ feature, Feature.ofText FeatureTree.ofText "f" looseFile = .ok feature
            ∧ ∀ scenario ∈ feature.elements,
                scenario.examples = ["\t| a ||  b\u00a0|  ", "# | 0 |", "| 1 | 2 | 3 |"] := by
  have hline : '\n' ∉ looseRow := by decide
  have hreads : Line.of looseRow = .row "| a ||  b\u00a0|" := rfl
  have htakes : stepReader.takeRaw 4 looseRow = .ok _ := rfl
  have haccepted : FeatureTree.ofText looseFile = .ok _ := rfl
  obtain ⟨hrows, hexamples⟩ := rows_of_lines
  obtain ⟨hstands, hagain⟩ := hrows _ _ 4 looseRow _ hline rfl hreads htakes
    ⟨["a", [], "b"], 4, []⟩ (by decide)
  obtain ⟨feature, hfeature, hall⟩ := hexamples "f" looseFile _ haccepted
  refine ⟨_, hline, rfl, rfl, hreads, htakes, hagain, hstands.written, _, haccepted, feature,
    hfeature, ?_⟩
  cases hfeature
  cases hall with
  | cons hfirst hrest =>
      cases hrest
      exact List.forall_mem_singleton.mpr (hfirst rfl rfl)

end SuiteScore
