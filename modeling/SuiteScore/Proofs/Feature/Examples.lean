import SuiteScore.Proofs.Feature.Told
import SuiteScore.Proofs.Gherkin.ExampleRows
import SuiteScore.Proofs.Rule.BuiltIn
import SuiteScore.Proofs.Score.Hits

/-! Which outlines have all their example rows. The header of the first table with rows is kept if
this is the first table of all, and the rules about examples count on it.
-/

namespace SuiteScore

open Text Gherkin

-----------------------------------------------------------------------------------------
-- Headers and data
-----------------------------------------------------------------------------------------

namespace Gherkin.Element

variable (element : Element)

/-- The header of the first table of examples that has rows. -/
def headerRow? : Option Row :=
  element.rows.head?

/-- The rows of all tables of examples without the first of each. -/
def dataRows : List Row :=
  element.examples.flatMap fun examples => examples.rows.drop 1

/-- Whether the first table of examples has rows. -/
def startsWithRows : Bool :=
  element.examples.head?.any fun examples => !examples.rows.isEmpty

end Gherkin.Element

namespace Scenario

/-- The rows that a scenario takes are the data with or without the header, by the rows of the first
table.
-/
theorem exampleRows_eq {element : Element} {header : Row} (h : element.headerRow? = some header)
    : exampleRows element.examples
      = if element.startsWithRows then header :: element.dataRows else element.dataRows := by
  unfold Element.headerRow? Element.rows at h
  unfold Element.startsWithRows Element.dataRows
  cases hexamples : element.examples with
  | nil => rw [hexamples] at h; cases h
  | cons first rest =>
      cases hrows : first.rows with
      | nil => simp [exampleRows, hrows]
      | cons row more =>
          rw [hexamples, List.flatMap_cons, hrows] at h
          cases h
          simp [exampleRows, hrows]

end Scenario

-----------------------------------------------------------------------------------------
-- Lines of rows
-----------------------------------------------------------------------------------------

/-- The lines of rows, each after the commented-out rows before it. -/
def exampleLines (source : Text) (rows : List Row) : List Text :=
  rows.flatMap fun row =>
    (row.comments.map (·.text)).filter isExampleRow ++ [fileLine source row.line]

section Lines

variable {source : Text} {tree : FeatureTree} {element : Element}
  (h : FeatureTree.ofText source = .ok tree) (he : element ∈ tree.allElements)

include h he

/-- The line of a row stands in the span of its element, as an example row that is not commented
out, and what is before it is commented out.
-/
theorem row_stands {row : Row} (hrow : row ∈ element.rows)
    : spanLine? source element row.line = some (fileLine source row.line)
      ∧ isExampleRow (fileLine source row.line) = true
      ∧ isCommented (fileLine source row.line) = false
      ∧ ∀ comment ∈ row.comments, isCommented comment.text = true := by
  obtain ⟨layout⟩ := FeatureTree.nonempty_layout h he
  have hstands := layout.rows_standIn row hrow
  obtain ⟨i, raw, text, hline, hraw, hreads, hbars⟩ := hstands.line
  have hi := (List.getElem?_eq_some_iff.mp hraw).1
  have hfirst : Span.firstOf element ≤ element.line := Span.firstOf_le_line
  have hlast := layout.lastOf_eq
  have hnumber := layout.line_eq
  have hfile : (lines source)[row.line - 1]? = some raw := by
    have hindex : row.line - 1 = element.line + i := by omega
    rw [hindex]
    exact layout.getElem?_kept hraw
  have hkept : fileLine source row.line = dropEndWhile (fun c => c == '\r' || c == '\n') raw := by
    rw [fileLine, keptLines, List.getElem?_map, hfile]
    rfl
  have hspan : spanLine? source element row.line = some (fileLine source row.line) := by
    rw [spanLine?, if_pos (by omega), hkept, keptLines, List.getElem?_map, hfile]
    rfl
  have hsays : Line.of (fileLine source row.line) = .row text := by
    rw [hkept, Line.of, trim_dropEndWhile _ fun _ => isBlank_of_lineEnd]
    exact hreads
  have hbreak : '\n' ∉ fileLine source row.line := fun hin =>
    not_mem_of_mem_lines (List.mem_of_getElem? hfile) (mem_of_mem_dropEndWhile (hkept ▸ hin))
  obtain ⟨hexample, hlive⟩ := isExampleRow_of_row hsays hbars hbreak
  refine ⟨hspan, hexample, hlive, fun comment hin => ?_⟩
  have hsign := hstands.comments comment hin
  cases htext : comment.text with
  | nil => rw [htext] at hsign; cases hsign
  | cons c rest =>
      rw [htext] at hsign
      cases hsign
      rw [isCommented, trimStart_cons rest (by decide)]
      rfl

/-- What a scenario keeps of rows are their lines. -/
theorem rowLines_spanLine? {rows : List Row} (hrows : rows ⊆ element.rows)
    : Scenario.rowLines (fun row => spanLine? source element row.line) rows
      = exampleLines source rows := by
  rw [Scenario.rowLines, exampleLines, List.filter_flatMap]
  refine List.flatMap_congr fun row hin => ?_
  obtain ⟨hspan, hexample, _⟩ := row_stands h he (hrows hin)
  rw [hspan, List.filter_append, Option.toList_some, List.filter_cons_of_pos hexample]
  rfl

/-- Of the lines of rows those are not commented out that are rows themselves, by induction on the
rows.
-/
theorem countP_exampleLines {rows : List Row} (hrows : rows ⊆ element.rows)
    : (exampleLines source rows).countP (fun line => !isCommented line) = rows.length := by
  unfold exampleLines
  induction rows with
  | nil => rfl
  | cons row rest ih =>
      obtain ⟨hrow, hrest⟩ := List.cons_subset.mp hrows
      obtain ⟨_, _, hlive, hcomments⟩ := row_stands h he hrow
      have hnone : ((row.comments.map (·.text)).filter isExampleRow).countP
          (fun line => !isCommented line) = 0 := by
        refine List.countP_eq_zero.mpr fun line hin => ?_
        obtain ⟨comment, hcomment, rfl⟩ := List.mem_map.mp (List.mem_of_mem_filter hin)
        simp [hcomments comment hcomment]
      rw [List.flatMap_cons, List.countP_append, List.countP_append, hnone, ih hrest,
        List.countP_singleton, hlive, List.length_cons]
      simp [Nat.add_comm]

end Lines

-----------------------------------------------------------------------------------------
-- Rules about examples
-----------------------------------------------------------------------------------------

/-- A rule of the catalog says something about a scenario. -/
def Scenario.Fires (id : Text) (scenario : Scenario) : Prop :=
  ∃ hit ∈ evaluate catalog (.scenario scenario), hit.rule = id

/-- A rule of the catalog fires when it is enabled and counts something: it is the only one with its
identifier.
-/
theorem Scenario.fires_iff (scenario : Scenario) {rule : Rule} (hin : rule ∈ catalog)
    (henabled : rule.enabled = true)
    : scenario.Fires rule.id ↔ rule.trigger.count (.scenario scenario) ≠ 0 := by
  have hhit : rule.hit? (.scenario scenario) ≠ none
      ↔ rule.trigger.count (.scenario scenario) ≠ 0 := by
    rw [Rule.hit?]
    split <;> simp_all
  rw [← hhit, Option.ne_none_iff_exists']
  constructor
  · rintro ⟨hit, hmem, hid⟩
    obtain ⟨other, hother, hhit⟩ := List.mem_filterMap.mp hmem
    have hsame : other = rule := Rule.eq_of_id_eq (List.mem_of_mem_filter hother) hin
      ((Rule.rule_of_hit? hhit).symm.trans hid)
    exact ⟨hit, hsame ▸ hhit⟩
  · rintro ⟨hit, hhit⟩
    exact ⟨hit, List.mem_filterMap.mpr ⟨rule, List.mem_filter.mpr ⟨hin, henabled⟩, hhit⟩,
      Rule.rule_of_hit? hhit⟩

/-- A rule about the rows of outlines that are not commented out fires when its test holds. -/
theorem Scenario.fires_builtIn_iff (id remark : Text) (weight : Int) (test : Nat → Bool)
    {scenario : Scenario} (ho : scenario.isOutline = true)
    (hin : Rule.builtIn id weight remark (.scenario fun scenario =>
        Rule.once (scenario.isOutline && test (Rule.liveExamples scenario)))
      ∈ catalog)
    : scenario.Fires id ↔ test (Rule.liveExamples scenario) = true := by
  refine (fires_iff scenario hin rfl).trans ?_
  simp [Rule.builtIn, Trigger.count, Rule.once, ho]

/-- The rules about examples count the rows that are not commented out but one. -/
theorem Scenario.fires_examples_iff {scenario : Scenario} {n : Nat}
    (ho : scenario.isOutline = true) (hn : Rule.liveExamples scenario = n + 1)
    : (scenario.Fires "outline_no_examples" ↔ n = 0)
      ∧ (scenario.Fires "outline_one_example" ↔ n = 1)
      ∧ (scenario.Fires "outline_too_many_examples" ↔ Rule.maxExamples < n) := by
  have hno := fires_builtIn_iff "outline_no_examples" "with no examples." Rule.error (· == 1) ho
    (by simp only [catalog, Rule.ofScenario, List.mem_append, List.mem_cons, true_or, or_true])
  have hone := fires_builtIn_iff "outline_one_example" "with only one example." Rule.warning
    (· == 2) ho
    (by simp only [catalog, Rule.ofScenario, List.mem_append, List.mem_cons, true_or, or_true])
  have hmany := fires_builtIn_iff "outline_too_many_examples" "with too many examples."
    Rule.warning (fun live => decide (Rule.maxExamples + 1 < live)) ho
    (by simp only [catalog, Rule.ofScenario, List.mem_append, List.mem_cons, true_or, or_true])
  rw [hno, hone, hmany, hn]
  simp

-----------------------------------------------------------------------------------------
-- Examples of outlines
-----------------------------------------------------------------------------------------

/-- A scenario has the example rows of an outline of a file. If its lines can be read alone it has
all data, and the header of the first table with rows just when this is the first table of all; then
the rules about examples fire by the data.
-/
structure Scenario.HasExamples (source : Text) (scenario : Scenario) (element : Element)
    (header : Row)
    : Prop where
  whole
    : scenario.examples = exampleLines source (header :: element.dataRows)
      ↔ scenario.syntaxError = false ∧ element.startsWithRows = true
  read
    : scenario.syntaxError = false
      → element.startsWithRows = false
      → scenario.examples = exampleLines source element.dataRows
  live
    : scenario.syntaxError = false
      → Rule.liveExamples scenario
        = element.dataRows.length + if element.startsWithRows then 1 else 0
  rules
    : scenario.syntaxError = false
      → element.startsWithRows = true
      → (scenario.Fires "outline_no_examples" ↔ element.dataRows.length = 0)
        ∧ (scenario.Fires "outline_one_example" ↔ element.dataRows.length = 1)
        ∧ (scenario.Fires "outline_too_many_examples" ↔ 10 < element.dataRows.length)

section Outlines

variable {source : Text} {tree : FeatureTree} {element : Element} {header : Row} (path : Text)
  (h : FeatureTree.ofText source = .ok tree) (he : element ∈ tree.allElements)
  (hk : element.kind = .outline) (hh : element.headerRow? = some header)

include hh in
/-- The header and the data are rows of the element. -/
theorem cons_dataRows_subset : header :: element.dataRows ⊆ element.rows := by
  exact List.cons_subset.mpr ⟨List.mem_of_mem_head? hh, Scenario.laterRows_subset _⟩

/-- A header leaves one more line at least. -/
theorem exampleLines_cons_ne (source : Text) (header : Row) (rows : List Row)
    : exampleLines source rows ≠ exampleLines source (header :: rows) := by
  intro hsame
  have hlength := congrArg List.length hsame
  simp only [exampleLines, List.flatMap_cons, List.length_append, List.length_singleton] at hlength
  omega

include hk in
/-- An outline that is marked has no examples. -/
theorem hasExamples_markedOf
    : (markedOf path source element).HasExamples source element header := by
  have hnone : (markedOf path source element).examples = [] := by
    simp [markedOf, Scenario.adopt, Scenario.examples, ScenarioKind.ofElement, hk]
  have hmarked : ¬(markedOf path source element).syntaxError = false := Bool.noConfusion
  refine ⟨⟨fun hexamples => ?_, fun hread => absurd hread.1 hmarked⟩, fun hread => ?_,
    fun hread => ?_, fun hread => ?_⟩
  · rw [hnone] at hexamples
    simp [exampleLines] at hexamples
  · exact absurd hread hmarked
  · exact absurd hread hmarked
  · exact absurd hread hmarked

include h he hk hh

/-- An outline that can be read alone has its data, and its header by its first table. -/
theorem hasExamples_toldOf : (toldOf path source element).HasExamples source element header := by
  have hrows := cons_dataRows_subset hh
  have hexamples : (toldOf path source element).examples
      = exampleLines source (if element.startsWithRows then header :: element.dataRows
          else element.dataRows) := by
    rw [← Scenario.exampleRows_eq hh, ← rowLines_spanLine? h he (Scenario.exampleRows_subset _)]
    simp [toldOf, toldKind, toldRows, Scenario.examples, hk]
  have houtline : (toldOf path source element).isOutline = true := by
    simp [toldOf, toldKind, Scenario.isOutline, hk]
  have hlive : Rule.liveExamples (toldOf path source element)
      = element.dataRows.length + if element.startsWithRows then 1 else 0 := by
    rw [Rule.liveExamples, hexamples]
    cases element.startsWithRows with
    | true => exact countP_exampleLines h he hrows
    | false => exact countP_exampleLines h he (List.cons_subset.mp hrows).2
  refine ⟨⟨fun hwhole => ⟨rfl, ?_⟩, fun hread => ?_⟩, fun _ hstarts => ?_, fun _ => hlive,
    fun _ hstarts => ?_⟩
  · cases hstarts : element.startsWithRows with
    | true => rfl
    | false =>
        rw [hexamples, hstarts, if_neg Bool.false_ne_true] at hwhole
        exact absurd hwhole (exampleLines_cons_ne source header element.dataRows)
  · rw [hexamples, if_pos hread.2]
  · rw [hexamples, hstarts, if_neg Bool.false_ne_true]
  · rw [hstarts, if_pos rfl] at hlive
    exact Scenario.fires_examples_iff houtline hlive

end Outlines

/-- The outlines of an accepted file that have example rows. Each has the lines of the header of its
first table with rows and of all data exactly if its own lines can be read and its first table of
all has rows; then the rules about examples fire by the data.
-/
theorem examples_of_ofText {source : Text} {tree : FeatureTree} (path : Text)
    (h : FeatureTree.ofText source = .ok tree)
    : ∃ feature, Feature.ofText FeatureTree.ofText path source = .ok feature
        ∧ List.Forall₂
            (fun scenario element =>
              element.kind = .outline
              → ∀ header, element.headerRow? = some header
              → scenario.HasExamples source element header)
            feature.elements tree.allElements := by
  obtain ⟨feature, hfeature, hbackground, hscenarios⟩ := exists_feature path h
  refine ⟨feature, hfeature, ?_⟩
  rw [elements_of_parts hbackground hscenarios, List.forall₂_map_left_iff, List.forall₂_same]
  intro element he hk header hh
  rw [scenarioOf_eq_scenarioIn path h he, scenarioIn]
  split
  · exact hasExamples_markedOf path hk
  · exact hasExamples_toldOf path h he hk hh

/-- The first table has no rows, so that the header of the second is left out. -/
def emptyTable : Text :=
  "Feature: f\n  Scenario Outline: o\n    Given <a>\n    Examples:\n    Examples:\n"
    ++ "      | a |\n      | 1 |\n"

theorem examples_of_emptyTable
    : ∃ tree, FeatureTree.ofText emptyTable = .ok tree
        ∧ ∃ feature, Feature.ofText FeatureTree.ofText "f" emptyTable = .ok feature
          ∧ feature.elements.map (·.examples) = [[("      | 1 |" : Text)]]
          ∧ ∀ scenario ∈ feature.elements, Rule.liveExamples scenario = 1 := by
  have haccepted : FeatureTree.ofText emptyTable = .ok _ := rfl
  obtain ⟨feature, hfeature, hexamples⟩ := examples_of_ofText "f" haccepted
  cases hfeature
  refine ⟨_, rfl, _, rfl, rfl, ?_⟩
  cases hexamples with
  | cons hfirst hrest =>
      cases hrest
      exact List.forall_mem_singleton.mpr ((hfirst rfl _ rfl).live rfl)

/-- An outline that is not marked can be without its header. -/
theorem not_forall_examples_whole
    : ¬∀ (path source : Text) (tree : FeatureTree) (feature : Feature),
        FeatureTree.ofText source = .ok tree
        → Feature.ofText FeatureTree.ofText path source = .ok feature
        → ∀ entry ∈ feature.elements.zip tree.allElements,
            entry.2.kind = .outline
            → entry.1.syntaxError = false
            → ∀ header, entry.2.headerRow? = some header
            → entry.1.examples = exampleLines source (header :: entry.2.dataRows) := by
  intro h
  have hexamples := h "f" emptyTable _ _ rfl rfl _ List.mem_cons_self rfl rfl _ rfl
  cases hexamples

end SuiteScore
