import SuiteScore.Proofs.Feature.Tables
import SuiteScore.Proofs.Score.Congruence
import SuiteScore.Proofs.Score.Weights

/-! Scores and the blanks around lines. Other blanks leave every hit as it was, but for the rule
about tables: tables are kept by step lines as they stand, so other blanks can tell apart two lines
that were one, or make them one.
-/

namespace SuiteScore

open Text Gherkin

variable {source other : Text} {tree : FeatureTree} {element : Element}

-----------------------------------------------------------------------------------------
-- Lines
-----------------------------------------------------------------------------------------

section Lines

variable (h : (lines source).map trim = (lines other).map trim)

include h

/-- Kept lines with one number differ in blanks only. -/
theorem map_trim_getElem? (i : Nat)
    : (keptLines (lines source))[i]?.map trim = (keptLines (lines other))[i]?.map trim := by
  rw [← List.getElem?_map, ← List.getElem?_map, map_trim_keptLines, map_trim_keptLines, h]

theorem trim_fileLine (number : Nat)
    : trim (fileLine source number) = trim (fileLine other number) := by
  have hline := map_trim_getElem? h (number - 1)
  simp only [fileLine, ← Option.getD_map trim, hline]

theorem map_trim_spanLine? (element : Element) (number : Nat)
    : (spanLine? source element number).map trim = (spanLine? other element number).map trim := by
  unfold spanLine?
  split
  · exact map_trim_getElem? h (number - 1)
  · rfl

/-- The example rows of an element differ in blanks only. -/
theorem map_trim_toldRows (element : Element)
    : (toldRows source element).map trim = (toldRows other element).map trim := by
  have htest : isExampleRow ∘ trim = isExampleRow := funext isExampleRow_trim
  have hfilter : ∀ lines : List Text,
      (lines.filter isExampleRow).map trim = (lines.map trim).filter isExampleRow := fun lines => by
    rw [List.filter_map, htest]
  rw [toldRows, toldRows, Scenario.rowLines, Scenario.rowLines, hfilter, hfilter,
    List.map_flatMap, List.map_flatMap]
  refine congrArg (List.filter isExampleRow) (List.flatMap_congr fun row _ => ?_)
  rw [List.map_append, List.map_append, ← Option.toList_map, ← Option.toList_map,
    map_trim_spanLine? h]

/-- The steps of an element differ in blanks only, step by step. -/
theorem forall₂_toldSteps (ht : FeatureTree.ofText source = .ok tree)
    (he : element ∈ tree.allElements)
    : List.Forall₂ Rule.IsSameStep (toldSteps source element) (toldSteps other element) := by
  have hsteps : List.Forall₂ (fun step twin => step = twin ∧ step ∈ element.steps) element.steps
      element.steps := List.forall₂_same.mpr fun step hin => ⟨rfl, hin⟩
  refine List.rel_flatMap hsteps ?_
  rintro step _ ⟨rfl, hin⟩
  have hline : Rule.IsSameStep (fileLine source step.line) (fileLine other step.line) :=
    .inr ⟨trim_fileLine h step.line, step.keyword, step.text, of_fileLine ht he hin⟩
  exact List.rel_append (List.forall₂_same.mpr fun line _ => .inl rfl) (.cons hline .nil)

/-- Sources that differ in blanks around their lines tell scenarios that do. -/
theorem resembles_of_toldAlike {path : Text} {scenario twin : Scenario}
    (ht : ToldAlike path source other scenario twin)
    : scenario.Resembles twin := by
  obtain ⟨tree, element, htree, he, rfl, rfl⟩ := ht
  have hsaid : saidIn source = saidIn other := (SayAlike.of_trim h).readings_eq
  rw [scenarioIn, scenarioIn, hsaid]
  split
  · exact ⟨rfl, rfl, rfl, rfl, .nil⟩
  · refine ⟨?_, ?_, rfl, rfl, forall₂_toldSteps h htree he⟩
    · simp only [toldOf, toldName, hsaid]
    · simp only [toldOf, toldKind]
      cases element.kind with
      | background | scenario => rfl
      | outline => exact congrArg ScenarioKind.outline (map_trim_toldRows h element)

end Lines

-----------------------------------------------------------------------------------------
-- Tables
-----------------------------------------------------------------------------------------

/-- Two steps of an element that have tables stand in the same line of one source just when they do
in the other.
-/
def RepeatsAlike (source other : Text) (element : Element) : Prop :=
  ∀ first ∈ element.steps, ∀ second ∈ element.steps,
    first.table?.isSome → second.table?.isSome →
    (fileLine source first.line = fileLine source second.line
      ↔ fileLine other first.line = fileLine other second.line)

instance (source other : Text) (element : Element)
    : Decidable (RepeatsAlike source other element) :=
  inferInstanceAs (Decidable (∀ first ∈ element.steps, ∀ second ∈ element.steps,
    first.table?.isSome → second.table?.isSome →
    (fileLine source first.line = fileLine source second.line
      ↔ fileLine other first.line = fileLine other second.line)))

/-- As many tables that are too long are left where the same step lines repeat. -/
theorem largeTables_scenarioIn (path : Text) (h : RepeatsAlike source other element)
    (hs : saidIn source = saidIn other)
    : (scenarioIn path source element).largeTables
      = (scenarioIn path other element).largeTables := by
  have hcount : ∀ source, (toldOf path source element).largeTables
      = ((StepTables.lasting (tableEntries source element)).map (·.2)).countP fun rows =>
          decide (Rule.maxTableRows < rows.length) := fun source => by
    rw [List.countP_map]
    exact (StepTables.insertAll_perm _).countP_eq _
  have hlasting : (StepTables.lasting (tableEntries source element)).map (·.2)
      = (StepTables.lasting (tableEntries other element)).map (·.2) :=
    StepTables.map_lasting_congr h
  rw [scenarioIn, scenarioIn, hs]
  split
  · rfl
  · rw [hcount, hcount, hlasting]

/-- The rule about tables counts those that are too long. -/
theorem Scenario.tally_keeping_tableRule (scenario : Scenario)
    : tally Hit.count ((TargetScore.ofScenario catalog scenario).keeping (· = tableRule)).hits
      = scenario.largeTables := by
  have hrules : catalog.filter (fun rule => rule.id = tableRule)
      = [Rule.builtIn tableRule Rule.info "has a step table that is too long."
          (.scenario largeTables)] := rfl
  rw [← TargetScore.ofScenario_filter, hrules]
  exact tally_evaluate _ _

-----------------------------------------------------------------------------------------
-- Scores
-----------------------------------------------------------------------------------------

/-- Other blanks around the lines of a file give the same error, or the same scores by all rules
that are made from the catalog but the rule about tables. That rule too counts the same when in each
element the same step lines with tables repeat.
-/
theorem scores_of_map_trim_eq (path : Text) (overrides : Overrides)
    (h : (lines source).map trim = (lines other).map trim)
    : (Feature.ofText FeatureTree.ofText path source).map (fun feature =>
          (FeatureScore.of (applyOverrides overrides catalog) feature).keeping (· ≠ tableRule))
        = (Feature.ofText FeatureTree.ofText path other).map (fun feature =>
            (FeatureScore.of (applyOverrides overrides catalog) feature).keeping (· ≠ tableRule))
      ∧ ((∀ tree, FeatureTree.ofText source = .ok tree →
            ∀ element ∈ tree.allElements, RepeatsAlike source other element)
          → (Feature.ofText FeatureTree.ofText path source).map
                (FeatureScore.of (applyOverrides overrides catalog))
              = (Feature.ofText FeatureTree.ofText path other).map
                  (FeatureScore.of (applyOverrides overrides catalog))) := by
  have hbuiltIn := isBuiltIn_of_mem_applyOverrides overrides
  have houtcome := sameOutcome_ofText path (SayAlike.of_trim h)
  have hsaid : saidIn source = saidIn other := (SayAlike.of_trim h).readings_eq
  constructor
  · refine houtcome.map_eq fun feature twin hrelated => ?_
    rw [← FeatureScore.of_filter, ← FeatureScore.of_filter]
    refine FeatureScore.of_congr (fun rule hin => hbuiltIn rule (List.mem_of_mem_filter hin)) ?_
    refine hrelated.imp fun scenario twin ht =>
      ⟨resembles_of_toldAlike h ht, fun rule hin => .inl ?_⟩
    exact of_decide_eq_true (List.mem_filter.mp hin).2
  · intro hrepeats
    refine houtcome.map_eq fun feature twin hrelated => ?_
    refine FeatureScore.of_congr hbuiltIn ?_
    refine hrelated.imp fun scenario twin ht =>
      ⟨resembles_of_toldAlike h ht, fun rule _ => .inr ?_⟩
    obtain ⟨tree, element, htree, he, rfl, rfl⟩ := ht
    exact largeTables_scenarioIn path (hrepeats tree htree element he) hsaid

/-- Rows of a table. -/
def tableLines (rows : Nat) : Text :=
  (List.replicate rows ("      | a |\n" : Text)).flatten

/-- A file with one step twice, each time with a table of so many rows, and with some blanks before
it the second time.
-/
def repeatedStep (blanks : Text) (rows : Nat) : Text :=
  ("Feature: f\n  Scenario: s\n    Given x\n" : Text) ++ tableLines rows ++ blanks ++ "Given x\n"
    ++ tableLines rows

theorem scores_of_repeatedStep
    : (lines (repeatedStep "  " 1)).map trim = (lines (repeatedStep "      " 1)).map trim
      ∧ (∀ tree, FeatureTree.ofText (repeatedStep "  " 1) = .ok tree →
          ∀ element ∈ tree.allElements,
            RepeatsAlike (repeatedStep "  " 1) (repeatedStep "      " 1) element)
      ∧ (Feature.ofText FeatureTree.ofText "f" (repeatedStep "  " 1)).map
            (FeatureScore.of (applyOverrides [] catalog))
          = (Feature.ofText FeatureTree.ofText "f" (repeatedStep "      " 1)).map
              (FeatureScore.of (applyOverrides [] catalog)) := by
  have htrim : (lines (repeatedStep "  " 1)).map trim
      = (lines (repeatedStep "      " 1)).map trim := by decide
  have hrepeats : ∀ tree, FeatureTree.ofText (repeatedStep "  " 1) = .ok tree →
      ∀ element ∈ tree.allElements,
        RepeatsAlike (repeatedStep "  " 1) (repeatedStep "      " 1) element := by
    intro tree htree
    have haccepted : FeatureTree.ofText (repeatedStep "  " 1) = .ok _ := rfl
    rw [haccepted] at htree
    cases htree
    decide
  exact ⟨htrim, hrepeats, (scores_of_map_trim_eq "f" [] htrim).2 hrepeats⟩

/-- A step that is repeated with other blanks has a table of its own. -/
theorem not_forall_scores_of_map_trim_eq
    : ¬∀ source other path : Text, ∀ overrides : Overrides,
        (lines source).map trim = (lines other).map trim
        → (Feature.ofText FeatureTree.ofText path source).map
              (FeatureScore.of (applyOverrides overrides catalog))
            = (Feature.ofText FeatureTree.ofText path other).map
                (FeatureScore.of (applyOverrides overrides catalog)) := by
  intro hall
  have hsame := hall (repeatedStep "    " 11) (repeatedStep "      " 11) "f" [] (by decide)
  obtain ⟨once, honce, hone⟩ : ∃ feature,
      Feature.ofText FeatureTree.ofText "f" (repeatedStep "    " 11) = .ok feature
        ∧ feature.scenarios.map (·.largeTables) = [1] := ⟨_, rfl, rfl⟩
  obtain ⟨twice, htwice, htwo⟩ : ∃ feature,
      Feature.ofText FeatureTree.ofText "f" (repeatedStep "      " 11) = .ok feature
        ∧ feature.scenarios.map (·.largeTables) = [2] := ⟨_, rfl, rfl⟩
  rw [honce, htwice] at hsame
  have hscores : FeatureScore.of catalog once = FeatureScore.of catalog twice :=
    Except.ok.inj hsame
  have hcounts := congrArg
    (fun score => score.scenarios.map fun target =>
      tally Hit.count (target.keeping (· = tableRule)).hits) hscores
  simp only [FeatureScore.of, List.map_map, Function.comp_def, Scenario.tally_keeping_tableRule]
    at hcounts
  rw [hone, htwo] at hcounts
  cases hcounts

end SuiteScore
