import SuiteScore.Proofs.Feature.Told
import SuiteScore.Proofs.Gherkin.StepOrder
import SuiteScore.Proofs.Rule.BuiltIn

/-! Commented-out steps of scenarios. Those that lead to a step stand among the steps of a scenario
as they do in the file, and each of them is counted.
-/

namespace SuiteScore

open Text Gherkin

variable {source : Text} {tree : FeatureTree} {element : Element}

/-- The steps in the span of an element below its keyword line, with the commented-out steps that
lead to them, in the order of the file.
-/
def spanSteps (source : Text) (element : Element) : List Text :=
  stepsIn (fun k => fileLine source (element.line + k))
    (numbered (element.extentOf (saidIn source)))

/-- The steps of an element are told by its span. -/
theorem toldSteps_eq_spanSteps (h : FeatureTree.ofText source = .ok tree)
    (he : element ∈ tree.allElements)
    : toldSteps source element = spanSteps source element := by
  obtain ⟨layout⟩ := FeatureTree.nonempty_layout h he
  exact layout.stepTexts_eq (fileLine source)

/-- A scenario has the steps of an element of a file, and the commented-out steps that lead to them
where they stand among these, and all of them are counted.
-/
structure Scenario.KeepsSteps (source : Text) (scenario : Scenario) (element : Element) : Prop where
  kept : (spanSteps source element).Sublist scenario.steps
  live
    : (spanSteps source element).filter (fun line => !isCommented line)
      = scenario.steps.filter fun line => !isCommented line
  counted
    : ∀ rule ∈ catalog, rule.id = "step_commented" →
        (spanSteps source element).countP isCommented ≤ rule.trigger.count (.scenario scenario)

/-- The rule about commented-out steps counts them. -/
theorem count_stepCommented {rule : Rule} (hin : rule ∈ catalog) (hid : rule.id = "step_commented")
    (scenario : Scenario)
    : rule.trigger.count (.scenario scenario) = scenario.steps.countP isCommented :=
  (isBuiltIn_of_mem_catalog rule hin).count_step List.mem_cons_self hid scenario

/-- Every scenario of an accepted file that is not marked keeps the commented-out steps that lead to
a step: below the keyword line and in the span of its element, with no line between that would take
them otherwise.
-/
theorem keepsSteps_of_ofText (path : Text) (h : FeatureTree.ofText source = .ok tree)
    : ∃ feature, Feature.ofText FeatureTree.ofText path source = .ok feature
        ∧ List.Forall₂
            (fun scenario element =>
              scenario.syntaxError = false → scenario.KeepsSteps source element)
            feature.elements tree.allElements := by
  obtain ⟨feature, hfeature, hbackground, hscenarios⟩ := exists_feature path h
  refine ⟨feature, hfeature, ?_⟩
  rw [elements_of_parts hbackground hscenarios, List.forall₂_map_left_iff, List.forall₂_same]
  intro element he hread
  have hsteps : (Feature.scenarioOf FeatureTree.ofText path (lines source) element).steps
      = spanSteps source element := by
    rw [(mirrorsLines_scenarioOf path h he hread).steps]
    exact toldSteps_eq_spanSteps h he
  refine ⟨hsteps ▸ List.Sublist.refl _, by rw [hsteps], fun rule hin hid => ?_⟩
  rw [count_stepCommented hin hid, hsteps]

/-- The first comment leads to the step below it and the second to the step behind the doc string,
which takes no comments. What stands in the doc string is no comment.
-/
def quotedSteps : Text :=
  "Feature: f\n  Scenario: s\n    # Given w\n    Given x\n    # When y\n    \"\"\"\n    # Then t\n"
    ++ "    \"\"\"\n    And z\n"

theorem keepsSteps_of_quotedSteps
    : ∃ tree, FeatureTree.ofText quotedSteps = .ok tree
        ∧ ∃ feature, Feature.ofText FeatureTree.ofText "f" quotedSteps = .ok feature
          ∧ List.Forall₂ (Scenario.KeepsSteps quotedSteps) feature.elements tree.allElements
          ∧ tree.allElements.map (spanSteps quotedSteps)
            = [[("# Given w" : Text), "    Given x", "# When y", "    And z"]] := by
  have haccepted : FeatureTree.ofText quotedSteps = .ok _ := rfl
  obtain ⟨feature, hfeature, hkeeps⟩ := keepsSteps_of_ofText "f" haccepted
  cases hfeature
  refine ⟨_, rfl, _, rfl, ?_, rfl⟩
  cases hkeeps with
  | cons hfirst hrest =>
      cases hrest
      exact .cons (hfirst rfl) .nil

/-- The comment stands before examples, which take it. -/
def passedStep : Text :=
  "Feature: f\n  Scenario Outline: o\n    Given x\n    # When y\n    Examples:\n      | a |\n"
    ++ "      | 1 |\n"

/-- A commented-out step in the span of an element can be missing in its scenario. -/
theorem not_forall_commented_kept
    : ¬∀ (path source : Text) (tree : FeatureTree) (feature : Feature),
        FeatureTree.ofText source = .ok tree
        → Feature.ofText FeatureTree.ofText path source = .ok feature
        → ∀ entry ∈ feature.elements.zip tree.allElements,
            entry.1.syntaxError = false
            → ∀ k text, (k, Line.comment text) ∈ numbered (entry.2.extentOf (saidIn source))
            → isStepLine text = true
            → text ∈ entry.1.steps := by
  intro h
  have hkept := h "f" passedStep _ _ rfl rfl _ List.mem_cons_self rfl 2 "# When y" (by decide) rfl
  revert hkept
  decide

end SuiteScore
