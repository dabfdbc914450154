import SuiteScore.Proofs.Feature.Elements

/-! Which elements of an accepted file are marked because their own lines cannot be read. -/

namespace SuiteScore

open Text Gherkin

/-- The marked elements of an accepted file are those with a disturbed lead and those that leave
tags.
-/
theorem syntaxErrors_of_ofText {source : Text} {tree : FeatureTree} (path : Text)
    (h : FeatureTree.ofText source = .ok tree)
    : ∃ feature, Feature.ofText FeatureTree.ofText path source = .ok feature
        ∧ feature.elements.map (·.syntaxError)
          = tree.allElements.map fun element =>
              element.isDisturbed (saidIn source) || element.leavesTags (saidIn source) := by
  obtain ⟨feature, hfeature, hbackground, hscenarios⟩ := exists_feature path h
  refine ⟨feature, hfeature, ?_⟩
  rw [elements_of_parts hbackground hscenarios, List.map_map]
  refine List.map_congr_left fun element he => ?_
  rcases scenarioOf_cases path h he with ⟨hmarked, hscenario⟩ | ⟨hread, one, _, hscenario⟩
  · rw [Function.comp_apply, hscenario, hmarked]
    rfl
  · rw [Function.comp_apply, hscenario, hread]
    rfl

/-- The comment waits for the second scenario, since the doc string does not take it. -/
def lateComment : Text :=
  "Feature: f\n  Scenario: a\n    Given x\n    # note\n    \"\"\"\n    text\n    \"\"\"\n"
    ++ "  Scenario: b\n    Given y\n"

/-- The doc string stands in the span of the second scenario, which is marked. -/
theorem syntaxErrors_of_lateComment
    : ∃ tree, FeatureTree.ofText lateComment = .ok tree
        ∧ ∃ feature, Feature.ofText FeatureTree.ofText "f" lateComment = .ok feature
          ∧ feature.elements.map (·.syntaxError) = [false, true] := by
  have haccepted : FeatureTree.ofText lateComment = .ok _ := rfl
  obtain ⟨feature, hfeature, hmarks⟩ := syntaxErrors_of_ofText "f" haccepted
  exact ⟨_, rfl, feature, hfeature, hmarks.trans rfl⟩

/-- An accepted file can have a marked element. -/
theorem not_forall_unmarked
    : ¬∀ (path source : Text) (tree : FeatureTree) (feature : Feature),
        FeatureTree.ofText source = .ok tree
        → Feature.ofText FeatureTree.ofText path source = .ok feature
        → ∀ scenario ∈ feature.elements, scenario.syntaxError = false := by
  intro h
  have hsecond := h "f" lateComment _ _ rfl rfl _ (List.mem_cons_of_mem _ List.mem_cons_self)
  cases hsecond

end SuiteScore
