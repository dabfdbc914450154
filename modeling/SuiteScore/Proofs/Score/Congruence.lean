import SuiteScore.Proofs.Feature.Resemblance
import SuiteScore.Proofs.Feature.SharedTags
import SuiteScore.Proofs.Rule.BuiltIn
import SuiteScore.Proofs.Rule.OfStep
import SuiteScore.Proofs.Score.Hits

/-! What the built-in rules see of features and scenarios. They count alike on scenarios whose lines
differ in the blanks around them, but for the rule about tables, which are kept by step lines.
-/

namespace SuiteScore

open Text Gherkin

-----------------------------------------------------------------------------------------
-- Scenarios
-----------------------------------------------------------------------------------------

/-- The rule about step tables that are too long. -/
def tableRule : Text := "scenario_large_inline_table"

/-- The kind of a scenario without the blanks around its example rows. -/
def ScenarioKind.trimmed : ScenarioKind → ScenarioKind
  | outline rows => .outline (rows.map trim)
  | kind => kind

/-- How many step tables of a scenario are too long. -/
def Scenario.largeTables (scenario : Scenario) : Nat :=
  scenario.tables.countP fun (_, rows) => decide (Rule.maxTableRows < rows.length)

/-- Two scenarios differ in the blanks around their lines and in their tables only. -/
structure Scenario.Resembles (scenario twin : Scenario) : Prop where
  target : scenario.toTarget = twin.toTarget
  kind : scenario.kind.trimmed = twin.kind.trimmed
  comments : scenario.comments = twin.comments
  syntaxError : scenario.syntaxError = twin.syntaxError
  steps : List.Forall₂ Rule.IsSameStep scenario.steps twin.steps

namespace Scenario.Resembles

variable {scenario twin : Scenario}

/-- Both scenarios are of one kind, by the kinds. -/
theorem kind_cases (h : scenario.Resembles twin)
    : (scenario.kind = .background ∧ twin.kind = .background)
      ∨ (scenario.kind = .scenario ∧ twin.kind = .scenario)
      ∨ ∃ rows others, scenario.kind = .outline rows ∧ twin.kind = .outline others
          ∧ rows.map trim = others.map trim := by
  have hkind := h.kind
  cases hs : scenario.kind <;> cases ht : twin.kind <;> simp_all [ScenarioKind.trimmed]

/-- The example rows differ in the blanks around them only. -/
theorem examples_eq (h : scenario.Resembles twin)
    : scenario.examples.map trim = twin.examples.map trim := by
  rcases h.kind_cases with ⟨hs, ht⟩ | ⟨hs, ht⟩ | ⟨rows, others, hs, ht, hrows⟩
  · rw [examples, examples, hs, ht]
  · rw [examples, examples, hs, ht]
  · rw [examples, examples, hs, ht]
    exact hrows

theorem isBackground_eq (h : scenario.Resembles twin)
    : scenario.isBackground = twin.isBackground := by
  rcases h.kind_cases with ⟨hs, ht⟩ | ⟨hs, ht⟩ | ⟨rows, others, hs, ht, _⟩ <;>
    rw [isBackground, isBackground, hs, ht]

theorem isOutline_eq (h : scenario.Resembles twin) : scenario.isOutline = twin.isOutline := by
  rcases h.kind_cases with ⟨hs, ht⟩ | ⟨hs, ht⟩ | ⟨rows, others, hs, ht, _⟩ <;>
    rw [isOutline, isOutline, hs, ht]

theorem className_eq (h : scenario.Resembles twin) : scenario.className = twin.className := by
  rcases h.kind_cases with ⟨hs, ht⟩ | ⟨hs, ht⟩ | ⟨rows, others, hs, ht, _⟩ <;>
    rw [className, className, hs, ht]

/-- The order of steps is the same, by induction on the steps. -/
theorem stepOrder_eq (h : scenario.Resembles twin) : scenario.stepOrder = twin.stepOrder := by
  have hsteps := h.steps
  unfold stepOrder
  generalize scenario.steps = steps, twin.steps = others at hsteps ⊢
  induction hsteps with
  | nil => rfl
  | cons hstep _ ih =>
      rw [List.filter_cons, List.filter_cons, hstep.isCommented_eq]
      split
      · rw [List.filterMap_cons, List.filterMap_cons, hstep.stepKeyword?_eq, ih]
      · exact ih

/-- As many example rows pass a test that does not see blanks. -/
theorem countP_examples_eq (h : scenario.Resembles twin) {test : Text → Bool}
    (ht : ∀ row, test (trim row) = test row)
    : scenario.examples.countP test = twin.examples.countP test := by
  have htest : test ∘ trim = test := funext ht
  have hcount := congrArg (List.countP test) h.examples_eq
  rwa [List.countP_map, List.countP_map, htest] at hcount

/-- A count that is the same on all steps is the same in sum, by induction on the steps. -/
theorem tally_steps_eq (h : scenario.Resembles twin) {count : Text → Nat}
    (hc : ∀ line other, Rule.IsSameStep line other → count line = count other)
    : tally count scenario.steps = tally count twin.steps := by
  have hsteps := h.steps
  generalize scenario.steps = steps, twin.steps = others at hsteps ⊢
  induction hsteps with
  | nil => rfl
  | cons hstep _ ih => rw [tally, tally, hc _ _ hstep, ih]

/-- The rules about scenarios count alike, rule by rule. -/
theorem count_of_mem_ofScenario (h : scenario.Resembles twin)
    : ∀ rule ∈ Rule.ofScenario,
        rule.id ≠ tableRule ∨ scenario.largeTables = twin.largeTables
        → rule.trigger.count (.scenario scenario) = rule.trigger.count (.scenario twin) := by
  have hname : scenario.name = twin.name := congrArg Target.name h.target
  have htags : scenario.tags = twin.tags := congrArg Target.tags h.target
  have hempty : scenario.examples.isEmpty = twin.examples.isEmpty := by
    simpa using congrArg List.isEmpty h.examples_eq
  have hcommented : scenario.examples.countP isCommented = twin.examples.countP isCommented :=
    h.countP_examples_eq isCommented_trim
  have hlive : Rule.liveExamples scenario = Rule.liveExamples twin :=
    h.countP_examples_eq fun row => congrArg not (isCommented_trim row)
  intro rule hin hid
  simp only [Rule.ofScenario, List.mem_cons, List.not_mem_nil, or_false] at hin
  rcases hin with rfl | rfl | rfl | rfl | rfl | rfl | rfl | rfl | rfl | rfl | rfl | rfl | rfl
    | rfl | rfl | rfl
  case inr.inr.inr.inr.inr.inr.inr.inr.inr.inr.inr.inr.inr.inr.inr =>
    exact hid.resolve_left fun hne => hne rfl
  all_goals
    simp only [Rule.builtIn, Trigger.count, hname, htags, hempty, hcommented, hlive, h.comments,
      h.syntaxError, h.isBackground_eq, h.isOutline_eq, h.stepOrder_eq, Rule.isOutOfOrder,
      Rule.startsWithConjunction]

/-- The rules about steps count alike, rule by rule. -/
theorem count_of_mem_ofStep (h : scenario.Resembles twin)
    : ∀ rule ∈ Rule.ofStep,
        rule.trigger.count (.scenario scenario) = rule.trigger.count (.scenario twin) := by
  intro rule hin
  simp only [Rule.ofStep, List.mem_cons, List.not_mem_nil, or_false] at hin
  rcases hin with rfl | rfl | rfl | rfl
  · exact h.tally_steps_eq fun line other hs => by rw [hs.isCommented_eq]
  · exact h.tally_steps_eq fun line other hs => by rw [hs.usesAsterisk_eq]
  · exact h.tally_steps_eq fun line other hs => hs.implementationWordsIn_eq
  · exact h.tally_steps_eq fun line other hs => by rw [hs.isCommented_eq, hs.hasDate_eq]

/-- The built-in rules count alike, but for the rule about tables when the tables are not alike. -/
theorem count_eq (h : scenario.Resembles twin) {rule : Rule} (hr : rule.IsBuiltIn)
    (ht : rule.id ≠ tableRule ∨ scenario.largeTables = twin.largeTables)
    : rule.trigger.count (.scenario scenario) = rule.trigger.count (.scenario twin) := by
  obtain ⟨original, hin, hid, htrigger⟩ := hr
  rw [hid] at ht
  rw [htrigger]
  have hkinds := Rule.mem_ofKind hin
  by_cases hscenario : original.kind = .scenario
  · rw [hscenario] at hkinds
    exact h.count_of_mem_ofScenario original hkinds ht
  by_cases hstep : original.kind = .step
  · rw [hstep] at hkinds
    exact h.count_of_mem_ofStep original hkinds
  rw [Trigger.count_scenario_of_kind hscenario hstep,
    Trigger.count_scenario_of_kind hscenario hstep]

end Scenario.Resembles

-----------------------------------------------------------------------------------------
-- Features
-----------------------------------------------------------------------------------------

namespace Feature.Related

variable {related : Scenario → Scenario → Prop} {feature twin : Feature}

/-- Related scenarios may be related in another way as well. -/
theorem imp {others : Scenario → Scenario → Prop} (h : Feature.Related related feature twin)
    (hr : ∀ scenario other, related scenario other → others scenario other)
    : Feature.Related others feature twin where
  target := h.target
  comments := h.comments
  background := by
    have hbackground := h.background
    generalize feature.background = one, twin.background = other at hbackground ⊢
    cases hbackground with
    | none => exact .none
    | some hb => exact .some (hr _ _ hb)
  scenarios := h.scenarios.imp hr

/-- What is the same for related scenarios is the same for both backgrounds. -/
theorem background_map_eq (h : Feature.Related related feature twin) {f : Scenario → α}
    (hf : ∀ scenario other, related scenario other → f scenario = f other)
    : feature.background.map f = twin.background.map f := by
  have hbackground := h.background
  generalize feature.background = one, twin.background = other at hbackground ⊢
  cases hbackground with
  | none => rfl
  | some hb => exact congrArg some (hf _ _ hb)

/-- What is the same for related scenarios is the same for all scenarios. -/
theorem scenarios_map_eq (h : Feature.Related related feature twin) {f : Scenario → α}
    (hf : ∀ scenario other, related scenario other → f scenario = f other)
    : feature.scenarios.map f = twin.scenarios.map f := by
  rw [← List.forall₂_eq_eq_eq, List.forall₂_map_left_iff, List.forall₂_map_right_iff]
  exact h.scenarios.imp hf

/-- The rules about features count alike, rule by rule. -/
theorem count_of_mem_ofFeature (h : Feature.Related related feature twin)
    (ht : ∀ scenario other, related scenario other → scenario.tags = other.tags)
    : ∀ rule ∈ Rule.ofFeature,
        rule.trigger.count (.feature feature) = rule.trigger.count (.feature twin) := by
  have hname : feature.name = twin.name := congrArg Target.name h.target
  have htags : feature.tags = twin.tags := congrArg Target.tags h.target
  have hlength : feature.scenarios.length = twin.scenarios.length := h.scenarios.length_eq
  have hempty : feature.scenarios.isEmpty = twin.scenarios.isEmpty := by
    rw [Bool.eq_iff_iff, List.isEmpty_iff_length_eq_zero, hlength, List.isEmpty_iff_length_eq_zero]
  have hsome : feature.background.isSome = twin.background.isSome := by
    simpa using congrArg Option.isSome (h.background_map_eq (f := fun _ => ()) fun _ _ _ => rfl)
  have hshared : Rule.sharedTags feature = Rule.sharedTags twin := by
    refine Rule.sharedTags_congr hlength (forall_mem_tags_iff ?_)
    refine h.scenarios.imp fun scenario other hr tag => ?_
    rw [ht scenario other hr]
  intro rule hin
  simp only [Rule.ofFeature, List.mem_cons, List.not_mem_nil, or_false] at hin
  rcases hin with rfl | rfl | rfl | rfl | rfl | rfl | rfl | rfl | rfl | rfl
  all_goals
    simp only [Rule.builtIn, Trigger.count, hname, htags, hlength, hempty, hsome, hshared,
      h.comments]

/-- The built-in rules count alike on features. -/
theorem count_eq (h : Feature.Related related feature twin)
    (ht : ∀ scenario other, related scenario other → scenario.tags = other.tags) {rule : Rule}
    (hr : rule.IsBuiltIn)
    : rule.trigger.count (.feature feature) = rule.trigger.count (.feature twin) := by
  obtain ⟨original, hin, _, htrigger⟩ := hr
  rw [htrigger]
  by_cases hfeature : original.kind = .feature
  · have hkinds := Rule.mem_ofKind hin
    rw [hfeature] at hkinds
    exact h.count_of_mem_ofFeature ht original hkinds
  rw [Trigger.count_feature_of_kind hfeature, Trigger.count_feature_of_kind hfeature]

end Feature.Related

/-- Two scenarios differ in the blanks around their lines only, or in tables that the given rules do
not speak about.
-/
def Scenario.ResemblesFor (rules : List Rule) (scenario twin : Scenario) : Prop :=
  scenario.Resembles twin
    ∧ ∀ rule ∈ rules, rule.id ≠ tableRule ∨ scenario.largeTables = twin.largeTables

/-- Built-in rules score features alike whose scenarios are alike. -/
theorem FeatureScore.of_congr {rules : List Rule} {feature twin : Feature}
    (hr : ∀ rule ∈ rules, rule.IsBuiltIn)
    (h : Feature.Related (Scenario.ResemblesFor rules) feature twin)
    : FeatureScore.of rules feature = FeatureScore.of rules twin := by
  have hscenario : ∀ scenario other, Scenario.ResemblesFor rules scenario other →
      TargetScore.ofScenario rules scenario = TargetScore.ofScenario rules other := by
    rintro scenario other ⟨halike, htables⟩
    have hhits : evaluate rules (.scenario scenario) = evaluate rules (.scenario other) :=
      evaluate_congr halike.className_eq fun rule hin =>
        halike.count_eq (hr rule hin) (htables rule hin)
    rw [TargetScore.ofScenario, TargetScore.ofScenario, TargetScore.of, TargetScore.of, hhits,
      halike.target]
  have htags : ∀ scenario other, Scenario.ResemblesFor rules scenario other →
      scenario.tags = other.tags := fun _ _ halike => congrArg Target.tags halike.1.target
  have hhits : evaluate rules (.feature feature) = evaluate rules (.feature twin) :=
    evaluate_congr rfl fun rule hin => h.count_eq htags (hr rule hin)
  rw [FeatureScore.of, FeatureScore.of, TargetScore.of, TargetScore.of, hhits, h.target,
    h.background_map_eq hscenario, h.scenarios_map_eq hscenario]

end SuiteScore
