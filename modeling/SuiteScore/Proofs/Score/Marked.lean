import SuiteScore.Proofs.Rule.BuiltIn
import SuiteScore.Proofs.Score.Hits

/-! Scenarios whose lines could not be read. They are marked for it, and hold nothing but a kind, a
name and tags; no rule punishes them for what they do not hold.
-/

namespace SuiteScore

open Text Gherkin

-----------------------------------------------------------------------------------------
-- What marked scenarios hold
-----------------------------------------------------------------------------------------

/-- Nothing was read from the lines of a scenario. -/
structure Scenario.IsUnread (scenario : Scenario) : Prop where
  marked : scenario.syntaxError = true
  steps : scenario.steps = []
  tables : scenario.tables = []
  comments : scenario.comments = []
  examples : scenario.examples = []

/-- The scenarios that a grammar reads: from the lines of a block alone, from these with kind, name
and tags of an element, and from a whole file.
-/
inductive Scenario.IsReadBy (grammar : Grammar) : Scenario → Prop where
  | ofBlock (location : Text) (block : List Text)
    : IsReadBy grammar (.ofBlock grammar location block)
  | adopted (location : Text) (block : List Text) (element : Element)
    : IsReadBy grammar ((Scenario.ofBlock grammar location block).adopt element)
  | ofText {path source : Text} {feature : Feature} {scenario : Scenario}
    (read : Feature.ofText grammar path source = .ok feature)
    (member : scenario ∈ feature.elements)
    : IsReadBy grammar scenario

/-- A marked scenario takes nothing from its block: only a block that is read leaves no mark. -/
theorem Scenario.isUnread_ofBlock {grammar : Grammar} {location : Text} {block : List Text}
    (h : (ofBlock grammar location block).syntaxError = true)
    : (ofBlock grammar location block).IsUnread := by
  unfold ofBlock at h ⊢
  dsimp only at h ⊢
  split at h
  · exact ⟨rfl, rfl, rfl, rfl, rfl⟩
  · split at h
    · exact ⟨rfl, rfl, rfl, rfl, rfl⟩
    · cases h

/-- Kind, name and tags of an element come without steps, tables, comments and examples. -/
theorem Scenario.IsUnread.adopt {scenario : Scenario} (h : scenario.IsUnread) (element : Element)
    : (scenario.adopt element).IsUnread where
  marked := h.marked
  steps := h.steps
  tables := h.tables
  comments := h.comments
  examples := by
    unfold Scenario.adopt Scenario.examples
    cases element.kind <;> rfl

/-- A scenario is added to a feature whose other scenarios were there. -/
theorem Feature.mem_elements_add {feature : Feature} {scenario added : Scenario}
    (h : scenario ∈ (feature.add added).elements)
    : scenario ∈ feature.elements ∨ scenario = added := by
  unfold add at h
  split at h
  · rcases List.mem_cons.mp h with hnew | hold
    · exact .inr hnew
    · exact .inl (List.mem_append_right _ hold)
  · rcases List.mem_append.mp h with hbackground | hscenario
    · exact .inl (List.mem_append_left _ hbackground)
    · rcases List.mem_append.mp hscenario with hold | hnew
      · exact .inl (List.mem_append_right _ hold)
      · exact .inr (List.mem_singleton.mp hnew)

/-- A scenario of a feature was there or was added, by induction on what is added. -/
theorem Feature.mem_elements_foldl_add {feature : Feature} {scenarios : List Scenario}
    {scenario : Scenario} (h : scenario ∈ (scenarios.foldl add feature).elements)
    : scenario ∈ feature.elements ∨ scenario ∈ scenarios := by
  induction scenarios generalizing feature with
  | nil => exact .inl h
  | cons first rest ih =>
      rcases ih h with hthere | hlater
      · rcases mem_elements_add hthere with hold | rfl
        · exact .inl hold
        · exact .inr List.mem_cons_self
      · exact .inr (List.mem_cons_of_mem _ hlater)

/-- The scenarios of a feature are read from elements of its tree. -/
theorem Feature.exists_scenarioOf {grammar : Grammar} {path source : Text} {feature : Feature}
    {scenario : Scenario} (h : ofText grammar path source = .ok feature)
    (hin : scenario ∈ feature.elements)
    : ∃ element, scenario = scenarioOf grammar path (Text.lines source) element := by
  unfold ofText at h
  dsimp only at h
  split at h
  · cases h
    cases hin
  · split at h
    · cases h
    · next tree _ =>
        cases h
        rcases mem_elements_foldl_add hin with hnone | hread
        · cases hnone
        · obtain ⟨element, _, rfl⟩ := List.mem_map.mp hread
          exact ⟨element, rfl⟩

/-- Whatever a marked scenario comes from, nothing was read from its lines. -/
theorem Scenario.IsReadBy.isUnread {grammar : Grammar} {scenario : Scenario}
    (h : scenario.IsReadBy grammar) (hmark : scenario.syntaxError = true)
    : scenario.IsUnread := by
  cases h with
  | ofBlock location block => exact isUnread_ofBlock hmark
  | adopted location block element => exact (isUnread_ofBlock hmark).adopt element
  | ofText read member =>
      obtain ⟨element, rfl⟩ := Feature.exists_scenarioOf read member
      unfold Feature.scenarioOf at hmark ⊢
      dsimp only at hmark ⊢
      split at hmark
      · next hblock =>
          rw [if_pos hblock]
          exact (isUnread_ofBlock hblock).adopt element
      · next hblock => exact absurd hmark hblock

-----------------------------------------------------------------------------------------
-- What rules say about them
-----------------------------------------------------------------------------------------

namespace Rule

/-- The rule about marks. -/
def markRule : Text := "scenario_syntax_error"

/-- The rules that can say something about a scenario from whose lines nothing was read: about its
mark, its name and its tags.
-/
def aboutUnread : List Text :=
  [markRule, "scenario_no_name", "scenario_numbers_in_name", "scenario_long_name",
    "scenario_too_many_tags"]

end Rule

namespace Scenario.IsUnread

variable {scenario : Scenario} (h : scenario.IsUnread)

include h

theorem stepOrder_eq_nil : scenario.stepOrder = [] := by
  rw [stepOrder, h.steps]
  rfl

theorem liveExamples_eq_zero : Rule.liveExamples scenario = 0 := by
  rw [Rule.liveExamples, h.examples]
  rfl

/-- The other rules about scenarios count nothing, rule by rule. -/
theorem count_of_mem_ofScenario
    : ∀ rule ∈ Rule.ofScenario, rule.id ∉ Rule.aboutUnread →
        rule.trigger.count (.scenario scenario) = 0 := by
  intro rule hin hid
  simp only [Rule.ofScenario, List.mem_cons, List.not_mem_nil, or_false] at hin
  rcases hin with rfl | rfl | rfl | rfl | rfl | hin
  iterate 5 exact absurd (by decide) hid
  rcases hin with rfl | rfl | rfl | rfl | rfl | rfl | rfl | rfl | rfl | rfl | rfl
  all_goals
    simp [Rule.builtIn, Trigger.count, Rule.once, h.marked, h.comments, h.tables, h.examples,
      h.stepOrder_eq_nil, h.liveExamples_eq_zero, Rule.commentedTags, Rule.isOutOfOrder,
      Rule.descends, Rule.startsWithConjunction]

/-- Without steps nothing is counted on steps. -/
theorem count_of_kind_step {trigger : Trigger} (hkind : trigger.kind = .step)
    : trigger.count (.scenario scenario) = 0 := by
  cases trigger with
  | step count =>
      rw [Trigger.count, h.steps]
      rfl
  | _ => cases hkind

/-- The other built-in rules count nothing, by the kinds of rules. -/
theorem count_eq_zero {rule : Rule} (hr : rule.IsBuiltIn) (hid : rule.id ∉ Rule.aboutUnread)
    : rule.trigger.count (.scenario scenario) = 0 := by
  obtain ⟨original, hin, hsame, htrigger⟩ := hr
  rw [hsame] at hid
  rw [htrigger]
  by_cases hscenario : original.kind = .scenario
  · have hkinds := Rule.mem_ofKind hin
    rw [hscenario] at hkinds
    exact h.count_of_mem_ofScenario original hkinds hid
  by_cases hstep : original.kind = .step
  · exact h.count_of_kind_step hstep
  exact Trigger.count_scenario_of_kind hscenario hstep

/-- The rule about marks counts the mark. -/
theorem count_markRule {rule : Rule} (hr : rule.IsBuiltIn) (hid : rule.id = Rule.markRule)
    : rule.trigger.count (.scenario scenario) = 1 := by
  have hcatalog : Rule.builtIn Rule.markRule Rule.fatal "has a syntax error."
      (.scenario fun scenario => Rule.once scenario.syntaxError) ∈ catalog :=
    Rule.mem_catalog .scenario List.mem_cons_self
  rw [hr.trigger_eq hcatalog hid]
  simp [Rule.builtIn, Trigger.count, Rule.once, h.marked]

end Scenario.IsUnread

/-- Nothing is read from the lines of a marked scenario, and no built-in rules speak of what it does
not hold: the rule about marks is triggered once, wherever it is enabled, and all other hits are
about the name and the tags.
-/
theorem hits_of_marked {grammar : Grammar} {scenario : Scenario}
    (hs : scenario.IsReadBy grammar) (hmark : scenario.syntaxError = true) {rules : List Rule}
    (hr : ∀ rule ∈ rules, rule.IsBuiltIn)
    : scenario.IsUnread
      ∧ (∀ hit ∈ evaluate rules (.scenario scenario), hit.rule ∈ Rule.aboutUnread)
      ∧ (∀ hit ∈ evaluate rules (.scenario scenario), hit.rule = Rule.markRule → hit.count = 1)
      ∧ ∀ rule ∈ rules, rule.enabled = true → rule.id = Rule.markRule →
          ∃ hit ∈ evaluate rules (.scenario scenario),
            rule.hit? (.scenario scenario) = some hit := by
  have hunread := hs.isUnread hmark
  refine ⟨hunread, fun hit hin => ?_, fun hit hin hid => ?_, fun rule hin henabled hid => ?_⟩
  · obtain ⟨rule, hrule, _, hhit⟩ := mem_evaluate_iff.mp hin
    rw [Rule.rule_of_hit? hhit]
    by_contra hother
    exact (Rule.count_of_hit? hhit).2 (hunread.count_eq_zero (hr rule hrule) hother)
  · obtain ⟨rule, hrule, _, hhit⟩ := mem_evaluate_iff.mp hin
    rw [Rule.rule_of_hit? hhit] at hid
    rw [(Rule.count_of_hit? hhit).1, hunread.count_markRule (hr rule hrule) hid]
  · have hcount := hunread.count_markRule (hr rule hin) hid
    obtain ⟨hit, hhit⟩ := Rule.exists_hit? (hcount ▸ Nat.one_ne_zero)
    exact ⟨hit, mem_evaluate_iff.mpr ⟨rule, hin, henabled, hhit⟩, hhit⟩

/-- An outline that could be read, in a file whose isolated blocks with this step are refused. -/
def refusedOutline : Text :=
  "Feature: f\n  @t\n  Scenario Outline: o 2\n    Given x\n    Examples:\n      | a |\n"

/-- The outline keeps its name, and is hit for its mark and its name. -/
theorem hits_of_refusedOutline
    : ∃ feature scenario,
        Feature.ofText (Grammar.refusing "Given" FeatureTree.ofText) "f" refusedOutline
            = .ok feature
        ∧ feature.elements = [scenario]
        ∧ scenario.syntaxError = true
        ∧ scenario.isOutline = true
        ∧ scenario.examples = []
        ∧ (evaluate catalog (.scenario scenario)).map (·.rule)
          = [Rule.markRule, "scenario_numbers_in_name"]
        ∧ ∀ hit ∈ evaluate catalog (.scenario scenario), hit.rule ∈ Rule.aboutUnread := by
  have hread : Feature.ofText (Grammar.refusing "Given" FeatureTree.ofText) "f" refusedOutline
      = .ok _ := rfl
  have hmarked := hits_of_marked (.ofText hread List.mem_cons_self) rfl isBuiltIn_of_mem_catalog
  exact ⟨_, _, hread, rfl, rfl, rfl, hmarked.1.examples, by decide, hmarked.2.1⟩

end SuiteScore
