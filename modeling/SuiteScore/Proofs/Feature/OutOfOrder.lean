import Mathlib.Data.List.Chain
import SuiteScore.Proofs.Feature.LiveSteps
import SuiteScore.Proofs.Rule.BuiltIn

/-! Steps out of order. The rule about them compares neighbors only, after all steps are left out
that have no place in the order; since the order is transitive, it sees two steps in the wrong order
wherever they stand.
-/

namespace SuiteScore

open Text Gherkin

-----------------------------------------------------------------------------------------
-- The order of keywords
-----------------------------------------------------------------------------------------

namespace Gherkin.StepKeyword

/-- A context comes before an action, and both come before an outcome. -/
inductive ComesBefore : StepKeyword → StepKeyword → Prop
  | contextAction : ComesBefore context action
  | contextOutcome : ComesBefore context outcome
  | actionOutcome : ComesBefore action outcome

/-- Whether a keyword has a place in the order. The others go on from the step before, whatever it
is.
-/
def isPlaced : StepKeyword → Bool
  | context => true
  | action => true
  | outcome => true
  | _ => false

/-- Some contexts, then some actions, then some outcomes, and nothing else. -/
def InOrder (keywords : List StepKeyword) : Prop :=
  ∃ contexts actions outcomes : Nat,
    keywords = List.replicate contexts context
      ++ (List.replicate actions action ++ List.replicate outcomes outcome)

/-- The order of keywords is the order of their ranks, keyword by keyword. -/
theorem not_comesBefore_iff {keyword later : StepKeyword}
    : ¬later.ComesBefore keyword
      ↔ ∀ rank ∈ Rule.rank? keyword, ∀ other ∈ Rule.rank? later, rank ≤ other := by
  have hiff : later.ComesBefore keyword
      ↔ (later, keyword) ∈ [(context, action), (context, outcome), (action, outcome)] := by
    constructor
    · intro h
      cases h <;> decide
    · intro h
      simp only [List.mem_cons, Prod.mk.injEq, List.not_mem_nil, or_false] at h
      rcases h with ⟨rfl, rfl⟩ | ⟨rfl, rfl⟩ | ⟨rfl, rfl⟩
      · exact .contextAction
      · exact .contextOutcome
      · exact .actionOutcome
  rw [hiff]
  cases keyword <;> cases later <;> simp [Rule.rank?]

/-- Placed keywords of which none comes before an earlier one are in order, by induction on them: in
front of a keyword stand no later ones.
-/
theorem inOrder_of_pairwise {keywords : List StepKeyword}
    (hp : ∀ keyword ∈ keywords, keyword.isPlaced = true)
    (h : keywords.Pairwise fun keyword later => ¬later.ComesBefore keyword)
    : InOrder keywords := by
  induction keywords with
  | nil => exact ⟨0, 0, 0, rfl⟩
  | cons keyword rest ih =>
      obtain ⟨hfirst, hrest⟩ := List.pairwise_cons.mp h
      have hplaced : ∀ later ∈ rest, later.isPlaced = true := fun later hin =>
        hp later (List.mem_cons_of_mem _ hin)
      obtain ⟨contexts, actions, outcomes, rfl⟩ := ih hplaced hrest
      cases keyword with
      | context => exact ⟨contexts + 1, actions, outcomes, rfl⟩
      | action =>
          have hnone : contexts = 0 := by
            by_contra hne
            exact hfirst context (by simp [hne]) .contextAction
          subst hnone
          exact ⟨0, actions + 1, outcomes, rfl⟩
      | outcome =>
          have hcontexts : contexts = 0 := by
            by_contra hne
            exact hfirst context (by simp [hne]) .contextOutcome
          have hactions : actions = 0 := by
            by_contra hne
            exact hfirst action (by simp [hne]) .actionOutcome
          subst hcontexts hactions
          exact ⟨0, 0, outcomes + 1, rfl⟩
      | _ => cases hp _ List.mem_cons_self

/-- In keywords that are in order none comes before an earlier one, run by run. -/
theorem InOrder.pairwise {keywords : List StepKeyword} (h : InOrder keywords)
    : keywords.Pairwise fun keyword later => ¬later.ComesBefore keyword := by
  obtain ⟨contexts, actions, outcomes, rfl⟩ := h
  have hself : ∀ keyword : StepKeyword, ¬keyword.ComesBefore keyword := by
    intro keyword h
    cases h
  simp only [List.pairwise_append, List.pairwise_replicate, List.mem_append, List.mem_replicate]
  refine ⟨.inr (hself _), ⟨.inr (hself _), .inr (hself _), ?_⟩, ?_⟩
  · intro keyword hkeyword later hlater h
    rw [hkeyword.2, hlater.2] at h
    cases h
  · intro keyword hkeyword later hlater h
    rcases hlater with hlater | hlater
    · rw [hkeyword.2, hlater.2] at h
      cases h
    · rw [hkeyword.2, hlater.2] at h
      cases h

/-- The placed keywords among others are in order exactly if no keyword comes before an earlier one.
-/
theorem inOrder_filter_iff {keywords : List StepKeyword}
    : InOrder (keywords.filter isPlaced)
      ↔ keywords.Pairwise fun keyword later => ¬later.ComesBefore keyword := by
  have hfilter : (keywords.filter isPlaced).Pairwise
      (fun keyword later => ¬later.ComesBefore keyword)
        ↔ keywords.Pairwise fun keyword later => ¬later.ComesBefore keyword := by
    rw [List.pairwise_filter]
    refine List.Pairwise.iff fun keyword later => ?_
    constructor
    · intro h hbefore
      refine h ?_ ?_ hbefore
      · cases hbefore <;> rfl
      · cases hbefore <;> rfl
    · intro h _ _
      exact h
  rw [← hfilter]
  constructor
  · exact InOrder.pairwise
  · exact inOrder_of_pairwise fun keyword hin => (List.mem_filter.mp hin).2

end Gherkin.StepKeyword

-----------------------------------------------------------------------------------------
-- Steps that turn back
-----------------------------------------------------------------------------------------

/-- A line is a step with a keyword and not commented out. -/
def IsLiveStep (line : Text) (keyword : StepKeyword) : Prop :=
  isCommented line = false ∧ stepKeyword? line = some keyword

/-- Whether a line is a step that has a place in the order and is not commented out. -/
def isPlacedStep (line : Text) : Bool :=
  !isCommented line && (stepKeyword? line).any StepKeyword.isPlaced

/-- Somewhere after a step that is not commented out stands one that should come before it. -/
def Scenario.TurnsBack (scenario : Scenario) : Prop :=
  ∃ (i j : Nat) (line later : Text) (keyword next : StepKeyword),
    i < j
    ∧ scenario.steps[i]? = some line
    ∧ scenario.steps[j]? = some later
    ∧ IsLiveStep line keyword
    ∧ IsLiveStep later next
    ∧ next.ComesBefore keyword

/-- Numbers of which none is smaller than the one before it do not descend, by induction on them. -/
theorem Rule.descends_eq_false_iff {ranks : List Nat}
    : descends ranks = false ↔ ranks.Pairwise (· ≤ ·) := by
  rw [← List.isChain_iff_pairwise]
  induction ranks with
  | nil => simp [descends]
  | cons first rest ih =>
      cases rest with
      | nil => simp [descends]
      | cons second others =>
          rw [descends, Bool.or_eq_false_iff, decide_eq_false_iff_not, Nat.not_lt, ih,
            List.isChain_cons_cons]

/-- Steps are in order when no keyword comes before an earlier one. -/
theorem Rule.isOutOfOrder_eq_false_iff {scenario : Scenario}
    : isOutOfOrder scenario = false
      ↔ scenario.stepOrder.Pairwise fun keyword later => ¬later.ComesBefore keyword := by
  rw [isOutOfOrder, descends_eq_false_iff, List.pairwise_filterMap]
  refine List.Pairwise.iff fun keyword later => ?_
  exact StepKeyword.not_comesBefore_iff.symm

/-- A scenario turns back when the keywords of its steps do. Witness: the keywords are those of the
lines that are not commented out, in the order of the lines.
-/
theorem Scenario.turnsBack_iff {scenario : Scenario}
    : scenario.TurnsBack
      ↔ ¬scenario.stepOrder.Pairwise fun keyword later => ¬later.ComesBefore keyword := by
  rw [stepOrder, List.pairwise_filterMap, List.pairwise_filter, List.pairwise_iff_getElem]
  constructor
  · intro hturns h
    obtain ⟨i, j, line, later, keyword, next, hij, hi, hj, hline, hlater, hbefore⟩ := hturns
    obtain ⟨hilt, rfl⟩ := List.getElem?_eq_some_iff.mp hi
    obtain ⟨hjlt, rfl⟩ := List.getElem?_eq_some_iff.mp hj
    exact h i j hilt hjlt hij (by simp [hline.1]) (by simp [hlater.1]) keyword hline.2 next
      hlater.2 hbefore
  · intro h
    push Not at h
    obtain ⟨i, j, hilt, hjlt, hij, hline, hlater, keyword, hkeyword, next, hnext, hbefore⟩ := h
    refine ⟨i, j, _, _, keyword, next, hij, List.getElem?_eq_getElem hilt,
      List.getElem?_eq_getElem hjlt, ⟨?_, hkeyword⟩, ⟨?_, hnext⟩, hbefore⟩
    · simpa using hline
    · simpa using hlater

/-- The placed keywords are those of the placed steps. -/
theorem Scenario.filter_isPlaced_stepOrder (scenario : Scenario)
    : scenario.stepOrder.filter StepKeyword.isPlaced
      = (scenario.steps.filter isPlacedStep).filterMap stepKeyword? := by
  rw [stepOrder, List.filter_filterMap, List.filterMap_filter, List.filterMap_filter]
  refine List.filterMap_congr fun line _ => ?_
  unfold isPlacedStep
  cases hkeyword : stepKeyword? line with
  | none => simp
  | some keyword => cases hplaced : keyword.isPlaced <;> cases isCommented line <;> simp [hplaced]

/-- Scenarios with the same placed steps are both in order or both out of order. -/
theorem Rule.isOutOfOrder_congr {scenario other : Scenario}
    (h : other.steps.filter isPlacedStep = scenario.steps.filter isPlacedStep)
    : isOutOfOrder other = isOutOfOrder scenario := by
  have hsame : isOutOfOrder other = false ↔ isOutOfOrder scenario = false := by
    rw [isOutOfOrder_eq_false_iff, isOutOfOrder_eq_false_iff, ← StepKeyword.inOrder_filter_iff,
      ← StepKeyword.inOrder_filter_iff, Scenario.filter_isPlaced_stepOrder, h,
      ← Scenario.filter_isPlaced_stepOrder]
  cases hother : isOutOfOrder other with
  | false => exact (hsame.mp hother).symm
  | true =>
      cases hscenario : isOutOfOrder scenario with
      | true => rfl
      | false => exact absurd (hsame.mpr hscenario) (by simp [hother])

-----------------------------------------------------------------------------------------
-- The rule about the order of steps
-----------------------------------------------------------------------------------------

namespace Rule

/-- The rule of the catalog about the order of steps. -/
def ofOrder : Rule :=
  builtIn "scenario_out_of_order_steps" warning "steps are out of Given/When/Then order."
    (.scenario fun scenario => once (isOutOfOrder scenario))

theorem ofOrder_mem : ofOrder ∈ catalog :=
  mem_catalog .scenario
    (by simp only [ofKind, ofScenario, ofOrder, List.mem_cons, true_or, or_true])

/-- The rule is triggered once by steps that are out of order. -/
theorem IsBuiltIn.count_ofOrder {rule : Rule} (h : rule.IsBuiltIn) (hid : rule.id = ofOrder.id)
    (scenario : Scenario)
    : rule.trigger.count (.scenario scenario) = once (isOutOfOrder scenario) := by
  rw [h.trigger_eq ofOrder_mem hid]
  rfl

end Rule

/-- The order of steps in a scenario. The rule about it is triggered once exactly if a step that is
not commented out should come before an earlier one, wherever the two stand, and not at all exactly
if the keywords with a place in the order are contexts, then actions, then outcomes; for a scenario
that has the steps of an element these are the keywords of the element. Scenarios with the same
placed steps are alike for it: to comment out, insert or remove others changes nothing.
-/
theorem outOfOrder_of_steps {rule : Rule} (hrule : rule.IsBuiltIn)
    (hid : rule.id = "scenario_out_of_order_steps") (scenario : Scenario)
    : (rule.trigger.count (.scenario scenario) = 1 ↔ scenario.TurnsBack)
      ∧ (rule.trigger.count (.scenario scenario) = 0
          ↔ StepKeyword.InOrder (scenario.stepOrder.filter StepKeyword.isPlaced))
      ∧ (∀ element, scenario.ReadsSteps element →
          (rule.trigger.count (.scenario scenario) = 0
            ↔ StepKeyword.InOrder
                ((element.steps.map (·.keyword)).filter StepKeyword.isPlaced)))
      ∧ ∀ other : Scenario,
          other.steps.filter isPlacedStep = scenario.steps.filter isPlacedStep →
          rule.trigger.count (.scenario other) = rule.trigger.count (.scenario scenario) := by
  have hcount := hrule.count_ofOrder hid
  have honce : ∀ test, (Rule.once test = 1 ↔ ¬test = false) ∧ (Rule.once test = 0 ↔ test = false) :=
    by decide
  have hzero : rule.trigger.count (.scenario scenario) = 0
      ↔ StepKeyword.InOrder (scenario.stepOrder.filter StepKeyword.isPlaced) := by
    rw [hcount, (honce _).2, Rule.isOutOfOrder_eq_false_iff, StepKeyword.inOrder_filter_iff]
  refine ⟨?_, hzero, ?_, ?_⟩
  · rw [hcount, (honce _).1, Rule.isOutOfOrder_eq_false_iff, Scenario.turnsBack_iff]
  · intro element h
    rw [hzero, h.order]
  · intro other h
    rw [hcount, hcount, Rule.isOutOfOrder_congr h]

/-- Between an outcome and the action behind it stand a commented-out step and a conjunction. -/
def turningBlock : List Text :=
  ["  Scenario: s", "    Given a", "    Then b", "    # Given c", "    And d", "    When e"]

/-- The action should come before the outcome; the conjunction and what is commented out have no
part in it.
-/
theorem outOfOrder_of_turningBlock
    : Rule.ofOrder.IsBuiltIn
      ∧ (Scenario.ofBlock FeatureTree.ofText "f:2" turningBlock).TurnsBack
      ∧ Rule.ofOrder.trigger.count
          (.scenario (Scenario.ofBlock FeatureTree.ofText "f:2" turningBlock)) = 1 := by
  have hrule : Rule.ofOrder.IsBuiltIn := isBuiltIn_of_mem_catalog _ Rule.ofOrder_mem
  have hturns : (Scenario.ofBlock FeatureTree.ofText "f:2" turningBlock).TurnsBack :=
    ⟨1, 4, "    Then b", "    When e", .outcome, .action, by decide, rfl, rfl, ⟨rfl, rfl⟩,
      ⟨rfl, rfl⟩, .actionOutcome⟩
  exact ⟨hrule, hturns, (outOfOrder_of_steps hrule rfl _).1.mpr hturns⟩

end SuiteScore
