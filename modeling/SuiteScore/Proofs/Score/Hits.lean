import Mathlib.Data.List.Basic
import SuiteScore.Score

/-! What hits depend on: the counts of the rules, and for the hits of some rules these rules alone.
-/

namespace SuiteScore

/-- A rule says the same about subjects of one class on which it counts alike. -/
theorem Rule.hit?_congr {rule : Rule} {subject other : Subject}
    (hclass : subject.className = other.className)
    (h : rule.trigger.count subject = rule.trigger.count other)
    : rule.hit? subject = rule.hit? other := by
  rw [hit?, hit?, h, wordFor, wordFor, hclass]

/-- Subjects of one class on which all rules count alike are evaluated alike. -/
theorem evaluate_congr {rules : List Rule} {subject other : Subject}
    (hclass : subject.className = other.className)
    (h : ∀ rule ∈ rules, rule.trigger.count subject = rule.trigger.count other)
    : evaluate rules subject = evaluate rules other :=
  List.filterMap_congr fun rule hin =>
    Rule.hit?_congr hclass (h rule (List.mem_of_mem_filter hin))

-----------------------------------------------------------------------------------------
-- Hits of some rules
-----------------------------------------------------------------------------------------

/-- A score with only the hits of the rules that are kept. -/
def TargetScore.keeping (keep : Text → Bool) (score : TargetScore) : TargetScore :=
  { score with hits := score.hits.filter fun hit => keep hit.rule }

/-- A score with only the hits of the rules that are kept, on the feature and on its elements. -/
def FeatureScore.keeping (keep : Text → Bool) (score : FeatureScore) : FeatureScore where
  own := score.own.keeping keep
  background := score.background.map (·.keeping keep)
  scenarios := score.scenarios.map (·.keeping keep)

section Keeping

variable (keep : Text → Bool) (rules : List Rule)

/-- A hit tells the rule that it is a hit of. -/
theorem Rule.rule_of_hit? {rule : Rule} {subject : Subject} {hit : Hit}
    (h : rule.hit? subject = some hit) : hit.rule = rule.id := by
  by_cases hcount : rule.trigger.count subject = 0
  · simp [hit?, hcount] at h
  · simp only [hit?, hcount, if_false, Option.some.injEq] at h
    rw [← h]

/-- A hit tells how often its rule was triggered. -/
theorem Rule.count_of_hit? {rule : Rule} {subject : Subject} {hit : Hit}
    (h : rule.hit? subject = some hit)
    : hit.count = rule.trigger.count subject ∧ rule.trigger.count subject ≠ 0 := by
  by_cases hcount : rule.trigger.count subject = 0
  · simp [hit?, hcount] at h
  · simp only [hit?, hcount, if_false, Option.some.injEq] at h
    rw [← h]
    exact ⟨rfl, hcount⟩

/-- A rule that is triggered gives a hit. -/
theorem Rule.exists_hit? {rule : Rule} {subject : Subject}
    (h : rule.trigger.count subject ≠ 0)
    : ∃ hit, rule.hit? subject = some hit := by
  rw [hit?, if_neg h]
  exact ⟨_, rfl⟩

/-- The hits on a subject are those of the enabled rules. -/
theorem mem_evaluate_iff {rules : List Rule} {subject : Subject} {hit : Hit}
    : hit ∈ evaluate rules subject
      ↔ ∃ rule ∈ rules, rule.enabled = true ∧ rule.hit? subject = some hit := by
  simp only [evaluate, List.mem_filterMap, List.mem_filter, and_assoc]

/-- The hits of some rules are those that these rules have alone. -/
theorem evaluate_filter (subject : Subject)
    : evaluate (rules.filter fun rule => keep rule.id) subject
      = (evaluate rules subject).filter fun hit => keep hit.rule := by
  rw [evaluate, evaluate, List.filter_comm, List.filterMap_filter, List.filter_filterMap]
  refine List.filterMap_congr fun rule _ => ?_
  cases hh : rule.hit? subject with
  | none => simp
  | some hit => rw [Option.filter_some, Rule.rule_of_hit? hh]

/-- Subjects of one class on which the rules that are kept count alike have the same hits of these
rules.
-/
theorem filter_evaluate_congr {subject other : Subject}
    (hclass : subject.className = other.className)
    (h : ∀ rule ∈ rules, keep rule.id = true →
      rule.trigger.count subject = rule.trigger.count other)
    : (evaluate rules subject).filter (fun hit => keep hit.rule)
      = (evaluate rules other).filter fun hit => keep hit.rule := by
  rw [← evaluate_filter, ← evaluate_filter]
  refine evaluate_congr hclass fun rule hin => ?_
  obtain ⟨hin, hkeep⟩ := List.mem_filter.mp hin
  exact h rule hin hkeep

theorem TargetScore.ofScenario_filter (scenario : Scenario)
    : ofScenario (rules.filter fun rule => keep rule.id) scenario
      = (ofScenario rules scenario).keeping keep :=
  congrArg (TargetScore.mk _ _) (evaluate_filter keep rules (.scenario scenario))

/-- Only the rules that are kept are needed for their hits. -/
theorem FeatureScore.of_filter (feature : Feature)
    : of (rules.filter fun rule => keep rule.id) feature = (of rules feature).keeping keep := by
  have hown : TargetScore.of (rules.filter fun rule => keep rule.id) feature.toTarget
        (.feature feature)
      = (TargetScore.of rules feature.toTarget (.feature feature)).keeping keep :=
    congrArg (TargetScore.mk _ _) (evaluate_filter keep rules (.feature feature))
  have hscenario : TargetScore.ofScenario (rules.filter fun rule => keep rule.id)
      = TargetScore.keeping keep ∘ TargetScore.ofScenario rules :=
    funext fun scenario => TargetScore.ofScenario_filter keep rules scenario
  rw [of, keeping, hown, hscenario]
  simp [of]

end Keeping

end SuiteScore
