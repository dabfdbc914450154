import SuiteScore.Proofs.Total
import SuiteScore.Score

/-! Scores by rules. The total of a feature is the sum of the hits on all its targets, and just as
well the sum of the weights of the enabled rules, each as often as the rule is triggered.
-/

namespace SuiteScore

-----------------------------------------------------------------------------------------
-- Targets of a feature
-----------------------------------------------------------------------------------------

/-- What rules are applied to in a feature: the feature itself, its background, its scenarios. -/
def Feature.subjects (feature : Feature) : List Subject :=
  .feature feature :: feature.elements.map .scenario

namespace FeatureScore

variable (rules : List Rule) (feature : Feature) (score : FeatureScore)

/-- The scored targets of a feature. -/
def targets : List TargetScore :=
  score.own :: (score.background.toList ++ score.scenarios)

/-- All hits on a feature and its elements. -/
def hits : List Hit :=
  score.targets.flatMap (·.hits)

/-- Every subject of a feature is scored once, in its place. -/
theorem hits_targets_of
    : (of rules feature).targets.map (·.hits) = feature.subjects.map (evaluate rules) := by
  cases hb : feature.background with
  | none =>
      simp [targets, of, Feature.subjects, Feature.elements, hb, TargetScore.of,
        TargetScore.ofScenario]
  | some background =>
      simp [targets, of, Feature.subjects, Feature.elements, hb, TargetScore.of,
        TargetScore.ofScenario]

theorem hits_of : (of rules feature).hits = feature.subjects.flatMap (evaluate rules) := by
  rw [hits, List.flatMap_def, hits_targets_of, ← List.flatMap_def]

/-- The total is the sum of all hits, with a background and without one. -/
theorem totalScore_eq_total_hits : score.totalScore = total Hit.contribution score.hits := by
  have htargets : total Hit.contribution score.hits = total TargetScore.score score.targets :=
    total_flatMap Hit.contribution TargetScore.hits score.targets
  rw [htargets, targets, total, total_append, totalScore, scenariosScore, FeatureScore.score,
    Int.add_comm]
  cases score.background with
  | none => simp [total]
  | some background => simp [total]

end FeatureScore

-----------------------------------------------------------------------------------------
-- Hits on one subject
-----------------------------------------------------------------------------------------

section Subjects

variable (rules : List Rule) (subject : Subject)

/-- A rule that is not hit adds as much as its count of zero, by induction on the enabled rules. -/
theorem total_evaluate
    : total Hit.contribution (evaluate rules subject)
      = total (fun rule => rule.weight * rule.trigger.count subject)
          (rules.filter (·.enabled)) := by
  unfold evaluate
  induction rules.filter (·.enabled) with
  | nil => rfl
  | cons rule rest ih =>
      rw [List.filterMap_cons, total, ← ih]
      by_cases hcount : rule.trigger.count subject = 0
      · simp [Rule.hit?, hcount]
      · simp [Rule.hit?, hcount, total, Int.mul_comm]

/-- The counts of the hits are those of the enabled rules, by induction on these. -/
theorem tally_evaluate
    : tally Hit.count (evaluate rules subject)
      = tally (fun rule => rule.trigger.count subject) (rules.filter (·.enabled)) := by
  unfold evaluate
  induction rules.filter (·.enabled) with
  | nil => rfl
  | cons rule rest ih =>
      rw [List.filterMap_cons, tally, ← ih]
      by_cases hcount : rule.trigger.count subject = 0
      · simp [Rule.hit?, hcount]
      · simp [Rule.hit?, hcount, tally]

theorem evaluate_append (front back : List Rule)
    : evaluate (front ++ back) subject = evaluate front subject ++ evaluate back subject := by
  simp only [evaluate, List.filter_append, List.filterMap_append]

end Subjects

-----------------------------------------------------------------------------------------
-- Triggers in a whole feature
-----------------------------------------------------------------------------------------

/-- How often a rule is triggered in a feature: on the feature, on its elements, or on the step
lines of its elements. Rules about hooks and step definitions are not.
-/
def Rule.triggers (feature : Feature) (rule : Rule) : Nat :=
  match rule.trigger with
  | .feature count => count feature
  | .scenario count => tally count feature.elements
  | .step count => tally count (feature.elements.flatMap (·.steps))
  | .hook _ => 0
  | .stepDefinition _ => 0

/-- A rule is triggered in a feature as often as on all its subjects, by the kinds of triggers. -/
theorem Rule.tally_subjects (feature : Feature) (rule : Rule)
    : tally rule.trigger.count feature.subjects = rule.triggers feature := by
  rw [Feature.subjects, tally, tally_eq_sum, List.map_map]
  cases ht : rule.trigger with
  | feature count => simp [triggers, ht, Function.comp_def, Trigger.count]
  | scenario count => simp [triggers, ht, Function.comp_def, Trigger.count, tally_eq_sum]
  | step count =>
      simp only [triggers, ht, Function.comp_def, Trigger.count, tally_flatMap, Nat.zero_add]
      exact (tally_eq_sum _ _).symm
  | hook count => simp [triggers, ht, Function.comp_def, Trigger.count]
  | stepDefinition count => simp [triggers, ht, Function.comp_def, Trigger.count]

/-- The total by rules. Witness: the hits by subjects and rules, summed by rules and subjects. -/
theorem totalScore_eq_total_triggers (rules : List Rule) (feature : Feature)
    : (FeatureScore.of rules feature).totalScore
      = total (fun rule => rule.weight * rule.triggers feature) (rules.filter (·.enabled)) := by
  calc (FeatureScore.of rules feature).totalScore
      = total (fun subject => total Hit.contribution (evaluate rules subject))
          feature.subjects := by
        rw [FeatureScore.totalScore_eq_total_hits, FeatureScore.hits_of, total_flatMap]
    _ = total
          (fun subject =>
            total (fun rule => rule.weight * rule.trigger.count subject) (rules.filter (·.enabled)))
          feature.subjects := by simp only [total_evaluate]
    _ = total
          (fun rule =>
            total (fun subject => rule.weight * rule.trigger.count subject) feature.subjects)
          (rules.filter (·.enabled)) := total_comm _ _ _
    _ = total (fun rule => rule.weight * rule.triggers feature) (rules.filter (·.enabled)) := by
        simp only [total_mul, Rule.tally_subjects]

/-- All counts by rules, as for the total. -/
theorem tally_hits_eq_tally_triggers (rules : List Rule) (feature : Feature)
    : tally Hit.count (FeatureScore.of rules feature).hits
      = tally (Rule.triggers feature) (rules.filter (·.enabled)) := by
  calc tally Hit.count (FeatureScore.of rules feature).hits
      = tally (fun subject => tally Hit.count (evaluate rules subject)) feature.subjects := by
        rw [FeatureScore.hits_of, tally_flatMap]
    _ = tally
          (fun subject =>
            tally (fun rule => rule.trigger.count subject) (rules.filter (·.enabled)))
          feature.subjects := by simp only [tally_evaluate]
    _ = tally (fun rule => tally rule.trigger.count feature.subjects)
          (rules.filter (·.enabled)) := tally_comm _ _ _
    _ = tally (Rule.triggers feature) (rules.filter (·.enabled)) := by
        simp only [Rule.tally_subjects]

-----------------------------------------------------------------------------------------
-- Other weights
-----------------------------------------------------------------------------------------

/-- The same rule with more or less weight. -/
def Rule.reweigh (change : Int) (rule : Rule) : Rule :=
  { rule with weight := rule.weight + change }

/-- The same hit by a rule with more or less weight. -/
def Hit.reweigh (change : Int) (hit : Hit) : Hit :=
  { hit with contribution := hit.contribution + hit.count * change }

section Weights

variable (change : Int) (rules : List Rule) (i : Nat) (subject : Subject)

/-- Another weight of a rule changes what it adds by its own count and nothing else. -/
theorem Rule.hit?_reweigh (rule : Rule)
    : (rule.reweigh change).hit? subject = (rule.hit? subject).map (Hit.reweigh change) := by
  by_cases hcount : rule.trigger.count subject = 0
  · simp [hit?, reweigh, hcount]
  · simp [hit?, reweigh, hcount, Hit.reweigh, Int.mul_add, phraseFor, wordFor]

/-- Other weights of all rules leave the hits in their places. -/
theorem evaluate_map_reweigh
    : evaluate (rules.map (·.reweigh change)) subject
      = (evaluate rules subject).map (Hit.reweigh change) := by
  unfold evaluate
  rw [List.filter_map, List.filterMap_map, List.map_filterMap]
  refine List.filterMap_congr fun rule _ => ?_
  exact rule.hit?_reweigh change subject

/-- A place in a list of rules takes it apart. -/
theorem rules_split : rules = rules.take i ++ rules[i]?.toList ++ rules.drop (i + 1) := by
  rw [← List.take_add_one, List.take_append_drop]

/-- What is changed in one place of a list of rules is only the rule in this place. -/
theorem rules_modify_split (edit : Rule → Rule)
    : rules.modify i edit
      = rules.take i ++ rules[i]?.toList.map edit ++ rules.drop (i + 1) := by
  by_cases hi : i < rules.length
  · simp [List.modify_eq_take_cons_drop hi, hi]
  · have hlater : rules.length ≤ i := Nat.not_lt.mp hi
    have hnone : rules.drop (i + 1) = [] := List.drop_eq_nil_of_le (Nat.le_succ_of_le hlater)
    simp [List.modify_eq_self hlater, List.take_of_length_le hlater, hlater, hnone]

/-- The hits of the rules before one place, in it and after it. -/
theorem evaluate_split
    : evaluate rules subject
      = evaluate (rules.take i) subject ++ evaluate rules[i]?.toList subject
        ++ evaluate (rules.drop (i + 1)) subject := by
  conv => lhs; rw [rules_split rules i]
  simp only [evaluate_append]

/-- Another weight in one place changes the hits of the rule in this place. -/
theorem evaluate_modify_reweigh
    : evaluate (rules.modify i (·.reweigh change)) subject
      = evaluate (rules.take i) subject
        ++ (evaluate rules[i]?.toList subject).map (Hit.reweigh change)
        ++ evaluate (rules.drop (i + 1)) subject := by
  rw [rules_modify_split, evaluate_append, evaluate_append, evaluate_map_reweigh]

/-- Another weight in one place changes the total by the triggers of the rule in this place. -/
theorem totalScore_modify_reweigh (feature : Feature)
    : (FeatureScore.of (rules.modify i (·.reweigh change)) feature).totalScore
      = (FeatureScore.of rules feature).totalScore
        + change * tally (Rule.triggers feature) (rules[i]?.toList.filter (·.enabled)) := by
  have hmoved : total (fun rule => rule.weight * rule.triggers feature)
        ((rules[i]?.toList.map (·.reweigh change)).filter (·.enabled))
      = total (fun rule => rule.weight * rule.triggers feature)
          (rules[i]?.toList.filter (·.enabled))
        + change * tally (Rule.triggers feature) (rules[i]?.toList.filter (·.enabled)) := by
    cases rules[i]? with
    | none => simp [total, tally]
    | some rule =>
        by_cases he : rule.enabled = true
        · simp [Rule.reweigh, Rule.triggers, he, total, tally, Int.add_mul]
        · simp [Rule.reweigh, he, total, tally]
  rw [totalScore_eq_total_triggers, totalScore_eq_total_triggers, rules_modify_split]
  conv => rhs; rw [rules_split rules i]
  simp only [List.filter_append, total_append]
  rw [hmoved, ← rules_split]
  omega

end Weights

-----------------------------------------------------------------------------------------
-- Totals
-----------------------------------------------------------------------------------------

/-- The total of a feature counts every hit once: rule by rule it is the weight of each enabled rule
as often as the rule is triggered, and target by target the scores of the feature and its elements.
Another weight of one rule changes the total by its triggers and no hit of another rule.
-/
theorem totalScore_of_rules (rules : List Rule) (feature : Feature)
    : (FeatureScore.of rules feature).totalScore
        = total (fun rule => rule.weight * rule.triggers feature) (rules.filter (·.enabled))
      ∧ (FeatureScore.of rules feature).totalScore
        = total Hit.contribution (FeatureScore.of rules feature).hits
      ∧ tally Hit.count (FeatureScore.of rules feature).hits
        = tally (Rule.triggers feature) (rules.filter (·.enabled))
      ∧ (FeatureScore.of rules feature).scenariosScore + (FeatureScore.of rules feature).score
        = (FeatureScore.of rules feature).totalScore
      ∧ ∀ i change,
          (FeatureScore.of (rules.modify i (·.reweigh change)) feature).totalScore
            = (FeatureScore.of rules feature).totalScore
              + change * tally (Rule.triggers feature) (rules[i]?.toList.filter (·.enabled))
          ∧ (FeatureScore.of rules feature).targets.map (·.hits)
            = feature.subjects.map (fun subject =>
                evaluate (rules.take i) subject ++ evaluate rules[i]?.toList subject
                  ++ evaluate (rules.drop (i + 1)) subject)
          ∧ (FeatureScore.of (rules.modify i (·.reweigh change)) feature).targets.map (·.hits)
            = feature.subjects.map (fun subject =>
                evaluate (rules.take i) subject
                  ++ (evaluate rules[i]?.toList subject).map (Hit.reweigh change)
                  ++ evaluate (rules.drop (i + 1)) subject) := by
  refine ⟨totalScore_eq_total_triggers rules feature,
    FeatureScore.totalScore_eq_total_hits _, tally_hits_eq_tally_triggers rules feature, rfl, ?_⟩
  intro i change
  refine ⟨totalScore_modify_reweigh change rules i feature, ?_, ?_⟩
  · rw [FeatureScore.hits_targets_of]
    exact List.map_congr_left fun subject _ => evaluate_split rules i subject
  · rw [FeatureScore.hits_targets_of]
    exact List.map_congr_left fun subject _ => evaluate_modify_reweigh change rules i subject

end SuiteScore
