import Mathlib.Data.Finset.Card
import Mathlib.Data.List.Forall2
import SuiteScore.Proofs.Rule.BuiltIn

/-! Tags that all scenarios of a feature have. The rule about them goes through the tags of the
first scenario, yet no scenario is special, and a tag that is repeated counts once.
-/

namespace SuiteScore

open Text

-----------------------------------------------------------------------------------------
-- The tags of all scenarios
-----------------------------------------------------------------------------------------

/-- The tags that every scenario of a feature has, each of them once. -/
def Feature.commonTags (feature : Feature) : Finset Text :=
  (feature.scenarios.flatMap (·.tags)).toFinset.filter fun tag =>
    ∀ scenario ∈ feature.scenarios, tag ∈ scenario.tags

/-- Two scenarios have the same tags, in any order and however often. -/
def Scenario.SameTags (scenario other : Scenario) : Prop :=
  ∀ tag, tag ∈ scenario.tags ↔ tag ∈ other.tags

/-- Where there are scenarios, a tag that all of them have is the tag of one of them. -/
theorem Feature.mem_commonTags_iff {feature : Feature} (hne : feature.scenarios ≠ []) {tag : Text}
    : tag ∈ feature.commonTags ↔ ∀ scenario ∈ feature.scenarios, tag ∈ scenario.tags := by
  rw [commonTags, Finset.mem_filter, List.mem_toFinset, List.mem_flatMap]
  constructor
  · intro h
    exact h.2
  · intro h
    obtain ⟨scenario, hin⟩ := List.exists_mem_of_ne_nil _ hne
    exact ⟨⟨scenario, hin, h scenario hin⟩, h⟩

/-- Scenarios with the same tags, one by one, have the same tags in common. -/
theorem forall_mem_tags_iff {scenarios others : List Scenario}
    (h : List.Forall₂ Scenario.SameTags scenarios others) (tag : Text)
    : (∀ scenario ∈ scenarios, tag ∈ scenario.tags) ↔ ∀ other ∈ others, tag ∈ other.tags := by
  induction h with
  | nil => rfl
  | cons hfirst _ ih => rw [List.forall_mem_cons, List.forall_mem_cons, hfirst tag, ih]

-----------------------------------------------------------------------------------------
-- The rule about shared tags
-----------------------------------------------------------------------------------------

namespace Rule

variable {feature other : Feature}

/-- Distinct entries are as many as there are in the set of all entries, by induction on them. -/
theorem length_distinct (tags : List Text) : (distinct tags).length = tags.toFinset.card := by
  induction tags with
  | nil => rfl
  | cons first rest ih =>
      rw [distinct, List.toFinset_cons]
      by_cases hin : first ∈ rest
      · rw [if_pos (List.contains_iff_mem.mpr hin), ih,
          Finset.insert_eq_self.mpr (List.mem_toFinset.mpr hin)]
      · rw [if_neg (by simpa using hin), List.length_cons, ih,
          Finset.card_insert_of_notMem (by simpa using hin)]

/-- The tags of the first scenario that the others have too are the tags of all scenarios. -/
theorem sharedTags_eq_card (h : 2 ≤ feature.scenarios.length)
    : sharedTags feature = feature.commonTags.card := by
  unfold sharedTags
  split
  · next first second rest hscenarios =>
      rw [length_distinct]
      congr 1
      ext tag
      rw [Feature.mem_commonTags_iff (by simp [hscenarios]), hscenarios]
      simp
  · next hfew =>
      exfalso
      cases hscenarios : feature.scenarios with
      | nil => simp [hscenarios] at h
      | cons first others =>
          cases others with
          | nil => simp [hscenarios] at h
          | cons second rest => exact hfew first second rest hscenarios

/-- Nothing is shared where there are not two scenarios. -/
theorem sharedTags_eq_zero (h : feature.scenarios.length < 2) : sharedTags feature = 0 := by
  unfold sharedTags
  split
  · next hscenarios =>
      rw [hscenarios, List.length_cons, List.length_cons] at h
      omega
  · rfl

/-- Features with equally many scenarios and the same tags on all of them share as many tags. -/
theorem sharedTags_congr (hl : feature.scenarios.length = other.scenarios.length)
    (h
      : ∀ tag, (∀ scenario ∈ feature.scenarios, tag ∈ scenario.tags)
          ↔ ∀ scenario ∈ other.scenarios, tag ∈ scenario.tags)
    : sharedTags feature = sharedTags other := by
  by_cases htwo : 2 ≤ feature.scenarios.length
  · have hother : 2 ≤ other.scenarios.length := hl ▸ htwo
    rw [sharedTags_eq_card htwo, sharedTags_eq_card hother]
    congr 1
    ext tag
    rw [Feature.mem_commonTags_iff (List.ne_nil_of_length_pos (by omega)),
      Feature.mem_commonTags_iff (List.ne_nil_of_length_pos (by omega)), h tag]
  · rw [sharedTags_eq_zero (by omega), sharedTags_eq_zero (by omega)]

/-- More scenarios share no more tags. -/
theorem sharedTags_le (htwo : 2 ≤ feature.scenarios.length)
    (h : feature.scenarios ⊆ other.scenarios)
    : sharedTags other ≤ sharedTags feature := by
  by_cases hother : 2 ≤ other.scenarios.length
  · rw [sharedTags_eq_card htwo, sharedTags_eq_card hother]
    apply Finset.card_le_card
    intro tag htag
    rw [Feature.mem_commonTags_iff (List.ne_nil_of_length_pos (by omega))] at htag ⊢
    intro scenario hin
    exact htag scenario (h hin)
  · rw [sharedTags_eq_zero (by omega)]
    exact Nat.zero_le _

/-- The rule of the catalog about shared tags. -/
def ofSharedTags : Rule :=
  builtIn "feature_same_tag_on_all_scenarios" info "repeats the same tag on every scenario."
    (.feature sharedTags)

theorem ofSharedTags_mem : ofSharedTags ∈ catalog :=
  mem_catalog .feature (List.mem_of_getLast? rfl)

/-- The rule counts the shared tags. -/
theorem IsBuiltIn.count_ofSharedTags {rule : Rule} (h : rule.IsBuiltIn)
    (hid : rule.id = ofSharedTags.id) (feature : Feature)
    : rule.trigger.count (.feature feature) = sharedTags feature := by
  rw [h.trigger_eq ofSharedTags_mem hid]
  rfl

end Rule

/-- What the rule about shared tags counts. With two scenarios or more it is the number of tags that
all scenarios have, with fewer nothing. So the count is the same for the scenarios in another order,
and for scenarios with the same tags in another order or repeated; and where there are two scenarios
already, no further ones add to it.
-/
theorem sharedTags_of_scenarios {rule : Rule} (hrule : rule.IsBuiltIn)
    (hid : rule.id = "feature_same_tag_on_all_scenarios") (feature : Feature)
    : (2 ≤ feature.scenarios.length →
          (∀ tag, tag ∈ feature.commonTags
            ↔ ∀ scenario ∈ feature.scenarios, tag ∈ scenario.tags)
          ∧ rule.trigger.count (.feature feature) = feature.commonTags.card)
      ∧ (feature.scenarios.length < 2 → rule.trigger.count (.feature feature) = 0)
      ∧ (∀ other : Feature, feature.scenarios.Perm other.scenarios →
          rule.trigger.count (.feature feature) = rule.trigger.count (.feature other))
      ∧ (∀ other : Feature, List.Forall₂ Scenario.SameTags feature.scenarios other.scenarios →
          rule.trigger.count (.feature feature) = rule.trigger.count (.feature other))
      ∧ ∀ other : Feature,
          2 ≤ feature.scenarios.length →
          feature.scenarios ⊆ other.scenarios →
          rule.trigger.count (.feature other) ≤ rule.trigger.count (.feature feature) := by
  simp only [hrule.count_ofSharedTags hid]
  refine ⟨?_, Rule.sharedTags_eq_zero, ?_, ?_, ?_⟩
  · intro htwo
    have hne : feature.scenarios ≠ [] := List.ne_nil_of_length_pos (by omega)
    exact ⟨fun tag => Feature.mem_commonTags_iff hne, Rule.sharedTags_eq_card htwo⟩
  · intro other hp
    apply Rule.sharedTags_congr hp.length_eq
    intro tag
    simp only [hp.mem_iff]
  · intro other h
    exact Rule.sharedTags_congr h.length_eq (forall_mem_tags_iff h)
  · intro other htwo h
    exact Rule.sharedTags_le htwo h

/-- Two scenarios with two tags in common, one of them repeated. -/
def sharingFeature : Feature :=
  { Feature.blank "f" [] with
    scenarios := [
      { Scenario.unread "f:3" [] with tags := ["@a", "@b", "@a", "@c"] },
      { Scenario.unread "f:6" [] with tags := ["@b", "@a"] }] }

/-- The repeated tag counts once, and the tag of one scenario alone does not count. -/
theorem sharedTags_of_sharingFeature
    : Rule.ofSharedTags.IsBuiltIn
      ∧ 2 ≤ sharingFeature.scenarios.length
      ∧ sharingFeature.commonTags.card = 2
      ∧ Rule.ofSharedTags.trigger.count (.feature sharingFeature) = 2 := by
  have hrule : Rule.ofSharedTags.IsBuiltIn := isBuiltIn_of_mem_catalog _ Rule.ofSharedTags_mem
  have htwo : 2 ≤ sharingFeature.scenarios.length := by decide
  have hcard : sharingFeature.commonTags.card = 2 := by decide
  have hcount := ((sharedTags_of_scenarios hrule rfl sharingFeature).1 htwo).2
  exact ⟨hrule, htwo, hcard, hcount.trans hcard⟩

end SuiteScore
