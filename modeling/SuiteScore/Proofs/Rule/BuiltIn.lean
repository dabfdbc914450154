import Mathlib.Data.List.Nodup
import SuiteScore.Rule.Catalog
import SuiteScore.Rule.Override

/-! Rules that are made from the catalog: they keep their identifiers and what they count, whatever
is changed in them.
-/

namespace SuiteScore

open Support

-----------------------------------------------------------------------------------------
-- Names of rules
-----------------------------------------------------------------------------------------

/-- No two rules of the catalog have one identifier. -/
theorem catalog_nodup : (catalog.map (·.id)).Nodup := by decide +kernel

/-- A rule of the catalog is told by its identifier. -/
theorem Rule.eq_of_id_eq {rule other : Rule} (h : rule ∈ catalog) (ho : other ∈ catalog)
    (hid : rule.id = other.id)
    : rule = other :=
  List.inj_on_of_nodup_map catalog_nodup h ho hid

/-- Entries that a key tells apart are told by their keys, by induction on them. -/
theorem filter_eq_singleton [DecidableEq β] {key : α → β} {entry : α} {entries : List α}
    (h : (entries.map key).Nodup) (hin : entry ∈ entries)
    : entries.filter (fun other => key other = key entry) = [entry] := by
  induction entries with
  | nil => cases hin
  | cons first rest ih =>
      obtain ⟨hfirst, hrest⟩ := List.nodup_cons.mp h
      rcases List.mem_cons.mp hin with rfl | hin
      · have hnone : rest.filter (fun other => key other = key entry) = [] := by
          refine List.filter_eq_nil_iff.mpr fun other hother => ?_
          exact fun hkey => hfirst (List.mem_map.mpr ⟨other, hother, of_decide_eq_true hkey⟩)
        rw [List.filter_cons_of_pos (by simp), hnone]
      · have hne : ¬key first = key entry := fun hkey =>
          hfirst (List.mem_map.mpr ⟨entry, hin, hkey.symm⟩)
        rw [List.filter_cons_of_neg (by simpa using hne), ih hrest hin]

-----------------------------------------------------------------------------------------
-- Rules from the catalog
-----------------------------------------------------------------------------------------

/-- A rule of the catalog with a weight of its own, enabled or not. -/
def Rule.IsBuiltIn (rule : Rule) : Prop :=
  ∃ original ∈ catalog, rule.id = original.id ∧ rule.trigger = original.trigger

theorem isBuiltIn_of_mem_catalog : ∀ rule ∈ catalog, rule.IsBuiltIn :=
  fun rule hin => ⟨rule, hin, rfl, rfl⟩

/-- A built-in rule counts what the rule of the catalog with its identifier counts. -/
theorem Rule.IsBuiltIn.trigger_eq {rule original : Rule} (h : rule.IsBuiltIn)
    (hin : original ∈ catalog) (hid : rule.id = original.id)
    : rule.trigger = original.trigger := by
  obtain ⟨other, hother, hsame, htrigger⟩ := h
  rw [htrigger, Rule.eq_of_id_eq hother hin (hsame.symm.trans hid)]

/-- A change in one rule leaves built-in rules built in, by induction on the rules. -/
theorem isBuiltIn_changeFirst {id : Text} {override : Override} {rules : List Rule}
    (h : ∀ rule ∈ rules, rule.IsBuiltIn)
    : ∀ rule ∈ changeFirst id override rules, rule.IsBuiltIn := by
  induction rules with
  | nil => simp [changeFirst]
  | cons first rest ih =>
      have hfirst := h first List.mem_cons_self
      have hrest : ∀ rule ∈ rest, rule.IsBuiltIn := fun rule hin =>
        h rule (List.mem_cons_of_mem _ hin)
      intro rule hin
      unfold changeFirst at hin
      split at hin
      · rcases List.mem_cons.mp hin with rfl | hin
        · exact hfirst
        · exact hrest rule hin
      · rcases List.mem_cons.mp hin with rfl | hin
        · exact hfirst
        · exact ih hrest rule hin

/-- Rules from the catalog by overrides are built in, by induction on the overrides. -/
theorem isBuiltIn_of_mem_applyOverrides (overrides : Overrides)
    : ∀ rule ∈ applyOverrides overrides catalog, rule.IsBuiltIn := by
  suffices hall : ∀ rules : List Rule, (∀ rule ∈ rules, rule.IsBuiltIn) →
      ∀ rule ∈ applyOverrides overrides rules, rule.IsBuiltIn from
    hall catalog isBuiltIn_of_mem_catalog
  unfold applyOverrides
  induction overrides with
  | nil => exact fun rules h => h
  | cons first rest ih => exact fun rules h => ih _ (isBuiltIn_changeFirst h)

-----------------------------------------------------------------------------------------
-- Kinds of rules
-----------------------------------------------------------------------------------------

/-- The rules of the catalog about one kind of target. -/
def Rule.ofKind : TargetKind → List Rule
  | .feature => ofFeature
  | .scenario => ofScenario
  | .step => ofStep
  | .hook => ofHook
  | .stepDefinition => ofStepDefinition

theorem Rule.filter_kind_catalog (kind : TargetKind)
    : catalog.filter (fun rule => rule.kind = kind) = ofKind kind := by
  cases kind <;> rfl

/-- Every rule of the catalog is among those of its kind. -/
theorem Rule.mem_ofKind {rule : Rule} (h : rule ∈ catalog) : rule ∈ ofKind rule.kind :=
  filter_kind_catalog rule.kind ▸ List.mem_filter.mpr ⟨h, decide_eq_true rfl⟩

/-- The rules about a kind of target are in the catalog. -/
theorem Rule.mem_catalog {rule : Rule} (kind : TargetKind) (h : rule ∈ ofKind kind)
    : rule ∈ catalog :=
  List.mem_of_mem_filter (filter_kind_catalog kind ▸ h)

/-- Rules that are not about features say nothing about them. -/
theorem Trigger.count_feature_of_kind {trigger : Trigger} {feature : Feature}
    (h : trigger.kind ≠ .feature) : trigger.count (.feature feature) = 0 := by
  cases trigger with
  | feature count => exact absurd rfl h
  | _ => rfl

/-- Rules that are about neither scenarios nor steps say nothing about scenarios. -/
theorem Trigger.count_scenario_of_kind {trigger : Trigger} {scenario : Scenario}
    (h : trigger.kind ≠ .scenario) (hs : trigger.kind ≠ .step)
    : trigger.count (.scenario scenario) = 0 := by
  cases trigger with
  | scenario count => exact absurd rfl h
  | step count => exact absurd rfl hs
  | _ => rfl

/-- Rules that are not about hooks say nothing about them. -/
theorem Trigger.count_hook_of_kind {trigger : Trigger} {hook : Hook} {peers : List Hook}
    (h : trigger.kind ≠ .hook)
    : trigger.count (.hook hook peers) = 0 := by
  cases trigger with
  | hook count => exact absurd rfl h
  | _ => rfl

-----------------------------------------------------------------------------------------
-- Rules about steps
-----------------------------------------------------------------------------------------

/-- What is counted once for each entry with a property is counted as often as there are such
entries, by induction on the entries.
-/
theorem tally_once (test : α → Bool) (entries : List α)
    : tally (fun entry => Rule.once (test entry)) entries = entries.countP test := by
  induction entries with
  | nil => rfl
  | cons first rest ih =>
      rw [tally, ih, List.countP_cons, Nat.add_comm]
      rfl

/-- A built-in rule that sees a property of steps counts the steps of a scenario that have it. -/
theorem Rule.IsBuiltIn.count_step {rule : Rule} (h : rule.IsBuiltIn) {id remark : Text}
    {weight : Int} {test : Text → Bool}
    (hin : builtIn id weight remark (.step fun line => once (test line)) ∈ ofStep)
    (hid : rule.id = id) (scenario : Scenario)
    : rule.trigger.count (.scenario scenario) = scenario.steps.countP test := by
  rw [h.trigger_eq (Rule.mem_catalog .step hin) hid]
  exact tally_once test scenario.steps

-----------------------------------------------------------------------------------------
-- Peers of hooks
-----------------------------------------------------------------------------------------

/-- The rule about hooks that are defined more than once. -/
def duplicateRule : Text := "hook_duplicate"

/-- Only one of the built-in rules about hooks sees the other hooks, rule by rule. -/
theorem Rule.IsBuiltIn.count_hook_eq {rule : Rule} (h : rule.IsBuiltIn)
    (hid : rule.id ≠ duplicateRule) (hook : Hook) (peers others : List Hook)
    : rule.trigger.count (.hook hook peers) = rule.trigger.count (.hook hook others) := by
  obtain ⟨original, hin, hsame, htrigger⟩ := h
  rw [hsame] at hid
  rw [htrigger]
  by_cases hkind : original.kind = .hook
  · have hhook := Rule.mem_ofKind hin
    rw [hkind] at hhook
    simp only [Rule.ofKind, Rule.ofHook, List.mem_cons, List.not_mem_nil, or_false] at hhook
    rcases hhook with rfl | rfl | rfl | rfl | rfl | rfl | rfl | rfl | rfl
    case inr.inr.inr.inr.inr.inr.inr.inr => exact absurd rfl hid
    all_goals rfl
  · rw [Trigger.count_hook_of_kind hkind, Trigger.count_hook_of_kind hkind]

end SuiteScore
