import Mathlib.Data.List.Perm.Basic
import SuiteScore.Proofs.Rule.BuiltIn
import SuiteScore.Proofs.Score.Hits

/-! Hooks that are defined more than once. Hooks with the same definition are alike for the rule
about them, wherever they stand and however many there are, and no other built-in rule sees other
hooks.
-/

namespace SuiteScore

open Text Support

-----------------------------------------------------------------------------------------
-- The same definition
-----------------------------------------------------------------------------------------

/-- Hooks have the same definition when they have the same type, tags, parameters and code. -/
theorem Support.Hook.sameDefinition_iff {hook other : Hook}
    : hook.sameDefinition other = true
      ↔ hook.type = other.type ∧ hook.tags = other.tags ∧ hook.parameters = other.parameters
        ∧ hook.code = other.code := by
  simp only [sameDefinition, Bool.and_eq_true, beq_iff_eq, and_assoc]

theorem Support.Hook.sameDefinition_equivalence
    : Equivalence fun hook other : Hook => hook.sameDefinition other = true where
  refl _ := sameDefinition_iff.mpr ⟨rfl, rfl, rfl, rfl⟩
  symm h := by
    obtain ⟨htype, htags, hparameters, hcode⟩ := sameDefinition_iff.mp h
    exact sameDefinition_iff.mpr ⟨htype.symm, htags.symm, hparameters.symm, hcode.symm⟩
  trans h hother := by
    obtain ⟨htype, htags, hparameters, hcode⟩ := sameDefinition_iff.mp h
    obtain ⟨htype', htags', hparameters', hcode'⟩ := sameDefinition_iff.mp hother
    exact sameDefinition_iff.mpr ⟨htype.trans htype', htags.trans htags',
      hparameters.trans hparameters', hcode.trans hcode'⟩

/-- At another place of a list of hooks stands one with the same definition. -/
def HasTwin (hooks : List Hook) (i : Nat) (hook : Hook) : Prop :=
  ∃ j other, j ≠ i ∧ hooks[j]? = some other ∧ other.sameDefinition hook = true

/-- A hook is counted with its twins. Witness: the other places of the list are what is left when
the hook is taken out of its own.
-/
theorem one_lt_doubles_iff {hooks : List Hook} {i : Nat} {hook : Hook}
    (h : hooks[i]? = some hook)
    : 1 < Rule.doubles hook hooks ↔ HasTwin hooks i hook := by
  obtain ⟨hi, hget⟩ := List.getElem?_eq_some_iff.mp h
  have hperm : (hook :: hooks.eraseIdx i).Perm hooks := hget ▸ List.getElem_cons_eraseIdx_perm hi
  have hself : hook.sameDefinition hook = true := Hook.sameDefinition_equivalence.refl hook
  have hcount : Rule.doubles hook hooks
      = (hooks.eraseIdx i).countP (fun peer => peer.sameDefinition hook) + 1 := by
    rw [Rule.doubles, ← hperm.countP_eq]
    exact List.countP_cons_of_pos hself
  rw [hcount, Nat.lt_add_left_iff_pos, List.countP_pos_iff]
  simp only [List.mem_eraseIdx_iff_getElem?]
  constructor
  · rintro ⟨other, ⟨j, hne, hj⟩, hsame⟩
    exact ⟨j, other, hne, hj, hsame⟩
  · rintro ⟨j, other, hne, hj, hsame⟩
    exact ⟨other, ⟨j, hne, hj⟩, hsame⟩

/-- Hooks with the same definition are counted together. -/
theorem doubles_congr {hook other : Hook} (h : hook.sameDefinition other = true)
    (peers : List Hook)
    : Rule.doubles hook peers = Rule.doubles other peers := by
  refine List.countP_congr fun peer _ => ⟨fun hpeer => ?_, fun hpeer => ?_⟩
  · exact Hook.sameDefinition_equivalence.trans hpeer h
  · exact Hook.sameDefinition_equivalence.trans hpeer (Hook.sameDefinition_equivalence.symm h)

-----------------------------------------------------------------------------------------
-- The rule about hooks that are defined more than once
-----------------------------------------------------------------------------------------

namespace Rule

/-- The rule of the catalog about hooks that are defined more than once. -/
def ofDuplicates : Rule :=
  builtIn duplicateRule warning "is defined more than once."
    (.hook fun hook peers => once (decide (1 < doubles hook peers)))

theorem ofDuplicates_mem : ofDuplicates ∈ catalog :=
  mem_catalog .hook (List.mem_of_getLast? rfl)

/-- The rule is triggered once by a hook that is counted more than once. -/
theorem IsBuiltIn.count_duplicateRule {rule : Rule} (h : rule.IsBuiltIn)
    (hid : rule.id = duplicateRule) (hook : Hook) (peers : List Hook)
    : rule.trigger.count (.hook hook peers) = once (decide (1 < doubles hook peers)) := by
  rw [h.trigger_eq ofDuplicates_mem hid]
  rfl

end Rule

/-- The counts of the hits on a target that say that it is defined more than once. -/
def TargetScore.duplicates (score : TargetScore) : List Nat :=
  (score.keeping (· = duplicateRule)).hits.map (·.count)

/-- The catalog says it once of a hook that is counted more than once, and not at all otherwise. -/
theorem duplicates_of (target : Target) (hook : Hook) (peers : List Hook)
    : (TargetScore.of catalog target (.hook hook peers)).duplicates
      = if 1 < Rule.doubles hook peers then [1] else [] := by
  have hrule : catalog.filter (fun rule => rule.id = duplicateRule) = [Rule.ofDuplicates] :=
    filter_eq_singleton catalog_nodup Rule.ofDuplicates_mem
  have hhits : ((TargetScore.of catalog target (.hook hook peers)).keeping
      (· = duplicateRule)).hits
        = evaluate (catalog.filter fun rule => rule.id = duplicateRule) (.hook hook peers) :=
    (evaluate_filter (· = duplicateRule) catalog (.hook hook peers)).symm
  rw [TargetScore.duplicates, hhits, hrule]
  by_cases hdoubles : 1 < Rule.doubles hook peers
  · simp [evaluate, Rule.ofDuplicates, Rule.builtIn, Rule.hit?, Trigger.count, Rule.once, hdoubles]
  · simp [evaluate, Rule.ofDuplicates, Rule.builtIn, Rule.hit?, Trigger.count, Rule.once, hdoubles]

-----------------------------------------------------------------------------------------
-- Other lists of hooks
-----------------------------------------------------------------------------------------

section Peers

variable {hook : Hook} {peers others : List Hook}

/-- A built-in rule sees no more of the other hooks than whether they double a hook. -/
theorem Rule.IsBuiltIn.count_hook_congr {rule : Rule} (h : rule.IsBuiltIn)
    (hd : 1 < doubles hook peers ↔ 1 < doubles hook others)
    : rule.trigger.count (.hook hook peers) = rule.trigger.count (.hook hook others) := by
  by_cases hid : rule.id = duplicateRule
  · rw [h.count_duplicateRule hid, h.count_duplicateRule hid, decide_eq_decide.mpr hd]
  · exact h.count_hook_eq hid hook peers others

/-- Among hooks that double a hook at least as well, built-in rules say no less about it. -/
theorem Rule.IsBuiltIn.hit?_hook {rule : Rule} (h : rule.IsBuiltIn)
    (hd : 1 < doubles hook peers → 1 < doubles hook others)
    : rule.hit? (.hook hook peers) = none
      ∨ rule.hit? (.hook hook peers) = rule.hit? (.hook hook others) := by
  by_cases hid : rule.id = duplicateRule
  · by_cases hdoubles : 1 < doubles hook peers
    · exact .inr (hit?_congr rfl (h.count_hook_congr (iff_of_true hdoubles (hd hdoubles))))
    · have hnone : rule.trigger.count (.hook hook peers) = 0 := by
        rw [h.count_duplicateRule hid, decide_eq_false hdoubles]
        rfl
      exact .inl (by simp [hit?, hnone])
  · exact .inr (hit?_congr rfl (h.count_hook_eq hid hook peers others))

/-- Built-in rules that do not double hooks say the same about a hook among any hooks. -/
theorem TargetScore.keeping_of_hook {rules : List Rule} (hr : ∀ rule ∈ rules, rule.IsBuiltIn)
    (target : Target) (hook : Hook) (peers others : List Hook)
    : (of rules target (.hook hook peers)).keeping (· ≠ duplicateRule)
      = (of rules target (.hook hook others)).keeping (· ≠ duplicateRule) := by
  have hhits : (evaluate rules (.hook hook peers)).filter (fun hit => hit.rule ≠ duplicateRule)
      = (evaluate rules (.hook hook others)).filter fun hit => hit.rule ≠ duplicateRule :=
    filter_evaluate_congr (· ≠ duplicateRule) rules rfl fun rule hin hid =>
      (hr rule hin).count_hook_eq (of_decide_eq_true hid) hook peers others
  exact congrArg (TargetScore.mk _ _) hhits

/-- What is given for some entries stays in place when more is given for others, by induction on the
entries.
-/
theorem filterMap_sublist_filterMap {f g : α → Option β} {entries : List α}
    (h : ∀ entry ∈ entries, f entry = none ∨ f entry = g entry)
    : (entries.filterMap f).Sublist (entries.filterMap g) := by
  induction entries with
  | nil => exact .slnil
  | cons entry rest ih =>
      have hrest := ih fun other hin => h other (List.mem_cons_of_mem _ hin)
      rcases h entry List.mem_cons_self with hnone | hsame
      · rw [List.filterMap_cons_none hnone, List.filterMap_cons]
        split
        · exact hrest
        · exact hrest.cons _
      · rw [List.filterMap_cons, List.filterMap_cons, hsame]
        split
        · exact hrest
        · exact hrest.cons_cons _

/-- Among hooks that double a hook at least as well, no hit on it is lost. -/
theorem evaluate_hook_sublist {rules : List Rule} (hr : ∀ rule ∈ rules, rule.IsBuiltIn)
    (hd : 1 < Rule.doubles hook peers → 1 < Rule.doubles hook others)
    : (evaluate rules (.hook hook peers)).Sublist (evaluate rules (.hook hook others)) :=
  filterMap_sublist_filterMap fun rule hin => (hr rule (List.mem_of_mem_filter hin)).hit?_hook hd

end Peers

/-- Hooks that are defined more than once. To have the same definition is an equivalence, and equal
hooks are equivalent. The catalog says of exactly those hooks that they are defined more than once
for which another place of the list holds an equivalent one, so of all hooks of a class or of none.
In another order every hook has the score that it had; among more hooks no hook loses a hit; and
nothing else that the catalog says about a hook depends on the others.
-/
theorem duplicates_of_scoreHooks (hooks : List Hook)
    : (Equivalence fun hook other : Hook => hook.sameDefinition other = true)
      ∧ (∀ hook other : Hook, (hook == other) = true → hook.sameDefinition other = true)
      ∧ (∀ i hook, hooks[i]? = some hook →
          ∃ score, (scoreHooks catalog hooks)[i]? = some score
            ∧ (HasTwin hooks i hook → score.duplicates = [1])
            ∧ (¬HasTwin hooks i hook → score.duplicates = []))
      ∧ (∀ (i j : Nat) (hook other : Hook), hooks[i]? = some hook → hooks[j]? = some other →
          hook.sameDefinition other = true →
          (scoreHooks catalog hooks)[i]?.map TargetScore.duplicates
            = (scoreHooks catalog hooks)[j]?.map TargetScore.duplicates)
      ∧ (∀ others, hooks.Perm others →
          ∃ scoreOf : Hook → TargetScore,
            scoreHooks catalog hooks = hooks.map scoreOf
            ∧ scoreHooks catalog others = others.map scoreOf)
      ∧ (∀ more, List.Forall₂ (fun score larger => score.hits.Sublist larger.hits)
          (scoreHooks catalog hooks) ((scoreHooks catalog (hooks ++ more)).take hooks.length))
      ∧ ∀ (hook : Hook) (peers others : List Hook),
          (TargetScore.of catalog hook.toTarget (.hook hook peers)).keeping (· ≠ duplicateRule)
            = (TargetScore.of catalog hook.toTarget (.hook hook others)).keeping
                (· ≠ duplicateRule) := by
  have hscore : ∀ {hooks : List Hook} {i : Nat} {hook : Hook}, hooks[i]? = some hook →
      (scoreHooks catalog hooks)[i]?
        = some (.of catalog hook.toTarget (.hook hook hooks)) := fun h => by
    rw [scoreHooks, List.getElem?_map, h]
    rfl
  refine ⟨Hook.sameDefinition_equivalence, fun hook other h => ?_, fun i hook h => ?_,
    fun i j hook other hi hj hsame => ?_, fun others hp => ?_, fun more => ?_,
    fun hook peers others => ?_⟩
  · rw [eq_of_beq h]
    exact Hook.sameDefinition_equivalence.refl other
  · refine ⟨_, hscore h, fun htwin => ?_, fun hnone => ?_⟩
    · rw [duplicates_of, if_pos ((one_lt_doubles_iff h).mpr htwin)]
    · rw [duplicates_of, if_neg fun hlt => hnone ((one_lt_doubles_iff h).mp hlt)]
  · rw [hscore hi, hscore hj, Option.map_some, Option.map_some, duplicates_of, duplicates_of,
      doubles_congr hsame]
  · refine ⟨fun hook => .of catalog hook.toTarget (.hook hook hooks), rfl, ?_⟩
    refine List.map_congr_left fun hook _ => congrArg (TargetScore.mk _ _) ?_
    refine evaluate_congr rfl fun rule hin => ?_
    refine (isBuiltIn_of_mem_catalog rule hin).count_hook_congr ?_
    rw [Rule.doubles, Rule.doubles, hp.countP_eq]
  · have hfront : (scoreHooks catalog (hooks ++ more)).take hooks.length
        = hooks.map fun hook => .of catalog hook.toTarget (.hook hook (hooks ++ more)) := by
      simp [scoreHooks]
    rw [hfront, scoreHooks, List.forall₂_map_left_iff, List.forall₂_map_right_iff,
      List.forall₂_same]
    refine fun hook _ => evaluate_hook_sublist isBuiltIn_of_mem_catalog fun hdoubles => ?_
    rw [Rule.doubles, List.countP_append]
    exact Nat.lt_add_right _ hdoubles
  · exact TargetScore.keeping_of_hook isBuiltIn_of_mem_catalog _ hook peers others

end SuiteScore
