import Mathlib.Data.List.Nodup
import SuiteScore.Rule.Weight
import SuiteScore.Settings.Effective

/-! What overrides do to rules. Every rule is changed by itself, in its place: it takes what is set
for its identifier, and only the first rule of an identifier does. The order of the overrides
therefore has no part in the result, and two maps of overrides in a row are one map.
-/

namespace SuiteScore

open Text Settings

-----------------------------------------------------------------------------------------
-- Maps of overrides
-----------------------------------------------------------------------------------------

/-- The change that makes one change and then another: what the later one sets stays. -/
def Override.andThen (first later : Override) : Override where
  weight := later.weight <|> first.weight
  enabled := later.enabled <|> first.enabled

theorem Override.andThen_self (override : Override) : override.andThen override = override := by
  cases override
  simp [andThen]

namespace Overrides

/-- No two overrides are of one identifier. -/
def IsMap (overrides : Overrides) : Prop :=
  (overrides.map (·.1)).Nodup

/-- Two maps in one, field by field: what the later one sets stays. -/
def merge (first later : Overrides) : Overrides :=
  first.map (fun (id, override) => (id, ((later.lookup id).map override.andThen).getD override))
    ++ later.filter fun entry => (first.lookup entry.1).isNone

variable {overrides others : Overrides}

/-- Nothing is set for an identifier without an override. -/
theorem lookup_eq_none_iff {id : Text}
    : overrides.lookup id = none ↔ id ∉ overrides.map (·.1) := by
  rw [List.lookup_eq_none_iff, List.mem_map]
  constructor
  · rintro h ⟨entry, hin, rfl⟩
    simpa using h entry hin
  · intro h entry hin
    exact bne_iff_ne.mpr fun hid => h ⟨entry, hin, hid.symm⟩

/-- The first override of a map is of an identifier of its own. -/
theorem isMap_cons {id : Text} {override : Override}
    : IsMap ((id, override) :: overrides) ↔ overrides.lookup id = none ∧ overrides.IsMap := by
  rw [lookup_eq_none_iff]
  exact List.nodup_cons

/-- In a map an identifier leads to what is set for it, by induction on the map. -/
theorem IsMap.lookup_eq_some_iff (h : overrides.IsMap) {id : Text} {override : Override}
    : overrides.lookup id = some override ↔ (id, override) ∈ overrides := by
  induction overrides with
  | nil => simp
  | cons entry rest ih =>
      obtain ⟨key, value⟩ := entry
      obtain ⟨hkey, hrest⟩ := isMap_cons.mp h
      by_cases hid : id = key
      · subst hid
        have hnot : (id, override) ∉ rest := fun hin =>
          lookup_eq_none_iff.mp hkey (List.mem_map.mpr ⟨(id, override), hin, rfl⟩)
        simp [hnot, eq_comm]
      · have hbeq : (id == key) = false := beq_eq_false_iff_ne.mpr hid
        rw [List.lookup_cons, hbeq, List.mem_cons, Prod.mk.injEq]
        simp only [hid, false_and, false_or]
        exact ih hrest

/-- The order of a map has no part in what it sets. -/
theorem IsMap.lookup_perm (h : overrides.IsMap) (hp : overrides.Perm others) (id : Text)
    : others.lookup id = overrides.lookup id := by
  have hothers : others.IsMap := (hp.map _).nodup_iff.mp h
  refine Option.ext fun override => ?_
  rw [hothers.lookup_eq_some_iff, h.lookup_eq_some_iff, hp.mem_iff]

/-- Overrides of some identifiers set what they set for these, by induction on them. -/
theorem lookup_filter (overrides : Overrides) (keep : Text → Bool) (id : Text)
    : (overrides.filter fun entry => keep entry.1).lookup id
      = if keep id then overrides.lookup id else none := by
  induction overrides with
  | nil => simp
  | cons entry rest ih =>
      obtain ⟨key, value⟩ := entry
      by_cases hid : id = key
      · subst hid
        cases hkeep : keep id <;> simp [hkeep, ih]
      · have hbeq : (id == key) = false := beq_eq_false_iff_ne.mpr hid
        cases hkeep : keep key <;> simp [List.lookup_cons, hkeep, hbeq, ih]

/-- Overrides that are changed one by one set the changed values, by induction on them. -/
theorem lookup_map (overrides : Overrides) (edit : Text → Override → Override) (id : Text)
    : (overrides.map fun (id, override) => (id, edit id override)).lookup id
      = (overrides.lookup id).map (edit id) := by
  induction overrides with
  | nil => rfl
  | cons entry rest ih =>
      obtain ⟨key, value⟩ := entry
      by_cases hid : id = key
      · subst hid
        simp
      · have hbeq : (id == key) = false := beq_eq_false_iff_ne.mpr hid
        simp only [List.map_cons, List.lookup_cons, hbeq, ih]

/-- Two maps in one set what the first sets and then what the later sets. -/
theorem lookup_merge (first later : Overrides) (id : Text)
    : (first.merge later).lookup id
      = Option.merge Override.andThen (first.lookup id) (later.lookup id) := by
  have hfront := lookup_map first
    (fun id override => ((later.lookup id).map override.andThen).getD override) id
  have hback := lookup_filter later (fun id => (first.lookup id).isNone) id
  rw [merge, List.lookup_append, hfront, hback]
  cases first.lookup id <;> cases later.lookup id <;> rfl

/-- Two maps in one are a map. -/
theorem IsMap.merge {first later : Overrides} (hf : first.IsMap) (hl : later.IsMap)
    : (first.merge later).IsMap := by
  have hids : (first.merge later).map (·.1)
      = first.map (·.1) ++ (later.filter fun entry => (first.lookup entry.1).isNone).map (·.1) := by
    simp [Overrides.merge, Function.comp_def]
  rw [IsMap, hids, List.nodup_append]
  refine ⟨hf, hl.sublist (List.filter_sublist.map _), ?_⟩
  rintro id hin _ hlater rfl
  obtain ⟨entry, hentry, rfl⟩ := List.mem_map.mp hlater
  have hnone := Option.isNone_iff_eq_none.mp (List.mem_filter.mp hentry).2
  exact lookup_eq_none_iff.mp hnone hin

end Overrides

-----------------------------------------------------------------------------------------
-- Rules in their places
-----------------------------------------------------------------------------------------

namespace Overrides

/-- What overrides make of a rule behind rules with some identifiers: what is set for its own
identifier, unless a rule before it takes that.
-/
def change (overrides : Overrides) (before : List Text) (rule : Rule) : Rule :=
  if before.contains rule.id then rule else ((overrides.lookup rule.id).map rule.change).getD rule

variable (overrides : Overrides) (before : List Text) (rule : Rule)

theorem change_id : (overrides.change before rule).id = rule.id := by
  unfold change
  split
  · rfl
  · cases overrides.lookup rule.id <;> rfl

/-- Overrides keep what a rule says and counts. -/
theorem change_frame
    : (overrides.change before rule).phrase = rule.phrase
      ∧ (overrides.change before rule).trigger = rule.trigger := by
  unfold change
  split
  · exact ⟨rfl, rfl⟩
  · cases overrides.lookup rule.id <;> exact ⟨rfl, rfl⟩

end Overrides

/-- A change after a change is one change. -/
theorem Rule.change_change (rule : Rule) (first later : Override)
    : (rule.change first).change later = rule.change (first.andThen later) := by
  cases hw : later.weight <;> cases he : later.enabled <;>
    simp [Rule.change, Override.andThen, hw, he]

/-- Overrides after overrides make of a rule what their merge makes of it. -/
theorem Overrides.change_change {first later both : Overrides}
    (h
      : ∀ id, both.lookup id
          = Option.merge Override.andThen (first.lookup id) (later.lookup id))
    (before : List Text) (rule : Rule)
    : later.change before (first.change before rule) = both.change before rule := by
  have hid := first.change_id before rule
  rw [change, hid, change, change, h]
  split
  · rfl
  · cases first.lookup rule.id with
    | none => cases later.lookup rule.id <;> rfl
    | some one =>
        cases later.lookup rule.id with
        | none => rfl
        | some other => exact rule.change_change one other

-----------------------------------------------------------------------------------------
-- Lists of rules
-----------------------------------------------------------------------------------------

/-- A change in one rule keeps all identifiers, by induction on the rules. -/
theorem map_id_changeFirst (id : Text) (override : Override) (rules : List Rule)
    : (changeFirst id override rules).map (·.id) = rules.map (·.id) := by
  induction rules with
  | nil => rfl
  | cons rule rest ih =>
      unfold changeFirst
      split
      · rfl
      · rw [List.map_cons, ih, List.map_cons]

/-- One override changes the first rule of its identifier and no other. -/
theorem Overrides.change_singleton (id : Text) (override : Override) (before : List Text)
    (rule : Rule)
    : change [(id, override)] before rule
      = if rule.id = id ∧ id ∉ before then rule.change override else rule := by
  unfold change
  by_cases hid : rule.id = id
  · subst hid
    by_cases hbefore : rule.id ∈ before <;> simp [hbefore]
  · have hbeq : (rule.id == id) = false := beq_eq_false_iff_ne.mpr hid
    simp [hid, List.lookup_cons, hbeq]

/-- One override changes every rule in its place, by induction on the rules. -/
theorem getElem?_changeFirst (id : Text) (override : Override) (rules : List Rule) (i : Nat)
    : (changeFirst id override rules)[i]?
      = rules[i]?.map (Overrides.change [(id, override)] ((rules.map (·.id)).take i)) := by
  simp only [funext (Overrides.change_singleton id override _)]
  induction rules generalizing i with
  | nil => rfl
  | cons rule rest ih =>
      unfold changeFirst
      by_cases hid : rule.id = id
      · cases i with
        | zero => simp [hid]
        | succ i => simp [hid]
      · have hne : ¬id = rule.id := fun h => hid h.symm
        cases i with
        | zero => simp [hid]
        | succ i => simp [hid, hne, ih]

/-- Overrides change every rule in its place, by induction on them: what the first of them changes
is passed by the others, since these are of other identifiers.
-/
theorem getElem?_applyOverrides {overrides : Overrides} (h : overrides.IsMap) (rules : List Rule)
    (i : Nat)
    : (applyOverrides overrides rules)[i]?
      = rules[i]?.map (overrides.change ((rules.map (·.id)).take i)) := by
  induction overrides generalizing rules with
  | nil =>
      have hnone : ∀ before, Overrides.change [] before = id := fun before =>
        funext fun rule => ite_self rule
      rw [hnone, Option.map_id]
      rfl
  | cons entry rest ih =>
      obtain ⟨key, override⟩ := entry
      obtain ⟨hkey, hrest⟩ := Overrides.isMap_cons.mp h
      have hrun : applyOverrides ((key, override) :: rest) rules
          = applyOverrides rest (changeFirst key override rules) := rfl
      have hlookup : ∀ id, List.lookup id ((key, override) :: rest)
          = Option.merge Override.andThen (List.lookup id [(key, override)]) (rest.lookup id) := by
        intro id
        by_cases hid : id = key
        · subst hid
          simp [hkey]
        · have hbeq : (id == key) = false := beq_eq_false_iff_ne.mpr hid
          simp [List.lookup_cons, hbeq]
      rw [hrun, ih hrest, map_id_changeFirst, getElem?_changeFirst, Option.map_map]
      congr 1
      funext rule
      exact Overrides.change_change hlookup _ rule

section Runs

variable {overrides others : Overrides} (h : overrides.IsMap)

include h

/-- Overrides keep identifiers, and what rules say and count, rule by rule. -/
theorem map_frame_applyOverrides (rules : List Rule)
    : (applyOverrides overrides rules).map (fun rule => (rule.id, rule.phrase, rule.trigger))
      = rules.map fun rule => (rule.id, rule.phrase, rule.trigger) := by
  refine List.ext_getElem? fun i => ?_
  rw [List.getElem?_map, List.getElem?_map, getElem?_applyOverrides h, Option.map_map]
  congr 1
  funext rule
  obtain ⟨hphrase, htrigger⟩ := overrides.change_frame ((rules.map (·.id)).take i) rule
  simp only [Function.comp_apply, overrides.change_id, hphrase, htrigger]

theorem map_id_applyOverrides (rules : List Rule)
    : (applyOverrides overrides rules).map (·.id) = rules.map (·.id) := by
  have hframe := congrArg (List.map Prod.fst) (map_frame_applyOverrides h rules)
  simpa only [List.map_map, Function.comp_def] using hframe

/-- Maps that set the same for all rules of a list change them alike. -/
theorem applyOverrides_congr (ho : others.IsMap) {rules : List Rule}
    (hl : ∀ rule ∈ rules, others.lookup rule.id = overrides.lookup rule.id)
    : applyOverrides others rules = applyOverrides overrides rules := by
  refine List.ext_getElem? fun i => ?_
  rw [getElem?_applyOverrides ho, getElem?_applyOverrides h]
  refine Option.map_congr fun rule hrule => ?_
  rw [Overrides.change, Overrides.change, hl rule (List.mem_of_getElem? hrule)]

/-- Two maps in a row change rules as their merge does. -/
theorem applyOverrides_applyOverrides {later both : Overrides} (hl : later.IsMap)
    (hb : both.IsMap)
    (hm
      : ∀ id, both.lookup id
          = Option.merge Override.andThen (overrides.lookup id) (later.lookup id))
    (rules : List Rule)
    : applyOverrides later (applyOverrides overrides rules) = applyOverrides both rules := by
  refine List.ext_getElem? fun i => ?_
  rw [getElem?_applyOverrides hl, map_id_applyOverrides h, getElem?_applyOverrides h,
    getElem?_applyOverrides hb, Option.map_map]
  congr 1
  funext rule
  exact Overrides.change_change hm _ rule

end Runs

/-- Overrides change rules one by one. Whatever their order, each rule stays in its place with its
identifier, its phrase and what it counts; the first rule of an identifier takes what is set for it,
and no other rule changes. Overrides of other identifiers have no part in this. The same map a
second time changes nothing, and another map after the first is the merge of both at once.
-/
theorem applyOverrides_of_isMap {overrides : Overrides} (h : overrides.IsMap) (rules : List Rule)
    : (∀ others : Overrides, overrides.Perm others →
          applyOverrides others rules = applyOverrides overrides rules)
      ∧ (applyOverrides overrides rules).map (fun rule => (rule.id, rule.phrase, rule.trigger))
        = rules.map (fun rule => (rule.id, rule.phrase, rule.trigger))
      ∧ (∀ i, (applyOverrides overrides rules)[i]?
          = rules[i]?.map (overrides.change ((rules.map (·.id)).take i)))
      ∧ applyOverrides (overrides.filter fun entry => (rules.map (·.id)).contains entry.1) rules
        = applyOverrides overrides rules
      ∧ applyOverrides overrides (applyOverrides overrides rules) = applyOverrides overrides rules
      ∧ ∀ later : Overrides, later.IsMap →
          (overrides.merge later).IsMap
          ∧ (∀ id, (overrides.merge later).lookup id
              = Option.merge Override.andThen (overrides.lookup id) (later.lookup id))
          ∧ applyOverrides later (applyOverrides overrides rules)
            = applyOverrides (overrides.merge later) rules := by
  refine ⟨fun others hp => ?_, map_frame_applyOverrides h rules, getElem?_applyOverrides h rules,
    ?_, ?_, fun later hl => ⟨h.merge hl, overrides.lookup_merge later, ?_⟩⟩
  · exact applyOverrides_congr h ((hp.map _).nodup_iff.mp h) fun rule _ => h.lookup_perm hp rule.id
  · refine applyOverrides_congr h (h.sublist (List.filter_sublist.map _)) fun rule hin => ?_
    have hknown : (rules.map (·.id)).contains rule.id = true :=
      List.contains_iff_mem.mpr (List.mem_map.mpr ⟨rule, hin, rfl⟩)
    rw [overrides.lookup_filter (rules.map (·.id)).contains, if_pos hknown]
  · refine applyOverrides_applyOverrides h h h (fun id => ?_) rules
    cases overrides.lookup id with
    | none => rfl
    | some override => simp [override.andThen_self]
  · exact applyOverrides_applyOverrides h hl (h.merge hl) (overrides.lookup_merge later) rules

/-- Two rules of one identifier, and one of another. -/
def twins : List Rule :=
  [Rule.builtIn "a" 1 "has steps." (.step fun _ => 1),
    Rule.builtIn "a" 2 "has steps." (.step fun _ => 1),
    Rule.builtIn "b" 3 "has a name." (.feature fun _ => 1)]

/-- Changes of a weight and of what is enabled, and one of a rule that is not there. -/
def threeChanges : Overrides :=
  [("b", ⟨none, some false⟩), ("c", ⟨some 7, none⟩), ("a", ⟨some 5, none⟩)]

/-- The first of the twins takes a weight, and the other rule is switched off. -/
theorem applyOverrides_of_threeChanges
    : threeChanges.IsMap
      ∧ ∀ overrides : Overrides, threeChanges.Perm overrides →
          (applyOverrides overrides twins).map (fun rule => (rule.weight, rule.enabled))
            = [(5, true), (2, true), (3, false)] := by
  have hmap : threeChanges.IsMap := by
    unfold Overrides.IsMap
    decide
  refine ⟨hmap, fun overrides hperm => ?_⟩
  rw [(applyOverrides_of_isMap hmap twins).1 overrides hperm]
  decide

-----------------------------------------------------------------------------------------
-- Overrides of settings files
-----------------------------------------------------------------------------------------

/-- An override that is set takes the place of one of its identifier. -/
theorem Overrides.IsMap.setOverride {overrides : Overrides} (h : overrides.IsMap) (id : Text)
    (override : Override)
    : (setOverride id override overrides).IsMap := by
  rw [IsMap, Settings.setOverride, List.map_append, List.nodup_append]
  refine ⟨h.sublist (List.filter_sublist.map _), List.nodup_singleton _, ?_⟩
  rintro key hin _ hother rfl
  obtain ⟨entry, hentry, rfl⟩ := List.mem_map.mp hin
  have hne := bne_iff_ne.mp (List.mem_filter.mp hentry).2
  exact hne (List.mem_singleton.mp hother)

/-- The overrides of a table are a map, by induction on the table. -/
theorem isMap_of_overridesOf? {format : Format} {table : Table} {overrides : Overrides}
    (h : overridesOf? format table = some overrides)
    : overrides.IsMap := by
  suffices hall : ∀ start : Overrides, start.IsMap →
      table.foldlM
          (fun overrides (entry : Text × Value) =>
            (override? format entry.2).map fun override => setOverride entry.1 override overrides)
          start = some overrides →
      overrides.IsMap from hall [] List.nodup_nil h
  clear h
  induction table with
  | nil =>
      intro start hstart hrun
      cases hrun
      exact hstart
  | cons entry rest ih =>
      intro start hstart hrun
      rw [List.foldlM_cons] at hrun
      obtain ⟨next, hnext, hrest⟩ := Option.bind_eq_some_iff.mp hrun
      obtain ⟨override, _, rfl⟩ := Option.map_eq_some_iff.mp hnext
      exact ih _ (hstart.setOverride _ _) hrest

/-- The overrides under the key for rules are a map, also when there is no such key. -/
theorem isMap_of_rules? {format : Format} {table : Table} {overrides : Overrides}
    (h : rules? format table = some overrides)
    : overrides.IsMap := by
  unfold rules? at h
  split at h
  · cases h
    exact List.nodup_nil
  · obtain ⟨entries, _, hentries⟩ := Option.bind_eq_some_iff.mp h
    exact isMap_of_overridesOf? hentries
  · cases h

/-- The overrides of a settings file are a map. -/
theorem isMap_of_ofText? {format : Format} {text : Text} {config : Config}
    (h : Config.ofText? format text = some config)
    : config.overrides.IsMap := by
  obtain ⟨value, _, hvalue⟩ := Option.bind_eq_some_iff.mp h
  obtain ⟨table, _, htable⟩ := Option.bind_eq_some_iff.mp hvalue
  obtain ⟨features, _, hfeatures⟩ := Option.bind_eq_some_iff.mp htable
  obtain ⟨support, _, hsupport⟩ := Option.bind_eq_some_iff.mp hfeatures
  obtain ⟨output, _, houtput⟩ := Option.bind_eq_some_iff.mp hsupport
  obtain ⟨threshold, _, hthreshold⟩ := Option.bind_eq_some_iff.mp houtput
  obtain ⟨overrides, hrules, rfl⟩ := Option.map_eq_some_iff.mp hthreshold
  exact isMap_of_rules? hrules

/-- The overrides that a scan works with are a map. -/
theorem isMap_of_resolve {request : Request} {tree : FileTree} {settings : Effective}
    (h : request.resolve tree = .ok settings)
    : settings.overrides.IsMap := by
  unfold Request.resolve load at h
  dsimp only at h
  split at h
  · cases h
    exact List.nodup_nil
  · split at h
    · cases h
    · split at h
      · next hconfig =>
          cases h
          exact isMap_of_ofText? hconfig
      · cases h

end SuiteScore
