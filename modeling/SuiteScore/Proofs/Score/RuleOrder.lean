import SuiteScore.Proofs.Score.Weights
import SuiteScore.Report.Document
import SuiteScore.Rule.Catalog

/-! The order of rules. Every rule is applied by itself, so that other orders give the same hits in
other orders, and the same scores of targets, features and whole suites. Rules that are not enabled
can be left out.
-/

namespace SuiteScore

open Gherkin Support Settings

-----------------------------------------------------------------------------------------
-- What single rules say
-----------------------------------------------------------------------------------------

/-- The kinds of rules that are about a subject. -/
def Subject.kinds : Subject → List TargetKind
  | feature _ => [.feature]
  | scenario _ => [.scenario, .step]
  | hook .. => [.hook]
  | stepDefinition _ => [.stepDefinition]

namespace Rule

/-- Whether a rule says something about a subject: it is enabled, it is about such subjects, and the
subject triggers it.
-/
def speaksOf (subject : Subject) (rule : Rule) : Bool :=
  rule.enabled && subject.kinds.contains rule.kind && decide (0 < rule.trigger.count subject)

/-- What a rule says about a subject that triggers it. -/
def hitOn (subject : Subject) (rule : Rule) : Hit where
  rule := rule.id
  phrase := rule.phraseFor (rule.wordFor subject)
  count := rule.trigger.count subject
  contribution := rule.trigger.count subject * rule.weight

/-- Only a subject that a rule is about triggers it, by the kinds of triggers and subjects. -/
theorem kind_mem_kinds {rule : Rule} {subject : Subject} (h : rule.trigger.count subject ≠ 0)
    : rule.kind ∈ subject.kinds := by
  unfold kind
  cases ht : rule.trigger <;> cases subject <;>
    first
    | exact absurd (by rw [ht]; rfl) h
    | simp [Trigger.kind, Subject.kinds]

/-- An enabled rule gives its hit exactly where it says something. -/
theorem hit?_of_enabled {rule : Rule} (he : rule.enabled = true) (subject : Subject)
    : rule.hit? subject = if rule.speaksOf subject then some (rule.hitOn subject) else none := by
  by_cases hcount : rule.trigger.count subject = 0
  · simp [hit?, speaksOf, hcount]
  · have hspeaks : rule.speaksOf subject = true := by
      simp [speaksOf, he, kind_mem_kinds hcount, Nat.pos_of_ne_zero hcount]
    simp only [hit?, hcount, if_false, hspeaks, if_true]
    rfl

end Rule

section Evaluation

variable {rules others : List Rule} (subject : Subject)

/-- The hits are those of the rules that say something, in the order of the rules, by induction on
them.
-/
theorem evaluate_eq_map (rules : List Rule)
    : evaluate rules subject = (rules.filter (·.speaksOf subject)).map (·.hitOn subject) := by
  unfold evaluate
  induction rules with
  | nil => rfl
  | cons rule rest ih =>
      cases he : rule.enabled with
      | false =>
          have hsilent : rule.speaksOf subject = false := by simp [Rule.speaksOf, he]
          rw [List.filter_cons_of_neg (by simp [he]), List.filter_cons_of_neg (by simp [hsilent])]
          exact ih
      | true =>
          rw [List.filter_cons_of_pos he, List.filterMap_cons, Rule.hit?_of_enabled he, ih]
          cases hspeaks : rule.speaksOf subject <;> simp [hspeaks]

/-- Rules in another order give their hits in another order. -/
theorem evaluate_perm (h : rules.Perm others)
    : (evaluate rules subject).Perm (evaluate others subject) :=
  (h.filter _).filterMap _

/-- Rules that are not enabled can be left out. -/
theorem evaluate_filter_enabled (rules : List Rule)
    : evaluate (rules.filter (·.enabled)) subject = evaluate rules subject := by
  simp only [evaluate, List.filter_filter, Bool.and_self]

end Evaluation

-----------------------------------------------------------------------------------------
-- Reordered scores
-----------------------------------------------------------------------------------------

/-- Lists with related entries are the same under what related entries share. -/
theorem map_eq_of_forall₂ {related : α → β → Prop} {entries : List α} {others : List β}
    {f : α → γ} {g : β → γ} (h : List.Forall₂ related entries others)
    (hf : ∀ entry other, related entry other → f entry = g other)
    : entries.map f = others.map g := by
  rw [← List.forall₂_eq_eq_eq, List.forall₂_map_left_iff, List.forall₂_map_right_iff]
  exact h.imp hf

/-- Two scores of a target have the same hits, each in an order of its own. -/
structure TargetScore.Reorders (score other : TargetScore) : Prop where
  location : score.location = other.location
  name : score.name = other.name
  hits : score.hits.Perm other.hits

/-- Two scores of a feature have the same hits target by target. -/
structure FeatureScore.Reorders (score other : FeatureScore) : Prop where
  own : score.own.Reorders other.own
  background : Option.Rel TargetScore.Reorders score.background other.background
  scenarios : List.Forall₂ TargetScore.Reorders score.scenarios other.scenarios

/-- Two results of a scan have the same hits target by target, and are the same otherwise. -/
structure ScanResult.Reorders (result other : ScanResult) : Prop where
  files : result.files = other.files
  features : List.Forall₂ FeatureScore.Reorders result.features other.features
  hooks : List.Forall₂ TargetScore.Reorders result.hooks other.hooks
  stepDefinitions
    : List.Forall₂ TargetScore.Reorders result.stepDefinitions other.stepDefinitions
  errors : result.errors = other.errors
  threshold : result.threshold = other.threshold

/-- The order of hits has no part in a score. -/
theorem TargetScore.Reorders.score_eq {score other : TargetScore} (h : score.Reorders other)
    : score.score = other.score := by
  rw [TargetScore.score, TargetScore.score, total_eq_sum, total_eq_sum]
  exact (h.hits.map _).sum_eq

/-- Reordered targets have the same score together. -/
theorem total_score_eq {scores others : List TargetScore}
    (h : List.Forall₂ TargetScore.Reorders scores others)
    : total TargetScore.score scores = total TargetScore.score others := by
  rw [total_eq_sum, total_eq_sum, map_eq_of_forall₂ h fun _ _ hr => hr.score_eq]

/-- The order of hits has no part in the totals of a feature, with a background and without one. -/
theorem FeatureScore.Reorders.totals_eq {score other : FeatureScore} (h : score.Reorders other)
    : score.score = other.score ∧ score.scenariosScore = other.scenariosScore
      ∧ score.totalScore = other.totalScore := by
  have hown : score.score = other.score := h.own.score_eq
  have hbackground
      : score.background.map (·.score) = other.background.map (·.score) := by
    have hrelated := h.background
    generalize score.background = one, other.background = two at hrelated ⊢
    cases hrelated with
    | none => rfl
    | some hr => exact congrArg some hr.score_eq
  have hscenarios : score.scenariosScore = other.scenariosScore := by
    rw [scenariosScore, scenariosScore, hbackground, total_score_eq h.scenarios]
  exact ⟨hown, hscenarios, by rw [totalScore, totalScore, hscenarios, hown]⟩

/-- The order of hits has no part in the summary of a scan. -/
theorem ScanResult.Reorders.summaryJson_eq {result other : ScanResult} (h : result.Reorders other)
    : result.summaryJson = other.summaryJson := by
  have htotals : result.features.map (·.totalScore) = other.features.map (·.totalScore) :=
    map_eq_of_forall₂ h.features fun _ _ hr => hr.totals_eq.2.2
  have hscenarios : result.scenarios = other.scenarios := by
    rw [scenarios, scenarios, tally_eq_sum, tally_eq_sum,
      map_eq_of_forall₂ h.features fun _ _ hr => hr.scenarios.length_eq]
  have htotal : result.totalScore = other.totalScore := by
    rw [totalScore, totalScore, total_eq_sum, htotals, ← total_eq_sum, total_score_eq h.hooks,
      total_score_eq h.stepDefinitions]
  have hover : result.overThreshold = other.overThreshold := by
    have hcount := congrArg (List.countP (isOver result.threshold)) htotals
    rw [List.countP_map, List.countP_map] at hcount
    rw [overThreshold, overThreshold, ← h.threshold]
    exact hcount
  rw [summaryJson, summaryJson, h.files, h.features.length_eq, hscenarios, h.hooks.length_eq,
    h.stepDefinitions.length_eq, h.errors, htotal, h.threshold, hover]

-----------------------------------------------------------------------------------------
-- Features and suites
-----------------------------------------------------------------------------------------

/-- The feature of a feature file, before it is scored. -/
def readFeature (tree : FileTree) (root : Text) (grammar : Grammar) (path : Text)
    : Except FileError Feature :=
  let file := Path.relativeTo root path
  match tree.read path with
  | .error fault => .error ⟨file, .unreadable path fault⟩
  | .ok source => (Feature.ofText grammar file source).mapError (⟨file, ·⟩)

/-- Rules have a say in what is read as a feature only. -/
theorem scanFeature_eq_map (tree : FileTree) (root : Text) (rules : List Rule) (grammar : Grammar)
    (path : Text)
    : scanFeature tree root rules grammar path
      = (readFeature tree root grammar path).map (.of rules) := by
  unfold scanFeature readFeature
  cases tree.read path with
  | error fault => rfl
  | ok source =>
      simp only
      cases Feature.ofText grammar (Path.relativeTo root path) source <;> rfl

/-- Outcomes that are mapped have the mapped values and the same errors, by induction on them. -/
theorem valuesOf_map {f : α → β} (outcomes : List (Except ε α))
    : valuesOf (outcomes.map (Except.map f)) = (valuesOf outcomes).map f
      ∧ errorsOf (outcomes.map (Except.map f)) = errorsOf outcomes := by
  unfold valuesOf errorsOf
  induction outcomes with
  | nil => exact ⟨rfl, rfl⟩
  | cons outcome rest ih =>
      cases outcome with
      | error error => exact ⟨ih.1, congrArg (error :: ·) ih.2⟩
      | ok value => exact ⟨congrArg (f value :: ·) ih.1, ih.2⟩

/-- The features of a suite are read before rules have a say, and so are its errors. -/
theorem scanFiles_eq (tree : FileTree) (settings : Effective) (rules : List Rule)
    (grammar : Grammar) (featureFiles supportFiles : List Text)
    : (scanFiles tree settings rules grammar featureFiles supportFiles).features
        = (valuesOf (featureFiles.map (readFeature tree settings.root grammar))).map (.of rules)
      ∧ (scanFiles tree settings rules grammar featureFiles supportFiles).errors
        = errorsOf (featureFiles.map (readFeature tree settings.root grammar))
          ++ errorsOf (supportFiles.flatMap (scanSupport tree settings.root)) := by
  have hread : featureFiles.map (scanFeature tree settings.root rules grammar)
      = (featureFiles.map (readFeature tree settings.root grammar)).map
          (Except.map (.of rules)) := by
    rw [List.map_map]
    exact List.map_congr_left fun path _ => scanFeature_eq_map ..
  simp only [scanFiles, hread, valuesOf_map, and_self]

section Reordering

variable {rules others : List Rule} (h : rules.Perm others)

include h

theorem TargetScore.of_reorders (target : Target) (subject : Subject)
    : (of rules target subject).Reorders (of others target subject) :=
  ⟨rfl, rfl, evaluate_perm subject h⟩

theorem FeatureScore.of_reorders (feature : Feature)
    : (of rules feature).Reorders (of others feature) := by
  have hscenario : ∀ scenario : Scenario,
      (TargetScore.ofScenario rules scenario).Reorders (TargetScore.ofScenario others scenario) :=
    fun scenario => TargetScore.of_reorders h _ _
  refine ⟨TargetScore.of_reorders h _ _, ?_, ?_⟩
  · simp only [of]
    cases feature.background with
    | none => exact .none
    | some background => exact .some (hscenario background)
  · rw [of, of, List.forall₂_map_left_iff, List.forall₂_map_right_iff, List.forall₂_same]
    exact fun scenario _ => hscenario scenario

theorem scoreHooks_reorders (hooks : List Hook)
    : List.Forall₂ TargetScore.Reorders (scoreHooks rules hooks) (scoreHooks others hooks) := by
  rw [scoreHooks, scoreHooks, List.forall₂_map_left_iff, List.forall₂_map_right_iff,
    List.forall₂_same]
  exact fun hook _ => TargetScore.of_reorders h _ _

theorem scoreStepDefinitions_reorders (definitions : List StepDefinition)
    : List.Forall₂ TargetScore.Reorders (scoreStepDefinitions rules definitions)
        (scoreStepDefinitions others definitions) := by
  rw [scoreStepDefinitions, scoreStepDefinitions, List.forall₂_map_left_iff,
    List.forall₂_map_right_iff, List.forall₂_same]
  exact fun definition _ => TargetScore.of_reorders h _ _

/-- Rules in another order reorder the hits of a whole suite. -/
theorem scanFiles_reorders (tree : FileTree) (settings : Effective) (grammar : Grammar)
    (featureFiles supportFiles : List Text)
    : (scanFiles tree settings rules grammar featureFiles supportFiles).Reorders
        (scanFiles tree settings others grammar featureFiles supportFiles) := by
  obtain ⟨hfeatures, herrors⟩ :=
    scanFiles_eq tree settings rules grammar featureFiles supportFiles
  obtain ⟨hothers, hsame⟩ := scanFiles_eq tree settings others grammar featureFiles supportFiles
  refine ⟨rfl, ?_, scoreHooks_reorders h _, scoreStepDefinitions_reorders h _, ?_, rfl⟩
  · rw [hfeatures, hothers, List.forall₂_map_left_iff, List.forall₂_map_right_iff,
      List.forall₂_same]
    exact fun feature _ => FeatureScore.of_reorders h feature
  · rw [herrors, hsame]

end Reordering

/-- Rules that evaluate everything alike score every suite alike. -/
theorem scan_congr {rules others : List Rule} (h : evaluate rules = evaluate others)
    (tree : FileTree) (settings : Effective) (grammar : Grammar)
    : scan tree settings rules grammar = scan tree settings others grammar := by
  have htarget : TargetScore.of rules = TargetScore.of others := by
    funext target subject
    rw [TargetScore.of, TargetScore.of, h]
  have hscenario : TargetScore.ofScenario rules = TargetScore.ofScenario others := by
    funext scenario
    rw [TargetScore.ofScenario, TargetScore.ofScenario, htarget]
  have hfeature : FeatureScore.of rules = FeatureScore.of others := by
    funext feature
    rw [FeatureScore.of, FeatureScore.of, htarget, hscenario]
  have hscan : scanFeature tree settings.root rules grammar
      = scanFeature tree settings.root others grammar := by
    funext path
    rw [scanFeature_eq_map, scanFeature_eq_map, hfeature]
  simp only [scan, scanFiles, hscan, scoreHooks, scoreStepDefinitions, htarget]

/-- Two scans end alike: with the same error, or with the same hits target by target and the same
summary.
-/
def EndAlike : Except SuiteError ScanResult → Except SuiteError ScanResult → Prop
  | .error error, .error other => error = other
  | .ok result, .ok other => result.Reorders other ∧ result.summaryJson = other.summaryJson
  | _, _ => False

/-- Rules in another order end a scan alike. -/
theorem scan_endAlike {rules others : List Rule} (h : rules.Perm others) (tree : FileTree)
    (settings : Effective) (grammar : Grammar)
    : EndAlike (scan tree settings rules grammar) (scan tree settings others grammar) := by
  unfold scan
  cases selectFiles tree settings.root settings.features with
  | error error => rfl
  | ok featureFiles =>
      cases selectFiles tree settings.root settings.support with
      | error error => rfl
      | ok supportFiles =>
          have hreorders := scanFiles_reorders h tree settings grammar featureFiles supportFiles
          exact ⟨hreorders, hreorders.summaryJson_eq⟩

/-- The order of rules has no part in scores. The hits on a subject are those of the rules that say
something about it, in the order of the rules; rules are applied one by one, and those that are not
enabled can be left out. Rules in another order therefore give the same hits in another order, and
the same scores of all targets, features and suites.
-/
theorem scores_of_perm {rules others : List Rule} (h : rules.Perm others)
    : (∀ subject,
          evaluate rules subject = (rules.filter (·.speaksOf subject)).map (·.hitOn subject)
          ∧ (evaluate rules subject).Perm (evaluate others subject)
          ∧ (∀ more,
              evaluate (rules ++ more) subject = evaluate rules subject ++ evaluate more subject)
          ∧ evaluate (rules.filter (·.enabled)) subject = evaluate rules subject
          ∧ ∀ target,
              (TargetScore.of rules target subject).score
                = (TargetScore.of others target subject).score)
      ∧ (∀ feature,
          (FeatureScore.of rules feature).Reorders (FeatureScore.of others feature)
          ∧ (FeatureScore.of rules feature).score = (FeatureScore.of others feature).score
          ∧ (FeatureScore.of rules feature).scenariosScore
            = (FeatureScore.of others feature).scenariosScore
          ∧ (FeatureScore.of rules feature).totalScore
            = (FeatureScore.of others feature).totalScore)
      ∧ (∀ hooks,
          (scoreHooks rules hooks).map (·.score) = (scoreHooks others hooks).map (·.score))
      ∧ (∀ definitions,
          (scoreStepDefinitions rules definitions).map (·.score)
            = (scoreStepDefinitions others definitions).map (·.score))
      ∧ ∀ tree settings grammar,
          EndAlike (scan tree settings rules grammar) (scan tree settings others grammar)
          ∧ scan tree settings (rules.filter (·.enabled)) grammar
            = scan tree settings rules grammar := by
  refine ⟨fun subject => ⟨evaluate_eq_map subject rules, evaluate_perm subject h, ?_,
    evaluate_filter_enabled subject rules, fun target => ?_⟩, fun feature => ?_, fun hooks => ?_,
    fun definitions => ?_, fun tree settings grammar => ⟨?_, ?_⟩⟩
  · exact evaluate_append subject rules
  · exact (TargetScore.of_reorders h target subject).score_eq
  · exact ⟨FeatureScore.of_reorders h feature, (FeatureScore.of_reorders h feature).totals_eq⟩
  · exact map_eq_of_forall₂ (scoreHooks_reorders h hooks) fun _ _ hr => hr.score_eq
  · exact map_eq_of_forall₂ (scoreStepDefinitions_reorders h definitions) fun _ _ hr => hr.score_eq
  · exact scan_endAlike h tree settings grammar
  · exact scan_congr (funext fun subject => evaluate_filter_enabled subject rules) tree settings
      grammar

/-- The built-in rules the other way round say the same about a feature without text. -/
theorem scores_of_reversed
    : catalog.Perm catalog.reverse
      ∧ evaluate catalog (.feature (.blank "f" []))
        ≠ evaluate catalog.reverse (.feature (.blank "f" []))
      ∧ (FeatureScore.of catalog (.blank "f" [])).totalScore
        = (FeatureScore.of catalog.reverse (.blank "f" [])).totalScore := by
  have hperm : catalog.Perm catalog.reverse := catalog.reverse_perm.symm
  have hblank := (scores_of_perm hperm).2.1 (.blank "f" [])
  exact ⟨hperm, by decide +kernel, hblank.2.2.2⟩

end SuiteScore
