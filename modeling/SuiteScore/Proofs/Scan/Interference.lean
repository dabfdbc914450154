import Mathlib
import SuiteScore.Proofs.Files.Tree
import SuiteScore.Proofs.Score.Duplicates
import SuiteScore.Scan

/-! What one file of a suite has to do with the others. The result of a scan is put together file by
file, and only one rule sees more than the target that it is applied to: the one about hooks that
are defined more than once.
-/

namespace SuiteScore

open Text Gherkin Support Settings

-----------------------------------------------------------------------------------------
-- Results file by file
-----------------------------------------------------------------------------------------

/-- What a scan says about one support file. -/
structure SupportScore where
  hooks : List TargetScore
  stepDefinitions : List TargetScore
  errors : List FileError

/-- The hooks among what some blocks declare. -/
def hooksOf (outcomes : List (Except FileError Declaration)) : List Hook :=
  (valuesOf outcomes).filterMap (·.hook?)

/-- The step definitions among what some blocks declare. -/
def stepDefinitionsOf (outcomes : List (Except FileError Declaration)) : List StepDefinition :=
  (valuesOf outcomes).filterMap (·.stepDefinition?)

/-- The scores of what the blocks of a file declare, given all hooks of the suite. -/
def SupportScore.of (rules : List Rule) (peers : List Hook)
    (outcomes : List (Except FileError Declaration))
    : SupportScore where
  hooks := (hooksOf outcomes).map fun hook => .of rules hook.toTarget (.hook hook peers)
  stepDefinitions := scoreStepDefinitions rules (stepDefinitionsOf outcomes)
  errors := errorsOf outcomes

/-- The score of one support file of a suite. -/
def scoreSupport (tree : FileTree) (root : Text) (rules : List Rule) (supportFiles : List Text)
    (path : Text)
    : SupportScore :=
  .of rules (hooksOf (supportFiles.flatMap (scanSupport tree root))) (scanSupport tree root path)

/-- A result is put together from what is said about each feature file and each support file. -/
structure ScanResult.Gathers (result : ScanResult)
    (outcomes : List (Except FileError FeatureScore)) (scores : List SupportScore)
    : Prop where
  files : result.files = outcomes.length + scores.length
  features : result.features = valuesOf outcomes
  hooks : result.hooks = scores.flatMap (·.hooks)
  stepDefinitions : result.stepDefinitions = scores.flatMap (·.stepDefinitions)
  errors : result.errors = errorsOf outcomes ++ scores.flatMap (·.errors)

/-- A scan scores what is selected. -/
theorem scan_eq_ok {tree : FileTree} {settings : Effective} {featureFiles supportFiles : List Text}
    (hfeatures : selectFiles tree settings.root settings.features = .ok featureFiles)
    (hsupport : selectFiles tree settings.root settings.support = .ok supportFiles)
    (rules : List Rule) (grammar : Grammar)
    : scan tree settings rules grammar
      = .ok (scanFiles tree settings rules grammar featureFiles supportFiles) := by
  simp only [scan, hfeatures, hsupport]
  rfl

/-- A file that fails adds its error, and takes nothing from what is said about other files. -/
theorem scanFiles_gathers (tree : FileTree) (settings : Effective) (rules : List Rule)
    (grammar : Grammar) (featureFiles supportFiles : List Text)
    : (scanFiles tree settings rules grammar featureFiles supportFiles).Gathers
        (featureFiles.map (scanFeature tree settings.root rules grammar))
        (supportFiles.map (scoreSupport tree settings.root rules supportFiles)) := by
  refine ⟨?_, rfl, ?_, ?_, ?_⟩
  · simp [scanFiles]
  · simp only [scanFiles, scoreHooks, List.flatMap_map, scoreSupport, SupportScore.of, hooksOf,
      valuesOf, List.filterMap_flatMap, List.map_flatMap]
  · simp only [scanFiles, scoreStepDefinitions, List.flatMap_map, scoreSupport, SupportScore.of,
      stepDefinitionsOf, valuesOf, List.filterMap_flatMap, List.map_flatMap]
  · simp only [scanFiles, List.flatMap_map, scoreSupport, SupportScore.of, errorsOf,
      List.filterMap_flatMap]

-----------------------------------------------------------------------------------------
-- Other hooks
-----------------------------------------------------------------------------------------

/-- Two scores of a support file are the same but for what is said about hooks that are defined more
than once.
-/
structure SupportScore.Agrees (score other : SupportScore) : Prop where
  hooks
    : score.hooks.map (·.keeping (· ≠ duplicateRule))
      = other.hooks.map (·.keeping (· ≠ duplicateRule))
  stepDefinitions : score.stepDefinitions = other.stepDefinitions
  errors : score.errors = other.errors

/-- Other hooks in the suite do not change the score of a file by built-in rules otherwise. -/
theorem SupportScore.of_agrees {rules : List Rule} (h : ∀ rule ∈ rules, rule.IsBuiltIn)
    (peers others : List Hook) (outcomes : List (Except FileError Declaration))
    : (of rules peers outcomes).Agrees (of rules others outcomes) := by
  refine ⟨?_, rfl, rfl⟩
  simp only [of, List.map_map]
  exact List.map_congr_left fun hook _ => TargetScore.keeping_of_hook h hook.toTarget hook _ _

-----------------------------------------------------------------------------------------
-- One file that differs
-----------------------------------------------------------------------------------------

section Differing

variable {names : List Text} {tree other : FileTree} (h : FileTree.DiffersOnlyIn names tree other)

include h

/-- What is said about a feature file depends on no other file. -/
theorem scanFeature_eq {path : Text} (hpath : tree.resolve? path ≠ some names) (root : Text)
    (rules : List Rule) (grammar : Grammar)
    : scanFeature tree root rules grammar path = scanFeature other root rules grammar path := by
  simp only [scanFeature, h.read_eq hpath]

/-- What a support file declares depends on no other file. -/
theorem scanSupport_eq {path : Text} (hpath : tree.resolve? path ≠ some names) (root : Text)
    : scanSupport tree root path = scanSupport other root path := by
  simp only [scanSupport, h.read_eq hpath]

/-- What is said about a support file depends on other files in the rule about hooks that are
defined more than once only.
-/
theorem scoreSupport_agrees {path : Text} (hpath : tree.resolve? path ≠ some names) (root : Text)
    {rules : List Rule} (hr : ∀ rule ∈ rules, rule.IsBuiltIn) (supportFiles : List Text)
    : (scoreSupport tree root rules supportFiles path).Agrees
        (scoreSupport other root rules supportFiles path) := by
  rw [scoreSupport, scoreSupport, scanSupport_eq h hpath]
  exact SupportScore.of_agrees hr _ _ _

/-- A file that is no support file has no part in hooks and step definitions. -/
theorem flatMap_scanSupport_eq {supportFiles : List Text}
    (hfiles : ∀ path ∈ supportFiles, tree.resolve? path ≠ some names) (root : Text)
    : supportFiles.flatMap (scanSupport tree root)
      = supportFiles.flatMap (scanSupport other root) :=
  List.flatMap_congr fun path hin => scanSupport_eq h (hfiles path hin) root

/-- When trees differ in one file only and select the same files, a scan says the same about every
other feature file. About every other support file it says the same but for hooks that are defined
more than once, and when the file is no support file, the same about all hooks and step definitions.
-/
theorem scan_alike (settings : Effective) {featureFiles supportFiles : List Text}
    (hfeatures : selectFiles tree settings.root settings.features = .ok featureFiles)
    (hfeatures' : selectFiles other settings.root settings.features = .ok featureFiles)
    (hsupport : selectFiles tree settings.root settings.support = .ok supportFiles)
    (hsupport' : selectFiles other settings.root settings.support = .ok supportFiles)
    {rules : List Rule} (hr : ∀ rule ∈ rules, rule.IsBuiltIn) (grammar : Grammar)
    : ∃ result changed : ScanResult,
        scan tree settings rules grammar = .ok result
        ∧ scan other settings rules grammar = .ok changed
        ∧ result.Gathers (featureFiles.map (scanFeature tree settings.root rules grammar))
            (supportFiles.map (scoreSupport tree settings.root rules supportFiles))
        ∧ changed.Gathers (featureFiles.map (scanFeature other settings.root rules grammar))
            (supportFiles.map (scoreSupport other settings.root rules supportFiles))
        ∧ (∀ path, tree.resolve? path ≠ some names →
            scanFeature tree settings.root rules grammar path
              = scanFeature other settings.root rules grammar path
            ∧ (scoreSupport tree settings.root rules supportFiles path).Agrees
                (scoreSupport other settings.root rules supportFiles path))
        ∧ ((∀ path ∈ supportFiles, tree.resolve? path ≠ some names) →
            result.hooks = changed.hooks ∧ result.stepDefinitions = changed.stepDefinitions) := by
  refine ⟨_, _, scan_eq_ok hfeatures hsupport rules grammar,
    scan_eq_ok hfeatures' hsupport' rules grammar, scanFiles_gathers .., scanFiles_gathers ..,
    fun path hpath => ⟨?_, ?_⟩, fun hfiles => ?_⟩
  · exact scanFeature_eq h hpath settings.root rules grammar
  · exact scoreSupport_agrees h hpath settings.root hr supportFiles
  · simp only [scanFiles, flatMap_scanSupport_eq h hfiles, and_self]

end Differing

/-- A suite of one feature file, with the given text, and one support file. -/
def suiteWith (source : Text) : FileTree :=
  FileTree.put { here := [], entries := [(["hooks.rb"], .holding "Before do\n  reset\nend\n")] }
    ["a.feature"] (.holding source)

/-- Suites with other features differ only in the feature file. -/
theorem differsOnlyIn_suiteWith (source other : Text)
    : FileTree.DiffersOnlyIn ["a.feature"] (suiteWith source) (suiteWith other) :=
  FileTree.differsOnlyIn_put { here := [], entries := _ } (List.cons_ne_nil _ _) (by decide) _ _

/-- The settings for files at the root. -/
def rootSettings (features support : List Text) : Effective :=
  ⟨"", features, support, "human", none, []⟩

theorem scan_suiteWith_alike
    : FileTree.DiffersOnlyIn ["a.feature"] (suiteWith "Feature: a\n") (suiteWith "Before do\nend\n")
      ∧ ∃ result changed : ScanResult,
        scan (suiteWith "Feature: a\n") (rootSettings ["*.feature"] ["*.rb"]) catalog
            FeatureTree.ofText = .ok result
        ∧ scan (suiteWith "Before do\nend\n") (rootSettings ["*.feature"] ["*.rb"]) catalog
            FeatureTree.ofText = .ok changed
        ∧ result.hooks = changed.hooks ∧ result.stepDefinitions = changed.stepDefinitions := by
  have hdiffers : FileTree.DiffersOnlyIn ["a.feature"] (suiteWith "Feature: a\n")
      (suiteWith "Before do\nend\n") := differsOnlyIn_suiteWith _ _
  have hfeatures : ∀ source, selectFiles (suiteWith source) "" ["*.feature"]
      = .ok ["a.feature"] := fun source => by cbv
  have hsupport : ∀ source, selectFiles (suiteWith source) "" ["*.rb"] = .ok ["hooks.rb"] :=
    fun source => by cbv
  obtain ⟨result, changed, hresult, hchanged, _, _, _, hsame⟩ := scan_alike hdiffers
    (rootSettings ["*.feature"] ["*.rb"]) (hfeatures _) (hfeatures _) (hsupport _)
    (hsupport _) (isBuiltIn_of_mem_applyOverrides []) FeatureTree.ofText
  exact ⟨hdiffers, result, changed, hresult, hchanged, hsame (by decide)⟩

/-- A file that is selected both as a feature file and as a support file has a part in the hooks. -/
theorem not_forall_hooks_alike
    : ¬∀ (names : List Text) (tree other : FileTree) (settings : Effective)
        (featureFiles supportFiles : List Text) (result changed : ScanResult),
        FileTree.DiffersOnlyIn names tree other
        → selectFiles tree settings.root settings.features = .ok featureFiles
        → selectFiles other settings.root settings.features = .ok featureFiles
        → selectFiles tree settings.root settings.support = .ok supportFiles
        → selectFiles other settings.root settings.support = .ok supportFiles
        → (∃ path ∈ featureFiles, tree.resolve? path = some names)
        → scan tree settings catalog FeatureTree.ofText = .ok result
        → scan other settings catalog FeatureTree.ofText = .ok changed
        → result.hooks = changed.hooks := by
  intro hall
  have hselect : ∀ source, selectFiles (suiteWith source) "" ["a.feature"]
      = .ok ["a.feature"] := fun source => by cbv
  have hscan : ∀ source, scan (suiteWith source) (rootSettings ["a.feature"] ["a.feature"]) catalog
      FeatureTree.ofText = .ok _ := fun source =>
    scan_eq_ok (hselect source) (hselect source) catalog FeatureTree.ofText
  have hcount : ∀ source, (scanFiles (suiteWith source) (rootSettings ["a.feature"] ["a.feature"])
      catalog FeatureTree.ofText ["a.feature"] ["a.feature"]).hooks.length
      = (hooksOf ((declarations (Path.relativeTo "" "a.feature") source).map
          (·.mapError (⟨Path.relativeTo "" "a.feature", ·⟩)))).length := fun source => by
    have hread : (suiteWith source).read "a.feature" = .ok source :=
      FileTree.read_of_holding rfl
    simp only [scanFiles, scoreHooks, List.length_map, List.flatMap_singleton, scanSupport, hread]
    rfl
  have hhooks := hall ["a.feature"] (suiteWith "") (suiteWith "Before do\nend\n")
    (rootSettings ["a.feature"] ["a.feature"]) _ _ _ _
    (differsOnlyIn_suiteWith _ _) (hselect _) (hselect _) (hselect _) (hselect _)
    ⟨"a.feature", List.mem_singleton_self _, by decide⟩ (hscan _) (hscan _)
  have hlength := congrArg List.length hhooks
  rw [hcount, hcount] at hlength
  exact absurd hlength (by decide)

end SuiteScore
