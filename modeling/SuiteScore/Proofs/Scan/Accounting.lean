import SuiteScore.Proofs.Files.Selection
import SuiteScore.Proofs.Scan.Interference
import SuiteScore.Proofs.Score.Weights
import SuiteScore.Proofs.Support.Selection
import SuiteScore.Report.Document

/-! The books of a scan. Every selected file and every block of a support file has one entry in the
result, in the order of files and lines, and the summary adds up what the result holds.
-/

namespace SuiteScore

open Text Gherkin Support Settings

-----------------------------------------------------------------------------------------
-- Dealing out
-----------------------------------------------------------------------------------------

/-- Entries are dealt out into heaps: each entry goes to one heap, and all heaps are in order. -/
structure IsDealt (Before : α → α → Prop) (entries : List α) (heaps : List (List α)) : Prop where
  increasing : ∀ heap ∈ heaps, heap.Pairwise Before
  perm : heaps.flatten.Perm entries

/-- What has an entry of its own in a result: a block of a support file, or a support file that
cannot be read.
-/
inductive SupportItem where
  | unread (path : Text) (fault : ReadFault)
  | declared (path : Text) (block : Block)

namespace SupportItem

def path : SupportItem → Text
  | unread path _ => path
  | declared path _ => path

/-- The line where an item starts. A file that cannot be read has no lines. -/
def line : SupportItem → Nat
  | unread .. => 0
  | declared _ block => block.line

/-- The order of items: by files, and by lines in a file. -/
def Before (item other : SupportItem) : Prop :=
  Path.Before item.path other.path ∨ item.path = other.path ∧ item.line < other.line

/-- What an item says: a block declares something, or there is an error. -/
def outcome (root : Text) : SupportItem → Except FileError Declaration
  | unread path fault => .error ⟨Path.relativeTo root path, .unreadable path fault⟩
  | declared path block =>
    let file := Path.relativeTo root path
    (block.read file).mapError (⟨file, ·⟩)

/-- Where an item is declared, as the result names it. -/
def location (root : Text) (item : SupportItem) : Text :=
  Location.ofLine (Path.relativeTo root item.path) item.line

def hook? (root : Text) (item : SupportItem) : Option Hook :=
  (item.outcome root).toOption.bind (·.hook?)

def stepDefinition? (root : Text) (item : SupportItem) : Option StepDefinition :=
  (item.outcome root).toOption.bind (·.stepDefinition?)

variable {root : Text} {item : SupportItem}

end SupportItem

/-- The items of one support file. -/
def itemsOfFile (tree : FileTree) (path : Text) : List SupportItem :=
  match tree.read path with
  | .error fault => [.unread path fault]
  | .ok source => (blocks source).map (.declared path)

/-- The items of all support files. -/
def itemsOf (tree : FileTree) (files : List Text) : List SupportItem :=
  files.flatMap (itemsOfFile tree)

section Items

variable (tree : FileTree) (root : Text)

end Items

-----------------------------------------------------------------------------------------
-- Where entries stand
-----------------------------------------------------------------------------------------

/-- Where something is declared. -/
def Support.Declaration.location : Declaration → Text
  | .hook own => own.location
  | .stepDefinition own => own.location

theorem location_of_hookBlock {location : Text} {lines : List Text} {hook : Hook}
    (h : Hook.ofBlock location lines = .ok hook)
    : hook.location = location := by
  unfold Hook.ofBlock at h
  split at h <;> cases h
  rfl

theorem location_of_definitionBlock {location : Text} {lines : List Text}
    {definition : StepDefinition} (h : StepDefinition.ofBlock location lines = .ok definition)
    : definition.location = location := by
  unfold StepDefinition.ofBlock at h
  split at h
  · cases h
  · split at h <;> cases h
    rfl

/-- What a block declares is declared where the block starts. -/
theorem location_of_read {file : Text} {block : Block} {declaration : Declaration}
    (h : block.read file = .ok declaration)
    : declaration.location = Location.ofLine file block.line := by
  simp only [Block.read] at h
  split at h
  · cases hblock : Hook.ofBlock (Location.ofLine file block.line) block.lines with
    | error error => rw [hblock] at h; cases h
    | ok hook =>
        rw [hblock] at h
        cases h
        exact location_of_hookBlock hblock
  · cases hblock : StepDefinition.ofBlock (Location.ofLine file block.line) block.lines with
    | error error => rw [hblock] at h; cases h
    | ok definition =>
        rw [hblock] at h
        cases h
        exact location_of_definitionBlock hblock

theorem SupportItem.location_of_outcome {root : Text} {item : SupportItem}
    {declaration : Declaration} (h : item.outcome root = .ok declaration)
    : declaration.location = item.location root := by
  cases item with
  | unread path fault => cases h
  | declared path block =>
      simp only [outcome] at h
      cases hread : block.read (Path.relativeTo root path) with
      | error error => rw [hread] at h; cases h
      | ok found =>
          rw [hread] at h
          cases h
          exact location_of_read hread

/-- Errors name the file of an item as it is seen from the root. -/
theorem SupportItem.file_of_outcome {root : Text} {item : SupportItem} {error : FileError}
    (h : item.outcome root = .error error)
    : error.file = Path.relativeTo root item.path := by
  cases item with
  | unread path fault =>
      cases h
      rfl
  | declared path block =>
      simp only [outcome] at h
      cases hread : block.read (Path.relativeTo root path) with
      | error fault =>
          rw [hread] at h
          cases h
          rfl
      | ok found => rw [hread] at h; cases h

/-- Errors name a feature file as it is seen from the root. -/
theorem file_of_scanFeature {tree : FileTree} {root : Text} {rules : List Rule} {grammar : Grammar}
    {path : Text} {error : FileError}
    (h : scanFeature tree root rules grammar path = .error error)
    : error.file = Path.relativeTo root path := by
  unfold scanFeature at h
  simp only at h
  split at h
  · cases h
    rfl
  · split at h <;> cases h
    rfl

/-- More scenarios do not move a feature, by induction on them. -/
theorem location_foldl_add (feature : Feature) (scenarios : List Scenario)
    : (scenarios.foldl Feature.add feature).location = feature.location := by
  induction scenarios generalizing feature with
  | nil => rfl
  | cons scenario rest ih =>
      rw [List.foldl_cons, ih, Feature.add]
      split <;> rfl

/-- A feature is declared in its file, on a line of it unless the file has no text. -/
theorem location_of_scanFeature {tree : FileTree} {root : Text} {rules : List Rule}
    {grammar : Grammar} {path : Text} {score : FeatureScore}
    (h : scanFeature tree root rules grammar path = .ok score)
    : score.own.location = Path.relativeTo root path
      ∨ ∃ line, score.own.location = Location.ofLine (Path.relativeTo root path) line := by
  unfold scanFeature at h
  simp only [Feature.ofText] at h
  split at h
  · cases h
  · split at h
    · cases h
    · next source _ _ feature hfeature =>
        cases h
        split at hfeature
        · cases hfeature
          exact .inl rfl
        · split at hfeature
          · cases hfeature
          · next tree _ =>
              cases hfeature
              exact .inr ⟨tree.line, location_foldl_add _ _⟩

-----------------------------------------------------------------------------------------
-- The books
-----------------------------------------------------------------------------------------

/-- Where selected files and their blocks have gone: features that are scored or fail, and items of
support files that declare a hook, declare a step definition or are refused.
-/
structure Ledger where
  scored : List Text
  failed : List Text
  hooked : List SupportItem
  defined : List SupportItem
  refused : List SupportItem

/-- A ledger accounts for a result: every file and every item stands in it once and in order, and
the result has one entry for each, in the same order. Errors of features come first.
-/
structure Ledger.Accounts (ledger : Ledger) (tree : FileTree) (root : Text) (rules : List Rule)
    (grammar : Grammar) (featureFiles supportFiles : List Text) (result : ScanResult)
    : Prop where
  files : IsDealt Path.Before featureFiles [ledger.scored, ledger.failed]
  items
    : IsDealt SupportItem.Before (itemsOf tree supportFiles)
        [ledger.hooked, ledger.defined, ledger.refused]
  features
    : List.Forall₂ (fun path score => scanFeature tree root rules grammar path = .ok score)
        ledger.scored result.features
  hooks
    : ∃ hooks,
        List.Forall₂ (fun item hook => item.outcome root = .ok (.hook hook)) ledger.hooked hooks
        ∧ result.hooks = scoreHooks rules hooks
  stepDefinitions
    : ∃ definitions,
        List.Forall₂ (fun item definition => item.outcome root = .ok (.stepDefinition definition))
          ledger.defined definitions
        ∧ result.stepDefinitions = scoreStepDefinitions rules definitions
  errors
    : ∃ featureErrors supportErrors,
        List.Forall₂ (fun path error => scanFeature tree root rules grammar path = .error error)
          ledger.failed featureErrors
        ∧ List.Forall₂ (fun item error => item.outcome root = .error error) ledger.refused
            supportErrors
        ∧ result.errors = featureErrors ++ supportErrors

/-- The places that the entries of a result name are those of the files and items in a ledger. -/
structure Ledger.Places (ledger : Ledger) (root : Text) (result : ScanResult) : Prop where
  features
    : List.Forall₂
        (fun path score =>
          score.own.location = Path.relativeTo root path
          ∨ ∃ line, score.own.location = Location.ofLine (Path.relativeTo root path) line)
        ledger.scored result.features
  hooks
    : List.Forall₂ (fun item score => score.location = item.location root) ledger.hooked
        result.hooks
  stepDefinitions
    : List.Forall₂ (fun item score => score.location = item.location root) ledger.defined
        result.stepDefinitions
  errors
    : List.Forall₂ (fun path error => error.file = Path.relativeTo root path)
        (ledger.failed ++ ledger.refused.map (·.path)) result.errors

section Keeping

variable (tree : FileTree) (root : Text) (rules : List Rule) (grammar : Grammar)
  (featureFiles supportFiles : List Text)

variable {featureFiles supportFiles} {result : ScanResult}

/-- Every entry of an accounted result is declared where its file or item is. -/
theorem Ledger.Accounts.places {ledger : Ledger}
    (h : ledger.Accounts tree root rules grammar featureFiles supportFiles result)
    : ledger.Places root result := by
  obtain ⟨hooks, hhooked, hhooks⟩ := h.hooks
  obtain ⟨definitions, hdefined, hdefinitions⟩ := h.stepDefinitions
  obtain ⟨featureErrors, supportErrors, hfailed, hrefused, herrors⟩ := h.errors
  refine ⟨h.features.imp fun path score => location_of_scanFeature, ?_, ?_, ?_⟩
  · rw [hhooks, scoreHooks, List.forall₂_map_right_iff]
    exact hhooked.imp fun item hook houtcome => SupportItem.location_of_outcome houtcome
  · rw [hdefinitions, scoreStepDefinitions, List.forall₂_map_right_iff]
    exact hdefined.imp fun item definition houtcome => SupportItem.location_of_outcome houtcome
  · rw [herrors]
    refine List.rel_append (hfailed.imp fun path error => file_of_scanFeature) ?_
    rw [List.forall₂_map_left_iff]
    exact hrefused.imp fun item error houtcome => SupportItem.file_of_outcome houtcome

end Keeping

-----------------------------------------------------------------------------------------
-- The summary
-----------------------------------------------------------------------------------------

namespace ScanResult

variable (result : ScanResult)

/-- All hits in a result. -/
def hits : List Hit :=
  result.features.flatMap (·.hits) ++ result.hooks.flatMap (·.hits)
    ++ result.stepDefinitions.flatMap (·.hits)

end ScanResult

end SuiteScore
