import Mathlib.Data.Option.NAry
import SuiteScore.Proofs.Feature.Elements

/-! A block that is refused marks the scenario of its own element. The feature and all other
scenarios stay what they are.
-/

namespace SuiteScore

open Text Gherkin

-----------------------------------------------------------------------------------------
-- Refused blocks
-----------------------------------------------------------------------------------------

namespace Scenario

/-- The line that heads every isolated text. -/
def headerLine : Text := header ++ "\n"

/-- What is left of the scenario of an element whose block is refused: its place and its lines, and
of the element the kind, the name and, but for a background, the tags.
-/
def refused (element : Element) (scenario : Scenario) : Scenario :=
  { scenario with
    kind := .ofElement element.kind
    name := fullName element.name element.description
    tags := if element.kind = .background then [] else element.tags.map (·.name)
    comments := []
    steps := []
    tables := []
    syntaxError := true }

/-- The scenario of an element when the blocks in which `part` stands are refused. -/
def refusedWith (part : Text) (element : Element) (scenario : Scenario) : Scenario :=
  if occurs part (isolated scenario.lines) then scenario.refused element else scenario

end Scenario

/-- The feature of a tree when the blocks in which `part` stands are refused. -/
def Feature.refusedWith (part : Text) (tree : FeatureTree) (feature : Feature) : Feature :=
  { feature with
    background := Option.map₂ (Scenario.refusedWith part) tree.background feature.background
    scenarios := List.zipWith (Scenario.refusedWith part) tree.elements feature.scenarios }

-----------------------------------------------------------------------------------------
-- Refusing grammars
-----------------------------------------------------------------------------------------

section Refusing

variable {part path text : Text} {grammar : Grammar} {block pieces : List Text} {element : Element}

/-- A text without the header line is not refused. -/
theorem refusing_of_not_isPrefix (h : ¬Scenario.headerLine <+: text)
    : Grammar.refusing part grammar text = grammar text := by
  have hfalse : Scenario.headerLine.isPrefixOf text = false := by
    rwa [← Bool.not_eq_true, List.isPrefixOf_iff_prefix]
  change (if (Scenario.headerLine.isPrefixOf text && occurs part text) = true then _ else _) = _
  rw [hfalse]
  rfl

/-- An isolated block with a line stands below the header line. -/
theorem isPrefix_isolated (h : block ≠ []) : Scenario.headerLine <+: Scenario.isolated block := by
  obtain ⟨first, rest, rfl⟩ := List.exists_cons_of_ne_nil h
  refine ⟨joined "\n" (first :: rest), ?_⟩
  simp [Scenario.headerLine, Scenario.isolated, joined, List.intercalate]

/-- An isolated block with a line is refused exactly when the part stands in it. -/
theorem refusing_isolated (part : Text) (grammar : Grammar) (h : block ≠ [])
    : Grammar.refusing part grammar (Scenario.isolated block)
      = if occurs part (Scenario.isolated block) then .error ⟨2, .refused "rejected"⟩
        else grammar (Scenario.isolated block) := by
  have htrue : Scenario.headerLine.isPrefixOf (Scenario.isolated block) = true :=
    List.isPrefixOf_iff_prefix.mpr (isPrefix_isolated h)
  change (if (Scenario.headerLine.isPrefixOf (Scenario.isolated block)
    && occurs part (Scenario.isolated block)) = true then _ else _) = _
  rw [htrue, Bool.true_and]

/-- A scenario keeps its place and lines, whatever is read from them. -/
theorem ofBlock_frame (location : Text)
    : (Scenario.ofBlock grammar location block).lines = keptLines block
      ∧ (Scenario.ofBlock grammar location block).location = location
      ∧ (Scenario.ofBlock grammar location block).startLine = Location.line location := by
  simp only [Scenario.ofBlock]
  split
  · exact ⟨rfl, rfl, rfl⟩
  · split
    · exact ⟨rfl, rfl, rfl⟩
    · exact ⟨rfl, rfl, rfl⟩

/-- A refused block leaves a mark alone. -/
theorem ofBlock_refused (location : Text) {error : GrammarError}
    (h : grammar (Scenario.isolated (keptLines block)) = .error error)
    : Scenario.ofBlock grammar location block
      = { Scenario.unread location (keptLines block) with syntaxError := true } := by
  rw [keptLines] at h ⊢
  simp only [Scenario.ofBlock, h]

/-- Two grammars that read an isolated block alike give the same scenario. -/
theorem ofBlock_congr (location : Text) {other : Grammar}
    (h
      : grammar (Scenario.isolated (keptLines block))
        = other (Scenario.isolated (keptLines block)))
    : Scenario.ofBlock grammar location block = Scenario.ofBlock other location block := by
  rw [keptLines] at h
  simp only [Scenario.ofBlock, h]

/-- The scenario of an element keeps its place and lines. -/
theorem scenarioOf_frame (grammar : Grammar) (path : Text) (pieces : List Text) (element : Element)
    : (Feature.scenarioOf grammar path pieces element).lines
        = keptLines ((Span.of element).cut pieces)
      ∧ (Feature.scenarioOf grammar path pieces element).location
        = Location.ofLine path element.line
      ∧ (Feature.scenarioOf grammar path pieces element).startLine
        = Location.line (Location.ofLine path element.line) := by
  simp only [Feature.scenarioOf]
  split
  · exact ofBlock_frame _
  · exact ofBlock_frame _

/-- What is left of a refused scenario is a mark with what it adopts from its element. -/
theorem refused_eq_adopt {scenario : Scenario}
    (h : scenario.startLine = Location.line scenario.location)
    : scenario.refused element
      = { Scenario.unread scenario.location scenario.lines with syntaxError := true }.adopt
          element := by
  simp only [Scenario.refused, h]
  rfl

/-- Refusing blocks changes the scenario of an element only if its own block is refused. -/
theorem scenarioOf_refusing (h : (Span.of element).cut pieces ≠ [])
    : Feature.scenarioOf (Grammar.refusing part grammar) path pieces element
      = (Feature.scenarioOf grammar path pieces element).refusedWith part element := by
  have hlines : keptLines ((Span.of element).cut pieces) ≠ [] := by simpa [keptLines] using h
  have hgrammar := refusing_isolated part grammar hlines
  obtain ⟨hkept, hlocation, hstart⟩ := scenarioOf_frame grammar path pieces element
  rw [Scenario.refusedWith, hkept]
  split
  · next hpart =>
      rw [if_pos hpart] at hgrammar
      rw [refused_eq_adopt (hstart.trans (by rw [hlocation])), hkept, hlocation,
        Feature.scenarioOf, ofBlock_refused _ hgrammar]
      rfl
  · next hpart =>
      rw [if_neg hpart] at hgrammar
      rw [Feature.scenarioOf, Feature.scenarioOf, ofBlock_congr _ hgrammar]

/-- A refused scenario is a background if its element is one, as it is when it is not refused. -/
theorem isBackground_refusedWith {scenario : Scenario}
    (h : scenario.isBackground = true ↔ element.kind = .background)
    : (scenario.refusedWith part element).isBackground = true ↔ element.kind = .background := by
  unfold Scenario.refusedWith
  split
  · simp only [Scenario.refused, Scenario.isBackground]
    cases element.kind <;> simp [ScenarioKind.ofElement]
  · exact h

end Refusing

-----------------------------------------------------------------------------------------
-- Features
-----------------------------------------------------------------------------------------

variable {source : Text} {tree : FeatureTree}

/-- An accepted file gives a feature also when blocks are refused: the same one, but for the
scenarios of the refused blocks.
-/
theorem exists_feature_refusing (part path : Text) (hs : ¬Scenario.headerLine <+: source)
    (h : FeatureTree.ofText source = .ok tree)
    : ∃ plain, Feature.ofText FeatureTree.ofText path source = .ok plain
        ∧ plain.background.isSome = tree.background.isSome
        ∧ plain.scenarios.length = tree.elements.length
        ∧ Feature.ofText (Grammar.refusing part FeatureTree.ofText) path source
          = .ok (plain.refusedWith part tree) := by
  have hread : ∀ element ∈ tree.allElements,
      Feature.scenarioOf (Grammar.refusing part FeatureTree.ofText) path (lines source) element
        = (Feature.scenarioOf FeatureTree.ofText path (lines source) element).refusedWith part
            element := by
    intro element he
    obtain ⟨layout⟩ := FeatureTree.nonempty_layout h he
    exact scenarioOf_refusing (by simp [layout.cut_eq])
  have hkind : ∀ element ∈ tree.allElements,
      (Feature.scenarioOf FeatureTree.ofText path (lines source) element).isBackground = true
        ↔ element.kind = .background :=
    fun element he => isBackground_scenarioOf path h he
  refine ⟨_, ofText_of_tree path h h hkind, Option.isSome_map, List.length_map .., ?_⟩
  rw [ofText_of_tree path h ((refusing_of_not_isPrefix hs).trans h) fun element he => by
    rw [hread element he]
    exact isBackground_refusedWith (hkind element he)]
  have hbackground : tree.background.map
        (Feature.scenarioOf (Grammar.refusing part FeatureTree.ofText) path (lines source))
      = Option.map₂ (Scenario.refusedWith part) tree.background
        (tree.background.map (Feature.scenarioOf FeatureTree.ofText path (lines source))) := by
    cases hb : tree.background with
    | none => rfl
    | some element =>
        exact congrArg some (hread element (mem_allElements_of_background hb))
  have hscenarios : tree.elements.map
        (Feature.scenarioOf (Grammar.refusing part FeatureTree.ofText) path (lines source))
      = List.zipWith (Scenario.refusedWith part) tree.elements
        (tree.elements.map (Feature.scenarioOf FeatureTree.ofText path (lines source))) := by
    rw [List.zipWith_map_right, List.zipWith_self]
    exact List.map_congr_left fun element he => hread element (List.mem_append_right _ he)
  rw [hbackground, hscenarios, Feature.refusedWith]

/-- A file that is no feature file gives the same also when blocks are refused. -/
theorem ofText_refusing_of_error {error : GrammarError} (part path : Text)
    (hs : ¬Scenario.headerLine <+: source) (h : FeatureTree.ofText source = .error error)
    : Feature.ofText (Grammar.refusing part FeatureTree.ofText) path source
      = Feature.ofText FeatureTree.ofText path source := by
  simp only [Feature.ofText, refusing_of_not_isPrefix hs, h]

/-- Refusing the blocks in which `part` stands changes no error. It changes a feature only where it
refuses, element by element.
-/
theorem ofText_refusing (part path source : Text) (hs : ¬Scenario.headerLine <+: source)
    : (∀ error,
        Feature.ofText (Grammar.refusing part FeatureTree.ofText) path source = .error error
          ↔ Feature.ofText FeatureTree.ofText path source = .error error)
      ∧ ∀ plain, Feature.ofText FeatureTree.ofText path source = .ok plain →
          (∀ tree, FeatureTree.ofText source = .ok tree →
            plain.background.isSome = tree.background.isSome
            ∧ plain.scenarios.length = tree.elements.length
            ∧ Feature.ofText (Grammar.refusing part FeatureTree.ofText) path source
              = .ok (plain.refusedWith part tree))
          ∧ ∀ error, FeatureTree.ofText source = .error error →
              Feature.ofText (Grammar.refusing part FeatureTree.ofText) path source
                = .ok plain := by
  cases h : FeatureTree.ofText source with
  | error fault =>
      rw [ofText_refusing_of_error part path hs h]
      exact ⟨fun _ => Iff.rfl, fun plain hplain => ⟨nofun, fun _ _ => hplain⟩⟩
  | ok tree =>
      obtain ⟨plain, hplain, hbackground, hlength, hrefused⟩ :=
        exists_feature_refusing part path hs h
      rw [hplain, hrefused]
      refine ⟨fun _ => ⟨nofun, nofun⟩, fun _ he => ⟨fun _ ht => ?_, nofun⟩⟩
      cases he
      cases ht
      exact ⟨hbackground, hlength, rfl⟩

/-- Only the block of the second scenario holds a `z`. -/
def partlyRefused : Text :=
  "Feature: f\n  Background:\n    Given x\n  @t\n  Scenario: s\n    When z\n  # note\n"
    ++ "  Scenario Outline: o\n    Then <n>\n    Examples:\n      | n |\n"

/-- The scenario that is refused keeps its place between the others. -/
theorem ofText_refusing_partly
    : ∃ tree, FeatureTree.ofText partlyRefused = .ok tree
        ∧ ∃ plain, Feature.ofText FeatureTree.ofText "f" partlyRefused = .ok plain
          ∧ Feature.ofText (Grammar.refusing "z" FeatureTree.ofText) "f" partlyRefused
            = .ok (plain.refusedWith "z" tree)
          ∧ (plain.refusedWith "z" tree).elements.map (·.syntaxError) = [false, true, false] := by
  have haccepted : FeatureTree.ofText partlyRefused = .ok _ := rfl
  have hplain : Feature.ofText FeatureTree.ofText "f" partlyRefused = .ok _ := rfl
  obtain ⟨_, hafter⟩ := ofText_refusing "z" "f" partlyRefused (by decide)
  exact ⟨_, rfl, _, rfl, ((hafter _ hplain).1 _ haccepted).2.2, rfl⟩

/-- The tag stands above a background, which takes none. -/
def taggedBackground : Text :=
  "Feature: f\n  @t\n  Background:\n    Given x\n"

/-- A refused background does not have the tags of its element. -/
theorem not_forall_tags_of_refused
    : ¬∀ (part path source : Text) (tree : FeatureTree) (feature : Feature),
        ¬Scenario.headerLine <+: source
        → FeatureTree.ofText source = .ok tree
        → Feature.ofText (Grammar.refusing part FeatureTree.ofText) path source = .ok feature
        → List.Forall₂
            (fun scenario element =>
              occurs part (Scenario.isolated scenario.lines) = true
              → scenario.tags = element.tags.map (·.name))
            feature.elements tree.allElements := by
  intro h
  cases h "Given" "f" taggedBackground _ _ (by decide) rfl rfl with
  | cons hfirst _ => cases hfirst rfl

end SuiteScore
