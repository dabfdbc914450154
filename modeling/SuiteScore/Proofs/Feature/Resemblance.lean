import SuiteScore.Proofs.Feature.Told

/-! Features of sources whose lines say the same. Both are refused with the same error, or they have
the same elements, and each scenario is told from one element and the lines of its own source.
-/

namespace SuiteScore

open Text Gherkin

variable {source other : Text} {tree : FeatureTree} {element : Element}

-----------------------------------------------------------------------------------------
-- Elements without the text of doc strings
-----------------------------------------------------------------------------------------

namespace Gherkin

theorem Row.map_moved_zero (rows : List Row) : rows.map (Row.moved 0) = rows := by
  refine (List.map_congr_left fun row _ => ?_).trans (List.map_id rows)
  rw [Row.moved, Comment.map_moved_zero]
  rfl

theorem Examples.map_moved_zero (examples : List Examples)
    : examples.map (Examples.moved 0) = examples := by
  refine (List.map_congr_left fun one _ => ?_).trans (List.map_id examples)
  rw [Examples.moved, Tag.map_moved_zero, Comment.map_moved_zero, Row.map_moved_zero]
  rfl

/-- Only the steps of an element hold text of doc strings. -/
theorem Element.moved_zero (element : Element)
    : element.moved 0 = { element with steps := element.steps.map (Step.moved 0) } := by
  rw [Element.moved, Tag.map_moved_zero, Comment.map_moved_zero, Examples.map_moved_zero]
  rfl

/-- A step ends where it ends without the text of its doc string. -/
theorem Step.lastLine_moved_zero (step : Step) : (step.moved 0).lastLine = step.lastLine := by
  obtain ⟨keyword, text, line, comments, argument⟩ := step
  cases argument with
  | none => rfl
  | some argument =>
      cases argument with
      | table rows => simp [moved, lastLine, Argument.moved, Row.map_moved_zero]
      | docString content first last => rfl

/-- An element ends where it ends without the text of its doc strings. -/
theorem Element.lastOf_moved_zero (element : Element)
    : Span.lastOf (element.moved 0) = Span.lastOf element := by
  rw [Element.moved_zero]
  simp only [Span.lastOf, List.getLast?_map]
  cases element.examples.getLast? with
  | some examples => rfl
  | none =>
      cases element.steps.getLast? with
      | none => rfl
      | some step => exact step.lastLine_moved_zero

/-- An element begins where it begins without the text of its doc strings. -/
theorem Element.firstOf_moved_zero (element : Element)
    : Span.firstOf (element.moved 0) = Span.firstOf element := by
  rw [Element.moved_zero]
  rfl

end Gherkin

section Told

variable (path source : Text) (element : Element)

theorem spanLines_moved_zero : spanLines source (element.moved 0) = spanLines source element := by
  simp only [spanLines, Span.of, Element.firstOf_moved_zero, Element.lastOf_moved_zero]

theorem toldName_moved_zero : toldName source (element.moved 0) = toldName source element := by
  have hlast := element.lastOf_moved_zero
  rw [Element.moved_zero] at hlast ⊢
  simp only [toldName, Element.extentOf, hlast, Element.isStepless, List.isEmpty_map]
  rfl

theorem toldSteps_moved_zero : toldSteps source (element.moved 0) = toldSteps source element := by
  rw [Element.moved_zero]
  simp [toldSteps, List.flatMap_map, Step.moved, Comment.map_moved_zero]

theorem tableEntries_moved_zero
    : tableEntries source (element.moved 0) = tableEntries source element := by
  rw [Element.moved_zero, tableEntries, List.filterMap_map]
  refine List.filterMap_congr fun step _ => ?_
  rw [Function.comp_apply, Step.table?_moved]
  rfl

theorem toldKind_moved_zero : toldKind source (element.moved 0) = toldKind source element := by
  have hexamples : (element.moved 0).examples = element.examples := by rw [Element.moved_zero]
  simp only [toldKind, toldRows, spanLine?, Element.firstOf_moved_zero, Element.lastOf_moved_zero,
    hexamples]
  rfl

/-- The text of doc strings is not told. -/
theorem scenarioIn_moved_zero
    : scenarioIn path source (element.moved 0) = scenarioIn path source element := by
  have htags : (element.moved 0).tags = element.tags := Tag.map_moved_zero _
  have hcomments : (element.moved 0).comments = element.comments := Comment.map_moved_zero _
  have hmarked : markedOf path source (element.moved 0) = markedOf path source element := by
    simp only [markedOf, unreadOf, spanLines_moved_zero, Scenario.adopt, htags]
    rfl
  have htold : toldOf path source (element.moved 0) = toldOf path source element := by
    simp only [toldOf, toldName_moved_zero, toldSteps_moved_zero, tableEntries_moved_zero,
      toldKind_moved_zero, spanLines_moved_zero, htags, hcomments]
    rfl
  rw [scenarioIn, hmarked, htold, Element.isDisturbed, Element.leadOf, Element.leavesTags,
    Element.extentOf, Element.firstOf_moved_zero, Element.lastOf_moved_zero]
  rfl

end Told

-----------------------------------------------------------------------------------------
-- Outcomes
-----------------------------------------------------------------------------------------

/-- Two outcomes are the same error, or their values are related. -/
def SameOutcome (related : α → β → Prop) : Except ε α → Except ε β → Prop
  | .ok value, .ok twin => related value twin
  | .error error, .error other => error = other
  | _, _ => False

/-- What is the same for related values is the same for both outcomes. -/
theorem SameOutcome.map_eq {related : α → β → Prop} {outcome : Except ε α} {other : Except ε β}
    {f : α → γ} {g : β → γ} (h : SameOutcome related outcome other)
    (hfg : ∀ value twin, related value twin → f value = g twin)
    : outcome.map f = other.map g := by
  cases outcome with
  | error error =>
      cases other with
      | error other => exact congrArg Except.error h
      | ok twin => exact h.elim
  | ok value =>
      cases other with
      | error other => exact h.elim
      | ok twin => exact congrArg Except.ok (hfg value twin h)

/-- Two features are the same but for their lines and for their scenarios, which are related. -/
structure Feature.Related (related : Scenario → Scenario → Prop) (feature twin : Feature)
    : Prop where
  target : feature.toTarget = twin.toTarget
  comments : feature.comments = twin.comments
  background : Option.Rel related feature.background twin.background
  scenarios : List.Forall₂ related feature.scenarios twin.scenarios

/-- Two scenarios are told from one element of the first of two sources and from the lines of each.
-/
def ToldAlike (path source other : Text) (scenario twin : Scenario) : Prop :=
  ∃ tree element, FeatureTree.ofText source = .ok tree ∧ element ∈ tree.allElements
    ∧ scenario = scenarioIn path source element ∧ twin = scenarioIn path other element

/-- The feature of an accepted file with the scenarios that its tree tells. -/
theorem ofText_eq_told (path : Text) (h : FeatureTree.ofText source = .ok tree)
    : Feature.ofText FeatureTree.ofText path source
      = .ok { Feature.ofTree path (lines source) tree with
          background := tree.background.map (scenarioIn path source)
          scenarios := tree.elements.map (scenarioIn path source) } := by
  rw [ofText_of_tree path h h fun _ he => isBackground_scenarioOf path h he]
  have hbackground
      : tree.background.map (Feature.scenarioOf FeatureTree.ofText path (lines source))
        = tree.background.map (scenarioIn path source) := by
    exact Option.map_congr fun element he =>
      scenarioOf_eq_scenarioIn path h (mem_allElements_of_background he)
  have hscenarios
      : tree.elements.map (Feature.scenarioOf FeatureTree.ofText path (lines source))
        = tree.elements.map (scenarioIn path source) :=
    List.map_congr_left fun element he =>
      scenarioOf_eq_scenarioIn path h (List.mem_append_right _ he)
  rw [hbackground, hscenarios]

/-- A feature has nothing of the text of doc strings but in its scenarios. -/
theorem ofTree_moved_zero (path : Text) (pieces : List Text) (tree : FeatureTree)
    : Feature.ofTree path pieces (tree.moved 0) = Feature.ofTree path pieces tree := by
  simp only [Feature.ofTree, FeatureTree.moved, Tag.map_moved_zero, Comment.map_moved_zero]
  rfl

/-- Trees that are the same apart from the text of doc strings give related features. -/
theorem related_of_moved_zero (path : Text) {twin : FeatureTree}
    (h : FeatureTree.ofText source = .ok tree) (hs : tree.moved 0 = twin.moved 0)
    : Feature.Related (ToldAlike path source other)
        { Feature.ofTree path (lines source) tree with
          background := tree.background.map (scenarioIn path source)
          scenarios := tree.elements.map (scenarioIn path source) }
        { Feature.ofTree path (lines other) twin with
          background := twin.background.map (scenarioIn path other)
          scenarios := twin.elements.map (scenarioIn path other) } := by
  have htree : Feature.ofTree path (lines other) twin
      = { Feature.ofTree path (lines source) tree with lines := lines other } := by
    rw [← ofTree_moved_zero, ← hs, ofTree_moved_zero]
    rfl
  have hbackground : twin.background.map (scenarioIn path other)
      = tree.background.map (scenarioIn path other) := by
    have hsame := congrArg (fun tree => tree.background.map (scenarioIn path other)) hs
    simpa [FeatureTree.moved, Function.comp_def, scenarioIn_moved_zero] using hsame.symm
  have helements : twin.elements.map (scenarioIn path other)
      = tree.elements.map (scenarioIn path other) := by
    have hsame := congrArg (fun tree => tree.elements.map (scenarioIn path other)) hs
    simpa [FeatureTree.moved, Function.comp_def, scenarioIn_moved_zero] using hsame.symm
  rw [htree, hbackground, helements]
  refine {
    target := rfl
    comments := rfl
    background := ?_
    scenarios := ?_
  }
  · cases hb : tree.background with
    | none => exact .none
    | some element =>
        exact .some ⟨tree, element, h, mem_allElements_of_background hb, rfl, rfl⟩
  · rw [List.forall₂_map_left_iff, List.forall₂_map_right_iff, List.forall₂_same]
    exact fun element he => ⟨tree, element, h, List.mem_append_right _ he, rfl, rfl⟩

/-- Sources whose lines say the same are refused with the same error, or they give features whose
scenarios are told from the same elements.
-/
theorem sameOutcome_ofText {view : Text → Text} (path : Text)
    (h : SayAlike view none (lines source) (lines other))
    : SameOutcome (Feature.Related (ToldAlike path source other))
        (Feature.ofText FeatureTree.ofText path source)
        (Feature.ofText FeatureTree.ofText path other) := by
  have htrees := FeatureTree.ofText_alike h
  cases hs : FeatureTree.ofText source with
  | ok tree =>
      cases ho : FeatureTree.ofText other with
      | error _ => rw [hs, ho] at htrees; cases htrees
      | ok twin =>
          rw [hs, ho] at htrees
          rw [ofText_eq_told path hs, ofText_eq_told path ho]
          exact related_of_moved_zero path hs (Except.ok.inj htrees)
  | error error =>
      cases ho : FeatureTree.ofText other with
      | ok _ => rw [hs, ho] at htrees; cases htrees
      | error _ =>
          rw [hs, ho] at htrees
          cases Except.error.inj htrees
          simp only [Feature.ofText, hs, ho, h.all_isEmpty_eq]
          split
          · exact ⟨rfl, rfl, .none, .nil⟩
          · rfl

end SuiteScore
