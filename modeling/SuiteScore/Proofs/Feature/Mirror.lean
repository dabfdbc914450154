import Mathlib.Data.List.Forall2
import SuiteScore.Proofs.Feature.Steps
import SuiteScore.Proofs.Target

/-! A feature mirrors the tree of its file: element by element the same places, kinds and tags, and,
where the lines of an element can be read alone, the same comments, steps and tables.
-/

namespace SuiteScore

open Text Gherkin

-----------------------------------------------------------------------------------------
-- Mirrored elements
-----------------------------------------------------------------------------------------

/-- The kind of element that a scenario comes from. -/
def ScenarioKind.element : ScenarioKind → ElementKind
  | background => .background
  | scenario => .scenario
  | outline _ => .outline

/-- A scenario has the place, kind and tags of an element of a file. -/
structure Scenario.Mirrors (path source : Text) (scenario : Scenario) (element : Element)
    : Prop where
  location : scenario.location = Location.ofLine path element.line
  startLine : byteLength source < wordBound → scenario.startLine = element.line
  kind : scenario.kind.element = element.kind
  tags : element.kind ≠ .background → scenario.tags = element.tags.map (·.name)

/-- A scenario has the comments, steps and tables of an element of a file: each step as the line of
the file where it stands, after those of its comments that are step lines, and for each line the
last table that a step gives to it.
-/
structure Scenario.MirrorsLines (source : Text) (scenario : Scenario) (element : Element)
    : Prop where
  stands : ∀ step ∈ element.steps, ∃ raw,
    (Text.lines source)[step.line - 1]? = some raw ∧ Line.of raw = .step step.keyword step.text
  comments : scenario.comments = element.comments.map (·.text)
  steps : scenario.steps = element.steps.flatMap fun step =>
    stepLines (step.comments.map (·.text)) ++ [fileLine source step.line]
  tables : ∀ line, scenario.tables.get? line
    = ((element.steps.filter fun step => fileLine source step.line = line).filterMap
        (·.table?)).getLast?

variable {source : Text} {tree : FeatureTree} {element one : Element} {said : List (Option Line)}
  {down : Nat}

-----------------------------------------------------------------------------------------
-- Copies
-----------------------------------------------------------------------------------------

namespace Gherkin.Element.IsCopyOf

/-- The comments of a copy are the comments of its element. -/
theorem comments_eq (h : element.IsCopyOf said down one)
    : one.comments.map (·.text) = element.comments.map (·.text) := by
  have hsame := congrArg (fun element => element.comments.map (·.text)) h.same
  simp only [settled, moved, List.map_map] at hsame
  exact hsame

/-- The tags of a copy are the tags of its element. -/
theorem tags_eq (h : element.IsCopyOf said down one)
    : one.tags.map (·.name) = element.tags.map (·.name) := by
  have hsame := congrArg (fun element => element.tags.map (·.name)) h.same
  simp only [settled, moved, List.map_map] at hsame
  exact hsame

/-- The steps of a copy are the steps of its element with their own numbers. -/
theorem steps_eq (h : element.IsCopyOf said down one)
    : one.steps.map (Step.moved down) = element.steps.map (Step.moved 0) := by
  have hsame := congrArg Element.steps h.same
  exact hsame

/-- The steps of a copy leave the lines that the steps of the element leave from where they are. -/
theorem linesOf_eq (h : element.IsCopyOf said down one) (literal : Nat → Option Text)
    : Scenario.linesOf (fun step => literal step.line) one.steps
      = Scenario.linesOf (fun step => literal (step.line - down)) element.steps :=
  calc Scenario.linesOf (fun step => literal step.line) one.steps
      = Scenario.linesOf (fun step => literal (step.line - down))
          (one.steps.map (Step.moved down)) := (Scenario.linesOf_moved ..).symm
    _ = Scenario.linesOf (fun step => literal (step.line - down))
          (element.steps.map (Step.moved 0)) := by rw [h.steps_eq]
    _ = Scenario.linesOf (fun step => literal (step.line - down)) element.steps :=
      Scenario.linesOf_moved 0 (fun number => literal (number - down)) element.steps

/-- The steps of a copy give the tables that the steps of the element give from where they are. -/
theorem tablesOf_eq (h : element.IsCopyOf said down one) (literal : Nat → Option Text)
    : Scenario.tablesOf (fun step => literal step.line) one.steps
      = Scenario.tablesOf (fun step => literal (step.line - down)) element.steps :=
  calc Scenario.tablesOf (fun step => literal step.line) one.steps
      = Scenario.tablesOf (fun step => literal (step.line - down))
          (one.steps.map (Step.moved down)) := (Scenario.tablesOf_moved ..).symm
    _ = Scenario.tablesOf (fun step => literal (step.line - down))
          (element.steps.map (Step.moved 0)) := by rw [h.steps_eq]
    _ = Scenario.tablesOf (fun step => literal (step.line - down)) element.steps :=
      Scenario.tablesOf_moved 0 (fun number => literal (number - down)) element.steps

end Gherkin.Element.IsCopyOf

-----------------------------------------------------------------------------------------
-- Lines of scenarios
-----------------------------------------------------------------------------------------

/-- The number of an element fits where the size of its file does. -/
theorem startLine_unreadOf (path : Text) (h : FeatureTree.ofText source = .ok tree)
    (he : element ∈ tree.allElements) (hs : byteLength source < wordBound)
    : (unreadOf path source element).startLine = element.line := by
  obtain ⟨layout⟩ := FeatureTree.nonempty_layout h he
  refine Location.line_ofLine path ?_
  have hlines := length_lines_le source
  have hbytes := length_le_byteLength source
  have hlength := congrArg List.length layout.lines_eq
  have hline := layout.line_eq
  simp only [List.length_append, List.length_cons] at hlength
  omega

/-- The lines of the steps of an element are found in its scenario. -/
theorem linesOf_spanLines (h : FeatureTree.ofText source = .ok tree)
    (he : element ∈ tree.allElements)
    : stepLines (Scenario.linesOf
          (fun step => Scenario.literal? (spanLines source element)
            (step.line - (Span.firstOf element - 2)))
          element.steps)
      = element.steps.flatMap fun step =>
          stepLines (step.comments.map (·.text)) ++ [fileLine source step.line] := by
  rw [Scenario.linesOf, stepLines, List.filter_flatMap]
  refine List.flatMap_congr fun step hin => ?_
  obtain ⟨hfound, hstep⟩ := literal?_spanLines h he hin
  rw [hfound, List.filter_append, Option.toList_some, List.filter_cons_of_pos hstep]
  rfl

/-- The values of the entries with one key, by induction on what the entries are made of. -/
theorem map_filter_entries {key : α → Text} {value : α → Option β} (line : Text) (entries : List α)
    : ((entries.filterMap fun entry => (value entry).map (key entry, ·)).filter
          fun entry => entry.1 = line).map (·.2)
      = (entries.filter fun entry => key entry = line).filterMap value := by
  induction entries with
  | nil => rfl
  | cons first rest ih =>
      cases hv : value first with
      | none => by_cases hk : key first = line <;> simp [hv, hk, ih]
      | some found => by_cases hk : key first = line <;> simp [hv, hk, ih]

/-- The tables of the steps of an element, each with the line of its step. -/
def tableEntries (source : Text) (element : Element) : List (Text × List Text) :=
  element.steps.filterMap fun step => step.table?.map (fileLine source step.line, ·)

/-- The tables of the steps of an element are found in its scenario. -/
theorem tablesOf_eq_tableEntries (h : FeatureTree.ofText source = .ok tree)
    (he : element ∈ tree.allElements)
    : Scenario.tablesOf
          (fun step => Scenario.literal? (spanLines source element)
            (step.line - (Span.firstOf element - 2)))
          element.steps
      = tableEntries source element := by
  refine List.filterMap_congr fun step hin => ?_
  have hfound := (literal?_spanLines h he hin).1
  simp only [hfound, Option.bind_some]

/-- The last table that the steps of an element give to a line is found in its scenario. -/
theorem tablesOf_spanLines (h : FeatureTree.ofText source = .ok tree)
    (he : element ∈ tree.allElements) (line : Text)
    : (StepTables.insertAll (Scenario.tablesOf
          (fun step => Scenario.literal? (spanLines source element)
            (step.line - (Span.firstOf element - 2)))
          element.steps)).get? line
      = ((element.steps.filter fun step => fileLine source step.line = line).filterMap
          (·.table?)).getLast? := by
  rw [StepTables.get?_insertAll, ← List.getLast?_map, tablesOf_eq_tableEntries h he, tableEntries,
    map_filter_entries]

-----------------------------------------------------------------------------------------
-- Mirrored features
-----------------------------------------------------------------------------------------

/-- The scenario of an element has its place, kind and tags. -/
theorem mirrors_scenarioOf (path : Text) (h : FeatureTree.ofText source = .ok tree)
    (he : element ∈ tree.allElements)
    : (Feature.scenarioOf FeatureTree.ofText path (lines source) element).Mirrors path source
        element := by
  have hstart := startLine_unreadOf path h he
  rcases scenarioOf_cases path h he with ⟨_, hscenario⟩ | ⟨_, one, hcopy, hscenario⟩
  · rw [hscenario]
    refine ⟨rfl, hstart, ?_, fun hk => ?_⟩
    · change (ScenarioKind.ofElement element.kind).element = element.kind
      cases element.kind <;> rfl
    · exact if_neg hk
  · have hkind : one.kind = element.kind := congrArg ElementKeyword.kind (keyword_of_isCopyOf hcopy)
    rw [hscenario]
    refine ⟨rfl, hstart, ?_, fun hk => ?_⟩
    · rw [← hkind]
      simp only [Scenario.fill]
      cases one.kind <;> rfl
    · change (if one.kind = .background then _ else one.tags.map (·.name)) = _
      rw [hkind, if_neg hk, hcopy.tags_eq]

/-- The scenario of an element that is not marked has its comments, steps and tables. -/
theorem mirrorsLines_scenarioOf (path : Text) (h : FeatureTree.ofText source = .ok tree)
    (he : element ∈ tree.allElements)
    (hs : (Feature.scenarioOf FeatureTree.ofText path (lines source) element).syntaxError = false)
    : (Feature.scenarioOf FeatureTree.ofText path (lines source) element).MirrorsLines source
        element := by
  rcases scenarioOf_cases path h he with ⟨_, hscenario⟩ | ⟨_, one, hcopy, hscenario⟩
  · rw [hscenario] at hs
    cases hs
  · rw [hscenario]
    refine ⟨fun step hin => ?_, hcopy.comments_eq, ?_, fun line => ?_⟩
    · obtain ⟨raw, _, hfile, _, hreads⟩ := step_stands h he step hin
      exact ⟨raw, hfile, hreads⟩
    · refine Eq.trans ?_ (linesOf_spanLines h he)
      exact congrArg stepLines (hcopy.linesOf_eq (Scenario.literal? (spanLines source element)))
    · rw [← tablesOf_spanLines h he, ← hcopy.tablesOf_eq, ← Scenario.elementTables_eq]
      rfl

/-- An accepted file gives a feature that mirrors its tree. -/
theorem mirrors_of_ofText (path : Text) (h : FeatureTree.ofText source = .ok tree)
    : ∃ feature, Feature.ofText FeatureTree.ofText path source = .ok feature
        ∧ Option.Rel (Scenario.Mirrors path source) feature.background tree.background
        ∧ List.Forall₂ (Scenario.Mirrors path source) feature.scenarios tree.elements
        ∧ List.Forall₂
            (fun scenario element =>
              scenario.syntaxError = false → scenario.MirrorsLines source element)
            feature.elements tree.allElements := by
  obtain ⟨feature, hfeature, hbackground, hscenarios⟩ := exists_feature path h
  refine ⟨feature, hfeature, ?_, ?_, ?_⟩
  · rw [hbackground]
    cases hb : tree.background with
    | none => exact .none
    | some element =>
        refine .some (mirrors_scenarioOf path h ?_)
        rw [FeatureTree.allElements, hb]
        exact List.mem_append_left _ List.mem_cons_self
  · rw [hscenarios, List.forall₂_map_left_iff, List.forall₂_same]
    exact fun element he => mirrors_scenarioOf path h (List.mem_append_right _ he)
  · rw [elements_of_parts hbackground hscenarios, List.forall₂_map_left_iff, List.forall₂_same]
    exact fun element he => mirrorsLines_scenarioOf path h he

/-- A file with a background, and with a scenario that has a comment, a tag and a table. -/
def smallSource : Text :=
  "Feature: f\n  Background:\n    Given x\n  # note\n  @t\n  Scenario: s\n    # When z\n"
    ++ "    When y\n      | a |\n"

theorem mirrors_of_smallSource
    : ∃ tree, FeatureTree.ofText smallSource = .ok tree
        ∧ ∃ feature, Feature.ofText FeatureTree.ofText "f" smallSource = .ok feature
          ∧ Option.Rel (Scenario.Mirrors "f" smallSource) feature.background tree.background
          ∧ List.Forall₂ (Scenario.Mirrors "f" smallSource) feature.scenarios tree.elements
          ∧ List.Forall₂ (Scenario.MirrorsLines smallSource) feature.elements tree.allElements := by
  have haccepted : FeatureTree.ofText smallSource = .ok _ := rfl
  obtain ⟨feature, hfeature, hbackground, hscenarios, hlines⟩ := mirrors_of_ofText "f" haccepted
  cases hfeature
  refine ⟨_, rfl, _, rfl, hbackground, hscenarios, ?_⟩
  cases hlines with
  | cons hfirst hrest =>
      cases hrest with
      | cons hsecond hnone =>
          cases hnone
          exact .cons (hfirst rfl) (.cons (hsecond rfl) .nil)

end SuiteScore
