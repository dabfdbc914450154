import SuiteScore.Proofs.Feature.Mirror

/-! The scenarios of a feature told from the tree of its file and from the lines of the file alone,
without reading the lines of an element a second time.
-/

namespace SuiteScore

open Text Gherkin

variable {source : Text} {tree : FeatureTree} {element one : Element} {said : List (Option Line)}
  {down : Nat}

-----------------------------------------------------------------------------------------
-- Rows of examples
-----------------------------------------------------------------------------------------

namespace Scenario

/-- The lines that rows leave in a scenario when their own lines are known. -/
def rowLines (literal : Row → Option Text) (rows : List Row) : List Text :=
  (rows.flatMap fun row => row.comments.map (·.text) ++ (literal row).toList).filter isExampleRow

/-- Moved rows leave the same lines when their own lines are found from where they were. -/
theorem rowLines_moved (down : Nat) (literal : Nat → Option Text) (rows : List Row)
    : rowLines (fun row => literal (row.line - down)) (rows.map (Row.moved down))
      = rowLines (fun row => literal row.line) rows := by
  rw [rowLines, List.flatMap_map]
  simp [rowLines, Row.moved, Comment.moved, Function.comp_def]

/-- The rows of moved examples are the moved rows. -/
theorem exampleRows_moved (down : Nat) (examples : List Examples)
    : exampleRows (examples.map (Examples.moved down))
      = (exampleRows examples).map (Row.moved down) := by
  cases examples with
  | nil => rfl
  | cons first rest =>
      simp [exampleRows, Examples.moved, List.flatMap_map, List.map_flatMap]

/-- The rows of examples do not depend on their descriptions. -/
theorem exampleRows_undescribed (examples : List Examples)
    : exampleRows (examples.map Examples.undescribed) = exampleRows examples := by
  cases examples with
  | nil => rfl
  | cons first rest => simp [exampleRows, Examples.undescribed, List.flatMap_map]

/-- Rows but the first of each of some examples are rows of them. -/
theorem laterRows_subset (examples : List Examples)
    : (examples.flatMap fun one => one.rows.drop 1) ⊆ examples.flatMap (·.rows) := by
  intro row hin
  obtain ⟨one, hone, hrow⟩ := List.mem_flatMap.mp hin
  exact List.mem_flatMap.mpr ⟨one, hone, List.mem_of_mem_drop hrow⟩

/-- A scenario takes rows of its element only. -/
theorem exampleRows_subset (examples : List Examples)
    : exampleRows examples ⊆ examples.flatMap (·.rows) := by
  cases examples with
  | nil => exact List.Subset.refl _
  | cons first rest =>
      intro row hin
      rw [exampleRows, List.mem_append] at hin
      rw [List.flatMap_cons, List.mem_append]
      exact hin.imp_right fun hlater => laterRows_subset rest hlater

end Scenario

namespace Gherkin.Element.IsCopyOf

/-- The rows of a copy are the rows of its element with their own numbers. -/
theorem rows_eq (h : element.IsCopyOf said down one)
    : (Scenario.exampleRows one.examples).map (Row.moved down)
      = (Scenario.exampleRows element.examples).map (Row.moved 0) := by
  have hsame := congrArg (fun element => Scenario.exampleRows element.examples) h.same
  simpa only [settled, moved, Scenario.exampleRows_moved, Scenario.exampleRows_undescribed]
    using hsame

/-- The rows of a copy leave the lines that the rows of the element leave from where they are. -/
theorem rowLines_eq (h : element.IsCopyOf said down one) (literal : Nat → Option Text)
    : Scenario.rowLines (fun row => literal row.line) (Scenario.exampleRows one.examples)
      = Scenario.rowLines (fun row => literal (row.line - down))
          (Scenario.exampleRows element.examples) :=
  calc Scenario.rowLines (fun row => literal row.line) (Scenario.exampleRows one.examples)
      = Scenario.rowLines (fun row => literal (row.line - down))
          ((Scenario.exampleRows one.examples).map (Row.moved down)) :=
        (Scenario.rowLines_moved ..).symm
    _ = Scenario.rowLines (fun row => literal (row.line - down))
          ((Scenario.exampleRows element.examples).map (Row.moved 0)) := by rw [h.rows_eq]
    _ = Scenario.rowLines (fun row => literal (row.line - down))
          (Scenario.exampleRows element.examples) :=
      Scenario.rowLines_moved 0 (fun number => literal (number - down)) _

/-- The description of a copy is the description of its element, or the prose of its extent when it
is a mere description.
-/
theorem description_eq (h : element.IsCopyOf said down one)
    : one.description
      = if element.isStepless then proseOf (element.extentOf said) else element.description := by
  cases hs : element.isStepless with
  | true => exact h.prose hs
  | false => exact h.complete hs

end Gherkin.Element.IsCopyOf

-----------------------------------------------------------------------------------------
-- Scenarios from elements
-----------------------------------------------------------------------------------------

/-- The line of a source with the given number as scenarios keep it, if it is in the span of an
element.
-/
def spanLine? (source : Text) (element : Element) (number : Nat) : Option Text :=
  if Span.firstOf element ≤ number ∧ number ≤ Span.lastOf element then
    (keptLines (lines source))[number - 1]?
  else none

/-- A line is found in the lines of a scenario where it is found in the span. -/
theorem literal?_eq_spanLine? (h : 2 ≤ Span.firstOf element) (number : Nat)
    : Scenario.literal? (spanLines source element) (number - (Span.firstOf element - 2))
      = spanLine? source element number := by
  by_cases hfirst : Span.firstOf element ≤ number
  · have hindex : Span.firstOf element - 1 + (number - (Span.firstOf element - 2) - 2)
        = number - 1 := by omega
    rw [Scenario.literal?, if_neg (by omega), spanLines, keptLines, List.getElem?_map, Span.cut,
      Span.of, List.getElem?_drop, hindex, List.getElem?_take, spanLine?, keptLines,
      List.getElem?_map]
    dsimp only
    by_cases hlast : number ≤ Span.lastOf element
    · rw [if_pos (by omega), if_pos ⟨hfirst, hlast⟩]
    · rw [if_neg (by omega), if_neg fun hspan => hlast hspan.2]
      rfl
  · rw [Scenario.literal?, if_pos (by omega), spanLine?, if_neg fun hspan => hfirst hspan.1]

/-- The scenario of an element whose lines cannot be read alone. -/
def markedOf (path source : Text) (element : Element) : Scenario :=
  { unreadOf path source element with syntaxError := true }.adopt element

/-- The name of an element with the description that its span holds. -/
def toldName (source : Text) (element : Element) : Text :=
  fullName element.name
    (if element.isStepless then proseOf (element.extentOf (saidIn source))
    else element.description)

/-- The lines of the steps of an element, each after the commented-out steps before it. -/
def toldSteps (source : Text) (element : Element) : List Text :=
  element.steps.flatMap fun step =>
    stepLines (step.comments.map (·.text)) ++ [fileLine source step.line]

/-- The lines of the example rows of an element, each after the commented-out rows before it. -/
def toldRows (source : Text) (element : Element) : List Text :=
  Scenario.rowLines (fun row => spanLine? source element row.line)
    (Scenario.exampleRows element.examples)

/-- The kind of an element with its example rows. -/
def toldKind (source : Text) (element : Element) : ScenarioKind :=
  match element.kind with
  | .background => .background
  | .scenario => .scenario
  | .outline => .outline (toldRows source element)

/-- The scenario of an element whose lines can be read alone. -/
def toldOf (path source : Text) (element : Element) : Scenario where
  location := Location.ofLine path element.line
  name := toldName source element
  tags := if element.kind = .background then [] else element.tags.map (·.name)
  kind := toldKind source element
  startLine := Location.line (Location.ofLine path element.line)
  comments := element.comments.map (·.text)
  steps := toldSteps source element
  tables := .insertAll (tableEntries source element)
  syntaxError := false
  lines := spanLines source element

/-- The scenario of an element, told from the tree. -/
def scenarioIn (path source : Text) (element : Element) : Scenario :=
  if element.isDisturbed (saidIn source) || element.leavesTags (saidIn source) then
    markedOf path source element
  else toldOf path source element

/-- A copy fills a scenario with what is told of its element. -/
theorem fill_eq_toldOf (path : Text) (h : FeatureTree.ofText source = .ok tree)
    (he : element ∈ tree.allElements)
    (hcopy : element.IsCopyOf (saidIn source) (Span.firstOf element - 2) one)
    : (unreadOf path source element).fill one = toldOf path source element := by
  obtain ⟨layout⟩ := FeatureTree.nonempty_layout h he
  have hkind : one.kind = element.kind := congrArg ElementKeyword.kind (keyword_of_isCopyOf hcopy)
  have hname : one.name = element.name := by
    have hsame := congrArg Element.name hcopy.same
    exact hsame
  have hsteps : stepLines (Scenario.elementSteps (spanLines source element) one)
      = toldSteps source element := by
    rw [toldSteps, ← linesOf_spanLines h he]
    exact congrArg stepLines (hcopy.linesOf_eq (Scenario.literal? (spanLines source element)))
  have htables : Scenario.elementTables (spanLines source element) one
      = .insertAll (tableEntries source element) := by
    rw [Scenario.elementTables_eq, hcopy.tablesOf_eq, tablesOf_eq_tableEntries h he]
  have hrows : Scenario.elementExamples (spanLines source element) one
      = toldRows source element := by
    simp only [toldRows, ← literal?_eq_spanLine? layout.two_le_firstOf]
    exact hcopy.rowLines_eq (Scenario.literal? (spanLines source element))
  simp only [Scenario.fill, Scenario.adopt, unreadOf, Scenario.unread, toldOf, toldName, toldKind,
    hkind, hname, hsteps, htables, hrows, hcopy.comments_eq, hcopy.tags_eq, hcopy.description_eq]
  cases element.kind <;> rfl

/-- The scenarios of an accepted file are those that its tree tells. -/
theorem scenarioOf_eq_scenarioIn (path : Text) (h : FeatureTree.ofText source = .ok tree)
    (he : element ∈ tree.allElements)
    : Feature.scenarioOf FeatureTree.ofText path (lines source) element
      = scenarioIn path source element := by
  rcases scenarioOf_cases path h he with ⟨hmarked, hscenario⟩ | ⟨hread, one, hcopy, hscenario⟩
  · rw [hscenario, scenarioIn, if_pos hmarked, markedOf]
  · rw [hscenario, scenarioIn, hread, if_neg Bool.false_ne_true, fill_eq_toldOf path h he hcopy]

end SuiteScore
