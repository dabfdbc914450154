import SuiteScore.Proofs.Feature.Elements
import SuiteScore.Proofs.Gherkin.Line

/-! Steps and tables of a scenario. They are read from a copy of its element, whose numbers count
the lines behind a header, and they are the lines of the file all the same.
-/

namespace SuiteScore

open Text Gherkin

-----------------------------------------------------------------------------------------
-- Tables by lines
-----------------------------------------------------------------------------------------

namespace StepTables

/-- A line has the table that was given to it last, by induction on the tables. -/
theorem get?_insert (line other : Text) (rows : List Text) (tables : StepTables)
    : (insert line rows tables).get? other
      = if line = other then some rows else get? other tables := by
  induction tables with
  | nil => simp [insert, get?, List.find?_singleton, apply_ite]
  | cons first rest ih =>
      obtain ⟨key, table⟩ := first
      unfold insert
      split
      · next hkey =>
          subst hkey
          by_cases h : line = other <;> simp [get?, h]
      · next hkey =>
          split
          · by_cases h : line = other <;> simp [get?, h]
          · by_cases h : key = other
            · subst h
              simp [get?, hkey]
            · simpa [get?, h] using ih

/-- Tables that are given one after another. -/
def insertAll (entries : List (Text × List Text)) : StepTables :=
  entries.foldl (fun tables entry => tables.insert entry.1 entry.2) []

/-- Of all tables given to a line the last counts, by induction from the end. -/
theorem get?_insertAll (line : Text) (entries : List (Text × List Text))
    : (insertAll entries).get? line
      = ((entries.filter fun entry => entry.1 = line).getLast?).map (·.2) := by
  induction entries using List.reverseRecOn with
  | nil => rfl
  | append_singleton front last ih =>
      rw [insertAll, List.foldl_append, List.foldl_cons, List.foldl_nil, get?_insert]
      split
      · next h => simp [h]
      · next h =>
          rw [← insertAll, ih]
          simp [h]

end StepTables

-----------------------------------------------------------------------------------------
-- Steps by lines
-----------------------------------------------------------------------------------------

/-- The rendered table of a step, if it carries one. -/
def Gherkin.Step.table? (step : Step) : Option (List Text) :=
  match step.argument with
  | some (.table rows) => some (rows.map (·.render))
  | _ => none

/-- A table is rendered the same further down. -/
theorem Gherkin.Step.table?_moved (down : Nat) (step : Step)
    : (step.moved down).table? = step.table? := by
  obtain ⟨keyword, text, line, comments, argument⟩ := step
  cases argument with
  | none => rfl
  | some argument =>
      cases argument with
      | table rows => simp [table?, moved, Argument.moved, Row.moved, Row.render]
      | docString content first last => rfl

namespace Scenario

/-- The lines that steps leave in a scenario when their own lines are known. -/
def linesOf (literal : Step → Option Text) (steps : List Step) : List Text :=
  steps.flatMap fun step => step.comments.map (·.text) ++ (literal step).toList

/-- The tables that steps give to their lines when these are known. -/
def tablesOf (literal : Step → Option Text) (steps : List Step) : List (Text × List Text) :=
  steps.filterMap fun step => (literal step).bind fun line => step.table?.map (line, ·)

/-- The tables of an element are those of its steps, by induction on the steps. -/
theorem elementTables_eq (lines : List Text) (element : Element)
    : elementTables lines element
      = .insertAll (tablesOf (fun step => literal? lines step.line) element.steps) := by
  unfold elementTables StepTables.insertAll
  generalize ([] : StepTables) = tables
  induction element.steps generalizing tables with
  | nil => rfl
  | cons step rest ih =>
      obtain ⟨keyword, text, line, comments, argument⟩ := step
      rw [List.foldl_cons, ih]
      cases hl : literal? lines line with
      | none => simp [tablesOf, hl]
      | some found =>
          cases argument with
          | none => simp [tablesOf, hl, Step.table?]
          | some argument =>
              cases argument with
              | table rows => simp [tablesOf, hl, Step.table?]
              | docString content first last => simp [tablesOf, hl, Step.table?]

/-- Moved steps leave the same lines when their own lines are found from where they were. -/
theorem linesOf_moved (down : Nat) (literal : Nat → Option Text) (steps : List Step)
    : linesOf (fun step => literal (step.line - down)) (steps.map (Step.moved down))
      = linesOf (fun step => literal step.line) steps := by
  rw [linesOf, List.flatMap_map]
  congr 1
  funext step
  simp [Step.moved, Comment.moved]

/-- Moved steps give the same tables when their own lines are found from where they were. -/
theorem tablesOf_moved (down : Nat) (literal : Nat → Option Text) (steps : List Step)
    : tablesOf (fun step => literal (step.line - down)) (steps.map (Step.moved down))
      = tablesOf (fun step => literal step.line) steps := by
  rw [tablesOf, List.filterMap_map]
  congr 1
  funext step
  rw [Function.comp_apply, Step.table?_moved]
  simp [Step.moved]

end Scenario

-----------------------------------------------------------------------------------------
-- Lines of the file
-----------------------------------------------------------------------------------------

/-- The line of a source with the given number, as scenarios keep it. -/
def fileLine (source : Text) (number : Nat) : Text :=
  ((keptLines (lines source))[number - 1]?).getD []

variable {source : Text} {tree : FeatureTree} {element : Element}

/-- A step of an accepted file stands in a line of the file that reads as the step, and in the span
of its element.
-/
theorem step_stands (h : FeatureTree.ofText source = .ok tree) (he : element ∈ tree.allElements)
    : ∀ step ∈ element.steps, ∃ raw,
        Span.firstOf element < step.line
        ∧ (lines source)[step.line - 1]? = some raw
        ∧ ((Span.of element).cut (lines source))[step.line - Span.firstOf element]? = some raw
        ∧ Line.of raw = .step step.keyword step.text := by
  obtain ⟨layout⟩ := FeatureTree.nonempty_layout h he
  intro step hin
  obtain ⟨i, raw, hline, hraw, hreads⟩ := layout.standsIn step hin
  have hfirst := layout.firstOf_eq
  have hkeyword := layout.line_eq
  have hcut : ((Span.of element).cut (lines source))[step.line - Span.firstOf element]?
      = some raw := by
    have hindex : step.line - Span.firstOf element = layout.lead.length + (i + 1) := by omega
    rw [layout.cut_eq, hindex, List.getElem?_append_right (Nat.le_add_right ..),
      Nat.add_sub_cancel_left, List.getElem?_cons_succ]
    exact hraw
  refine ⟨raw, by omega, ?_, hcut, hreads⟩
  rw [Span.cut, List.getElem?_drop, List.getElem?_take] at hcut
  split at hcut
  · have hindex : (Span.of element).first - 1 + (step.line - Span.firstOf element)
        = step.line - 1 := by
      change Span.firstOf element - 1 + (step.line - Span.firstOf element) = step.line - 1
      omega
    rwa [hindex] at hcut
  · cases hcut

/-- The line of a step reads as the step when a scenario keeps it. -/
theorem of_fileLine (h : FeatureTree.ofText source = .ok tree) (he : element ∈ tree.allElements)
    {step : Step} (hs : step ∈ element.steps)
    : Line.of (fileLine source step.line) = .step step.keyword step.text := by
  obtain ⟨raw, _, hfile, _, hreads⟩ := step_stands h he step hs
  have hkept : fileLine source step.line = dropEndWhile (fun c => c == '\r' || c == '\n') raw := by
    rw [fileLine, keptLines, List.getElem?_map, hfile]
    rfl
  rw [hkept, Line.of, trim_dropEndWhile _ fun _ => isBlank_of_lineEnd]
  exact hreads

/-- A step is found in the lines of its scenario where it is found in the file. -/
theorem literal?_spanLines (h : FeatureTree.ofText source = .ok tree)
    (he : element ∈ tree.allElements) {step : Step} (hs : step ∈ element.steps)
    : Scenario.literal? (spanLines source element) (step.line - (Span.firstOf element - 2))
        = some (fileLine source step.line)
      ∧ isStepLine (fileLine source step.line) = true := by
  obtain ⟨layout⟩ := FeatureTree.nonempty_layout h he
  obtain ⟨raw, hline, hfile, hcut, _⟩ := step_stands h he step hs
  have htwo := layout.two_le_firstOf
  refine ⟨?_, ?_⟩
  · have hindex : step.line - (Span.firstOf element - 2) - 2
        = step.line - Span.firstOf element := by omega
    rw [Scenario.literal?, if_neg (by omega), hindex, spanLines, keptLines, List.getElem?_map, hcut,
      fileLine, keptLines, List.getElem?_map, hfile]
    rfl
  · exact isStepLine_of_step (of_fileLine h he hs)

end SuiteScore
