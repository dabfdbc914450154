import Mathlib.Data.List.Forall2
import SuiteScore.Proofs.Feature.Elements

/-! Which scenarios have the whole name of their element. The span of a mere description has as many
lines as the description, so that blank lines and comments in it push its end out.
-/

namespace SuiteScore

open Text Gherkin

-----------------------------------------------------------------------------------------
-- Names with descriptions
-----------------------------------------------------------------------------------------

/-- Every line of a description follows in the name after a space. -/
theorem fullName_eq (name : Text) (description : List Text)
    : fullName name description = name ++ description.flatMap fun line => ' ' :: line := by
  have hjoined : ∀ (first : Text) (rest : List Text),
      ' ' :: joined " " (first :: rest) = (first :: rest).flatMap fun line => ' ' :: line := by
    intro first rest
    induction rest generalizing first with
    | nil => simp [joined]
    | cons second more ih =>
        rw [List.flatMap_cons, ← ih second]
        simp [joined]
  cases description with
  | nil => simp [fullName]
  | cons first rest =>
      rw [← hjoined]
      simp [fullName]

/-- A name with the beginning of a description is the whole name only if nothing is missing. -/
theorem fullName_inj_of_isPrefix {name : Text} {front whole : List Text} (h : front <+: whole)
    : fullName name front = fullName name whole ↔ front = whole := by
  obtain ⟨missing, rfl⟩ := h
  refine ⟨fun he => ?_, fun he => congrArg _ he⟩
  rw [fullName_eq, fullName_eq, List.flatMap_append, ← List.append_assoc,
    List.self_eq_append_right, List.flatMap_eq_nil_iff] at he
  cases missing with
  | nil => exact (List.append_nil _).symm
  | cons first rest => exact absurd (he first List.mem_cons_self) (List.cons_ne_nil _ _)

-----------------------------------------------------------------------------------------
-- Whole descriptions
-----------------------------------------------------------------------------------------

namespace Gherkin

/-- Whether no line of the description is cut off with the span: there is a step or an examples
table below it, or nothing but prose stands in the span below the keyword line.
-/
def Element.isWhole (said : List (Option Line)) (element : Element) : Bool :=
  !element.isStepless || (element.extentOf said).all fun line => (Line.prose? line).isSome

/-- A copy of an element in an accepted file has its whole description only if the element is whole.
Witness: the extent has as many lines as the description, and the copy has those that are prose.
-/
theorem Layout.description_eq_iff {lines : List Text} {element one : Element} {down : Nat}
    (layout : Layout lines element) (h : element.IsCopyOf (readings none lines) down one)
    : one.description = element.description
      ↔ element.isWhole (readings none lines) = true := by
  cases hs : element.isStepless with
  | false => simp [Element.isWhole, hs, h.complete hs]
  | true =>
      have hall : (element.extentOf (readings none lines)).all
            (fun line => (Line.prose? line).isSome) = true
          ↔ one.description.length = element.description.length := by
        rw [h.prose hs, ← layout.length_extentOf hs, proseOf, List.filterMap_length_eq_length,
          List.all_eq_true]
      simp only [Element.isWhole, hs, Bool.not_true, Bool.false_or, hall]
      exact ⟨fun he => congrArg List.length he, fun hl => h.described.eq_of_length hl⟩

end Gherkin

-----------------------------------------------------------------------------------------
-- Names of scenarios
-----------------------------------------------------------------------------------------

/-- A scenario of an accepted file has the name and description of its element only if it is marked
or the element is whole.
-/
theorem names_of_ofText {source : Text} {tree : FeatureTree} (path : Text)
    (h : FeatureTree.ofText source = .ok tree)
    : ∃ feature, Feature.ofText FeatureTree.ofText path source = .ok feature
        ∧ List.Forall₂
            (fun scenario element =>
              scenario.name = fullName element.name element.description
              ↔ scenario.syntaxError = true ∨ element.isWhole (saidIn source) = true)
            feature.elements tree.allElements := by
  obtain ⟨feature, hfeature, hbackground, hscenarios⟩ := exists_feature path h
  refine ⟨feature, hfeature, ?_⟩
  rw [elements_of_parts hbackground hscenarios, List.forall₂_map_left_iff, List.forall₂_same]
  intro element he
  rcases scenarioOf_cases path h he with ⟨_, hscenario⟩ | ⟨_, one, hcopy, hscenario⟩
  · rw [hscenario]
    exact ⟨fun _ => Or.inl rfl, fun _ => rfl⟩
  · obtain ⟨layout⟩ := FeatureTree.nonempty_layout h he
    have hname : one.name = element.name := by
      have hsame := congrArg Element.name hcopy.same
      exact hsame
    rw [hscenario]
    change fullName one.name one.description = fullName element.name element.description
      ↔ false = true ∨ element.isWhole (saidIn source) = true
    rw [hname, fullName_inj_of_isPrefix hcopy.described, layout.description_eq_iff hcopy]
    simp [saidIn]

/-- The blank line pushes the second line of the description out of the span. -/
def spacedDescription : Text :=
  "Feature: f\n  Scenario: s\n\n    one\n    two\n"

/-- The scenario is not marked, but its name does not reach the end of the description. -/
theorem names_of_spacedDescription
    : ∃ tree, FeatureTree.ofText spacedDescription = .ok tree
        ∧ ∃ feature, Feature.ofText FeatureTree.ofText "f" spacedDescription = .ok feature
          ∧ List.Forall₂
              (fun scenario element =>
                scenario.syntaxError = false
                ∧ scenario.name ≠ fullName element.name element.description)
              feature.elements tree.allElements := by
  have haccepted : FeatureTree.ofText spacedDescription = .ok _ := rfl
  obtain ⟨feature, hfeature, hnames⟩ := names_of_ofText "f" haccepted
  cases hfeature
  refine ⟨_, rfl, _, rfl, ?_⟩
  cases hnames with
  | cons hfirst hrest =>
      cases hrest
      refine .cons ⟨rfl, fun hname => ?_⟩ .nil
      rcases hfirst.mp hname with hmarked | hwhole
      · cases hmarked
      · cases hwhole

/-- The name of a scenario that is not marked can be shorter than its element has it. -/
theorem not_forall_whole_name
    : ¬∀ (path source : Text) (tree : FeatureTree) (feature : Feature),
        FeatureTree.ofText source = .ok tree
        → Feature.ofText FeatureTree.ofText path source = .ok feature
        → ∀ entry ∈ feature.elements.zip tree.allElements,
            entry.1.syntaxError = false
            → entry.1.name = fullName entry.2.name entry.2.description := by
  intro h
  have hname := h "f" spacedDescription _ _ rfl rfl _ List.mem_cons_self rfl
  cases hname

end SuiteScore
