import SuiteScore.Gherkin.StepLine
import SuiteScore.Proofs.Gherkin.Layout
import SuiteScore.Proofs.Gherkin.Ownership
import SuiteScore.Proofs.Gherkin.Rules

/-! Steps and commented-out steps in the order of their lines. A comment comes to the step below it
unless another line that takes comments stands between them.
-/

namespace SuiteScore.Gherkin

open Text

-----------------------------------------------------------------------------------------
-- Comments before steps
-----------------------------------------------------------------------------------------

/-- The text of the comment that a line is. -/
def Line.commentTexts : Line → List Text
  | .comment text => [text]
  | _ => []

/-- The comment of a line has the text of the line, by the kinds of lines. -/
theorem Line.map_text_commentsAt (n : Nat) (line : Line)
    : (line.commentsAt n).map (·.text) = line.commentTexts := by
  cases line <;> rfl

/-- Whether the first of some lines that takes comments is a step. -/
def leadsToStep (later : List (Nat × Line)) : Bool :=
  (later.find? fun entry => entry.2.takesComments).any fun entry => entry.2.isStep

/-- Steps with the commented-out steps that lead to them, in the order of their lines. A step is
given by what stands in its line.
-/
def stepsIn (literal : Nat → Text) : List (Nat × Line) → List Text
  | [] => []
  | (n, line) :: rest =>
    (if line.isStep then [literal n]
      else if leadsToStep rest then stepLines line.commentTexts else []) ++ stepsIn literal rest

/-- A step takes comments and is none itself, by the kinds of lines. -/
theorem Line.takesComments_of_isStep {line : Line} (h : line.isStep = true)
    : line.takesComments = true ∧ line.commentTexts = [] := by
  cases line <;> first | exact ⟨rfl, rfl⟩ | cases h

/-- Where no line takes comments there are no steps, by induction on the lines. -/
theorem stepsIn_eq_nil (literal : Nat → Text) {said : List (Nat × Line)}
    (h : said.any (fun later => later.2.takesComments) = false)
    : leadsToStep said = false ∧ stepsIn literal said = [] := by
  have hleads : ∀ {later : List (Nat × Line)},
      later.any (fun entry => entry.2.takesComments) = false → leadsToStep later = false := by
    intro later hnone
    have hfind : later.find? (fun entry => entry.2.takesComments) = none := by
      simpa using hnone
    rw [leadsToStep, hfind]
    rfl
  refine ⟨hleads h, ?_⟩
  induction said with
  | nil => rfl
  | cons first rest ih =>
      simp only [List.any_cons, Bool.or_eq_false_iff] at h
      have hstep : first.2.isStep = false := Bool.eq_false_iff.mpr fun hs =>
        Bool.eq_false_iff.mp h.1 (Line.takesComments_of_isStep hs).1
      simp [stepsIn, hstep, hleads h.2, ih h.2]

/-- What lines lead to is not changed by a line behind one that takes comments. -/
theorem leadsToStep_concat (said : List (Nat × Line)) (n : Nat) (line : Line)
    : leadsToStep (said ++ [(n, line)])
      = if said.any (fun later => later.2.takesComments) then leadsToStep said
        else line.isStep := by
  cases hany : said.any fun later => later.2.takesComments with
  | true =>
      obtain ⟨owner, hfind⟩ := Option.isSome_iff_exists.mp (List.find?_isSome.mpr
        (List.any_eq_true.mp hany))
      simp [leadsToStep, hfind]
  | false =>
      have hfind : said.find? (fun entry => entry.2.takesComments) = none := by
        simpa using hany
      cases htakes : line.takesComments with
      | true => simp [leadsToStep, hfind, htakes]
      | false =>
          have hstep : line.isStep = false := Bool.eq_false_iff.mpr fun hs =>
            Bool.eq_false_iff.mp htakes (Line.takesComments_of_isStep hs).1
          simp [leadsToStep, hfind, htakes, hstep]

/-- A last step comes after all others, with the comments that no line has taken, by induction on
the lines before.
-/
theorem stepsIn_concat (literal : Nat → Text) (said : List (Nat × Line)) (n : Nat) (line : Line)
    : stepsIn literal (said ++ [(n, line)])
      = stepsIn literal said
        ++ if line.isStep then
            stepLines (unowned (fun _ => Line.commentTexts) Line.takesComments said) ++ [literal n]
          else [] := by
  induction said with
  | nil => simp [stepsIn, unowned, leadsToStep, stepLines]
  | cons first rest ih =>
      rw [List.cons_append, stepsIn, stepsIn, ih, leadsToStep_concat, unowned]
      cases hany : rest.any fun later => later.2.takesComments with
      | true => simp
      | false =>
          obtain ⟨hleads, hnone⟩ := stepsIn_eq_nil literal hany
          cases hstep : first.2.isStep with
          | true => simp [hnone, (Line.takesComments_of_isStep hstep).2]
          | false => cases line.isStep <;> simp [hleads, hnone, stepLines]

-----------------------------------------------------------------------------------------
-- Steps of elements
-----------------------------------------------------------------------------------------

/-- The steps of an element, each after the commented-out steps among its comments. -/
def Element.stepTexts (literal : Nat → Text) (element : Element) : List Text :=
  element.steps.flatMap fun step =>
    stepLines (step.comments.map (·.text)) ++ [literal step.line]

/-- An argument leaves the texts of steps as they are. -/
theorem Element.stepTexts_attach (literal : Nat → Text) (element : Element) (argument : Argument)
    : (element.attach argument).stepTexts literal = element.stepTexts literal := by
  rw [attach, stepTexts]
  cases hsteps : element.steps using List.reverseRecOn with
  | nil => simp [stepTexts, hsteps, amendLast]
  | append_singleton front last => simp [stepTexts, hsteps, amendLast_concat]

/-- A row leaves the texts of steps as they are, by the places where rows go. -/
theorem Element.stepTexts_addRow (literal : Nat → Text) {element grown : Element} {row : Row}
    (h : element.addRow row = .ok grown)
    : grown.stepTexts literal = element.stepTexts literal := by
  rcases addRow_cases h with ⟨front, last, _, rfl⟩ | ⟨_, front, last, hsteps, _, rfl⟩
  · rfl
  · have hlast : (last.addRow row).comments = last.comments
        ∧ (last.addRow row).line = last.line := by
      unfold Step.addRow
      split <;> exact ⟨rfl, rfl⟩
    simp [stepTexts, hsteps, hlast]

/-- Prose leaves the texts of steps as they are, by the places where prose goes. -/
theorem Element.stepTexts_describe? (literal : Nat → Text) {element described : Element}
    {text : Text} (h : element.describe? text = some described)
    : described.stepTexts literal = element.stepTexts literal := by
  rcases describe?_cases h with ⟨_, _, rfl⟩ | ⟨_, _, _, _, rfl⟩ <;> rfl

namespace Reader

variable {reader next : Reader} {n : Nat} {raw : Text} (literal : Nat → Text)

/-- What a line adds to the steps of the element that grows. -/
def addedSteps (literal : Nat → Text) (waiting : List Text) (n : Nat) : Option Line → List Text
  | none => []
  | some line => if line.isStep then stepLines waiting ++ [literal n] else []

/-- A line that is no heading adds a step to the element that grows, with the comments that wait, or
leaves its steps as they are, by the cases of the line.
-/
theorem Takes.stepTexts_eq {before : Element} (h : reader.Takes n raw next)
    (hb : reader.current = some before)
    (hp : ∀ line, reading reader.openFence raw = some line → line.isHeading = false)
    : ∃ element, next.current = some element
        ∧ element.stepTexts literal
          = before.stepTexts literal
            ++ addedSteps literal (reader.comments.map (·.text)) n
                (reading reader.openFence raw) := by
  cases h with
  | content hd hr => exact ⟨before, hb, by simp [openFence, hd, reading, addedSteps]⟩
  | @close opened hd hr =>
      refine ⟨before.attach (.docString opened.content opened.line n), by simp [closeDocString, hb],
        ?_⟩
      simp [Element.stepTexts_attach, openFence, hd, reading, addedSteps]
  | blank hd hl | comment hd hl | tags hd hl | fence hd hl =>
      exact ⟨before, hb, by simp [reading_of_outside hd, hl, addedSteps, Line.isStep]⟩
  | feature hd hl | element hd hl =>
      have hheading := hp _ (reading_of_outside hd)
      rw [hl] at hheading
      cases hheading
  | examples hd hl hc =>
      cases hb.symm.trans hc
      exact ⟨_, rfl, by simp [reading_of_outside hd, hl, addedSteps, Line.isStep,
        Element.stepTexts]⟩
  | step hd hl ht hc he =>
      cases hb.symm.trans hc
      exact ⟨_, rfl, by simp [reading_of_outside hd, hl, addedSteps, Line.isStep,
        Element.stepTexts]⟩
  | row hd hl hr hc hg =>
      cases hb.symm.trans hc
      exact ⟨_, rfl, by simp [reading_of_outside hd, hl, addedSteps, Line.isStep,
        Element.stepTexts_addRow literal hg]⟩
  | elementProse hd hl ht hc hg =>
      cases hb.symm.trans hc
      exact ⟨_, rfl, by simp [reading_of_outside hd, hl, addedSteps, Line.isStep,
        Element.stepTexts_describe? literal hg]⟩
  | featureProse hd hl ht hc =>
      rw [hb] at hc
      cases hc

/-- The steps of the element that grows are those in the lines since it began, by the run lemma. -/
theorem stepTexts_of_takeAll {lines : List Text} {m : Nat} {begun : Element}
    (h : reader.takeAll (m + 1) lines = .ok next) (hb : reader.current = some begun)
    (hs : begun.steps = []) (hw : reader.comments = []) (hd : reader.docString = none)
    (hp : ∀ line, some line ∈ readings none lines → line.isHeading = false)
    : ∃ element, next.current = some element
        ∧ element.stepTexts literal
          = stepsIn (fun k => literal (m + k)) (numbered (readings none lines)) := by
  refine (takeAll_keeps
    (fun done middle =>
      (∀ line, some line ∈ readings none done → line.isHeading = false) →
        middle.comments.map (·.text)
          = unowned (fun _ => Line.commentTexts) Line.takesComments (numbered (readings none done))
        ∧ ∃ element, middle.current = some element
          ∧ element.stepTexts literal
            = stepsIn (fun k => literal (m + k)) (numbered (readings none done)))
    ?_ ?_ h hp).2
  · exact fun _ => ⟨by simp [hw]; rfl, begun, hb, by simp [Element.stepTexts, hs]; rfl⟩
  · intro done middle raw after hdone hm ht hplain
    have hsaid : readings none (done ++ [raw])
        = readings none done ++ [reading middle.openFence raw] := by
      rw [readings_append, ← openFence_of_takeAll_outside hdone hd, readings, readings]
    rw [hsaid] at hplain ⊢
    obtain ⟨hwaiting, element, hcurrent, htexts⟩ := hm fun line hin =>
      hplain line (List.mem_append_left _ hin)
    have htakes := takes_of_takeRaw ht
    obtain ⟨grown, hgrown, hadded⟩ := htakes.stepTexts_eq literal hcurrent fun line hl =>
      hplain line (List.mem_append_right _ (List.mem_singleton.mpr hl.symm))
    have hnumber : m + 1 + done.length = m + (1 + done.length) := Nat.add_assoc ..
    rw [numbered_concat, length_readings]
    refine ⟨?_, grown, hgrown, ?_⟩
    · rw [htakes.comments_eq]
      cases reading middle.openFence raw with
      | none => simp [leftWaiting, hwaiting]
      | some line =>
          simp only [leftWaiting, Option.map_some, Option.toList_some, unowned_concat,
            List.map_append, Line.map_text_commentsAt, ← hwaiting]
          cases line.takesComments <;> rfl
    · rw [hadded, htexts, hwaiting]
      cases reading middle.openFence raw with
      | none => simp [addedSteps]
      | some line => simp [addedSteps, stepsIn_concat, hnumber]

end Reader

/-- The steps of an element are those in its extent, each with the commented-out steps that lead to
it.
-/
theorem Layout.stepTexts_eq {lines : List Text} {element : Element} (layout : Layout lines element)
    (literal : Nat → Text)
    : element.stepTexts literal
      = stepsIn (fun k => literal (element.line + k))
          (numbered (element.extentOf (readings none lines))) := by
  have hsection := layout.isSection
  have hline : (layout.old ++ layout.lead).length + 2 = element.line + 1 := by rw [hsection.line]
  have htakes := layout.isExtent.takes
  rw [hline] at htakes
  have hplain : ∀ line, some line ∈ readings none layout.kept → line.isHeading = false := by
    intro line hin
    refine hsection.plain line ?_
    rw [readings_append]
    exact List.mem_append_left _ hin
  obtain ⟨last, hlast, htexts⟩ := Reader.stepTexts_of_takeAll literal htakes hsection.begun rfl
    hsection.bare.2.1 hsection.bare.2.2 hplain
  have hsteps : last.steps = element.steps := by
    rw [layout.isExtent.grows] at hlast
    cases hlast
    have hsame := congrArg Element.steps layout.isExtent.same
    exact hsame
  rw [layout.extentOf_eq, ← htexts, Element.stepTexts, Element.stepTexts, hsteps]

end SuiteScore.Gherkin
