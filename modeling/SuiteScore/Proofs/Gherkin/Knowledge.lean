import SuiteScore.Proofs.Gherkin.Node
import SuiteScore.Proofs.Gherkin.Rules

/-! What a reader knows of the lines it has taken: all that the rules of feature files ask about the
lines before another.
-/

namespace SuiteScore.Gherkin

open Text

-----------------------------------------------------------------------------------------
-- Elements
-----------------------------------------------------------------------------------------

/-- Whether a step has a doc string. -/
def Step.isQuoting (step : Step) : Bool :=
  match step.argument with
  | some (.docString ..) => true
  | _ => false

/-- A row gives a step an argument, but no doc string. -/
theorem Step.argument_addRow (row : Row) (step : Step)
    : (step.addRow row).argument.isSome = true
      ∧ (step.addRow row).isQuoting = step.isQuoting := by
  unfold addRow isQuoting
  split <;> simp_all

/-- A growing element has what was said at its place. When a doc string is still open, the last step
counts as one that has it.
-/
structure Element.Stands (isOpen : Bool) (element : Element) (place : Place) : Prop where
  keyword : element.keyword = place.keyword
  steps : element.steps = [] ↔ place.hasStep = false
  examples : element.examples = [] ↔ place.hasExamples = false
  rows
    : ∀ last, element.examples.getLast? = some last →
        last.rows.isEmpty = !mentions Line.isBarred (since Line.isExamples place.below)
  argument
    : element.examples = [] → ∀ last, element.steps.getLast? = some last →
        (isOpen || last.argument.isSome)
          = mentions Line.isArgument (since Line.isStep place.below)
  docString
    : element.examples = [] → ∀ last, element.steps.getLast? = some last →
        (isOpen || last.isQuoting) = mentions Line.isFence (since Line.isStep place.below)

namespace Element

variable {element grown : Element} {keyword : ElementKeyword} {below : List (Option Line)}
  {isOpen : Bool}

/-- An idle line, or a line of a doc string, stands for nothing in an element. -/
theorem plain_of_idle {entry : Option Line} (he : entry.all Line.isIdle = true)
    : entry.any Line.isStep = false ∧ entry.any Line.isExamples = false
      ∧ entry.any Line.isBarred = false ∧ entry.any Line.isFence = false
      ∧ entry.any Line.isArgument = false := by
  cases entry with
  | none => simp
  | some line =>
      cases line <;> simp_all [Line.isIdle, Line.isStep, Line.isExamples, Line.isBarred,
        Line.isFence, Line.isArgument]

/-- A line that stands for nothing in an element leaves it where it was. -/
theorem Stands.skip (h : element.Stands isOpen ⟨keyword, below⟩) {entry : Option Line}
    (he : entry.all Line.isIdle = true)
    : element.Stands isOpen ⟨keyword, below ++ [entry]⟩ := by
  obtain ⟨hstep, hexamples, hrow, hfence, hargument⟩ := plain_of_idle he
  exact {
    keyword := h.keyword
    steps := by simpa [hstep] using h.steps
    examples := by simpa [hexamples] using h.examples
    rows := by simpa [hexamples, hrow] using h.rows
    argument := by simpa [hstep, hargument] using h.argument
    docString := by simpa [hstep, hfence] using h.docString
  }

/-- Examples come to stand at the end of their element. -/
theorem Stands.addExamples (h : element.Stands isOpen ⟨keyword, below⟩) {examples : Examples}
    (hr : examples.rows = []) (title : ExamplesKeyword) (name : Text)
    : Stands isOpen { element with examples := element.examples ++ [examples] }
        ⟨keyword, below ++ [some (.examples title name)]⟩ where
  keyword := h.keyword
  steps := by simpa [Line.isStep] using h.steps
  examples := by simp [Line.isExamples]
  rows := by simp [hr, Line.isExamples]
  argument := by simp
  docString := by simp

/-- A step comes to stand at the end of an element without examples. -/
theorem Stands.addStep (h : element.Stands isOpen ⟨keyword, below⟩) {step : Step}
    (he : element.examples = []) (ha : step.argument = none) (opener : StepKeyword) (text : Text)
    : Stands false { element with steps := element.steps ++ [step] }
        ⟨keyword, below ++ [some (.step opener text)]⟩ where
  keyword := h.keyword
  steps := by simp [Line.isStep]
  examples := by simpa [Line.isExamples] using h.examples
  rows := by simp [he]
  argument := by simp [ha, Line.isStep]
  docString := by simp [ha, Line.isStep, Step.isQuoting]

/-- A row comes to stand in examples or in a step without a doc string. -/
theorem Stands.addRow (h : element.Stands isOpen ⟨keyword, below⟩) {row : Row} (text : Text)
    (hg : element.addRow row = .ok grown)
    : grown.Stands isOpen ⟨keyword, below ++ [some (.row text)]⟩ := by
  rcases addRow_cases hg with ⟨front, last, hl, rfl⟩ | ⟨hnone, front, last, hl, _, rfl⟩
  · exact {
      keyword := h.keyword
      steps := by simpa [Line.isStep] using h.steps
      examples := by simpa [hl, Line.isExamples] using h.examples
      rows := by simp [Examples.addRow, Line.isExamples, Line.isBarred]
      argument := by simp
      docString := by simp
    }
  · have hdoc := h.docString hnone last (by simp [hl])
    exact {
      keyword := h.keyword
      steps := by simpa [hl, Line.isStep] using h.steps
      examples := by simpa [Line.isExamples] using h.examples
      rows := by simp [hnone]
      argument := by simp [(last.argument_addRow row).1, Line.isStep, Line.isArgument]
      docString := by
        simpa [hnone, (last.argument_addRow row).2, Line.isStep, Line.isFence] using hdoc
    }

/-- An opening delimiter makes the last step one with a doc string. -/
theorem Stands.openDocString (h : element.Stands isOpen ⟨keyword, below⟩) (fence : Fence)
    : element.Stands true ⟨keyword, below ++ [some (.fence fence)]⟩ where
  keyword := h.keyword
  steps := by simpa [Line.isStep] using h.steps
  examples := by simpa [Line.isExamples] using h.examples
  rows := by simpa [Line.isExamples, Line.isBarred] using h.rows
  argument := by simp [Line.isStep, Line.isArgument]
  docString := by simp [Line.isStep, Line.isFence]

/-- A closing delimiter gives the last step its doc string. -/
theorem Stands.attach (h : element.Stands true ⟨keyword, below⟩) (content : List Text)
    (first last : Nat)
    : (element.attach (.docString content first last)).Stands false
        ⟨keyword, below ++ [none]⟩ where
  keyword := h.keyword
  steps := by simpa [Element.attach] using h.steps
  examples := by simpa [Element.attach] using h.examples
  rows := by simpa [Element.attach] using h.rows
  argument := by
    intro he step hl
    rw [Element.attach, getLast?_amendLast] at hl
    obtain ⟨before, hb, rfl⟩ := Option.map_eq_some_iff.mp hl
    simpa using h.argument he before hb
  docString := by
    intro he step hl
    rw [Element.attach, getLast?_amendLast] at hl
    obtain ⟨before, hb, rfl⟩ := Option.map_eq_some_iff.mp hl
    simpa [Step.isQuoting] using h.docString he before hb

/-- Descriptions do not matter for the place of an element. -/
theorem Stands.describe (h : element.Stands isOpen ⟨keyword, below⟩) {text : Text}
    (hg : element.describe? text = some grown)
    : grown.Stands isOpen ⟨keyword, below⟩ := by
  rcases describe?_cases hg with ⟨_, _, rfl⟩ | ⟨front, last, hl, _, rfl⟩
  · exact { h with }
  · exact {
      keyword := h.keyword
      steps := h.steps
      examples := by simpa [hl] using h.examples
      rows := by simpa using h.rows last (by simp [hl])
      argument := by simp
      docString := by simp
    }

/-- A row is taken where the place awaits one. -/
theorem Stands.exists_addRow_iff {place : Place} (h : element.Stands false place) (row : Row)
    : (∃ grown, element.addRow row = .ok grown) ↔ place.awaitsRow = true := by
  unfold Element.addRow Place.awaitsRow
  cases hexamples : place.hasExamples with
  | true =>
      have hne : element.examples ≠ [] := by simpa [hexamples] using h.examples
      simp [hne]
  | false =>
      have hnone := h.examples.mpr hexamples
      rcases List.eq_nil_or_concat element.steps with hs | ⟨front, step, hs⟩
      · simp [hnone, hs, h.steps.mp hs]
      · have hstep : place.hasStep = true := by simpa [hs] using h.steps
        have hdoc := h.docString hnone step (by simp [hs])
        unfold Step.isQuoting at hdoc
        cases ha : step.argument with
        | none => simp_all
        | some argument => cases argument <;> simp_all

/-- A doc string is taken where the place awaits one. -/
theorem Stands.awaitsArgument_eq {place : Place} (h : element.Stands false place)
    : element.awaitsArgument = place.awaitsDocString := by
  unfold Element.awaitsArgument Place.awaitsDocString
  cases hexamples : place.hasExamples with
  | true =>
      have hne : element.examples ≠ [] := by simpa [hexamples] using h.examples
      simp [hne]
  | false =>
      have hnone := h.examples.mpr hexamples
      rcases List.eq_nil_or_concat element.steps with hs | ⟨front, step, hs⟩
      · simp [hs, h.steps.mp hs]
      · have hstep : place.hasStep = true := by simpa [hs] using h.steps
        have hargument := h.argument hnone step (by simp [hs])
        simp [hnone, hs, hstep, ← hargument]

/-- Prose is taken where the place awaits it. -/
theorem Stands.describe?_isSome {place : Place} (h : element.Stands false place) (text : Text)
    : (element.describe? text).isSome = place.awaitsProse := by
  unfold Element.describe? Place.awaitsProse
  cases hexamples : place.hasExamples with
  | true =>
      have hne : element.examples ≠ [] := by simpa [hexamples] using h.examples
      obtain ⟨front, last, hl⟩ := (List.eq_nil_or_concat element.examples).resolve_left hne
      have hrows := h.rows last (by simp [hl])
      simp only [hl, ← hrows]
      cases hr : last.rows.isEmpty <;> simp [hr]
  | false =>
      have hnone := h.examples.mpr hexamples
      cases hstep : place.hasStep with
      | true =>
          have hne : element.steps ≠ [] := by simpa [hstep] using h.steps
          simp [hnone, hne]
      | false => simp [hnone, h.steps.mpr hstep]

end Element

-----------------------------------------------------------------------------------------
-- Readers
-----------------------------------------------------------------------------------------

namespace Reader

variable {reader next : Reader} {n : Nat} {raw : Text} {said : List (Option Line)}
  {lines : List Text}

/-- A reader knows what is said before it as far as the rules ask about it. -/
structure Knows (reader : Reader) (said : List (Option Line)) : Prop where
  feature : reader.feature.isSome = mentions Line.isFeature said
  bare : reader.current = none → ∀ feature, reader.feature = some feature → feature.isBare = true
  nowhere : reader.current = none → placeOf said = none
  current
    : ∀ element, reader.current = some element →
        ∃ keyword below,
          placeOf said = some ⟨keyword, below⟩
          ∧ element.Stands reader.docString.isSome ⟨keyword, below⟩

/-- Below a line that is no heading, the place is one line further down. -/
theorem after_of_not_heading {entry : Option Line} (he : entry.any Line.isHeading = false)
    (place : Option Place)
    : Place.after place entry
      = place.map fun place => { place with below := place.below ++ [entry] } := by
  cases place <;> cases entry with
  | none => rfl
  | some line => cases line <;> first | rfl | cases he

/-- A reader knows one line more when its element grows as that line says. -/
theorem Knows.grow (hk : reader.Knows said) {entry : Option Line}
    (he : entry.any Line.isHeading = false) (hf : next.feature = reader.feature)
    (hn : next.current = none → reader.current = none)
    (hs
      : ∀ grown, next.current = some grown →
          ∃ element, reader.current = some element
            ∧ ∀ keyword below, element.Stands reader.docString.isSome ⟨keyword, below⟩ →
                grown.Stands next.docString.isSome ⟨keyword, below ++ [entry]⟩)
    : next.Knows (said ++ [entry]) := by
  have hfeature : entry.any Line.isFeature = false := by
    cases entry with
    | none => rfl
    | some line => cases line <;> first | rfl | cases he
  constructor
  · simpa [hf, hfeature] using hk.feature
  · exact fun hnone feature hsome => hk.bare (hn hnone) feature (hf ▸ hsome)
  · intro hnone
    rw [placeOf_concat, hk.nowhere (hn hnone), after_of_not_heading he]
    rfl
  · intro grown hgrown
    obtain ⟨element, hc, hstands⟩ := hs grown hgrown
    obtain ⟨keyword, below, hp, hold⟩ := hk.current element hc
    refine ⟨keyword, below ++ [entry], ?_, hstands keyword below hold⟩
    rw [placeOf_concat, hp, after_of_not_heading he]
    rfl

/-- A reader knows one line more after an accepted line, by the cases of the line. -/
theorem Takes.knows (h : reader.Takes n raw next) (hk : reader.Knows said)
    (ho : reader.current.isSome → reader.feature.isSome)
    : next.Knows (said ++ [reading reader.openFence raw]) := by
  cases h with
  | content hd hr =>
      simp only [openFence, hd, Option.map_some, reading]
      refine hk.grow rfl rfl id fun grown hc => ⟨grown, hc, fun keyword below hs => ?_⟩
      rw [hd] at hs
      exact hs.skip rfl
  | @close opened hd hr =>
      simp only [openFence, hd, Option.map_some, reading]
      refine hk.grow rfl rfl (by simp [closeDocString]) fun grown hc => ?_
      obtain ⟨element, he, rfl⟩ := Option.map_eq_some_iff.mp hc
      refine ⟨element, he, fun keyword below hs => ?_⟩
      rw [hd] at hs
      exact hs.attach opened.content opened.line n
  | blank hd hl | comment hd hl | tags hd hl =>
      rw [reading_of_outside hd, hl]
      exact hk.grow rfl rfl id fun grown hc => ⟨grown, hc, fun keyword below hs => hs.skip rfl⟩
  | feature hd hl hf =>
      have hcurrent : reader.current = none := by
        cases hc : reader.current with
        | none => rfl
        | some element =>
            have hsome := ho (by rw [hc]; rfl)
            rw [hf] at hsome
            cases hsome
      rw [reading_of_outside hd, hl]
      constructor
      · simp [Line.isFeature]
      · rintro _ feature hsome
        cases hsome
        rfl
      · intro _
        rw [placeOf_concat, hk.nowhere hcurrent]
        rfl
      · intro element hc
        rw [hcurrent] at hc
        cases hc
  | @element keyword name feature hd hl hf hb =>
      have hopen : reader.feature.isSome = true := by
        rw [← closeElement_feature_isSome, hf]
        rfl
      rw [reading_of_outside hd, hl]
      constructor
      · simp [hopen, ← hk.feature]
      · intro hnone
        cases hnone
      · intro hnone
        cases hnone
      · intro element hc
        cases hc
        refine ⟨keyword, [], by rw [placeOf_concat]; rfl, ?_⟩
        rw [closeElement_docString, hd]
        constructor <;> simp
  | @examples keyword name element hd hl hc hk' =>
      rw [reading_of_outside hd, hl]
      refine hk.grow rfl rfl (fun hnone => by cases hnone) fun grown hg =>
        ⟨element, hc, fun _ below hs => ?_⟩
      cases hg
      exact hs.addExamples rfl keyword name
  | @step keyword text element hd hl ht hc he =>
      rw [reading_of_outside hd, hl]
      refine hk.grow rfl rfl (fun hnone => by cases hnone) fun grown hg =>
        ⟨element, hc, fun _ below hs => ?_⟩
      cases hg
      rw [hd]
      exact hs.addStep he rfl keyword text
  | @row text element grown hd hl hr hc hg =>
      rw [reading_of_outside hd, hl]
      refine hk.grow rfl rfl (fun hnone => by cases hnone) fun _ hn =>
        ⟨element, hc, fun _ below hs => ?_⟩
      cases hn
      exact hs.addRow text hg
  | @fence fence element hd hl hc ha =>
      rw [reading_of_outside hd, hl]
      refine hk.grow rfl rfl id fun grown hn => ⟨grown, hn, fun _ below hs => ?_⟩
      exact hs.openDocString fence
  | @elementProse text element described hd hl ht hc hg =>
      rw [reading_of_outside hd, hl]
      refine hk.grow rfl rfl (fun hnone => by cases hnone) fun grown hn =>
        ⟨element, hc, fun _ below hs => ?_⟩
      cases hn
      exact (hs.describe hg).skip rfl
  | @featureProse text feature hd hl ht hc hf hb =>
      rw [reading_of_outside hd, hl]
      have hopen := hk.feature
      rw [hf] at hopen
      constructor
      · simp [← hopen]
      · rintro _ described hsome
        cases hsome
        exact hb
      · intro _
        rw [placeOf_concat, hk.nowhere hc]
        rfl
      · intro element hsome
        rw [hc] at hsome
        cases hsome

/-- After accepted lines a reader knows what they say, by the run lemma. -/
theorem knows_of_takeAll (h : start.takeAll 1 lines = .ok reader)
    : reader.Knows (readings none lines) := by
  refine takeAll_keeps (fun done middle => middle.Knows (readings none done))
    (by constructor <;> simp [start, readings, placeOf]) ?_ h
  intro done middle raw after hd hm ht
  rw [readings_append, ← openFence_of_takeAll_outside hd rfl]
  exact (takes_of_takeRaw ht).knows hm (feature_isSome_of_current hd)

end Reader

end SuiteScore.Gherkin
