import SuiteScore.Gherkin.Reader

/-! What a reader does with one line, one case for each kind of line it accepts, and what follows
for runs over many lines.
-/

namespace SuiteScore.Gherkin

open Text

namespace Reader

variable {reader next : Reader} {n : Nat} {raw : Text}

-----------------------------------------------------------------------------------------
-- One line
-----------------------------------------------------------------------------------------

@[simp] theorem closeElement_current : reader.closeElement.current = none := by
  unfold closeElement
  split <;> rfl

@[simp] theorem closeElement_docString : reader.closeElement.docString = reader.docString := by
  unfold closeElement
  split <;> rfl

@[simp] theorem closeElement_feature_isSome
    : reader.closeElement.feature.isSome = reader.feature.isSome := by
  unfold closeElement
  split
  · next hf _ => rw [hf]; rfl
  · rfl

/-- The ways to accept a line with a number, each with its guard and the reader after it. -/
inductive Takes (reader : Reader) (n : Nat) (raw : Text) : Reader → Prop
  | content {opened} (hd : reader.docString = some opened) (hr : trim raw ≠ opened.fence.text)
    : Takes reader n raw
        { reader with
          docString := some { opened with content := opened.content ++ [raw] } }
  | close {opened} (hd : reader.docString = some opened) (hr : trim raw = opened.fence.text)
    : Takes reader n raw (reader.closeDocString opened n)
  | blank (hd : reader.docString = none) (hl : Line.of raw = .blank) : Takes reader n raw reader
  | comment {text} (hd : reader.docString = none) (hl : Line.of raw = .comment text)
    : Takes reader n raw { reader with comments := reader.comments ++ [⟨text, n⟩] }
  | tags {tokens} (hd : reader.docString = none) (hl : Line.of raw = .tags tokens)
    (ht : ∀ token ∈ tokens, isTag token = true)
    : Takes reader n raw
        { reader with tags := reader.tags ++ tokens.map (fun name => ⟨name, n⟩) }
  | feature {name} (hd : reader.docString = none) (hl : Line.of raw = .feature name)
    (hf : reader.feature = none)
    : Takes reader n raw
        { reader with
          feature := some {
            name
            description := []
            tags := reader.tags
            comments := reader.comments
            line := n
            background := none
            elements := [] }
          tags := []
          comments := [] }
  | element {keyword name feature} (hd : reader.docString = none)
    (hl : Line.of raw = .element keyword name)
    (hf : reader.closeElement.feature = some feature)
    (hb : keyword.kind = .background → feature.isBare = true)
    : Takes reader n raw
        { reader.closeElement with
          current := some {
            keyword
            name
            description := []
            tags := reader.tags
            comments := reader.comments
            line := n
            steps := []
            examples := [] }
          tags := []
          comments := [] }
  | examples {keyword name element} (hd : reader.docString = none)
    (hl : Line.of raw = .examples keyword name) (hc : reader.current = some element)
    (hk : element.kind = .outline)
    : Takes reader n raw
        { reader with
          current := some { element with
            examples := element.examples ++ [{
              keyword
              name
              description := []
              tags := reader.tags
              comments := reader.comments
              line := n
              rows := [] }] }
          tags := []
          comments := [] }
  | step {keyword text element} (hd : reader.docString = none)
    (hl : Line.of raw = .step keyword text) (ht : reader.tags = [])
    (hc : reader.current = some element) (he : element.examples = [])
    : Takes reader n raw
        { reader with
          current := some { element with
            steps := element.steps
              ++ [{ keyword, text, line := n, comments := reader.comments, argument := none }] }
          comments := [] }
  | row {text element grown} (hd : reader.docString = none) (hl : Line.of raw = .row text)
    (hr : isRow text = true) (hc : reader.current = some element)
    (hg : element.addRow { cells := cells text, line := n, comments := reader.comments }
      = .ok grown)
    : Takes reader n raw { reader with current := some grown, comments := [] }
  | fence {fence element} (hd : reader.docString = none) (hl : Line.of raw = .fence fence)
    (hc : reader.current = some element) (ha : element.awaitsArgument = true)
    : Takes reader n raw { reader with docString := some { fence, line := n, content := [] } }
  | elementProse {text element described} (hd : reader.docString = none)
    (hl : Line.of raw = .prose text) (ht : reader.tags = [])
    (hc : reader.current = some element) (hg : element.describe? text = some described)
    : Takes reader n raw { reader with current := some described }
  | featureProse {text feature} (hd : reader.docString = none) (hl : Line.of raw = .prose text)
    (ht : reader.tags = []) (hc : reader.current = none) (hf : reader.feature = some feature)
    (hb : feature.isBare = true)
    : Takes reader n raw
        { reader with
          feature := some { feature with description := feature.description ++ [text] } }

section Outside

variable (hd : reader.docString = none)
include hd

theorem takes_of_openElement {keyword : ElementKeyword} {name : Text}
    (hl : Line.of raw = .element keyword name) (h : reader.openElement n keyword name = .ok next)
    : reader.Takes n raw next := by
  simp only [openElement] at h
  split at h
  · cases h
  · next feature hf =>
      split at h
      · cases h
      · next hb =>
          cases h
          exact .element hd hl hf (by simpa using hb)

theorem takes_of_openExamples {keyword : ExamplesKeyword} {name : Text}
    (hl : Line.of raw = .examples keyword name) (h : reader.openExamples n keyword name = .ok next)
    : reader.Takes n raw next := by
  simp only [openExamples] at h
  split at h
  · next element hc =>
      split at h
      · next hk =>
          cases h
          exact .examples hd hl hc hk
      · cases h
  · cases h

theorem takes_of_addStep {keyword : StepKeyword} {text : Text}
    (hl : Line.of raw = .step keyword text) (h : reader.addStep n keyword text = .ok next)
    : reader.Takes n raw next := by
  simp only [addStep] at h
  split at h
  · cases h
  · next ht =>
      split at h
      · cases h
      · next element hc =>
          split at h
          · next he =>
              cases h
              exact .step hd hl (by simpa using ht) hc (by simpa using he)
          · cases h

theorem takes_of_addRow {text : Text} (hl : Line.of raw = .row text)
    (h : reader.addRow n text = .ok next)
    : reader.Takes n raw next := by
  simp only [addRow] at h
  split at h
  · cases h
  · next hr =>
      split at h
      · cases h
      · next element hc =>
          split at h
          · cases h
          · next grown hg =>
              cases h
              exact .row hd hl (by simpa using hr) hc hg

theorem takes_of_addProse {text : Text} (hl : Line.of raw = .prose text)
    (h : reader.addProse n text = .ok next)
    : reader.Takes n raw next := by
  simp only [addProse] at h
  split at h
  · cases h
  · next ht =>
      split at h
      · next element _ hc =>
          split at h
          · next described hg =>
              cases h
              exact .elementProse hd hl (by simpa using ht) hc hg
          · cases h
      · next feature hc hf =>
          split at h
          · next hb =>
              cases h
              exact .featureProse hd hl (by simpa using ht) hc hf hb
          · cases h
      · cases h

/-- A line that is accepted outside doc strings is accepted in one of these ways, by the cases of
what it says.
-/
theorem takes_of_take (h : reader.take n (Line.of raw) = .ok next) : reader.Takes n raw next := by
  cases hl : Line.of raw with
  | blank => rw [hl] at h; cases h; exact .blank hd hl
  | comment text => rw [hl] at h; cases h; exact .comment hd hl
  | tags tokens =>
      simp only [hl, take, addTags] at h
      split at h
      · cases h
      · next hf =>
          cases h
          exact .tags hd hl (by simpa using hf)
  | feature name =>
      simp only [hl, take, openFeature] at h
      split at h
      · cases h
      · next hf =>
          cases h
          exact .feature hd hl hf
  | element keyword name => exact takes_of_openElement hd hl (by simpa only [hl, take] using h)
  | examples keyword name => exact takes_of_openExamples hd hl (by simpa only [hl, take] using h)
  | step keyword text => exact takes_of_addStep hd hl (by simpa only [hl, take] using h)
  | row text => exact takes_of_addRow hd hl (by simpa only [hl, take] using h)
  | fence fence =>
      simp only [hl, take, openDocString] at h
      split at h
      · next ha =>
          obtain ⟨element, hc, ha⟩ := (Option.any_eq_true _ _).mp ha
          cases h
          exact .fence hd hl hc ha
      · cases h
  | prose text => exact takes_of_addProse hd hl (by simpa only [hl, take] using h)

end Outside

/-- A line that is accepted is accepted in one of these ways, inside and outside doc strings. -/
theorem takes_of_takeRaw (h : reader.takeRaw n raw = .ok next) : reader.Takes n raw next := by
  unfold takeRaw at h
  split at h
  · next opened hd =>
      split at h
      · next hr =>
          cases h
          exact .close hd hr
      · next hr =>
          cases h
          exact .content hd hr
  · next hd => exact takes_of_take hd h

-----------------------------------------------------------------------------------------
-- Many lines
-----------------------------------------------------------------------------------------

/-- Lines are taken one part after the other, by induction on the first part. -/
theorem takeAll_append (front back : List Text)
    : reader.takeAll n (front ++ back)
      = (reader.takeAll n front).bind fun middle => middle.takeAll (n + front.length) back := by
  induction front generalizing reader n with
  | nil => rfl
  | cons raw rest ih =>
      simp only [List.cons_append, takeAll, List.length_cons]
      cases reader.takeRaw n raw with
      | error _ => rfl
      | ok next => simp only [ih, Nat.add_assoc, Nat.add_comm 1]

/-- An accepted list of lines has accepted parts. -/
theorem exists_of_takeAll_append {front back : List Text}
    (h : reader.takeAll n (front ++ back) = .ok next)
    : ∃ middle, reader.takeAll n front = .ok middle
        ∧ middle.takeAll (n + front.length) back = .ok next := by
  rw [takeAll_append] at h
  cases hf : reader.takeAll n front with
  | error _ => rw [hf] at h; cases h
  | ok middle => exact ⟨middle, rfl, by simpa only [hf, Except.bind] using h⟩

/-- Accepted parts make an accepted list. -/
theorem takeAll_append_of {middle : Reader} {front back : List Text}
    (hf : reader.takeAll n front = .ok middle)
    (hb : middle.takeAll (n + front.length) back = .ok next)
    : reader.takeAll n (front ++ back) = .ok next := by
  rw [takeAll_append, hf]
  exact hb

/-- An accepted list of lines has an accepted first line. -/
theorem exists_of_takeAll_cons {rest : List Text}
    (h : reader.takeAll n (raw :: rest) = .ok next)
    : ∃ middle, reader.takeRaw n raw = .ok middle
        ∧ middle.takeAll (n + 1) rest = .ok next := by
  unfold takeAll at h
  cases hr : reader.takeRaw n raw with
  | error _ => rw [hr] at h; cases h
  | ok middle => exact ⟨middle, rfl, by simpa only [hr] using h⟩

/-- An accepted first line leaves the reader to the other lines. -/
theorem takeAll_cons_of {middle : Reader} {rest : List Text}
    (h : reader.takeRaw n raw = .ok middle)
    : reader.takeAll n (raw :: rest) = middle.takeAll (n + 1) rest := by
  simp only [takeAll, h]

/-- What holds at first and is kept by every accepted line holds after all lines, by induction on
the lines that are still to come.
-/
theorem takeAll_keeps (holds : List Text → Reader → Prop) {lines : List Text}
    (initial : holds [] reader)
    (keeps
      : ∀ {done middle raw after},
          reader.takeAll n done = .ok middle
          → holds done middle
          → middle.takeRaw (n + done.length) raw = .ok after
          → holds (done ++ [raw]) after)
    (h : reader.takeAll n lines = .ok next)
    : holds lines next := by
  have later : ∀ (todo done : List Text) {middle},
      reader.takeAll n done = .ok middle
      → holds done middle
      → middle.takeAll (n + done.length) todo = .ok next
      → holds (done ++ todo) next := by
    intro todo
    induction todo with
    | nil =>
        intro done middle _ hm ht
        cases ht
        simpa using hm
    | cons raw rest ih =>
        intro done middle hd hm ht
        obtain ⟨after, hr, ha⟩ := exists_of_takeAll_cons ht
        have hone : middle.takeAll (n + done.length) [raw] = .ok after := by
          simp only [takeAll, hr]
        have hall := ih _ (takeAll_append_of hd hone) (keeps hd hm hr)
          (by simpa only [List.length_append, List.length_singleton, Nat.add_assoc] using ha)
        simpa using hall
  exact later lines [] rfl initial h

end Reader

end SuiteScore.Gherkin
