import SuiteScore.Proofs.Gherkin.Lead
import SuiteScore.Proofs.Gherkin.Line

/-! The extent of an element: the lines below its keyword line up to the last line of its span. With
a step or examples the element is complete there; a mere description can go on below.
-/

namespace SuiteScore.Gherkin

open Text

/-- The text of a line of prose. -/
def Line.prose? : Option Line → Option Text
  | some (.prose text) => some text
  | _ => none

/-- The prose among what lines say. -/
def proseOf (said : List (Option Line)) : List Text :=
  said.filterMap Line.prose?

theorem proseOf_append (front back : List (Option Line))
    : proseOf (front ++ back) = proseOf front ++ proseOf back :=
  List.filterMap_append

/-- Whether tags wait after the lines. -/
def tagsWait (said : List (Option Line)) : Bool :=
  said.foldl
    (fun waits line =>
      match line with
      | some (.tags _) => true
      | some (.feature _) => false
      | some (.element ..) => false
      | some (.examples ..) => false
      | _ => waits)
    false

namespace Reader

variable {reader next : Reader} {n : Nat} {raw : Text}

-----------------------------------------------------------------------------------------
-- Tags and doc strings
-----------------------------------------------------------------------------------------

/-- Tags wait in a reader when they do after the lines it has taken, by the run lemma. -/
theorem tags_isEmpty_of_takeAll {lines : List Text} (hr : reader.tags = [])
    (h : reader.takeAll n lines = .ok next)
    : next.tags.isEmpty = !tagsWait (readings reader.openFence lines) := by
  refine takeAll_keeps
    (fun done middle =>
      middle.tags.isEmpty = !tagsWait (readings reader.openFence done))
    (by simp [hr, readings, tagsWait]) ?_ h
  intro done middle raw after hd hm ht
  rw [readings_append, ← openFence_of_takeAll hd, tagsWait, List.foldl_append]
  change after.tags.isEmpty = !List.foldl _ (tagsWait (readings reader.openFence done)) _
  simp only [readings, List.foldl_cons, List.foldl_nil]
  cases takes_of_takeRaw ht with
  | content hd => simpa only [openFence, hd, Option.map_some, reading] using hm
  | close hd => simpa only [openFence, hd, Option.map_some, reading, closeDocString] using hm
  | blank hd hl | comment hd hl | step hd hl | row hd hl | fence hd hl | elementProse hd hl
  | featureProse hd hl => simpa only [reading_of_outside hd, hl] using hm
  | tags hd hl =>
      have hne := Line.tokens_ne_nil hl
      simp [reading_of_outside hd, hl, hne]
  | feature hd hl | element hd hl | examples hd hl => simp [reading_of_outside hd, hl]

/-- A doc string is only open below a step that waits for an argument, by the run lemma. -/
theorem awaitsArgument_of_docString {lines : List Text} {opened : OpenDocString}
    (h : start.takeAll 1 lines = .ok reader) (hd : reader.docString = some opened)
    : ∃ element, reader.current = some element ∧ element.awaitsArgument = true := by
  refine takeAll_keeps
    (fun _ middle => middle.docString.isSome →
      ∃ element, middle.current = some element ∧ element.awaitsArgument = true)
    (by simp [start]) ?_ h (by rw [hd]; rfl)
  intro done middle raw after _ hm ht hin
  cases takes_of_takeRaw ht with
  | content hd' => exact hm (by rw [hd']; rfl)
  | close => cases hin
  | fence hd' hl hc ha => exact ⟨_, hc, ha⟩
  | blank hd' | comment hd' | tags hd' | feature hd' | element hd' | examples hd' | step hd'
  | row hd' | elementProse hd' | featureProse hd' => simp [hd'] at hin

-----------------------------------------------------------------------------------------
-- Descriptions
-----------------------------------------------------------------------------------------

/-- An element with nothing but a description has grown by idle lines only: every other line would
have given it a step or examples, or opened a doc string below a step.
-/
theorem Takes.stepless {element : Element} (h : reader.Takes n raw next)
    (hc : next.current = some element) (hs : element.isStepless = true) (hn : element.line ≠ n)
    (hf : reader.current.isSome → reader.feature.isSome)
    : (∃ before, reader.current = some before ∧ before.isStepless = true
          ∧ before.line = element.line)
      ∧ ∀ line, reading reader.openFence raw = some line → line.isIdle = true := by
  cases h with
  | content hd hr => exact ⟨⟨element, hc, hs, rfl⟩, by simp [openFence, hd, reading]⟩
  | close hd hr =>
      obtain ⟨before, hb, rfl⟩ := Option.map_eq_some_iff.mp hc
      exact ⟨⟨before, hb, by simpa [Element.isStepless, Element.attach] using hs, rfl⟩,
        by simp [openFence, hd, reading]⟩
  | blank hd hl | comment hd hl | tags hd hl =>
      refine ⟨⟨element, hc, hs, rfl⟩, fun line hline => ?_⟩
      rw [reading_of_outside hd, hl] at hline
      cases hline
      rfl
  | feature hd hl hnone =>
      have hsome := hf (by rw [hc]; rfl)
      rw [hnone] at hsome
      cases hsome
  | element hd hl hclosed hb =>
      cases hc
      exact absurd rfl hn
  | examples hd hl hcurrent hk =>
      cases hc
      simp [Element.isStepless] at hs
  | step hd hl ht hcurrent he =>
      cases hc
      simp [Element.isStepless] at hs
  | row hd hl hr hcurrent hg =>
      cases hc
      rw [(Element.lastOf_addRow hg).2] at hs
      cases hs
  | fence hd hl hcurrent ha =>
      rw [hcurrent] at hc
      cases hc
      simp only [Element.awaitsArgument, Bool.and_eq_true] at ha
      simp only [Element.isStepless, Bool.and_eq_true, List.isEmpty_iff] at hs
      simp [hs.1] at ha
  | @elementProse text before described hd hl ht hcurrent hg =>
      cases hc
      have hbefore : before.isStepless = true := by
        rcases Element.settled_of_describe? hg with ⟨hb, _⟩ | hsame
        · exact hb
        · rw [← Element.isStepless_settled, ← hsame, Element.isStepless_settled]
          exact hs
      refine ⟨⟨before, hcurrent, hbefore, ?_⟩, fun line hline => ?_⟩
      · exact (congrArg Element.line (Element.head_of_describe? hg)).symm
      · rw [reading_of_outside hd, hl] at hline
        cases hline
        rfl
  | featureProse hd hl ht hcurrent hfeature hb =>
      rw [hcurrent] at hc
      cases hc

/-- A section whose element has nothing but a description holds idle lines only, by the run lemma.
-/
theorem IsSection.idle {before heading body opener opened grown} {element : Element}
    (h : IsSection before heading body opener opened grown element)
    (hs : element.isStepless = true)
    : ∀ line, some line ∈ readings none body → line.isIdle = true := by
  refine (takeAll_keeps
    (fun done middle =>
      (∃ last, middle.current = some last ∧ last.isStepless = true
        ∧ last.line = before.length + 1)
      → ∀ line, some line ∈ readings none done → line.isIdle = true)
    (by simp [readings]) ?_ h.takes) ⟨element, h.grows, hs, h.line⟩
  intro done middle raw after hd hm ht hlast line hin
  obtain ⟨last, hc, hlast, hline⟩ := hlast
  obtain ⟨hback, hidle⟩ := (takes_of_takeRaw ht).stepless hc hlast (by omega)
    (feature_isSome_of_current (h.reaches hd))
  rw [readings_append, List.mem_append] at hin
  rcases hin with hin | hin
  · obtain ⟨old, hold, hstepless, hl⟩ := hback
    exact hm ⟨old, hold, hstepless, hl.trans hline⟩ line hin
  · rw [← openFence_of_takeAll_outside hd h.bare.2.2] at hin
    exact hidle line (List.mem_singleton.mp hin).symm

/-- Idle lines add their prose to the description of an element without steps, by the run lemma. -/
theorem takeAll_idle {lines : List Text} {element : Element}
    (h : reader.takeAll n lines = .ok next) (hd : reader.docString = none)
    (hc : reader.current = some element) (hs : element.isStepless = true)
    (hi : ∀ line, some line ∈ readings none lines → line.isIdle = true)
    : next.docString = none
      ∧ next.current = some { element with
          description := element.description ++ proseOf (readings none lines) } := by
  refine (takeAll_keeps
    (fun done middle =>
      (∀ line, some line ∈ readings none done → line.isIdle = true)
      → middle.docString = none
        ∧ middle.current = some { element with
            description := element.description ++ proseOf (readings none done) })
    (fun _ => ⟨hd, by simp [hc, readings, proseOf]⟩) ?_ h) hi
  intro done middle raw after hrun hm ht hidle
  have hfence := openFence_of_takeAll_outside hrun hd
  rw [readings_append, ← hfence] at hidle
  obtain ⟨hout, hcurrent⟩ := hm fun line hin => hidle line (List.mem_append_left _ hin)
  have hreads : reading middle.openFence raw = some (Line.of raw) := reading_of_outside hout
  have hline : (Line.of raw).isIdle = true :=
    hidle _ (List.mem_append_right _ (by simp [readings, hreads]))
  rw [readings_append, ← hfence]
  simp only [readings, hreads, proseOf_append]
  cases takes_of_takeRaw ht with
  | content hin | close hin => rw [hout] at hin; cases hin
  | blank _ hl | comment _ hl | tags _ hl =>
      rw [hl]
      exact ⟨hout, by simpa [proseOf, Line.prose?, List.filterMap_cons] using hcurrent⟩
  | feature _ hl | element _ hl | examples _ hl | step _ hl | row _ hl | fence _ hl =>
      rw [hl] at hline
      cases hline
  | elementProse _ hl _ hgrowing hg =>
      rw [hcurrent] at hgrowing
      cases hgrowing
      rw [hl]
      refine ⟨hout, ?_⟩
      have hempty := hs
      simp only [Element.isStepless] at hempty
      simp only [Element.describe?, hempty, if_true, Option.some.injEq] at hg
      subst hg
      simp [Line.prose?, proseOf]
  | featureProse _ hl _ hnone =>
      rw [hcurrent] at hnone
      cases hnone

-----------------------------------------------------------------------------------------
-- Steps and examples
-----------------------------------------------------------------------------------------

/-- A line after which an element has steps or examples is its last line, or the element was the
same before, apart from the descriptions of examples.
-/
theorem Takes.lastOf {element : Element} (h : reader.Takes n raw next)
    (hc : next.current = some element) (hs : element.isStepless = false)
    (ha : reader.docString.isSome →
      ∃ element, reader.current = some element ∧ element.awaitsArgument = true)
    : next.docString = none ∧ Span.lastOf element = n
      ∨ ∃ before, reader.current = some before ∧ before.isStepless = false
          ∧ before.settled = element.settled := by
  cases h with
  | content | blank | comment | tags | feature | fence =>
      exact Or.inr ⟨element, hc, hs, rfl⟩
  | close hd hr =>
      obtain ⟨before, hb, rfl⟩ := Option.map_eq_some_iff.mp hc
      obtain ⟨waiting, hw, hawaits⟩ := ha (by rw [hd]; rfl)
      rw [hb] at hw
      cases hw
      exact Or.inl ⟨rfl, (Element.lastOf_attach _ _ _ hawaits).1⟩
  | element hd hl hclosed hb =>
      cases hc
      cases hs
  | examples hd hl hcurrent hk =>
      cases hc
      exact Or.inl ⟨hd, Element.lastOf_addExamples _ _ rfl⟩
  | step hd hl ht hcurrent he =>
      cases hc
      exact Or.inl ⟨hd, Element.lastOf_addStep _ _ he rfl⟩
  | row hd hl hr hcurrent hg =>
      cases hc
      exact Or.inl ⟨hd, (Element.lastOf_addRow hg).1⟩
  | @elementProse text before described hd hl ht hcurrent hg =>
      cases hc
      rcases Element.settled_of_describe? hg with ⟨hb, rfl⟩ | hsame
      · simp only [Element.isStepless] at hb hs
        rw [hb] at hs
        cases hs
      · refine Or.inr ⟨before, hcurrent, ?_, hsame.symm⟩
        rw [← Element.isStepless_settled, ← hsame, Element.isStepless_settled]
        exact hs
  | featureProse hd hl ht hcurrent =>
      rw [hcurrent] at hc
      cases hc

-----------------------------------------------------------------------------------------
-- Extents
-----------------------------------------------------------------------------------------

/-- The lines `kept` from the one with number `n` on go up to the last line of the element, where
`ended` stands. There the element is `last`, whose description can still be shorter.
-/
structure IsExtent (n : Nat) (kept : List Text) (opened ended : Reader) (element last : Element)
    : Prop where
  length : n + kept.length = Span.lastOf element + 1
  takes : opened.takeAll n kept = .ok ended
  outside : ended.docString = none
  grows : ended.current = some last
  same : last.settled = { element with description := last.description }.settled
  described : last.description <+: element.description
  complete : element.isStepless = false → last.description = element.description
  prose : element.isStepless = true → last.description = proseOf (readings none kept)

variable {before body : List Text} {heading : Text} {opener opened grown : Reader}
  {element : Element}

/-- The description of an element with nothing else is the prose of its section. -/
theorem IsSection.description_of_stepless
    (h : IsSection before heading body opener opened grown element)
    (hs : element.isStepless = true)
    : element.description = proseOf (readings none body) := by
  have hc := (takeAll_idle h.takes h.bare.2.2 h.begun rfl (h.idle hs)).2
  rw [h.grows] at hc
  exact congrArg Element.description (Option.some.inj hc)

/-- The extent of an element with nothing but a description has as many lines as the description. -/
theorem IsSection.exists_extent_of_stepless
    (h : IsSection before heading body opener opened grown element)
    (hs : element.isStepless = true)
    : ∃ kept cutoff ended last, body = kept ++ cutoff
        ∧ IsExtent (before.length + 2) kept opened ended element last := by
  have hidle := h.idle hs
  have hhead : element.head.isStepless = true := rfl
  have hwhole := h.description_of_stepless hs
  have hlength : element.description.length ≤ body.length := by
    rw [hwhole, ← length_readings none body]
    exact List.length_filterMap_le ..
  obtain ⟨kept, cutoff, rfl, hkept⟩ : ∃ kept cutoff, body = kept ++ cutoff
      ∧ kept.length = element.description.length :=
    ⟨body.take element.description.length, body.drop element.description.length,
      (List.take_append_drop ..).symm, by rw [List.length_take]; omega⟩
  obtain ⟨ended, htakes, _⟩ := exists_of_takeAll_append h.takes
  have hkeptIdle : ∀ line, some line ∈ readings none kept → line.isIdle = true := by
    intro line hin
    exact hidle line (by rw [readings_append]; exact List.mem_append_left _ hin)
  obtain ⟨hout, hc⟩ := takeAll_idle htakes h.bare.2.2 h.begun hhead hkeptIdle
  have hempty : element.steps = [] ∧ element.examples = [] := by
    simpa [Element.isStepless] using hs
  refine ⟨kept, cutoff, ended, _, rfl, {
    length := ?_
    takes := htakes
    outside := hout
    grows := hc
    same := ?_
    described := ?_
    complete := ?_
    prose := ?_
  }⟩
  · simp only [Span.lastOf, hempty, List.getLast?_nil, h.line, hkept]
    omega
  · simp [Element.head, Element.settled, hempty]
  · rw [hwhole, readings_append, proseOf_append]
    exact List.prefix_append ..
  · intro hn
    rw [hs] at hn
    cases hn
  · exact fun _ => rfl

/-- The lines `kept` make the element what it is, apart from the descriptions of examples, and the
last of them is its last line.
-/
structure Settles (n : Nat) (kept : List Text) (opened ended : Reader) (element last : Element)
    : Prop where
  length : n + kept.length = Span.lastOf element + 1
  takes : opened.takeAll n kept = .ok ended
  outside : ended.docString = none
  grows : ended.current = some last
  same : last.settled = element.settled

/-- An element with steps or examples is settled by some of the lines of its section, by the run
lemma: a line settles it, or it was settled before.
-/
theorem IsSection.exists_settles
    (h : IsSection before heading body opener opened grown element)
    (hs : element.isStepless = false)
    : ∃ kept cutoff ended last, body = kept ++ cutoff
        ∧ Settles (before.length + 2) kept opened ended element last := by
  refine takeAll_keeps
    (fun done middle => ∀ element, middle.current = some element
      → element.isStepless = false
      → ∃ kept cutoff ended last, done = kept ++ cutoff
          ∧ Settles (before.length + 2) kept opened ended element last)
    ?_ ?_ h.takes element h.grows hs
  · intro element hc hs
    rw [h.begun] at hc
    cases hc
    cases hs
  · intro done middle raw after hd hm ht element hc hs
    have hawaits : middle.docString.isSome →
        ∃ element, middle.current = some element ∧ element.awaitsArgument = true := by
      intro hin
      obtain ⟨found, hf⟩ := Option.isSome_iff_exists.mp hin
      exact awaitsArgument_of_docString (h.reaches hd) hf
    rcases (takes_of_takeRaw ht).lastOf hc hs hawaits with ⟨hout, hl⟩ | ⟨old, ho, hos, hsame⟩
    · refine ⟨done ++ [raw], [], after, element, by simp, ?_, ?_, hout, hc, rfl⟩
      · rw [hl, List.length_append, List.length_singleton]
        omega
      · exact takeAll_append_of hd (by simp only [takeAll, ht])
    · obtain ⟨kept, cutoff, ended, last, rfl, hl, htakes, hout, hgrows, hsettled⟩ := hm old ho hos
      refine ⟨kept, cutoff ++ [raw], ended, last, by simp, ?_, htakes, hout, hgrows,
        hsettled.trans hsame⟩
      rw [hl, ← Element.lastOf_settled, hsame, Element.lastOf_settled]

/-- The extent of an element with steps or examples goes up to the line that settles it. -/
theorem IsSection.exists_extent_of_not_stepless
    (h : IsSection before heading body opener opened grown element)
    (hs : element.isStepless = false)
    : ∃ kept cutoff ended last, body = kept ++ cutoff
        ∧ IsExtent (before.length + 2) kept opened ended element last := by
  obtain ⟨kept, cutoff, ended, last, hbody, hsettles⟩ := h.exists_settles hs
  have hdescription : last.description = element.description := by
    have hsame := congrArg Element.description hsettles.same
    exact hsame
  refine ⟨kept, cutoff, ended, last, hbody, {
    length := hsettles.length
    takes := hsettles.takes
    outside := hsettles.outside
    grows := hsettles.grows
    same := by rw [hsettles.same, hdescription]
    described := hdescription ▸ List.prefix_refl _
    complete := fun _ => hdescription
    prose := ?_
  }⟩
  intro hn
  rw [hs] at hn
  cases hn

/-- Every section holds the extent of its element. -/
theorem IsSection.exists_extent
    (h : IsSection before heading body opener opened grown element)
    : ∃ kept cutoff ended last, body = kept ++ cutoff
        ∧ IsExtent (before.length + 2) kept opened ended element last := by
  cases hs : element.isStepless with
  | true => exact h.exists_extent_of_stepless hs
  | false => exact h.exists_extent_of_not_stepless hs

end Reader

end SuiteScore.Gherkin
