import SuiteScore.Proofs.Gherkin.Layout

/-! How far an element reaches in its section. A row or a doc string carries the last line of the
element with it, idle lines leave it where it is, and a mere description reaches as many lines down
as it has.
-/

namespace SuiteScore.Gherkin

open Text

/-- An idle line is no row and opens no doc string. -/
theorem Line.isArgument_of_isIdle {line : Line} (h : line.isIdle = true)
    : line.isArgument = false := by
  cases line <;> first | rfl | cases h

namespace Reader

variable {reader next : Reader} {n : Nat}

-----------------------------------------------------------------------------------------
-- Sections up to a line
-----------------------------------------------------------------------------------------

/-- Lines without a heading keep the head of the element that grows, by the run lemma. -/
theorem head_of_takeAll {lines : List Text} (h : reader.takeAll n lines = .ok next)
    (hl : ∀ line, some line ∈ readings reader.openFence lines → line.isHeading = false)
    : next.current.map Element.head = reader.current.map Element.head := by
  refine (takeAll_keeps
    (fun done middle =>
      (∀ line, some line ∈ readings reader.openFence done → line.isHeading = false)
      → middle.current.map Element.head = reader.current.map Element.head)
    (fun _ => rfl) ?_ h) hl
  intro done middle raw after hd hm ht hplain
  rw [readings_append, ← openFence_of_takeAll hd] at hplain
  rw [← hm fun line hin => hplain line (List.mem_append_left _ hin)]
  refine (takes_of_takeRaw ht).head_eq fun line hline => hplain line ?_
  exact List.mem_append_right _ (by simp [readings, hline])

variable {before front back body : List Text} {heading : Text}
  {opener opened middle grown : Reader} {element part : Element}

/-- The first lines of a section are a section of what the element is after them. -/
theorem IsSection.exists_front
    (h : IsSection before heading (front ++ back) opener opened grown element)
    : ∃ middle part, IsSection before heading front opener opened middle part
        ∧ middle.takeAll (before.length + 2 + front.length) back = .ok grown := by
  obtain ⟨middle, hfront, hback⟩ := exists_of_takeAll_append h.takes
  have hfence : opened.openFence = none := by
    rw [openFence, h.bare.2.2]
    rfl
  have hplain : ∀ line, some line ∈ readings none front → line.isHeading = false := by
    intro line hin
    refine h.plain line ?_
    rw [readings_append]
    exact List.mem_append_left _ hin
  have hcurrent := head_of_takeAll hfront (by rwa [hfence])
  rw [h.begun, Option.map_some] at hcurrent
  obtain ⟨part, hpart, hhead⟩ := Option.map_eq_some_iff.mp hcurrent
  refine ⟨middle, part, ?_, hback⟩
  have hkeyword : part.keyword = element.keyword := by
    have hk := congrArg Element.keyword hhead
    exact hk
  have hname : part.name = element.name := by
    have hn := congrArg Element.name hhead
    exact hn
  exact {
    reached := h.reached
    outside := h.outside
    reads := by rw [hkeyword, hname]; exact h.reads
    opens := h.opens
    line := (congrArg Element.line hhead).trans h.line
    tags := (congrArg Element.tags hhead).trans h.tags
    comments := (congrArg Element.comments hhead).trans h.comments
    begun := hhead ▸ h.begun
    bare := h.bare
    takes := hfront
    grows := hpart
    plain := hplain
  }

/-- An element ends in its section, below its keyword line. -/
theorem IsSection.lastOf_lt (h : IsSection before heading body opener opened grown element)
    : element.line ≤ Span.lastOf element
      ∧ Span.lastOf element < before.length + 2 + body.length := by
  obtain ⟨kept, cutoff, ended, last, rfl, hextent⟩ := h.exists_extent
  have hlength := hextent.length
  have hline := h.line
  rw [List.length_append]
  omega

/-- What holds of an element at its keyword line and is kept by every line of its section holds at
the end of the section, by induction on the lines from the end.
-/
theorem IsSection.keeps (holds : List Text → Reader → Element → Prop)
    (initial : ∀ {element}, IsSection before heading [] opener opened opened element
      → holds [] opened element)
    (keeps
      : ∀ {done middle part raw after element},
          IsSection before heading done opener opened middle part
          → IsSection before heading (done ++ [raw]) opener opened after element
          → middle.Takes (before.length + 2 + done.length) raw after
          → holds done middle part
          → holds (done ++ [raw]) after element)
    (h : IsSection before heading body opener opened grown element)
    : holds body grown element := by
  induction body using List.reverseRecOn generalizing grown element with
  | nil =>
      have hsame : opened = grown := Except.ok.inj h.takes
      subst hsame
      exact initial h
  | append_singleton done raw ih =>
      obtain ⟨middle, part, hfront, hlast⟩ := h.exists_front
      obtain ⟨after, hraw, hnone⟩ := exists_of_takeAll_cons hlast
      have hsame : after = grown := Except.ok.inj hnone
      subst hsame
      exact keeps hfront h (takes_of_takeRaw hraw) (ih hfront)

-----------------------------------------------------------------------------------------
-- Rows and doc strings
-----------------------------------------------------------------------------------------

/-- After a row, or outside doc strings again after one, the line is the last of the element. -/
theorem Takes.lastOf_of_argument {raw : Text} (h : reader.Takes n raw next)
    (hc : next.current = some element) (hd : next.docString = none)
    (hw : reader.docString.isSome →
      ∃ element, reader.current = some element ∧ element.awaitsArgument = true)
    (ha : ∀ line, reading reader.openFence raw = some line → line.isArgument = true)
    : Span.lastOf element = n := by
  cases h with
  | content | fence => cases hd
  | close hin hr =>
      obtain ⟨before, hb, rfl⟩ := Option.map_eq_some_iff.mp hc
      obtain ⟨waiting, hwaiting, hawaits⟩ := hw (by rw [hin]; rfl)
      rw [hb] at hwaiting
      cases hwaiting
      exact (Element.lastOf_attach _ _ _ hawaits).1
  | row hout hl hr hcurrent hg =>
      cases hc
      exact (Element.lastOf_addRow hg).1
  | blank hout hl | comment hout hl | tags hout hl | feature hout hl | element hout hl
  | examples hout hl | step hout hl | elementProse hout hl | featureProse hout hl =>
      have hargument := ha _ (reading_of_outside hout)
      rw [hl] at hargument
      cases hargument

/-- An element ends at or below every row and doc string of its section, by the section lemma: the
line itself is the last, or the doc string is still open, and no later line moves the end up.
-/
theorem IsSection.le_lastOf_of_argument
    (h : IsSection before heading body opener opened grown element) (hd : grown.docString = none)
    : ∀ i line, (readings none body)[i]? = some (some line) → line.isArgument = true →
        before.length + 2 + i ≤ Span.lastOf element := by
  refine fun i line hi hline => h.keeps
    (fun done middle part => middle.docString = none →
      ∀ i line, (readings none done)[i]? = some (some line) → line.isArgument = true →
        before.length + 2 + i ≤ Span.lastOf part)
    (fun _ _ i line hi => by simp [readings] at hi) ?_ hd i line hi hline
  intro done middle part raw after element hfront hall ht hm hd i line hi hline
  have hawaits : middle.docString.isSome →
      ∃ element, middle.current = some element ∧ element.awaitsArgument = true := by
    intro hopen
    obtain ⟨found, hf⟩ := Option.isSome_iff_exists.mp hopen
    exact awaitsArgument_of_docString (hfront.reaches hfront.takes) hf
  have hstepped : element.isStepless = false := by
    rw [Bool.eq_false_iff]
    intro hs
    have hidle := Line.isArgument_of_isIdle (hall.idle hs line (List.mem_of_getElem? hi))
    rw [hline] at hidle
    cases hidle
  rw [readings_append, ← openFence_of_takeAll_outside hfront.takes hfront.bare.2.2] at hi
  rcases Nat.lt_or_ge i done.length with hlt | hge
  · rw [List.getElem?_append_left (by rwa [length_readings])] at hi
    cases hopen : middle.docString with
    | none =>
        have hpart := hm hopen i line hi hline
        rcases ht.lastOf hall.grows hstepped hawaits with ⟨_, hlast⟩ | ⟨same, hc, _, hsettled⟩
        · omega
        · rw [hfront.grows] at hc
          cases hc
          rwa [← Element.lastOf_settled element, ← hsettled, Element.lastOf_settled]
    | some found =>
        have hlast := ht.lastOf_of_argument hall.grows hd hawaits
          (by simp [openFence, hopen, reading])
        omega
  · rw [List.getElem?_append_right (by rwa [length_readings]), length_readings, readings] at hi
    obtain ⟨hzero, hi⟩ : i = done.length ∧ reading middle.openFence raw = some line := by
      cases hk : i - done.length with
      | zero =>
          rw [hk] at hi
          exact ⟨by omega, Option.some.inj hi⟩
      | succ k =>
          rw [hk] at hi
          simp [readings] at hi
    have hlast := ht.lastOf_of_argument hall.grows hd hawaits (by
      intro said hsaid
      rw [hi] at hsaid
      cases hsaid
      exact hline)
    omega

-----------------------------------------------------------------------------------------
-- Idle lines
-----------------------------------------------------------------------------------------

/-- Idle lines leave an element with steps or examples as it is, apart from the descriptions of
examples, by the run lemma.
-/
theorem settled_of_takeAll_idle {lines : List Text} (h : reader.takeAll n lines = .ok next)
    (hd : reader.docString = none) (hc : reader.current = some part)
    (hs : part.isStepless = false)
    (hi : ∀ line, some line ∈ readings none lines → line.isIdle = true)
    : ∃ element, next.current = some element ∧ element.settled = part.settled := by
  refine ((takeAll_keeps
    (fun done middle =>
      (∀ line, some line ∈ readings none done → line.isIdle = true)
      → middle.docString = none
        ∧ ∃ element, middle.current = some element ∧ element.settled = part.settled)
    (fun _ => ⟨hd, part, hc, rfl⟩) ?_ h) hi).2
  intro done middle raw after hrun hm ht hidle
  rw [readings_append, ← openFence_of_takeAll_outside hrun hd] at hidle
  obtain ⟨hout, element, hcurrent, hsettled⟩ :=
    hm fun line hin => hidle line (List.mem_append_left _ hin)
  have hreads : reading middle.openFence raw = some (Line.of raw) := reading_of_outside hout
  have hline : (Line.of raw).isIdle = true :=
    hidle _ (List.mem_append_right _ (by simp [readings, hreads]))
  cases takes_of_takeRaw ht with
  | content hin | close hin => rw [hout] at hin; cases hin
  | blank | comment | tags => exact ⟨hout, element, hcurrent, hsettled⟩
  | feature _ hl | element _ hl | examples _ hl | step _ hl | row _ hl | fence _ hl =>
      rw [hl] at hline
      cases hline
  | elementProse _ hl _ hgrowing hg =>
      rw [hcurrent] at hgrowing
      cases hgrowing
      refine ⟨hout, _, rfl, ?_⟩
      rcases Element.settled_of_describe? hg with ⟨hstepless, _⟩ | hsame
      · rw [← Element.isStepless_settled, hsettled, Element.isStepless_settled, hs] at hstepless
        cases hstepless
      · exact hsame.trans hsettled
  | featureProse _ hl _ hnone =>
      rw [hcurrent] at hnone
      cases hnone

/-- An element with steps or examples ends above the idle lines at the end of its section. -/
theorem IsSection.lastOf_lt_of_idle
    (h : IsSection before heading (front ++ back) opener opened grown element)
    (hs : element.isStepless = false)
    (hd : front.foldl fenceAfter none = none)
    (hi : ∀ line, some line ∈ readings none back → line.isIdle = true)
    : Span.lastOf element < before.length + 2 + front.length := by
  obtain ⟨middle, part, hfront, hback⟩ := h.exists_front
  have hout : middle.docString = none := by
    have hfence := openFence_of_takeAll_outside hfront.takes hfront.bare.2.2
    rw [hd, openFence, Option.map_eq_none_iff] at hfence
    exact hfence
  have hstepped : part.isStepless = false := by
    rw [Bool.eq_false_iff]
    intro hstepless
    have hc := (takeAll_idle hback hout hfront.grows hstepless hi).2
    rw [h.grows] at hc
    cases hc
    change part.isStepless = false at hs
    rw [hstepless] at hs
    cases hs
  obtain ⟨same, hc, hsettled⟩ := settled_of_takeAll_idle hback hout hfront.grows hstepped hi
  rw [h.grows] at hc
  cases hc
  rw [← Element.lastOf_settled, hsettled, Element.lastOf_settled]
  exact hfront.lastOf_lt.2

end Reader

end SuiteScore.Gherkin
