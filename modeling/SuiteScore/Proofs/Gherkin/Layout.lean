import SuiteScore.Proofs.Gherkin.Extent
import SuiteScore.Proofs.Gherkin.StepLines

/-! The layout of a file around one of its elements: what comes before the span of the element, its
lead, its keyword line, its extent, and what follows.
-/

namespace SuiteScore.Gherkin

open Text

-----------------------------------------------------------------------------------------
-- What the lines of an element say
-----------------------------------------------------------------------------------------

namespace Element

/-- What the lines of the span before the keyword line say. -/
def leadOf (said : List (Option Line)) (element : Element) : List (Option Line) :=
  (said.take (element.line - 1)).drop (Span.firstOf element - 1)

/-- What the lines of the span below the keyword line say. -/
def extentOf (said : List (Option Line)) (element : Element) : List (Option Line) :=
  (said.take (Span.lastOf element)).drop element.line

/-- Whether a row or the opening of a doc string stands in the span before the keyword line. It
belongs to the element before.
-/
def isDisturbed (said : List (Option Line)) (element : Element) : Bool :=
  (element.leadOf said).any fun line => line.any Line.isArgument

/-- Whether tags wait for an owner where the span ends. -/
def leavesTags (said : List (Option Line)) (element : Element) : Bool :=
  tagsWait (element.extentOf said)

end Element

-----------------------------------------------------------------------------------------
-- Leads and features
-----------------------------------------------------------------------------------------

namespace Reader

variable {reader next : Reader} {n : Nat} {raw : Text}

/-- Only a heading opens a feature, by the cases of the line. -/
theorem Takes.feature_isSome (h : reader.Takes n raw next) (hn : next.feature.isSome = true)
    : reader.feature.isSome = true
      ∨ ∃ line, reading reader.openFence raw = some line ∧ line.isHeading = true := by
  cases h with
  | content | close | blank | comment | tags | examples | step | row | fence | elementProse =>
      exact Or.inl hn
  | feature hd hl | element hd hl => exact Or.inr ⟨_, reading_of_outside hd, by rw [hl]; rfl⟩
  | featureProse hd hl ht hc hf => exact Or.inl (by rw [hf]; rfl)

/-- Where a feature is open it was open before, or a heading came, by the run lemma. -/
theorem feature_isSome_of_takeAll {lines : List Text} (h : reader.takeAll n lines = .ok next)
    (hn : next.feature.isSome = true)
    : reader.feature.isSome = true
      ∨ ∃ line, some line ∈ readings reader.openFence lines ∧ line.isHeading = true := by
  refine takeAll_keeps
    (fun done middle => middle.feature.isSome = true → reader.feature.isSome = true
      ∨ ∃ line, some line ∈ readings reader.openFence done ∧ line.isHeading = true)
    Or.inl ?_ h hn
  intro done middle raw after hd hm ht hn
  rw [readings_append, ← openFence_of_takeAll hd]
  rcases (takes_of_takeRaw ht).feature_isSome hn with hn | ⟨line, hl, hh⟩
  · refine (hm hn).imp_right fun ⟨line, hin, hh⟩ => ⟨line, ?_, hh⟩
    exact List.mem_append_left _ hin
  · exact Or.inr ⟨line, List.mem_append_right _ (by simp [readings, hl]), hh⟩

/-- A lead is not the beginning of its file. Witness: the line of the feature comes before it. -/
theorem IsLead.old_ne_nil {old lead body heading idle opener opened grown} {element : Element}
    (h : IsLead old lead idle opener element)
    (hs : IsSection (old ++ lead) heading body opener opened grown element)
    : old ≠ [] := by
  rintro rfl
  have hstart : start = idle := Except.ok.inj h.reached
  have hfeature : opener.feature.isSome = true := by
    cases takes_of_takeRaw hs.opens with
    | element _ _ hf =>
        unfold closeElement at hf
        split at hf
        · next hopen _ => rw [hopen]; rfl
        · rw [hf]; rfl
    | content hd | close hd => rw [hs.outside] at hd; cases hd
    | blank _ hl | comment _ hl | tags _ hl | feature _ hl | examples _ hl | step _ hl | row _ hl
    | fence _ hl | elementProse _ hl | featureProse _ hl =>
        have hreads := hs.reads
        rw [hl] at hreads
        cases hreads
  rcases feature_isSome_of_takeAll h.takes hfeature with hidle | ⟨line, hin, hheading⟩
  · rw [← hstart] at hidle
    cases hidle
  · rw [openFence, h.outside] at hin
    have hloose := h.loose line hin
    cases line <;> simp_all [Line.isIdle, Line.isArgument, Line.isHeading]

end Reader

-----------------------------------------------------------------------------------------
-- Layouts
-----------------------------------------------------------------------------------------

/-- The lines around an element with the readers between them. -/
structure Layout (lines : List Text) (element : Element) where
  old : List Text
  lead : List Text
  heading : Text
  kept : List Text
  cutoff : List Text
  rest : List Text
  idle : Reader
  opener : Reader
  opened : Reader
  ended : Reader
  grown : Reader
  last : Element
  lines_eq : lines = old ++ (lead ++ heading :: (kept ++ (cutoff ++ rest)))
  isSection : Reader.IsSection (old ++ lead) heading (kept ++ cutoff) opener opened grown element
  isLead : Reader.IsLead old lead idle opener element
  isExtent : Reader.IsExtent ((old ++ lead).length + 2) kept opened ended element last

/-- Every element of an accepted file has a layout. -/
theorem FeatureTree.nonempty_layout {source : Text} {tree : FeatureTree} {element : Element}
    (h : ofText source = .ok tree) (he : element ∈ tree.allElements)
    : Nonempty (Layout (lines source) element) := by
  obtain ⟨before, heading, body, rest, opener, opened, grown, hlines, hs, _⟩ := exists_section h he
  obtain ⟨old, lead, idle, rfl, hl⟩ := hs.exists_lead
  obtain ⟨kept, cutoff, ended, last, rfl, hx⟩ := hs.exists_extent
  exact ⟨{
    old, lead, heading, kept, cutoff, rest, idle, opener, opened, ended, grown, last
    lines_eq := by simpa using hlines
    isSection := hs
    isLead := hl
    isExtent := hx
  }⟩

namespace Layout

variable {lines : List Text} {element : Element} (layout : Layout lines element)

/-- The span begins right after the lines before it. -/
theorem firstOf_eq : Span.firstOf element = layout.old.length + 1 :=
  layout.isLead.first.symm

/-- A span begins below the first line of its file. -/
theorem two_le_firstOf (layout : Layout lines element) : 2 ≤ Span.firstOf element := by
  have hne := List.length_pos_iff.mpr (layout.isLead.old_ne_nil layout.isSection)
  rw [layout.firstOf_eq]
  omega

/-- The keyword line comes right after the lead. -/
theorem line_eq : element.line = layout.old.length + layout.lead.length + 1 := by
  rw [layout.isSection.line, List.length_append]

/-- The span ends with the extent. -/
theorem lastOf_eq : Span.lastOf element = element.line + layout.kept.length := by
  have hlength := layout.isExtent.length
  have hline := layout.isSection.line
  omega

/-- The lines of the span are the lead, the keyword line and the extent. -/
theorem cut_eq : (Span.of element).cut lines = layout.lead ++ layout.heading :: layout.kept := by
  have hall : lines = layout.old ++ (layout.lead ++ layout.heading :: layout.kept)
      ++ (layout.cutoff ++ layout.rest) := by
    simpa using layout.lines_eq
  have htake : lines.take (Span.lastOf element)
      = layout.old ++ (layout.lead ++ layout.heading :: layout.kept) := by
    refine (congrArg (List.take _) hall).trans (List.take_left' ?_)
    rw [layout.lastOf_eq, layout.line_eq]
    simp only [List.length_append, List.length_cons]
    omega
  rw [Span.cut, Span.of, htake, layout.firstOf_eq]
  exact List.drop_left' rfl

/-- What the lines of the file say, part by part. -/
theorem readings_eq
    : readings none lines
      = readings none layout.old ++ readings none layout.lead
        ++ some (Line.of layout.heading) :: (readings none layout.kept
          ++ readings layout.ended.openFence (layout.cutoff ++ layout.rest)) := by
  have hold : layout.old.foldl fenceAfter none = none := by
    have ho := Reader.openFence_of_takeAll_outside layout.isLead.reached rfl
    rw [Reader.openFence, layout.isLead.outside] at ho
    exact ho.symm
  have hlead : layout.lead.foldl fenceAfter none = none := by
    have ho := Reader.openFence_of_takeAll_outside layout.isLead.takes layout.isLead.outside
    rw [Reader.openFence, layout.isSection.outside] at ho
    exact ho.symm
  have hheading : fenceAfter none layout.heading = none := by
    rw [fenceAfter, layout.isSection.reads]
  have hkept : layout.kept.foldl fenceAfter none = layout.ended.openFence :=
    (Reader.openFence_of_takeAll_outside layout.isExtent.takes layout.isSection.bare.2.2).symm
  conv => lhs; rw [layout.lines_eq]
  rw [readings_append, hold, readings_append, hlead, readings, hheading, readings_append, hkept,
    List.append_assoc]
  rfl

/-- What stands in the span before the keyword line is what the lead says. -/
theorem leadOf_eq : element.leadOf (readings none lines) = readings none layout.lead := by
  have hlength : (readings none layout.old ++ readings none layout.lead).length
      = element.line - 1 := by
    rw [layout.line_eq, List.length_append, length_readings, length_readings]
    rfl
  rw [Element.leadOf, layout.readings_eq, List.take_left' hlength, layout.firstOf_eq]
  exact List.drop_left' (length_readings _ _)

/-- What stands in the span below the keyword line is what the extent says. -/
theorem extentOf_eq : element.extentOf (readings none lines) = readings none layout.kept := by
  have hfront : (readings none layout.old ++ readings none layout.lead
      ++ [some (Line.of layout.heading)]).length = element.line := by
    rw [layout.line_eq]
    simp only [List.length_append, length_readings, List.length_singleton]
  have hall : readings none lines
      = (readings none layout.old ++ readings none layout.lead
          ++ [some (Line.of layout.heading)] ++ readings none layout.kept)
        ++ readings layout.ended.openFence (layout.cutoff ++ layout.rest) := by
    simpa using layout.readings_eq
  have hlength : (readings none layout.old ++ readings none layout.lead
      ++ [some (Line.of layout.heading)] ++ readings none layout.kept).length
      = Span.lastOf element := by
    rw [List.length_append, hfront, length_readings, layout.lastOf_eq]
  rw [Element.extentOf, hall, List.take_left' hlength]
  exact List.drop_left' hfront

/-- The extent of an element with nothing but a description has as many lines as the description. -/
theorem length_extentOf (layout : Layout lines element) (h : element.isStepless = true)
    : (element.extentOf (readings none lines)).length = element.description.length := by
  have hempty : element.steps = [] ∧ element.examples = [] := by
    simpa [Element.isStepless] using h
  have hlast := layout.lastOf_eq
  simp only [Span.lastOf, hempty, List.getLast?_nil] at hlast
  rw [layout.extentOf_eq, length_readings]
  omega

/-- The steps of an element stand in its extent. -/
theorem standsIn : ∀ step ∈ element.steps, step.StandsIn (element.line + 1) layout.kept := by
  have hsteps : layout.last.steps = element.steps := by
    have hsame := congrArg Element.steps layout.isExtent.same
    exact hsame
  have hline : (layout.old ++ layout.lead).length + 2 = element.line + 1 := by
    rw [layout.isSection.line]
  rw [← hsteps, ← hline]
  exact Reader.standsIn_of_takeAll layout.isExtent.takes layout.isSection.begun rfl
    layout.isExtent.grows

end Layout

end SuiteScore.Gherkin
