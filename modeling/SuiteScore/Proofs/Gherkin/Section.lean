import SuiteScore.Proofs.Gherkin.Growth
import SuiteScore.Proofs.Gherkin.Reading

/-! Every element of an accepted file has a section of lines: its keyword line and the lines with
which it grows, none of which is a keyword line of a feature or an element.
-/

namespace SuiteScore.Gherkin

open Text

/-- Whether a line opens a feature or an element. -/
def Line.isHeading : Line → Bool
  | .feature _ => true
  | .element .. => true
  | _ => false

/-- What an element has from its keyword line and from before it. -/
def Element.head (element : Element) : Element :=
  { element with description := [], steps := [], examples := [] }

/-- An element that is added to a feature is the only new one. -/
theorem FeatureTree.mem_allElements_add {tree : FeatureTree} {added element : Element}
    (h : element ∈ (tree.add added).allElements)
    : element ∈ tree.allElements ∨ element = added := by
  unfold add at h
  split at h
  · simp only [allElements, Option.toList_some, List.singleton_append, List.mem_cons] at h
    rcases h with rfl | h
    · exact Or.inr rfl
    · exact Or.inl (List.mem_append_right _ h)
  · simpa only [allElements, ← List.append_assoc, List.mem_append, List.mem_singleton] using h

/-- The background of a feature is one, and no other element is. -/
structure FeatureTree.KindsApart (tree : FeatureTree) : Prop where
  background : ∀ element ∈ tree.background, element.kind = .background
  elements : ∀ element ∈ tree.elements, element.kind ≠ .background

/-- Adding an element keeps backgrounds apart, since its kind decides its place. -/
theorem FeatureTree.KindsApart.add {tree : FeatureTree} (h : tree.KindsApart) (element : Element)
    : (tree.add element).KindsApart := by
  unfold FeatureTree.add
  split
  · next hk => exact ⟨by simpa using hk, h.elements⟩
  · next hk =>
      refine ⟨h.background, fun other ho => ?_⟩
      rcases List.mem_append.mp ho with ho | ho
      · exact h.elements other ho
      · rw [List.mem_singleton.mp ho]
        exact hk

namespace Element

/-- The head of an element is not touched by rows. -/
theorem head_of_addRow {element grown : Element} {row : Row} (h : element.addRow row = .ok grown)
    : grown.head = element.head := by
  rcases addRow_cases h with ⟨_, _, _, rfl⟩ | ⟨_, _, _, _, _, rfl⟩
  · rfl
  · rfl

/-- The head of an element is not touched by descriptions. -/
theorem head_of_describe? {element described : Element} {text : Text}
    (h : element.describe? text = some described)
    : described.head = element.head := by
  rcases describe?_cases h with ⟨_, _, rfl⟩ | ⟨_, _, _, _, rfl⟩
  · rfl
  · rfl

end Element

namespace Reader

variable {reader next : Reader} {n : Nat} {raw : Text}

/-- The element that grows keeps its head until the next keyword line, by the cases of the line. -/
theorem Takes.head_eq (h : reader.Takes n raw next)
    (hl : ∀ line, reading reader.openFence raw = some line → line.isHeading = false)
    : next.current.map Element.head = reader.current.map Element.head := by
  cases h with
  | content | blank | comment | tags | feature | fence | featureProse => rfl
  | close hd hr =>
      simp only [closeDocString, Option.map_map]
      rfl
  | element hd hr hf hb =>
      have hn := hl _ (reading_of_outside hd)
      rw [hr] at hn
      cases hn
  | examples hd hr hc hk => rw [hc]; rfl
  | step hd hr ht hc he => rw [hc]; rfl
  | row hd hr hrow hc hg => rw [hc]; exact congrArg some (Element.head_of_addRow hg)
  | elementProse hd hr ht hc hg => rw [hc]; exact congrArg some (Element.head_of_describe? hg)

/-- An element grows in a feature only, by the run lemma. -/
theorem feature_isSome_of_current {lines : List Text} (h : start.takeAll 1 lines = .ok reader)
    : reader.current.isSome → reader.feature.isSome := by
  refine takeAll_keeps (fun _ middle => middle.current.isSome → middle.feature.isSome)
    (by simp [start]) ?_ h
  intro done middle raw after _ hm ht
  cases takes_of_takeRaw ht with
  | content | blank | comment | tags | fence => exact hm
  | feature => exact fun _ => rfl
  | featureProse => exact fun _ => rfl
  | close hd hr => simpa [closeDocString] using hm
  | element hd hl hf hb => exact fun _ => by rw [hf]; rfl
  | examples hd hl hc hk => exact fun _ => hm (by rw [hc]; rfl)
  | step hd hl ht hc he => exact fun _ => hm (by rw [hc]; rfl)
  | row hd hl hr hc hg => exact fun _ => hm (by rw [hc]; rfl)
  | elementProse hd hl ht hc hg => exact fun _ => hm (by rw [hc]; rfl)

/-- A reader that has begun an element leaves it in its feature when the element is closed. -/
theorem mem_closeElement {feature : FeatureTree} {element : Element}
    (h : reader.closeElement.feature = some feature) (he : element ∈ feature.allElements)
    : (∃ before, reader.feature = some before ∧ element ∈ before.allElements)
      ∨ reader.current = some element := by
  unfold closeElement at h
  split at h
  · next before grown hf hc =>
      cases h
      rcases FeatureTree.mem_allElements_add he with hm | rfl
      · exact Or.inl ⟨before, hf, hm⟩
      · exact Or.inr hc
  · exact Or.inl ⟨feature, h, he⟩

-----------------------------------------------------------------------------------------
-- Sections
-----------------------------------------------------------------------------------------

/-- The reader `opener` stands before the keyword line of an element and `opened` after it, and the
element has grown in `grown` when the lines of `body` have been taken.
-/
structure IsSection (before : List Text) (heading : Text) (body : List Text)
    (opener opened grown : Reader) (element : Element)
    : Prop where
  reached : start.takeAll 1 before = .ok opener
  outside : opener.docString = none
  reads : Line.of heading = .element element.keyword element.name
  opens : opener.takeRaw (before.length + 1) heading = .ok opened
  line : element.line = before.length + 1
  tags : element.tags = opener.tags
  comments : element.comments = opener.comments
  begun : opened.current = some element.head
  bare : opened.tags = [] ∧ opened.comments = [] ∧ opened.docString = none
  takes : opened.takeAll (before.length + 2) body = .ok grown
  grows : grown.current = some element
  plain : ∀ line, some line ∈ readings none body → line.isHeading = false

/-- A keyword line of an element begins its section. -/
theorem isSection_of_element {before : List Text} {heading : Text} {opened : Reader}
    {element : Element} (hr : start.takeAll 1 before = .ok reader)
    (ht : reader.takeRaw (before.length + 1) heading = .ok opened)
    (hd : reader.docString = none) {keyword name} (hl : Line.of heading = .element keyword name)
    (hc : opened.current = some element)
    : IsSection before heading [] reader opened opened element := by
  have hs := takes_of_takeRaw ht
  cases hs with
  | element _ hl' hf hb =>
      cases hc
      exact {
        reached := hr
        outside := hd
        reads := hl'
        opens := ht
        line := rfl
        tags := rfl
        comments := rfl
        begun := rfl
        bare := ⟨rfl, rfl, closeElement_docString.trans hd⟩
        takes := rfl
        grows := rfl
        plain := by simp [readings]
      }
  | content hd' | close hd' => rw [hd] at hd'; cases hd'
  | blank _ hl' | comment _ hl' | tags _ hl' | feature _ hl' | examples _ hl' | step _ hl'
  | row _ hl' | fence _ hl' | elementProse _ hl' | featureProse _ hl' =>
      rw [hl] at hl'
      cases hl'

/-- What is reached from the keyword line of a section is reached from the first line of the file.
-/
theorem IsSection.reaches {before heading body opener opened grown} {element : Element}
    (h : IsSection before heading body opener opened grown element) {done : List Text}
    (hd : opened.takeAll (before.length + 2) done = .ok next)
    : start.takeAll 1 (before ++ heading :: done) = .ok next := by
  refine takeAll_append_of h.reached ?_
  rw [Nat.add_comm, takeAll_cons_of h.opens]
  exact hd

/-- A line that is no keyword line goes on with the section of the element that grows. -/
theorem IsSection.extend {before heading body opener opened} {element : Element}
    (h : IsSection before heading body opener opened reader element)
    (ht : reader.takeRaw (before.length + 2 + body.length) raw = .ok next)
    (hl : ∀ line, reading reader.openFence raw = some line → line.isHeading = false)
    {after : Element} (hc : next.current = some after)
    : IsSection before heading (body ++ [raw]) opener opened next after := by
  have hhead : after.head = element.head := by
    have hm := (takes_of_takeRaw ht).head_eq hl
    rw [hc, h.grows] at hm
    exact Option.some.inj hm
  have hfence := openFence_of_takeAll_outside h.takes h.bare.2.2
  exact {
    reached := h.reached
    outside := h.outside
    reads := by
      have hk := congrArg Element.keyword hhead
      have hn := congrArg Element.name hhead
      simp only [Element.head] at hk hn
      rw [hk, hn]
      exact h.reads
    opens := h.opens
    line := (congrArg Element.line hhead).trans h.line
    tags := (congrArg Element.tags hhead).trans h.tags
    comments := (congrArg Element.comments hhead).trans h.comments
    begun := hhead ▸ h.begun
    bare := h.bare
    takes := takeAll_append_of h.takes (by simp only [takeAll, ht])
    grows := hc
    plain := by
      intro line hm
      rw [readings_append, List.mem_append] at hm
      rcases hm with hm | hm
      · exact h.plain line hm
      · rw [← hfence] at hm
        exact hl line (List.mem_singleton.mp hm).symm
  }

/-- A line that is no keyword line of an element is none of a feature either while an element grows.
-/
theorem plain_of_not_element {done : List Text} {element : Element}
    (hd : start.takeAll 1 done = .ok reader) (ht : reader.takeRaw n raw = .ok next)
    (hc : next.current = some element)
    (hk : ¬(reader.docString = none ∧ ∃ keyword name, Line.of raw = .element keyword name))
    : ∀ line, reading reader.openFence raw = some line → line.isHeading = false := by
  intro line hl
  by_cases hout : reader.docString = none
  · rw [reading_of_outside hout] at hl
    cases hl
    cases takes_of_takeRaw ht with
    | content hd' | close hd' => rw [hout] at hd'; cases hd'
    | blank _ hl' | comment _ hl' | tags _ hl' | examples _ hl' | step _ hl' | row _ hl'
    | fence _ hl' | elementProse _ hl' | featureProse _ hl' => rw [hl']; rfl
    | element _ hl' => exact absurd ⟨hout, _, _, hl'⟩ hk
    | feature _ hl' hn =>
        have hsome := feature_isSome_of_current hd (by rw [hc]; rfl)
        rw [hn] at hsome
        cases hsome
  · obtain ⟨opened, ho⟩ := Option.ne_none_iff_exists'.mp hout
    rw [openFence, ho] at hl
    cases hl

/-- The element that grows has a section up to the last line, by the run lemma. -/
theorem exists_section_of_current {lines : List Text} {element : Element}
    (h : start.takeAll 1 lines = .ok reader) (hc : reader.current = some element)
    : ∃ before heading body opener opened,
        lines = before ++ heading :: body
        ∧ IsSection before heading body opener opened reader element := by
  refine takeAll_keeps
    (fun done middle => ∀ element, middle.current = some element →
      ∃ before heading body opener opened, done = before ++ heading :: body
        ∧ IsSection before heading body opener opened middle element)
    (by simp [start]) ?_ h element hc
  intro done middle raw after hd hm ht element hc
  by_cases hk : middle.docString = none ∧ ∃ keyword name, Line.of raw = .element keyword name
  · obtain ⟨hout, keyword, name, hl⟩ := hk
    rw [Nat.add_comm] at ht
    exact ⟨done, raw, [], middle, after, by simp, isSection_of_element hd ht hout hl hc⟩
  · have hplain := plain_of_not_element hd ht hc hk
    obtain ⟨grown, hg, _⟩ : ∃ grown, middle.current = some grown ∧ grown.head = element.head := by
      have hhead := (takes_of_takeRaw ht).head_eq hplain
      rw [hc] at hhead
      exact Option.map_eq_some_iff.mp hhead.symm
    obtain ⟨before, heading, body, opener, opened, rfl, hs⟩ := hm grown hg
    refine ⟨before, heading, body ++ [raw], opener, opened, by simp, hs.extend ?_ hplain hc⟩
    rw [← ht]
    congr 1
    simp only [List.length_append, List.length_cons]
    omega

/-- An element of the feature was there before the last line, or it has just been closed. -/
theorem Takes.mem_allElements {feature : FeatureTree} {element : Element}
    (h : reader.Takes n raw next) (hf : next.feature = some feature)
    (he : element ∈ feature.allElements)
    : (∃ before, reader.feature = some before ∧ element ∈ before.allElements)
      ∨ reader.docString = none ∧ reader.current = some element := by
  cases h with
  | content | blank | comment | tags | examples | step | row | fence | elementProse =>
      exact Or.inl ⟨feature, hf, he⟩
  | close hd hr => exact Or.inl ⟨feature, hf, he⟩
  | feature hd hl hn =>
      cases hf
      simp [FeatureTree.allElements] at he
  | element hd hl hn hb => exact (mem_closeElement hf he).imp_right fun hc => ⟨hd, hc⟩
  | @featureProse _ before hd hl ht hc hb _ =>
      cases hf
      exact Or.inl ⟨before, hb, he⟩

/-- Closing an element keeps backgrounds apart. -/
theorem kindsApart_closeElement {feature : FeatureTree}
    (h : ∀ feature, reader.feature = some feature → feature.KindsApart)
    (hf : reader.closeElement.feature = some feature)
    : feature.KindsApart := by
  unfold closeElement at hf
  split at hf
  · next before element hb _ => cases hf; exact (h before hb).add element
  · exact h feature hf

/-- Every element that has been closed has a section outside doc strings, by the run lemma. -/
theorem exists_section_of_mem {lines : List Text} {feature : FeatureTree} {element : Element}
    (h : start.takeAll 1 lines = .ok reader) (hf : reader.feature = some feature)
    (he : element ∈ feature.allElements)
    : ∃ before heading body rest opener opened grown,
        lines = before ++ heading :: (body ++ rest)
        ∧ IsSection before heading body opener opened grown element
        ∧ grown.docString = none := by
  refine takeAll_keeps
    (fun done middle => ∀ feature element, middle.feature = some feature
      → element ∈ feature.allElements
      → ∃ before heading body rest opener opened grown,
          done = before ++ heading :: (body ++ rest)
          ∧ IsSection before heading body opener opened grown element
          ∧ grown.docString = none)
    (by simp [start]) ?_ h feature element hf he
  intro done middle raw after hd hm ht feature element hf he
  rcases (takes_of_takeRaw ht).mem_allElements hf he with ⟨old, ho, hin⟩ | ⟨hout, hc⟩
  · obtain ⟨before, heading, body, rest, opener, opened, grown, rfl, hs⟩ := hm old element ho hin
    exact ⟨before, heading, body, rest ++ [raw], opener, opened, grown, by simp, hs⟩
  · obtain ⟨before, heading, body, opener, opened, rfl, hs⟩ := exists_section_of_current hd hc
    exact ⟨before, heading, body, [raw], opener, opened, middle, by simp, hs, hout⟩

/-- Backgrounds are kept apart by every reader, by the run lemma. -/
theorem kindsApart_of_takeAll {lines : List Text} {feature : FeatureTree}
    (h : start.takeAll 1 lines = .ok reader) (hf : reader.feature = some feature)
    : feature.KindsApart := by
  refine takeAll_keeps
    (fun _ middle => ∀ feature, middle.feature = some feature → feature.KindsApart)
    (by simp [start]) ?_ h feature hf
  intro done middle raw after _ hm ht feature hf
  cases takes_of_takeRaw ht with
  | content | blank | comment | tags | examples | step | row | fence | elementProse =>
      exact hm feature hf
  | close hd hr => exact hm feature hf
  | feature hd hl hn =>
      cases hf
      exact ⟨by simp, by simp⟩
  | element hd hl hn hb => exact kindsApart_closeElement hm hf
  | featureProse hd hl ht hc hb _ =>
      cases hf
      exact ⟨(hm _ hb).background, (hm _ hb).elements⟩

end Reader

-----------------------------------------------------------------------------------------
-- Accepted files
-----------------------------------------------------------------------------------------

namespace FeatureTree

variable {source : Text} {tree : FeatureTree}

/-- What an accepted file leaves in the reader at its end. -/
theorem exists_reader_of_ofText (h : ofText source = .ok tree)
    : ∃ reader, Reader.start.takeAll 1 (lines source) = .ok reader
        ∧ reader.docString = none ∧ reader.tags = []
        ∧ reader.closeElement.feature = some tree := by
  unfold ofText at h
  split at h
  · cases h
  · next reader hr =>
      unfold Reader.finish at h
      split at h
      · cases h
      · cases h
      · next hd ht =>
          split at h
          · next hf => cases h; exact ⟨reader, hr, hd, ht, hf⟩
          · cases h

/-- Every element of an accepted file has a section of its lines. -/
theorem exists_section {element : Element} (h : ofText source = .ok tree)
    (he : element ∈ tree.allElements)
    : ∃ before heading body rest opener opened grown,
        lines source = before ++ heading :: (body ++ rest)
        ∧ Reader.IsSection before heading body opener opened grown element
        ∧ grown.docString = none := by
  obtain ⟨reader, hr, hd, _, hf⟩ := exists_reader_of_ofText h
  rcases Reader.mem_closeElement hf he with ⟨feature, hin, hm⟩ | hc
  · exact Reader.exists_section_of_mem hr hin hm
  · obtain ⟨before, heading, body, opener, opened, hl, hs⟩ := Reader.exists_section_of_current hr hc
    exact ⟨before, heading, body, [], opener, opened, reader, by simpa using hl, hs, hd⟩

/-- An accepted file keeps backgrounds apart. -/
theorem kindsApart_of_ofText (h : ofText source = .ok tree) : tree.KindsApart := by
  obtain ⟨reader, hr, _, _, hf⟩ := exists_reader_of_ofText h
  exact Reader.kindsApart_closeElement (fun _ => Reader.kindsApart_of_takeAll hr) hf

end FeatureTree

end SuiteScore.Gherkin
