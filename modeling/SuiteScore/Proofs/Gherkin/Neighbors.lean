import Mathlib.Data.List.Chain
import SuiteScore.Proofs.Gherkin.Knowledge
import SuiteScore.Proofs.Gherkin.Node
import SuiteScore.Proofs.Gherkin.Reach

/-! Where an element ends and the next one begins. The spans of two neighbors can overlap, since
comments and tags wait while rows, doc strings and descriptions go on below them.
-/

namespace SuiteScore.Gherkin

open Text

-----------------------------------------------------------------------------------------
-- Overlaps
-----------------------------------------------------------------------------------------

namespace Element

/-- What the lines between the keyword line of an element and the span of the next one say. -/
def gapOf (said : List (Option Line)) (element next : Element) : List (Option Line) :=
  (said.take (Span.firstOf next - 1)).drop element.line

/-- Whether an element reaches into the span of the next one: a row or doc string of it stands
there, or it is a mere description with more lines there than it leaves out before.
-/
def reaches (said : List (Option Line)) (element next : Element) : Bool :=
  next.isDisturbed said
    || element.isStepless
      && decide ((gapOf said element next).countP (fun line => (Line.prose? line).isNone)
        < (next.leadOf said).countP fun line => (Line.prose? line).isSome)

end Element

/-- An element is added behind all others, where a background is the first element. -/
theorem FeatureTree.allElements_add {tree : FeatureTree} {element : Element}
    (h : element.kind = .background → tree.isBare = true)
    : (tree.add element).allElements = tree.allElements ++ [element] := by
  unfold add
  split
  · next hk =>
      have hbare := h hk
      simp only [isBare, Bool.and_eq_true, Option.isNone_iff_eq_none, List.isEmpty_iff] at hbare
      simp [allElements, hbare]
  · simp [allElements]

namespace Reader

-----------------------------------------------------------------------------------------
-- Adjoining sections
-----------------------------------------------------------------------------------------

/-- Two elements with adjoining sections: the keyword line of the second ends the first. -/
inductive Adjoins (lines : List Text) (element next : Element) : Prop
  | sections {before heading body title rest opener opened grown started}
    (hl : lines = before ++ heading :: (body ++ title :: rest))
    (hs : IsSection before heading body opener opened grown element)
    (hn : IsSection (before ++ heading :: body) title [] grown started started next.head)
    : Adjoins lines element next

variable {reader next : Reader} {n : Nat} {raw : Text} {lines : List Text} {element later : Element}

/-- Sections adjoin also when more lines follow. -/
theorem Adjoins.append (h : Adjoins lines element later) (more : List Text)
    : Adjoins (lines ++ more) element later := by
  obtain ⟨hl, hs, hn⟩ := h
  exact .sections (by simp [hl]; rfl) hs hn

/-- The second element can go on growing. -/
theorem Adjoins.of_head (h : Adjoins lines element later) {grown : Element}
    (hh : grown.head = later.head)
    : Adjoins lines element grown := by
  obtain ⟨hl, hs, hn⟩ := h
  exact .sections hl hs (hh ▸ hn)

/-- The elements that have been closed. -/
def closed (reader : Reader) : List Element :=
  reader.feature.toList.flatMap FeatureTree.allElements

/-- All elements that have been read so far, the growing one last. -/
def elements (reader : Reader) : List Element :=
  reader.closed ++ reader.current.toList

/-- Closing an element keeps all elements. -/
theorem closed_closeElement (h : reader.IsOrdered)
    : reader.closeElement.closed = reader.elements := by
  unfold closeElement
  split
  · next feature element hf hc =>
      obtain ⟨same, hs, hb⟩ := h element hc
      rw [hf] at hs
      cases hs
      simp [closed, elements, hf, hc, FeatureTree.allElements_add hb]
  · next hnone =>
      have hcurrent : reader.current = none := by
        cases hc : reader.current with
        | none => rfl
        | some element =>
            obtain ⟨feature, hf, _⟩ := h element hc
            exact absurd hc (hnone feature element hf)
      simp [closed, elements, hcurrent]

/-- What an accepted line does to the elements: it opens one behind all others, or the last one
grows, by the cases of the line.
-/
theorem Takes.elements_cases (h : reader.Takes n raw next) (ho : reader.IsOrdered)
    : (reader.docString = none ∧ (∃ keyword name, Line.of raw = .element keyword name)
        ∧ next.closed = reader.elements ∧ next.current.isSome)
      ∨ next.closed = reader.closed
        ∧ next.current.map Element.head = reader.current.map Element.head := by
  cases h with
  | content | blank | comment | tags | fence => exact Or.inr ⟨rfl, rfl⟩
  | close =>
      refine Or.inr ⟨rfl, ?_⟩
      simp only [closeDocString, Option.map_map]
      rfl
  | element hd hl hf hb =>
      refine Or.inl ⟨hd, ⟨_, _, hl⟩, ?_, rfl⟩
      rw [← closed_closeElement ho]
      rfl
  | feature hd hl hf => exact Or.inr ⟨by simp [closed, hf, FeatureTree.allElements], rfl⟩
  | examples hd hl hc hk => exact Or.inr ⟨rfl, by rw [hc]; rfl⟩
  | step hd hl ht hc he => exact Or.inr ⟨rfl, by rw [hc]; rfl⟩
  | row hd hl hr hc hg =>
      exact Or.inr ⟨rfl, by rw [hc]; exact congrArg some (Element.head_of_addRow hg)⟩
  | elementProse hd hl ht hc hg =>
      exact Or.inr ⟨rfl, by rw [hc]; exact congrArg some (Element.head_of_describe? hg)⟩
  | featureProse hd hl ht hc hf hb =>
      exact Or.inr ⟨by simp [closed, hf, FeatureTree.allElements], rfl⟩

/-- A keyword line adjoins the section that it ends. -/
theorem adjoins_of_element {opened : Element} (h : start.takeAll 1 lines = .ok reader)
    (hc : reader.current = some element)
    (ht : reader.takeRaw (lines.length + 1) raw = .ok next) (hd : reader.docString = none)
    {keyword name} (hl : Line.of raw = .element keyword name) (ho : next.current = some opened)
    : Adjoins (lines ++ [raw]) element opened := by
  have hn := isSection_of_element h ht hd hl ho
  have hhead : opened.head = opened := by
    have hbegun := hn.begun
    rw [hn.grows] at hbegun
    exact (Option.some.inj hbegun).symm
  obtain ⟨before, heading, body, opener, first, rfl, hs⟩ := exists_section_of_current h hc
  exact .sections (by simp; rfl) hs (hhead.symm ▸ hn)

/-- All elements adjoin one after another, by the run lemma. -/
theorem isChain_elements (h : start.takeAll 1 lines = .ok reader)
    : reader.elements.IsChain (Adjoins lines) := by
  refine takeAll_keeps (fun done middle => middle.elements.IsChain (Adjoins done))
    (by simp [elements, closed, start]) ?_ h
  intro done middle raw after hd hm ht
  have hlonger : middle.elements.IsChain (Adjoins (done ++ [raw])) :=
    hm.imp fun element later hadjoins => hadjoins.append [raw]
  rcases (takes_of_takeRaw ht).elements_cases (isOrdered_of_takeAll hd) with
    ⟨hout, ⟨keyword, name, hl⟩, hclosed, hopened⟩ | ⟨hclosed, hhead⟩
  · obtain ⟨opened, ho⟩ := Option.isSome_iff_exists.mp hopened
    rw [elements, hclosed, ho, Option.toList_some, List.isChain_append]
    refine ⟨hlonger, by simp, fun last hlast first hfirst => ?_⟩
    cases hfirst
    rw [Nat.add_comm] at ht
    cases hc : middle.current with
    | some element =>
        rw [elements, hc, Option.toList_some, List.getLast?_concat] at hlast
        cases hlast
        exact adjoins_of_element hd hc ht hout hl ho
    | none =>
        have hnone : middle.closed = [] := by
          rw [closed, List.flatMap_eq_nil_iff]
          intro feature hf
          have hbare := (knows_of_takeAll hd).bare hc feature (Option.mem_toList.mp hf)
          simp only [FeatureTree.isBare, Bool.and_eq_true, Option.isNone_iff_eq_none,
            List.isEmpty_iff] at hbare
          simp [FeatureTree.allElements, hbare]
        simp [elements, hc, hnone] at hlast
  · rw [elements, List.isChain_append] at hlonger
    obtain ⟨hfront, _, hlink⟩ := hlonger
    rw [elements, hclosed, List.isChain_append]
    refine ⟨hfront, by cases after.current <;> simp, fun last hlast grown hgrown => ?_⟩
    have hc : after.current = some grown := by simpa using hgrown
    rw [hc, Option.map_some] at hhead
    obtain ⟨before, hb, hsame⟩ := Option.map_eq_some_iff.mp hhead.symm
    exact (hlink last hlast before (by simp [hb])).of_head hsame.symm

-----------------------------------------------------------------------------------------
-- Ends and beginnings
-----------------------------------------------------------------------------------------

/-- An element ends above the keyword line of the next one, which begins below its own. -/
theorem Adjoins.apart (h : Adjoins lines element later)
    : Span.lastOf element < later.line ∧ element.line < Span.firstOf later := by
  obtain ⟨hl, hs, hn⟩ := h
  rename_i before heading body title rest opener opened grown started
  have hline : later.line = (before ++ heading :: body).length + 1 := hn.line
  have hend := hs.lastOf_lt.2
  have hbegin := hs.line
  rw [List.length_append, List.length_cons] at hline
  refine ⟨by omega, ?_⟩
  obtain ⟨hnotags, hnocomments, _⟩ := hs.bare
  rcases Span.firstOf_cases later with hfirst | ⟨comment, hc, hfirst⟩ | ⟨tag, ht, hfirst⟩
  · omega
  · by_contra hnot
    have hwaits : comment ∈ grown.comments := hn.comments ▸ hc
    have hback := (comment_waits hs.takes hwaits (by omega)).1
    rw [hnocomments] at hback
    cases hback
  · by_contra hnot
    have hwaits : tag ∈ grown.tags := hn.tags ▸ ht
    have hback := (tag_waits hs.takes hwaits (by omega)).1
    rw [hnotags] at hback
    cases hback

/-- The lines of a section that the next element begins in: `lead` belongs to the span of the next
element and `front` comes before it.
-/
structure IsParted (lines : List Text) (element later : Element) (before : List Text)
    (heading : Text) (front lead : List Text) (grown : Reader)
    : Prop where
  isSection : ∃ opener opened, IsSection before heading (front ++ lead) opener opened grown element
  outside : grown.docString = none
  apart : front.foldl fenceAfter none = none
  begins : Span.firstOf later = before.length + 2 + front.length
  gap : element.gapOf (readings none lines) later = readings none front
  leadOf : later.leadOf (readings none lines) = readings none lead
  loose : ∀ line, some line ∈ readings none lead → line.isIdle = true ∨ line.isArgument = true

/-- Adjoining sections are parted by the beginning of the second span. -/
theorem Adjoins.exists_parted (h : Adjoins lines element later)
    : ∃ before heading front lead grown,
        IsParted lines element later before heading front lead grown := by
  have hbelow := h.apart.2
  obtain ⟨hl, hs, hn⟩ := h
  rename_i before heading body title rest opener opened grown started
  obtain ⟨old, lead, idle, hparts, hlead⟩ := hn.exists_lead
  have hfirst : old.length + 1 = Span.firstOf later := hlead.first
  have hline := hs.line
  obtain ⟨front, rfl⟩ : before ++ [heading] <+: old := by
    have hbefore : before ++ [heading] <+: before ++ heading :: body := ⟨body, by simp⟩
    refine List.prefix_of_prefix_length_le hbefore ⟨lead, hparts.symm⟩ ?_
    rw [List.length_append, List.length_singleton]
    omega
  obtain rfl : body = front ++ lead := by simpa using hparts
  obtain ⟨middle, part, hfront, _⟩ := hs.exists_front
  have hmiddle : middle = idle := by
    have hreached := hfront.reaches hfront.takes
    rw [List.append_cons] at hreached
    exact Except.ok.inj (hreached.symm.trans hlead.reached)
  subst hmiddle
  have hopened : (before ++ [heading]).foldl fenceAfter none = none := by
    rw [← openFence_of_takeAll_outside (hs.reaches rfl) rfl, openFence, hs.bare.2.2]
    rfl
  have hapart : front.foldl fenceAfter none = none := by
    rw [← openFence_of_takeAll_outside hfront.takes hs.bare.2.2, openFence, hlead.outside]
    rfl
  have hold : (before ++ [heading] ++ front).foldl fenceAfter none = none := by
    rw [List.foldl_append, hopened, hapart]
  refine ⟨before, heading, front, lead, grown, {
    isSection := ⟨opener, opened, hs⟩
    outside := hn.outside
    apart := hapart
    begins := ?_
    gap := ?_
    leadOf := ?_
    loose := hlead.loose
  }⟩
  · rw [← hfirst]
    simp only [List.length_append, List.length_singleton]
    omega
  · have hgap := readings_between hopened front (lead ++ title :: rest)
    rw [Element.gapOf, ← hfirst, hline, hl]
    simpa [Nat.add_assoc, Nat.add_comm 1] using hgap
  · have hlast := hn.line
    have hlength : later.line - 1 = (before ++ [heading] ++ front).length + lead.length := by
      change later.line = _ at hlast
      rw [hlast]
      simp only [List.length_append, List.length_cons, List.length_nil]
      omega
    have hbetween := readings_between hold lead (title :: rest)
    rw [Element.leadOf, ← hfirst, hlength, hl]
    simpa using hbetween

variable {before front lead : List Text} {heading : Text} {grown : Reader}

/-- The next element is disturbed when a row or doc string stands before its keyword line. -/
theorem IsParted.isDisturbed_iff (h : IsParted lines element later before heading front lead grown)
    : later.isDisturbed (readings none lines) = true
      ↔ ∃ line, some line ∈ readings none lead ∧ line.isArgument = true := by
  rw [Element.isDisturbed, h.leadOf, List.any_eq_true]
  constructor
  · rintro ⟨said, hin, hargument⟩
    obtain ⟨line, rfl, hargument⟩ := (Option.any_eq_true _ _).mp hargument
    exact ⟨line, hin, hargument⟩
  · rintro ⟨line, hin, hargument⟩
    exact ⟨some line, hin, hargument⟩

/-- All other lines before the keyword line of the next element are idle. -/
theorem IsParted.idle (h : IsParted lines element later before heading front lead grown)
    (hd : later.isDisturbed (readings none lines) = false)
    : ∀ line, some line ∈ readings none lead → line.isIdle = true := by
  intro line hin
  refine (h.loose line hin).resolve_right fun hargument => ?_
  rw [h.isDisturbed_iff.mpr ⟨line, hin, hargument⟩] at hd
  cases hd

/-- A mere description reaches into the span of the next element when it has more lines there than
it leaves out before.
-/
theorem IsParted.lastOf_lt_firstOf_iff_of_stepless
    (h : IsParted lines element later before heading front lead grown)
    (hs : element.isStepless = true)
    : Span.lastOf element < Span.firstOf later
      ↔ element.reaches (readings none lines) later = false := by
  obtain ⟨opener, opened, hsection⟩ := h.isSection
  have hwhole := hsection.description_of_stepless hs
  have hreadings : readings none (front ++ lead) = readings none front ++ readings none lead := by
    rw [readings_append, h.apart]
  have hcalm : later.isDisturbed (readings none lines) = false := by
    rw [Bool.eq_false_iff]
    intro hd
    obtain ⟨line, hin, hargument⟩ := h.isDisturbed_iff.mp hd
    have hidle := hsection.idle hs line (by rw [hreadings]; exact List.mem_append_right _ hin)
    rw [Line.isArgument_of_isIdle hidle] at hargument
    cases hargument
  have hlast : Span.lastOf element = element.line + element.description.length := by
    obtain ⟨hsteps, hexamples⟩ : element.steps = [] ∧ element.examples = [] := by
      simpa [Element.isStepless] using hs
    simp [Span.lastOf, hsteps, hexamples]
  have hlength : element.description.length
      = (readings none front).countP (fun line => (Line.prose? line).isSome)
        + (readings none lead).countP fun line => (Line.prose? line).isSome := by
    rw [hwhole, proseOf, List.length_filterMap_eq_countP, hreadings, List.countP_append]
  have hfront : front.length
      = (readings none front).countP (fun line => (Line.prose? line).isSome)
        + (readings none front).countP fun line => (Line.prose? line).isNone := by
    rw [← length_readings none front,
      List.length_eq_countP_add_countP fun line => (Line.prose? line).isSome]
    refine congrArg _ (List.countP_congr fun line _ => ?_)
    cases Line.prose? line <;> simp
  have hline := hsection.line
  have hbegins := h.begins
  rw [Element.reaches, hcalm, hs, h.gap, h.leadOf, Bool.false_or, Bool.true_and,
    decide_eq_false_iff_not]
  omega

/-- An element with steps or examples reaches into the span of the next one with a row or a doc
string only.
-/
theorem IsParted.lastOf_lt_firstOf_iff_of_not_stepless
    (h : IsParted lines element later before heading front lead grown)
    (hs : element.isStepless = false)
    : Span.lastOf element < Span.firstOf later
      ↔ element.reaches (readings none lines) later = false := by
  obtain ⟨opener, opened, hsection⟩ := h.isSection
  rw [Element.reaches, hs, Bool.false_and, Bool.or_false]
  constructor
  · intro hlt
    rw [Bool.eq_false_iff]
    intro hd
    obtain ⟨line, hin, hargument⟩ := h.isDisturbed_iff.mp hd
    obtain ⟨j, hj⟩ := List.getElem?_of_mem hin
    have hindex : (readings none (front ++ lead))[front.length + j]? = some (some line) := by
      rw [readings_append, h.apart, List.getElem?_append_right (by simp [length_readings]),
        length_readings, Nat.add_sub_cancel_left]
      exact hj
    have hreaches := hsection.le_lastOf_of_argument h.outside _ line hindex hargument
    have hbegins := h.begins
    omega
  · intro hcalm
    rw [h.begins]
    exact hsection.lastOf_lt_of_idle hs h.apart (h.idle hcalm)

/-- The span of an element ends above the next one unless the element reaches into it. -/
theorem Adjoins.lastOf_lt_firstOf_iff (h : Adjoins lines element later)
    : Span.lastOf element < Span.firstOf later
      ↔ element.reaches (readings none lines) later = false := by
  obtain ⟨before, heading, front, lead, grown, hparted⟩ := h.exists_parted
  cases hs : element.isStepless with
  | true => exact hparted.lastOf_lt_firstOf_iff_of_stepless hs
  | false => exact hparted.lastOf_lt_firstOf_iff_of_not_stepless hs

/-- Elements begin below the keyword lines of all elements before them. -/
theorem pairwise_elements (h : start.takeAll 1 lines = .ok reader)
    : reader.elements.Pairwise fun element later => element.line < Span.firstOf later := by
  have htrans : Trans (fun element later : Element => element.line < Span.firstOf later)
      (fun element later : Element => element.line < Span.firstOf later)
      (fun element later : Element => element.line < Span.firstOf later) :=
    ⟨fun hab hbc => hab.trans (Span.firstOf_le_line.trans_lt hbc)⟩
  exact ((isChain_elements h).imp fun _ _ hadjoins => hadjoins.apart.2).pairwise

end Reader

-----------------------------------------------------------------------------------------
-- Spans of a file
-----------------------------------------------------------------------------------------

namespace FeatureTree

variable {source : Text} {tree : FeatureTree} {element : Element}

/-- The elements of an accepted file adjoin one after another. -/
theorem isChain_allElements (h : ofText source = .ok tree)
    : tree.allElements.IsChain (Reader.Adjoins (lines source))
      ∧ tree.allElements.Pairwise fun element later => element.line < Span.firstOf later := by
  obtain ⟨reader, hr, _, _, hf⟩ := exists_reader_of_ofText h
  have hall : tree.allElements = reader.elements := by
    rw [← Reader.closed_closeElement (Reader.isOrdered_of_takeAll hr), Reader.closed, hf]
    simp
  rw [hall]
  exact ⟨Reader.isChain_elements hr, Reader.pairwise_elements hr⟩

/-- A span holds its keyword line and lies in the file. -/
theorem span_bounds (h : ofText source = .ok tree) (he : element ∈ tree.allElements)
    : 1 ≤ Span.firstOf element
      ∧ Span.firstOf element ≤ element.line
      ∧ element.line ≤ Span.lastOf element
      ∧ Span.lastOf element ≤ (lines source).length := by
  obtain ⟨layout⟩ := nonempty_layout h he
  have hfirst := layout.two_le_firstOf
  have hline := layout.line_eq
  have hlast := layout.lastOf_eq
  have hlength := congrArg List.length layout.lines_eq
  simp only [List.length_append, List.length_cons] at hlength
  exact ⟨by omega, Span.firstOf_le_line, by omega, by omega⟩

/-- The spans of an accepted file are well formed, and of two elements the earlier one ends before
the later one begins unless they are neighbors and the earlier one reaches into the later one.
-/
theorem spans_of_ofText (h : ofText source = .ok tree)
    : (∀ element ∈ tree.allElements,
        1 ≤ (Span.of element).first
        ∧ (Span.of element).first ≤ element.line
        ∧ element.line ≤ (Span.of element).last
        ∧ (Span.of element).last ≤ (lines source).length)
      ∧ ∀ before element between later after,
          tree.allElements = before ++ element :: (between ++ later :: after)
          → ((Span.of element).last < (Span.of later).first
              ↔ between ≠ [] ∨ element.reaches (readings none (lines source)) later = false) := by
  refine ⟨fun element he => span_bounds h he, ?_⟩
  intro before element between later after hall
  obtain ⟨hchain, hpairs⟩ := isChain_allElements h
  rw [hall] at hchain hpairs
  have hnear := hchain.right_of_append
  have hfar := (List.pairwise_append.mp hpairs).2.1
  cases between with
  | nil =>
      have hadjoins : Reader.Adjoins (lines source) element later :=
        (List.isChain_cons_cons.mp hnear).1
      simpa [Span.of] using hadjoins.lastOf_lt_firstOf_iff
  | cons first rest =>
      have hadjoins : Reader.Adjoins (lines source) element first :=
        (List.isChain_cons_cons.mp hnear).1
      have hfirst : first.line < Span.firstOf later :=
        List.rel_of_pairwise_cons (List.pairwise_cons.mp hfar).2 (by simp)
      exact iff_of_true (hadjoins.apart.1.trans hfirst) (Or.inl (List.cons_ne_nil _ _))

/-- The prose of the first scenario and the doc string of the second one stand below a comment that
waits for the next scenario.
-/
def overlappingSource : Text :=
  "Feature: f\n  Scenario: a\n    # note\n    prose\n  Scenario: b\n    Given y\n    # late\n"
    ++ "    \"\"\"\n    \"\"\"\n  Scenario: c\n"

/-- Both spans end in the next one, and the first one ends before the third one begins. -/
theorem spans_of_overlappingSource
    : ∃ tree, ofText overlappingSource = .ok tree
        ∧ ∃ a b c, tree.allElements = [a, b, c]
          ∧ ¬(Span.of a).last < (Span.of b).first
          ∧ ¬(Span.of b).last < (Span.of c).first
          ∧ (Span.of a).last < (Span.of c).first := by
  have haccepted : ofText overlappingSource = .ok _ := rfl
  obtain ⟨_, hpairs⟩ := spans_of_ofText haccepted
  refine ⟨_, rfl, _, _, _, rfl, ?_, ?_, ?_⟩
  · rw [hpairs [] _ [] _ _ rfl]
    decide
  · rw [hpairs [_] _ [] _ _ rfl]
    decide
  · rw [hpairs [] _ [_] _ _ rfl]
    exact Or.inl (List.cons_ne_nil _ _)

/-- The spans of an accepted file can overlap. -/
theorem not_forall_spans_disjoint
    : ¬∀ (source : Text) (tree : FeatureTree),
        ofText source = .ok tree
        → tree.allElements.Pairwise fun element later =>
            (Span.of element).last < (Span.of later).first := by
  intro h
  have hpairs := h overlappingSource _ rfl
  have hfirst := List.rel_of_pairwise_cons hpairs List.mem_cons_self
  revert hfirst
  decide

end FeatureTree

end SuiteScore.Gherkin
