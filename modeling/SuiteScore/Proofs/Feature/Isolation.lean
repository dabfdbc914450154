import SuiteScore.Proofs.Gherkin.Layout
import SuiteScore.Proofs.Gherkin.Trail
import SuiteScore.Proofs.Text.Lines
import SuiteScore.Scenario

/-! The lines of an element behind a header of their own. They can be read exactly if nothing in
them belongs to the element before and no tag in them waits for the element after; then they give
the same element.
-/

namespace SuiteScore.Gherkin

open Text

-----------------------------------------------------------------------------------------
-- Headers
-----------------------------------------------------------------------------------------

/-- Reads a feature from its lines. -/
def FeatureTree.ofLines (lines : List Text) : Except GrammarError FeatureTree :=
  match Reader.start.takeAll 1 lines with
  | .error error => .error error
  | .ok reader => reader.finish

namespace Reader

/-- The reader after the header of an isolated text. -/
def headed : Reader where
  feature := some {
    name := "isolated element"
    description := []
    tags := []
    comments := []
    line := 1
    background := none
    elements := [] }
  current := none
  comments := []
  tags := []
  docString := none

theorem takeRaw_header : start.takeRaw 1 Scenario.header = .ok headed := by
  rfl

/-- An empty last line does not change what is finished. -/
theorem finish_of_takeRaw_nil {reader next : Reader} {n : Nat}
    (h : reader.takeRaw n [] = .ok next)
    : next.finish = reader.finish := by
  cases takes_of_takeRaw h with
  | @content opened hd hr => simp [finish, hd]
  | @close opened hd hr =>
      obtain ⟨fence, line, content⟩ := opened
      cases fence <;> cases hr
  | blank => rfl
  | comment _ hl | tags _ hl | feature _ hl | element _ hl | examples _ hl | step _ hl | row _ hl
  | fence _ hl | elementProse _ hl | featureProse _ hl => cases hl

/-- An empty last line is always accepted. -/
theorem exists_takeRaw_nil (reader : Reader) (n : Nat)
    : ∃ next, reader.takeRaw n [] = .ok next := by
  unfold takeRaw
  split
  · split
    · exact ⟨_, rfl⟩
    · exact ⟨_, rfl⟩
  · exact ⟨reader, rfl⟩

end Reader

/-- An empty last line can be left out. -/
theorem FeatureTree.ofLines_withoutEmptyLast (pieces : List Text)
    : ofLines (withoutEmptyLast pieces) = ofLines pieces := by
  unfold withoutEmptyLast
  split
  · next hlast =>
      obtain ⟨front, rfl⟩ := List.getLast?_eq_some_iff.mp hlast
      rw [List.dropLast_concat, ofLines, ofLines, Reader.takeAll_append]
      cases hfront : Reader.start.takeAll 1 front with
      | error error => rfl
      | ok reader =>
          obtain ⟨next, hnext⟩ := reader.exists_takeRaw_nil (1 + front.length)
          simp only [Except.bind, Reader.takeAll, hnext]
          exact (Reader.finish_of_takeRaw_nil hnext).symm
  · rfl

-----------------------------------------------------------------------------------------
-- Nothing moves by zero
-----------------------------------------------------------------------------------------

theorem Comment.map_moved_zero (comments : List Comment)
    : comments.map (Comment.moved 0) = comments :=
  List.map_id comments

theorem Tag.map_moved_zero (tags : List Tag) : tags.map (Tag.moved 0) = tags :=
  List.map_id tags

/-- A feature without elements that has been moved stays where it is. -/
theorem FeatureTree.moved_zero_of_isBare {feature : FeatureTree} (down : Nat)
    (h : feature.isBare = true)
    : (feature.moved down).moved 0 = feature.moved down := by
  simp only [isBare, Bool.and_eq_true, Option.isNone_iff_eq_none, List.isEmpty_iff] at h
  simp only [moved, h.1, h.2, Option.map_none, List.map_nil, Tag.map_moved_zero,
    Comment.map_moved_zero, Nat.add_zero]

/-- A feature without elements has only the element that is added to it. -/
theorem FeatureTree.allElements_add_of_isBare {feature : FeatureTree} (element : Element)
    (h : feature.isBare = true)
    : (feature.add element).allElements = [element] := by
  simp only [isBare, Bool.and_eq_true, Option.isNone_iff_eq_none, List.isEmpty_iff] at h
  unfold add
  split <;> simp [allElements, h.1, h.2]

-----------------------------------------------------------------------------------------
-- Copies
-----------------------------------------------------------------------------------------

/-- Descriptions of examples can be left out before or after a move. -/
theorem Element.settled_moved (down : Nat) (element : Element)
    : (element.moved down).settled = element.settled.moved down := by
  simp only [settled, moved, List.map_map]
  rfl

/-- `one` is the element as it is read alone, `down` lines further up. The text of its doc strings
and the descriptions of its examples are left open, and a mere description can be cut off with the
span.
-/
structure Element.IsCopyOf (said : List (Option Line)) (down : Nat) (element one : Element)
    : Prop where
  same : one.settled.moved down = { element with description := one.description }.settled.moved 0
  described : one.description <+: element.description
  complete : element.isStepless = false → one.description = element.description
  prose : element.isStepless = true → one.description = proseOf (element.extentOf said)

namespace Layout

open Reader

variable {lines : List Text} {element : Element} (layout : Layout lines element)

/-- How many lines further down the span stands than behind a header. -/
def down (_ : Layout lines element) : Nat :=
  Span.firstOf element - 2

theorem length_old : layout.old.length = layout.down + 1 := by
  have htwo := layout.two_le_firstOf
  rw [layout.firstOf_eq] at htwo
  rw [down, layout.firstOf_eq]
  omega

/-- Behind the header nothing waits yet, and no element grows. -/
theorem trails_headed : Trails layout.down layout.idle headed layout.idle where
  outside := layout.isLead.outside
  apart := rfl
  vacant := rfl
  bare := ⟨_, rfl, rfl⟩
  comments := (List.append_nil _).symm
  tags := (List.append_nil _).symm

/-- The lead is read from its number behind a header on. -/
theorem takes_lead : layout.idle.takeAll (2 + layout.down) layout.lead = .ok layout.opener := by
  have htakes := layout.isLead.takes
  rwa [layout.length_old, Nat.add_assoc, Nat.add_comm] at htakes

/-- A disturbed lead is refused behind a header. -/
theorem lead_refused {others : List Text} (ht : layout.lead.map trim = others.map trim)
    (hd : element.isDisturbed (readings none lines) = true)
    : ∃ error, headed.takeAll 2 others = .error error := by
  refine layout.trails_headed.takeAll_argument ht layout.isLead.loose ?_ layout.takes_lead
  rw [Element.isDisturbed, layout.leadOf_eq, List.any_eq_true] at hd
  obtain ⟨said, hin, hargument⟩ := hd
  obtain ⟨line, rfl, hargument⟩ := (Option.any_eq_true _ _).mp hargument
  exact ⟨line, hin, hargument⟩

/-- Any other lead is taken behind a header, and the same comments and tags wait for the element.
Witness: what waits since before the lead would stand above the first line of the element.
-/
theorem lead_taken {others : List Text} (ht : layout.lead.map trim = others.map trim)
    (hd : element.isDisturbed (readings none lines) = false)
    : ∃ alone, headed.takeAll 2 others = .ok alone
        ∧ Trails layout.down headed alone layout.opener := by
  have hidle : ∀ line, some line ∈ readings none layout.lead → line.isIdle = true := by
    intro line hin
    rcases layout.isLead.loose line hin with hidle | hargument
    · exact hidle
    · rw [Element.isDisturbed, layout.leadOf_eq, List.any_eq_false] at hd
      exact absurd hargument (hd _ hin)
  obtain ⟨alone, halone, htrails⟩ := layout.trails_headed.takeAll ht hidle layout.takes_lead
  obtain ⟨hcomments, htags⟩ := waiting_lines layout.isLead.reached
  have hnocomments : layout.idle.comments = [] := by
    refine List.eq_nil_iff_forall_not_mem.mpr fun comment hin => ?_
    have hwaits : comment ∈ element.comments := by
      rw [layout.isSection.comments, htrails.comments]
      exact List.mem_append_left _ hin
    have hfirst := Span.firstOf_le_comment hwaits
    have hline := (hcomments comment hin).2
    rw [layout.firstOf_eq] at hfirst
    omega
  have hnotags : layout.idle.tags = [] := by
    refine List.eq_nil_iff_forall_not_mem.mpr fun tag hin => ?_
    have hwaits : tag ∈ element.tags := by
      rw [layout.isSection.tags, htrails.tags]
      exact List.mem_append_left _ hin
    have hfirst := Span.firstOf_le_tag hwaits
    have hline := (htags tag hin).2
    rw [layout.firstOf_eq] at hfirst
    omega
  exact ⟨alone, halone, { htrails with
    comments := by rw [htrails.comments, hnocomments]; rfl
    tags := by rw [htrails.tags, hnotags]; rfl }⟩

/-- The keyword line begins the same element behind a header. -/
theorem heading_taken {alone : Reader} {title : Text} {n : Nat}
    (h : Trails layout.down headed alone layout.opener) (ht : trim layout.heading = trim title)
    (hn : n + layout.down = (layout.old ++ layout.lead).length + 1)
    : ∃ begun, ∃ feature : FeatureTree, alone.takeRaw n title = .ok begun
        ∧ feature.isBare = true
        ∧ begun.Alike layout.down
          (layout.opened.inFeature (some (feature.moved layout.down))) := by
  obtain ⟨feature, hfeature, hbare⟩ := h.bare
  have hreads : Line.of title = .element element.keyword element.name := by
    rw [Line.of, ← ht]
    exact layout.isSection.reads
  obtain ⟨ofeature, current, comments, tags, docString⟩ := alone
  have hapart : docString = none := h.apart
  have hvacant : current = none := h.vacant
  have hopen : ofeature = some feature := hfeature
  subst hapart hvacant hopen
  refine ⟨{
    feature := some feature
    current := some {
      keyword := element.keyword
      name := element.name
      description := []
      tags
      comments
      line := n
      steps := []
      examples := [] }
    comments := []
    tags := []
    docString := none
  }, feature, ?_, hbare, ?_⟩
  · simp only [takeRaw, hreads, take, openElement, closeElement, hbare, Bool.not_true,
      Bool.false_eq_true, and_false, if_false]
  · obtain ⟨hnotags, hnocomments, hclosed⟩ := layout.isSection.bare
    have hcomments : element.comments = comments.map (Comment.moved layout.down) := by
      rw [layout.isSection.comments, h.comments]
      rfl
    have htags : element.tags = tags.map (Tag.moved layout.down) := by
      rw [layout.isSection.tags, h.tags]
      rfl
    simp only [Alike, moved, inFeature, layout.isSection.begun, hnotags, hnocomments, hclosed,
      Option.map_some, Option.map_none, List.map_nil, FeatureTree.moved_zero_of_isBare _ hbare,
      Element.moved, Element.head, hcomments, htags, Comment.map_moved_zero, Tag.map_moved_zero,
      layout.isSection.line, hn]

/-- The extent of an element ends behind a header as it does in the file: with the same element, and
with tags that wait there or none.
-/
structure EndsAlone (alone : Reader) : Prop where
  outside : alone.docString = none
  feature : ∃ feature, alone.feature = some feature ∧ feature.isBare = true
  grows : ∃ one, alone.current = some one ∧ one.moved layout.down = layout.last.moved 0
  tags : alone.tags.isEmpty = !element.leavesTags (readings none lines)

/-- The extent is taken behind a header, since only the element counts for it. -/
theorem extent_taken {begun : Reader} {feature : FeatureTree} {pieces : List Text} {n : Nat}
    (hb : feature.isBare = true)
    (h : begun.Alike layout.down (layout.opened.inFeature (some (feature.moved layout.down))))
    (ht : pieces.map trim = layout.kept.map trim)
    (hn : n + layout.down = (layout.old ++ layout.lead).length + 2)
    : ∃ alone, begun.takeAll n pieces = .ok alone ∧ layout.EndsAlone alone := by
  have hextent := layout.isExtent
  have hfence : layout.opened.openFence = none := by
    rw [openFence, layout.isSection.bare.2.2]
    rfl
  have hplain : ∀ line, some line ∈ readings layout.opened.openFence layout.kept
      → line.isHeading = false := by
    intro line hin
    rw [hfence] at hin
    refine layout.isSection.plain line ?_
    rw [readings_append]
    exact List.mem_append_left _ hin
  have hmoved : (layout.opened.inFeature (some (feature.moved layout.down))).takeAll
        ((layout.old ++ layout.lead).length + 2) layout.kept
      = .ok (layout.ended.inFeature (some (feature.moved layout.down))) :=
    takeAll_inFeature layout.isSection.begun hplain hextent.takes
  have hboth := h.takeAll (n := n) (.of_trim ht)
  rw [hn, hmoved] at hboth
  cases halone : begun.takeAll n pieces with
  | error error => rw [halone] at hboth; cases hboth
  | ok alone =>
      rw [halone] at hboth
      have hsame : alone.Alike layout.down
          (layout.ended.inFeature (some (feature.moved layout.down))) := Except.ok.inj hboth
      refine ⟨alone, rfl, ?_, ?_, ?_, ?_⟩
      · have hd := hsame.docString_eq
        simp only [inFeature, hextent.outside, Option.map_none, Option.map_eq_none_iff] at hd
        exact hd
      · have hf := congrArg Reader.feature hsame
        simp only [moved, inFeature, Option.map_some, FeatureTree.moved_zero_of_isBare _ hb] at hf
        obtain ⟨found, hfound, hf⟩ := Option.map_eq_some_iff.mp hf
        refine ⟨found, hfound, ?_⟩
        rw [← FeatureTree.isBare_moved layout.down, hf, FeatureTree.isBare_moved]
        exact hb
      · have hc := congrArg Reader.current hsame
        simp only [moved, inFeature, hextent.grows, Option.map_some] at hc
        exact Option.map_eq_some_iff.mp hc
      · have htags := congrArg (fun reader : Reader => reader.tags.isEmpty) hsame
        simp only [moved, inFeature, List.isEmpty_map] at htags
        rw [htags, tags_isEmpty_of_takeAll layout.isSection.bare.1 hextent.takes, hfence,
          Element.leavesTags, layout.extentOf_eq]

/-- The last element of an extent is a copy of the element. -/
theorem isCopyOf_of_moved {one : Element} (h : one.moved layout.down = layout.last.moved 0)
    : element.IsCopyOf (readings none lines) layout.down one := by
  have hextent := layout.isExtent
  have hdescription : (one.moved layout.down).description = (layout.last.moved 0).description :=
    congrArg Element.description h
  simp only [Element.moved] at hdescription
  refine ⟨?_, ?_, ?_, ?_⟩
  · rw [← Element.settled_moved, h, Element.settled_moved, hextent.same, hdescription]
  · rw [hdescription]
    exact hextent.described
  · rw [hdescription]
    exact hextent.complete
  · rw [hdescription, layout.extentOf_eq]
    exact hextent.prose

/-- Nothing is finished where tags wait. -/
theorem finish_of_tags {alone : Reader} (h : layout.EndsAlone alone)
    (ht : element.leavesTags (readings none lines) = true)
    : ∃ error, alone.finish = .error error := by
  have htags := h.tags
  rw [ht] at htags
  unfold Reader.finish
  rw [h.outside]
  cases hl : alone.tags with
  | nil => rw [hl] at htags; cases htags
  | cons tag rest => exact ⟨_, rfl⟩

/-- Where no tags wait, the feature of the header is finished with one element. -/
theorem finish_of_no_tags {alone : Reader} (h : layout.EndsAlone alone)
    (ht : element.leavesTags (readings none lines) = false)
    : ∃ tree one, alone.finish = .ok tree ∧ tree.allElements = [one]
        ∧ element.IsCopyOf (readings none lines) layout.down one := by
  obtain ⟨feature, hfeature, hb⟩ := h.feature
  obtain ⟨one, hone, hmoved⟩ := h.grows
  have htags : alone.tags = [] := by
    have he := h.tags
    rw [ht] at he
    exact List.isEmpty_iff.mp he
  refine ⟨feature.add one, one, ?_, FeatureTree.allElements_add_of_isBare one hb,
    layout.isCopyOf_of_moved hmoved⟩
  simp [Reader.finish, h.outside, htags, closeElement, hfeature, hone]

/-- The lines of an element behind a header are refused if its lead is disturbed or it leaves tags,
and otherwise they give a copy of the element and nothing else.
-/
theorem ofLines_isolated {block : List Text}
    (hb : block.map trim = ((Span.of element).cut lines).map trim)
    : (element.isDisturbed (readings none lines) || element.leavesTags (readings none lines)) = true
        ∧ (∃ error, FeatureTree.ofLines (Scenario.header :: block) = .error error)
      ∨ (element.isDisturbed (readings none lines)
            || element.leavesTags (readings none lines)) = false
        ∧ ∃ tree one, FeatureTree.ofLines (Scenario.header :: block) = .ok tree
            ∧ tree.allElements = [one]
            ∧ element.IsCopyOf (readings none lines) layout.down one := by
  obtain ⟨others, title, pieces, rfl, hothers, htitle, hpieces⟩ : ∃ others title pieces,
      block = others ++ title :: pieces ∧ layout.lead.map trim = others.map trim
        ∧ trim layout.heading = trim title ∧ pieces.map trim = layout.kept.map trim := by
    rw [layout.cut_eq, List.map_append, List.map_cons] at hb
    obtain ⟨others, later, rfl, hothers, hlater⟩ := List.map_eq_append_iff.mp hb
    obtain ⟨title, pieces, rfl, htitle, hpieces⟩ := List.map_eq_cons_iff.mp hlater
    exact ⟨others, title, pieces, rfl, hothers.symm, htitle.symm, hpieces⟩
  have hlength : others.length = layout.lead.length := by
    simpa using (congrArg List.length hothers).symm
  have hdown := layout.length_old
  rw [FeatureTree.ofLines, takeAll_cons_of takeRaw_header, takeAll_append]
  cases hdisturbed : element.isDisturbed (readings none lines) with
  | true =>
      obtain ⟨error, he⟩ := layout.lead_refused hothers hdisturbed
      exact Or.inl ⟨rfl, error, by rw [he]; rfl⟩
  | false =>
      obtain ⟨ready, hready, htrails⟩ := layout.lead_taken hothers hdisturbed
      obtain ⟨begun, feature, hbegun, hbare, halike⟩ :=
        layout.heading_taken (n := 2 + others.length) htrails htitle (by
          rw [List.length_append]
          omega)
      obtain ⟨alone, halone, hends⟩ :=
        layout.extent_taken (n := 2 + others.length + 1) hbare halike hpieces (by
          rw [List.length_append]
          omega)
      rw [hready]
      simp only [Except.bind, takeAll_cons_of hbegun, halone]
      cases hleaves : element.leavesTags (readings none lines) with
      | true => exact Or.inl ⟨rfl, layout.finish_of_tags hends hleaves⟩
      | false => exact Or.inr ⟨rfl, layout.finish_of_no_tags hends hleaves⟩

end Layout

end SuiteScore.Gherkin
