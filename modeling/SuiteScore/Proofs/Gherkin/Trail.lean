import SuiteScore.Proofs.Gherkin.Lead
import SuiteScore.Proofs.Gherkin.Moved

/-! Two readers of the same lines in different features. While an element grows the feature does not
count. Before that, idle lines leave the same comments and tags waiting, and rows and doc strings
need an element.
-/

namespace SuiteScore.Gherkin

open Text

namespace Reader

variable {reader next alone early : Reader} {feature : Option FeatureTree} {down n : Nat}
  {raw line : Text}

-----------------------------------------------------------------------------------------
-- While an element grows
-----------------------------------------------------------------------------------------

/-- The same reader in another feature. -/
def inFeature (feature : Option FeatureTree) (reader : Reader) : Reader :=
  { reader with feature }

/-- What a line says does the same in every feature while an element grows, unless it is a heading,
by the kinds of lines.
-/
theorem take_inFeature {element : Element} {line : Line} (hc : reader.current = some element)
    (hl : line.isHeading = false)
    : (reader.inFeature feature).take n line = (reader.take n line).map (inFeature feature) := by
  unfold inFeature
  cases line with
  | blank => rfl
  | comment text => rfl
  | tags tokens =>
      simp only [take, addTags]
      split <;> rfl
  | feature name => cases hl
  | element keyword name => cases hl
  | examples keyword name =>
      simp only [take, openExamples, hc]
      split <;> rfl
  | step keyword text =>
      simp only [take, addStep, hc]
      split
      · rfl
      · split <;> rfl
  | row text =>
      simp only [take, addRow, hc]
      split
      · rfl
      · split <;> rfl
  | fence fence =>
      simp only [take, openDocString]
      split <;> rfl
  | prose text =>
      simp only [take, addProse, hc]
      split
      · rfl
      · split <;> rfl

/-- A line that is no heading does the same in every feature while an element grows. -/
theorem takeRaw_inFeature {element : Element} (hc : reader.current = some element)
    (hl : ∀ line, reading reader.openFence raw = some line → line.isHeading = false)
    : (reader.inFeature feature).takeRaw n raw
      = (reader.takeRaw n raw).map (inFeature feature) := by
  unfold takeRaw
  have hsame : (reader.inFeature feature).docString = reader.docString := rfl
  rw [hsame]
  cases hd : reader.docString with
  | some opened =>
      simp only
      split <;> rfl
  | none => exact take_inFeature hc (hl _ (reading_of_outside hd))

/-- Lines without a heading do the same in every feature while an element grows, by induction on the
lines.
-/
theorem takeAll_inFeature {lines : List Text} {element : Element}
    (hc : reader.current = some element)
    (hl : ∀ line, some line ∈ readings reader.openFence lines → line.isHeading = false)
    (h : reader.takeAll n lines = .ok next)
    : (reader.inFeature feature).takeAll n lines = .ok (next.inFeature feature) := by
  induction lines generalizing reader n element with
  | nil => cases h; rfl
  | cons raw rest ih =>
      obtain ⟨middle, hr, hrest⟩ := exists_of_takeAll_cons h
      have hfirst : ∀ line, reading reader.openFence raw = some line → line.isHeading = false :=
        fun line hline => hl line (by simp [readings, hline])
      have htakes := takes_of_takeRaw hr
      have hhead := htakes.head_eq hfirst
      rw [hc, Option.map_some] at hhead
      obtain ⟨grown, hg, _⟩ := Option.map_eq_some_iff.mp hhead
      have hmoved : (reader.inFeature feature).takeRaw n raw
          = (reader.takeRaw n raw).map (inFeature feature) := takeRaw_inFeature hc hfirst
      rw [hr] at hmoved
      rw [takeAll_cons_of hmoved]
      refine ih hg (fun line hline => hl line ?_) hrest
      rw [htakes.openFence_eq] at hline
      exact List.mem_cons_of_mem _ hline

-----------------------------------------------------------------------------------------
-- Before an element
-----------------------------------------------------------------------------------------

/-- Both readers are outside doc strings with the same comments and tags waiting since the reader
`early`, and the feature of `alone` has no element yet.
-/
structure Trails (down : Nat) (early alone reader : Reader) : Prop where
  outside : reader.docString = none
  apart : alone.docString = none
  vacant : alone.current = none
  bare : ∃ feature, alone.feature = some feature ∧ feature.isBare = true
  comments : reader.comments = early.comments ++ alone.comments.map (Comment.moved down)
  tags : reader.tags = early.tags ++ alone.tags.map (Tag.moved down)

/-- Where no tags wait, none wait for the other reader. -/
theorem Trails.tags_eq_nil (h : Trails down early alone reader) (hr : reader.tags = [])
    : alone.tags = [] := by
  have ht := h.tags.symm
  rw [hr, List.append_eq_nil_iff] at ht
  exact List.map_eq_nil_iff.mp ht.2

/-- Prose goes to the feature where no element grows, and leaves the same things waiting. -/
theorem Trails.take_prose {text : Text} (h : Trails down early alone reader) (ht : reader.tags = [])
    (hd : next.docString = reader.docString) (hc : next.comments = reader.comments)
    (htags : next.tags = reader.tags)
    : ∃ after, alone.take n (.prose text) = .ok after ∧ Trails down early after next := by
  obtain ⟨feature, hf, hb⟩ := h.bare
  have hnone := h.tags_eq_nil ht
  simp only [take, addProse, hnone, h.vacant, hf, hb, List.isEmpty_nil, Bool.not_true,
    Bool.false_eq_true, if_false, if_true]
  exact ⟨_, rfl, {
    outside := hd.trans h.outside
    apart := h.apart
    vacant := rfl
    bare := ⟨_, rfl, hb⟩
    comments := hc.trans h.comments
    tags := by rw [htags, h.tags, hnone]
  }⟩

/-- An idle line that one reader accepts is accepted by the other, and they stay together, by the
kinds of idle lines.
-/
theorem Trails.takeRaw (h : Trails down early alone reader) (ht : trim raw = trim line)
    (hi : (Line.of raw).isIdle = true) (hr : reader.takeRaw (n + down) raw = .ok next)
    : ∃ after, alone.takeRaw n line = .ok after ∧ Trails down early after next := by
  have hline : Line.of line = Line.of raw := by rw [Line.of, Line.of, ht]
  have htake : alone.takeRaw n line = alone.take n (Line.of raw) := by
    rw [Reader.takeRaw, h.apart, hline]
  rw [htake]
  cases takes_of_takeRaw hr with
  | content hd | close hd => rw [h.outside] at hd; cases hd
  | blank _ hl =>
      rw [hl]
      exact ⟨alone, rfl, h⟩
  | comment _ hl =>
      rw [hl]
      exact ⟨_, rfl, { h with comments := by simp [h.comments, Comment.moved] }⟩
  | tags _ hl hall =>
      rw [hl, take, addTags, List.find?_eq_none.mpr (by simpa using hall)]
      exact ⟨_, rfl, { h with tags := by simp [h.tags, Tag.moved] }⟩
  | feature _ hl | element _ hl | examples _ hl | step _ hl | row _ hl | fence _ hl =>
      rw [hl] at hi
      cases hi
  | elementProse _ hl htags => rw [hl]; exact h.take_prose htags rfl rfl rfl
  | featureProse _ hl htags => rw [hl]; exact h.take_prose htags rfl rfl rfl

/-- A row or the opening of a doc string is refused where no element grows. -/
theorem Trails.takeRaw_argument (h : Trails down early alone reader)
    (ha : (Line.of line).isArgument = true)
    : ∃ error, alone.takeRaw n line = .error error := by
  rw [Reader.takeRaw, h.apart]
  cases hl : Line.of line with
  | row text =>
      simp only [take, addRow, h.vacant]
      split
      · exact ⟨_, rfl⟩
      · exact ⟨_, rfl⟩
  | fence fence => exact ⟨⟨n, .docStringWithoutStep⟩, by simp [take, openDocString, h.vacant]⟩
  | blank | comment | tags | feature | element | examples | step | prose =>
      rw [hl] at ha
      cases ha

/-- Idle lines keep two readers together, by induction on the lines. -/
theorem Trails.takeAll {lines others : List Text} (h : Trails down early alone reader)
    (ht : lines.map trim = others.map trim)
    (hi : ∀ line, some line ∈ readings none lines → line.isIdle = true)
    (hr : reader.takeAll (n + down) lines = .ok next)
    : ∃ after, alone.takeAll n others = .ok after ∧ Trails down early after next := by
  induction lines generalizing reader alone others n with
  | nil =>
      have he : others = [] := by simpa using ht.symm
      subst he
      cases hr
      exact ⟨alone, rfl, h⟩
  | cons raw rest ih =>
      cases others with
      | nil => cases ht
      | cons line more =>
          obtain ⟨hline, hmore⟩ := List.cons.inj ht
          obtain ⟨middle, hone, hrest⟩ := exists_of_takeAll_cons hr
          rw [readings_cons_of_outside hone h.outside] at hi
          obtain ⟨after, ha, htrails⟩ := h.takeRaw hline (hi _ List.mem_cons_self) hone
          rw [takeAll_cons_of ha]
          refine ih htrails hmore (fun line hin => hi line ?_)
            (by rwa [Nat.add_right_comm] at hrest)
          rw [openFence, htrails.outside]
          exact List.mem_cons_of_mem _ hin

/-- Idle lines and arguments with at least one argument are refused where no element grows, by
induction on the lines up to the first argument.
-/
theorem Trails.takeAll_argument {lines others : List Text} (h : Trails down early alone reader)
    (ht : lines.map trim = others.map trim)
    (hl : ∀ line, some line ∈ readings none lines → line.isIdle = true ∨ line.isArgument = true)
    (ha : ∃ line, some line ∈ readings none lines ∧ line.isArgument = true)
    (hr : reader.takeAll (n + down) lines = .ok next)
    : ∃ error, alone.takeAll n others = .error error := by
  induction lines generalizing reader alone others n with
  | nil =>
      obtain ⟨line, hin, _⟩ := ha
      cases hin
  | cons raw rest ih =>
      cases others with
      | nil => cases ht
      | cons line more =>
          obtain ⟨hline, hmore⟩ := List.cons.inj ht
          obtain ⟨middle, hone, hrest⟩ := exists_of_takeAll_cons hr
          rw [readings_cons_of_outside hone h.outside] at hl ha
          have hsame : Line.of raw = Line.of line := by rw [Line.of, Line.of, hline]
          cases hfirst : (Line.of raw).isArgument with
          | true =>
              obtain ⟨error, he⟩ : ∃ error, alone.takeRaw n line = .error error :=
                h.takeRaw_argument (hsame ▸ hfirst)
              exact ⟨error, by simp only [Reader.takeAll, he]⟩
          | false =>
              have hidle : (Line.of raw).isIdle = true := by
                rcases hl _ List.mem_cons_self with hidle | hargument
                · exact hidle
                · rw [hfirst] at hargument
                  cases hargument
              obtain ⟨after, hafter, htrails⟩ := h.takeRaw hline hidle hone
              have hfence : middle.openFence = none := by rw [openFence, htrails.outside]; rfl
              rw [hfence] at hl ha
              rw [takeAll_cons_of hafter]
              refine ih htrails hmore (fun line hin => hl line (List.mem_cons_of_mem _ hin)) ?_
                (by rwa [Nat.add_right_comm] at hrest)
              obtain ⟨found, hin, hargument⟩ := ha
              rcases List.mem_cons.mp hin with hin | hin
              · cases hin
                rw [hfirst] at hargument
                cases hargument
              · exact ⟨found, hin, hargument⟩

end Reader

end SuiteScore.Gherkin
