import SuiteScore.Proofs.Gherkin.Growth
import SuiteScore.Proofs.Gherkin.SayAlike

/-! Reading does not depend on where lines stand in their file, nor on anything but what they say.
What is read from lines further down that say the same is the same further down, apart from the text
of doc strings.
-/

namespace SuiteScore.Gherkin

open Text

-----------------------------------------------------------------------------------------
-- Trees moved down
-----------------------------------------------------------------------------------------

def Comment.moved (down : Nat) (comment : Comment) : Comment :=
  { comment with line := comment.line + down }

def Tag.moved (down : Nat) (tag : Tag) : Tag :=
  { tag with line := tag.line + down }

def Row.moved (down : Nat) (row : Row) : Row :=
  { row with line := row.line + down, comments := row.comments.map (Comment.moved down) }

/-- An argument further down. The text of a doc string is left out. -/
def Argument.moved (down : Nat) : Argument → Argument
  | .table rows => .table (rows.map (Row.moved down))
  | .docString _ first last => .docString [] (first + down) (last + down)

def Step.moved (down : Nat) (step : Step) : Step :=
  { step with
    line := step.line + down
    comments := step.comments.map (Comment.moved down)
    argument := step.argument.map (Argument.moved down) }

def Examples.moved (down : Nat) (examples : Examples) : Examples :=
  { examples with
    tags := examples.tags.map (Tag.moved down)
    comments := examples.comments.map (Comment.moved down)
    line := examples.line + down
    rows := examples.rows.map (Row.moved down) }

def Element.moved (down : Nat) (element : Element) : Element :=
  { element with
    tags := element.tags.map (Tag.moved down)
    comments := element.comments.map (Comment.moved down)
    line := element.line + down
    steps := element.steps.map (Step.moved down)
    examples := element.examples.map (Examples.moved down) }

def FeatureTree.moved (down : Nat) (tree : FeatureTree) : FeatureTree :=
  { tree with
    tags := tree.tags.map (Tag.moved down)
    comments := tree.comments.map (Comment.moved down)
    line := tree.line + down
    background := tree.background.map (Element.moved down)
    elements := tree.elements.map (Element.moved down) }

def OpenDocString.moved (down : Nat) (docString : OpenDocString) : OpenDocString :=
  { docString with line := docString.line + down, content := [] }

/-- A reader of the same lines further down. -/
def Reader.moved (down : Nat) (reader : Reader) : Reader where
  feature := reader.feature.map (FeatureTree.moved down)
  current := reader.current.map (Element.moved down)
  comments := reader.comments.map (Comment.moved down)
  tags := reader.tags.map (Tag.moved down)
  docString := reader.docString.map (OpenDocString.moved down)

def GrammarError.moved (down : Nat) (error : GrammarError) : GrammarError :=
  { error with line := error.line + down }

/-- The outcome for the same lines further down. -/
def Reader.movedOutcome (down : Nat) : Except GrammarError Reader → Except GrammarError Reader
  | .error error => .error (error.moved down)
  | .ok reader => .ok (reader.moved down)

-----------------------------------------------------------------------------------------
-- Growth moved down
-----------------------------------------------------------------------------------------

theorem FeatureTree.moved_add (down : Nat) (tree : FeatureTree) (element : Element)
    : (tree.add element).moved down = (tree.moved down).add (element.moved down) := by
  unfold add
  have hk : (element.moved down).kind = element.kind := rfl
  rw [hk]
  split <;> simp [moved]

theorem FeatureTree.isBare_moved (down : Nat) (tree : FeatureTree)
    : (tree.moved down).isBare = tree.isBare := by
  simp [isBare, moved]

theorem Step.moved_addRow (down : Nat) (row : Row) (step : Step)
    : (step.addRow row).moved down = (step.moved down).addRow (row.moved down) := by
  obtain ⟨keyword, text, line, comments, argument⟩ := step
  cases argument with
  | none => rfl
  | some argument =>
      cases argument with
      | table rows => simp [addRow, moved, Argument.moved]
      | docString content first last => rfl

theorem Element.addRow_moved (down : Nat) (row : Row) (element : Element)
    : (element.moved down).addRow (row.moved down)
      = (element.addRow row).map (Element.moved down) := by
  have he : (element.moved down).examples.isEmpty = element.examples.isEmpty := by
    simp [moved]
  have hs : (element.moved down).steps.getLast? = element.steps.getLast?.map (Step.moved down) := by
    simp [moved]
  simp only [addRow, he, hs]
  split
  · have hm := map_amendLast (Examples.addRow row) (Examples.addRow (row.moved down))
      (f := Examples.moved down)
      (fun examples => by simp [Examples.addRow, Examples.moved]) element.examples
    simp [Except.map, moved, hm]
  · have hm := map_amendLast _ _ (Step.moved_addRow down row) element.steps
    cases element.steps.getLast? with
    | none => rfl
    | some step =>
        obtain ⟨keyword, text, line, comments, argument⟩ := step
        cases argument with
        | none => simp [Except.map, moved, Step.moved, hm]
        | some argument =>
            cases argument with
            | table rows => simp [Except.map, moved, Step.moved, Argument.moved, hm]
            | docString content first last => rfl

theorem Element.awaitsArgument_moved (down : Nat) (element : Element)
    : (element.moved down).awaitsArgument = element.awaitsArgument := by
  simp only [awaitsArgument, moved, List.isEmpty_map, List.getLast?_map, Option.any_map]
  congr 2
  funext step
  simp [Step.moved]

theorem Element.moved_attach (down : Nat) (argument : Argument) (element : Element)
    : (element.attach argument).moved down
      = (element.moved down).attach (argument.moved down) := by
  have hm := map_amendLast
    (fun step : Step => { step with argument := some argument })
    (fun step : Step => { step with argument := some (argument.moved down) })
    (f := Step.moved down) (fun step => rfl) element.steps
  simp [attach, moved, hm]

theorem Element.describe?_moved (down : Nat) (text : Text) (element : Element)
    : (element.moved down).describe? text = (element.describe? text).map (Element.moved down) := by
  have hm := map_amendLast
    (fun examples : Examples =>
      { examples with description := examples.description ++ [text] })
    (fun examples : Examples =>
      { examples with description := examples.description ++ [text] })
    (f := Examples.moved down) (fun examples => rfl) element.examples
  have hrows : (element.moved down).examples.getLast?.any (·.rows.isEmpty)
      = element.examples.getLast?.any (·.rows.isEmpty) := by
    simp only [moved, List.getLast?_map, Option.any_map]
    congr 1
    funext examples
    simp [Examples.moved]
  unfold describe?
  rw [hrows]
  simp only [moved, List.isEmpty_map]
  split
  · rfl
  · split
    · simp only [Option.map_some, moved, hm]
    · rfl

-----------------------------------------------------------------------------------------
-- Readers moved down
-----------------------------------------------------------------------------------------

namespace Reader

variable (down n : Nat) (reader : Reader)

theorem moved_closeElement
    : reader.closeElement.moved down = (reader.moved down).closeElement := by
  obtain ⟨feature, current, comments, tags, docString⟩ := reader
  cases feature with
  | none => rfl
  | some feature =>
      cases current with
      | none => rfl
      | some element => simp [closeElement, moved, FeatureTree.moved_add]

theorem addTags_moved (tokens : List Text)
    : (reader.moved down).addTags (n + down) tokens
      = movedOutcome down (reader.addTags n tokens) := by
  unfold addTags
  split
  · rfl
  · simp [movedOutcome, moved, Tag.moved]

theorem openFeature_moved (name : Text)
    : (reader.moved down).openFeature (n + down) name
      = movedOutcome down (reader.openFeature n name) := by
  obtain ⟨feature, current, comments, tags, docString⟩ := reader
  cases feature with
  | none => rfl
  | some feature => rfl

theorem openElement_moved (keyword : ElementKeyword) (name : Text)
    : (reader.moved down).openElement (n + down) keyword name
      = movedOutcome down (reader.openElement n keyword name) := by
  unfold openElement
  rw [← moved_closeElement]
  cases hf : reader.closeElement.feature with
  | none => simp [moved, hf, movedOutcome, GrammarError.moved]
  | some feature =>
      simp only [moved, hf, Option.map_some, FeatureTree.isBare_moved]
      split
      · rfl
      · simp [movedOutcome, moved, Element.moved]

theorem openExamples_moved (keyword : ExamplesKeyword) (name : Text)
    : (reader.moved down).openExamples (n + down) keyword name
      = movedOutcome down (reader.openExamples n keyword name) := by
  unfold openExamples
  cases hc : reader.current with
  | none => simp [moved, hc, movedOutcome, GrammarError.moved]
  | some element =>
      have hk : (element.moved down).kind = element.kind := rfl
      simp only [moved, hc, Option.map_some, hk]
      split
      · simp [movedOutcome, moved, Element.moved, Examples.moved]
      · rfl

theorem addStep_moved (keyword : StepKeyword) (text : Text)
    : (reader.moved down).addStep (n + down) keyword text
      = movedOutcome down (reader.addStep n keyword text) := by
  unfold addStep
  simp only [moved, List.isEmpty_map]
  split
  · rfl
  · cases hc : reader.current with
    | none => rfl
    | some element =>
        simp only [Option.map_some, Element.moved, List.isEmpty_map]
        split
        · simp [movedOutcome, moved, Element.moved, Step.moved]
        · rfl

theorem addRow_moved (text : Text)
    : (reader.moved down).addRow (n + down) text = movedOutcome down (reader.addRow n text) := by
  unfold addRow
  split
  · rfl
  · cases hc : reader.current with
    | none => simp [moved, hc, movedOutcome, GrammarError.moved]
    | some element =>
        have hrow := element.addRow_moved down
          { cells := cells text, line := n, comments := reader.comments }
        simp only [Row.moved] at hrow
        simp only [moved, hc, Option.map_some, hrow]
        cases element.addRow { cells := cells text, line := n, comments := reader.comments } with
        | error fault => rfl
        | ok grown => rfl

theorem openDocString_moved (fence : Fence)
    : (reader.moved down).openDocString (n + down) fence
      = movedOutcome down (reader.openDocString n fence) := by
  unfold openDocString
  have ha : (reader.moved down).current.any Element.awaitsArgument
      = reader.current.any Element.awaitsArgument := by
    simp only [moved, Option.any_map]
    congr 1
    funext element
    exact element.awaitsArgument_moved down
  rw [ha]
  split
  · rfl
  · rfl

theorem addProse_moved (text : Text)
    : (reader.moved down).addProse (n + down) text
      = movedOutcome down (reader.addProse n text) := by
  obtain ⟨feature, current, comments, tags, docString⟩ := reader
  simp only [addProse, moved, List.isEmpty_map]
  split
  · rfl
  · cases current with
    | some element =>
        simp only [Option.map_some, Element.describe?_moved]
        cases element.describe? text with
        | none => rfl
        | some described => rfl
    | none =>
        cases feature with
        | none => rfl
        | some feature =>
            simp only [Option.map_none, Option.map_some, FeatureTree.isBare_moved]
            split
            · rfl
            · rfl

theorem moved_closeDocString (docString : OpenDocString)
    : (reader.closeDocString docString n).moved down
      = (reader.moved down).closeDocString (docString.moved down) (n + down) := by
  cases hc : reader.current with
  | none => simp [closeDocString, moved, hc]
  | some element =>
      simp [closeDocString, moved, hc, Element.moved_attach, Argument.moved, OpenDocString.moved]

/-- A line outside doc strings does the same further down, by the kinds of lines. -/
theorem take_moved (line : Line)
    : (reader.moved down).take (n + down) line = movedOutcome down (reader.take n line) := by
  cases line with
  | blank => rfl
  | comment text => simp [take, movedOutcome, moved, Comment.moved]
  | tags tokens => exact addTags_moved down n reader tokens
  | feature name => exact openFeature_moved down n reader name
  | element keyword name => exact openElement_moved down n reader keyword name
  | examples keyword name => exact openExamples_moved down n reader keyword name
  | step keyword text => exact addStep_moved down n reader keyword text
  | row text => exact addRow_moved down n reader text
  | fence fence => exact openDocString_moved down n reader fence
  | prose text => exact addProse_moved down n reader text

/-- One reader is what the other would be further down, with the text of doc strings left out. -/
def Alike (down : Nat) (reader other : Reader) : Prop :=
  reader.moved down = other.moved 0

variable {down n reader}

/-- Alike readers have the same doc string open. -/
theorem Alike.docString_eq {other : Reader} (h : reader.Alike down other)
    : reader.docString.map (OpenDocString.moved down)
      = other.docString.map (OpenDocString.moved 0) :=
  congrArg docString h

/-- Alike readers have the same delimiter to wait for. -/
theorem Alike.openFence_eq {other : Reader} (h : reader.Alike down other)
    : reader.openFence = other.openFence := by
  have hd := congrArg (Option.map OpenDocString.fence) h.docString_eq
  rw [Option.map_map, Option.map_map] at hd
  exact hd

/-- Alike readers do the same with lines that say the same. Witness: outside doc strings the line is
read, and inside only the delimiter counts.
-/
theorem Alike.takeRaw {other : Reader} {raw line : Text} (h : reader.Alike down other)
    (hs : reading reader.openFence raw = reading reader.openFence line)
    (hf : fenceAfter reader.openFence raw = fenceAfter reader.openFence line)
    : movedOutcome down (reader.takeRaw n raw)
      = movedOutcome 0 (other.takeRaw (n + down) line) := by
  have hd := h.docString_eq
  unfold Reader.takeRaw
  cases hr : reader.docString with
  | none =>
      have ho : other.docString = none := by
        rw [hr] at hd
        simpa using hd.symm
      have hline : Line.of raw = Line.of line := by
        simpa [openFence, hr, reading] using hs
      rw [ho]
      calc movedOutcome down (reader.take n (Line.of raw))
          = (reader.moved down).take (n + down) (Line.of raw) := (take_moved down n reader _).symm
        _ = (other.moved 0).take (n + down + 0) (Line.of line) := by
          rw [h, hline]
          rfl
        _ = movedOutcome 0 (other.take (n + down) (Line.of line)) := take_moved 0 (n + down) other _
  | some opened =>
      rw [hr] at hd
      obtain ⟨found, ho, hfound⟩ := Option.map_eq_some_iff.mp hd.symm
      have hfence : opened.fence = found.fence := (congrArg OpenDocString.fence hfound).symm
      have hcloses : trim raw = found.fence.text ↔ trim line = found.fence.text := by
        simp only [openFence, hr, Option.map_some, fenceAfter, hfence] at hf
        split at hf <;> split at hf <;> simp_all
      simp only [ho, hfence, hcloses]
      split
      · have hclosed := moved_closeDocString 0 (n + down) other found
        rw [← h, hfound] at hclosed
        simp only [movedOutcome, moved_closeDocString, hclosed, Nat.add_zero]
      · have hsame := h
        simp only [Alike, moved, Reader.mk.injEq] at hsame
        have hpushed : OpenDocString.moved down { opened with content := opened.content ++ [raw] }
            = OpenDocString.moved 0 { found with content := found.content ++ [line] } := by
          simpa [OpenDocString.moved] using hfound.symm
        simp only [movedOutcome, moved, Option.map_some, Except.ok.injEq, Reader.mk.injEq]
        refine ⟨hsame.1, hsame.2.1, hsame.2.2.1, hsame.2.2.2.1, ?_⟩
        simpa only [hfence] using congrArg some hpushed

/-- Alike readers do the same with many lines that say the same, by induction on the lines. -/
theorem Alike.takeAll {other : Reader} {view : Text → Text} {lines others : List Text}
    (h : reader.Alike down other) (hs : SayAlike view reader.openFence lines others)
    : movedOutcome down (reader.takeAll n lines)
      = movedOutcome 0 (other.takeAll (n + down) others) := by
  induction lines generalizing reader other others n with
  | nil =>
      cases hs
      exact congrArg Except.ok h
  | cons raw rest ih =>
      cases hs with
      | @cons _ _ line _ more said opens _ later =>
          have hstep := h.takeRaw (n := n) said opens
          unfold Reader.takeAll
          cases hr : reader.takeRaw n raw with
          | error error =>
              cases ho : other.takeRaw (n + down) line with
              | error _ => simpa only [hr, ho] using hstep
              | ok after => rw [hr, ho] at hstep; cases hstep
          | ok next =>
              cases ho : other.takeRaw (n + down) line with
              | error _ => rw [hr, ho] at hstep; cases hstep
              | ok after =>
                  rw [hr, ho] at hstep
                  have hafter : next.Alike down after := Except.ok.inj hstep
                  rw [← (takes_of_takeRaw hr).openFence_eq] at later
                  have hall := ih (n := n + 1) hafter later
                  rwa [Nat.add_right_comm] at hall

/-- A reader leaves the same tree apart from the text of doc strings. -/
theorem finish_moved (reader : Reader)
    : (reader.moved 0).finish = reader.finish.map (FeatureTree.moved 0) := by
  have hclosed : (reader.moved 0).closeElement.feature
      = reader.closeElement.feature.map (FeatureTree.moved 0) := by
    rw [← moved_closeElement]
    rfl
  unfold finish
  rw [hclosed]
  simp only [moved]
  cases reader.docString with
  | some opened => rfl
  | none =>
      cases reader.tags with
      | cons tag rest => rfl
      | nil =>
          cases reader.closeElement.feature with
          | none => rfl
          | some tree => rfl

end Reader

/-- Sources whose lines say the same are refused with the same error, or they give the same tree
apart from the text of doc strings.
-/
theorem FeatureTree.ofText_alike {view : Text → Text} {source other : Text}
    (h : SayAlike view none (lines source) (lines other))
    : (ofText source).map (moved 0) = (ofText other).map (moved 0) := by
  have halike : Reader.start.Alike 0 Reader.start := rfl
  have hboth := halike.takeAll (n := 1) h
  unfold ofText
  cases hs : Reader.start.takeAll 1 (lines source) with
  | error error =>
      cases ho : Reader.start.takeAll 1 (lines other) with
      | error _ =>
          rw [hs, ho] at hboth
          exact congrArg Except.error (Except.error.inj hboth)
      | ok _ => rw [hs, ho] at hboth; cases hboth
  | ok reader =>
      cases ho : Reader.start.takeAll 1 (lines other) with
      | error _ => rw [hs, ho] at hboth; cases hboth
      | ok after =>
          rw [hs, ho] at hboth
          have hsame : reader.moved 0 = after.moved 0 := Except.ok.inj hboth
          simp only [← Reader.finish_moved, hsame]

end SuiteScore.Gherkin
