import Mathlib.Data.List.DropRight
import Mathlib.Data.Option.Basic
import SuiteScore.Proofs.Gherkin.Extent

/-! The rules of feature files, said of the lines alone: what may stand where, by what is said
before it.
-/

namespace SuiteScore.Gherkin

open Text

-----------------------------------------------------------------------------------------
-- Kinds of lines
-----------------------------------------------------------------------------------------

namespace Line

def isFeature : Line → Bool
  | .feature _ => true
  | _ => false

def isExamples : Line → Bool
  | .examples .. => true
  | _ => false

def isStep : Line → Bool
  | .step .. => true
  | _ => false

def isBarred : Line → Bool
  | .row _ => true
  | _ => false

def isFence : Line → Bool
  | .fence _ => true
  | _ => false

/-- Whether a line may stand before the feature line. -/
def isPreface : Line → Bool
  | .blank => true
  | .comment _ => true
  | .tags _ => true
  | _ => false

end Line

/-- Whether a line of a kind is among those that are said. -/
def mentions (kind : Line → Bool) (said : List (Option Line)) : Bool :=
  said.any (·.any kind)

@[simp] theorem mentions_nil (kind : Line → Bool) : mentions kind [] = false := rfl

@[simp] theorem mentions_append (kind : Line → Bool) (front back : List (Option Line))
    : mentions kind (front ++ back) = (mentions kind front || mentions kind back) :=
  List.any_append

@[simp] theorem mentions_cons (kind : Line → Bool) (entry : Option Line) (rest : List (Option Line))
    : mentions kind (entry :: rest) = (entry.any kind || mentions kind rest) :=
  List.any_cons

/-- What is said after the last line of a kind, and everything when there is none. -/
def since (kind : Line → Bool) (said : List (Option Line)) : List (Option Line) :=
  said.rtakeWhile fun entry => !entry.any kind

@[simp] theorem since_nil (kind : Line → Bool) : since kind [] = [] := rfl

@[simp] theorem since_concat (kind : Line → Bool) (said : List (Option Line)) (entry : Option Line)
    : since kind (said ++ [entry]) = if entry.any kind then [] else since kind said ++ [entry] := by
  rw [since, List.rtakeWhile_concat]
  cases entry.any kind <;> rfl

-----------------------------------------------------------------------------------------
-- Places
-----------------------------------------------------------------------------------------

/-- The place of a line in an element: the keyword of the element, and what is said below its
keyword line and before the line.
-/
structure Place where
  keyword : ElementKeyword
  below : List (Option Line)

namespace Place

def after : Option Place → Option Line → Option Place
  | _, some (.element keyword _) => some { keyword, below := [] }
  | some place, entry => some { place with below := place.below ++ [entry] }
  | none, _ => none

def hasStep (place : Place) : Bool :=
  mentions Line.isStep place.below

def hasExamples (place : Place) : Bool :=
  mentions Line.isExamples place.below

@[simp] theorem hasStep_nil (keyword : ElementKeyword) : hasStep ⟨keyword, []⟩ = false := rfl

@[simp] theorem hasStep_concat (keyword : ElementKeyword) (below : List (Option Line))
    (entry : Option Line)
    : hasStep ⟨keyword, below ++ [entry]⟩
      = (hasStep ⟨keyword, below⟩ || entry.any Line.isStep) := by
  simp [hasStep]

@[simp] theorem hasExamples_nil (keyword : ElementKeyword)
    : hasExamples ⟨keyword, []⟩ = false := rfl

@[simp] theorem hasExamples_concat (keyword : ElementKeyword) (below : List (Option Line))
    (entry : Option Line)
    : hasExamples ⟨keyword, below ++ [entry]⟩
      = (hasExamples ⟨keyword, below⟩ || entry.any Line.isExamples) := by
  simp [hasExamples]

/-- Whether a row has a table to go to: that of examples, or that of a step without a doc string.
-/
def awaitsRow (place : Place) : Bool :=
  place.hasExamples
    || place.hasStep && !mentions Line.isFence (since Line.isStep place.below)

/-- Whether the last step has no argument and no examples follow it. -/
def awaitsDocString (place : Place) : Bool :=
  place.hasStep && !place.hasExamples
    && !mentions Line.isArgument (since Line.isStep place.below)

/-- Whether prose has a description to go to: that of the element before its first step or
examples, or that of examples before their first row.
-/
def awaitsProse (place : Place) : Bool :=
  !place.hasStep && !place.hasExamples
    || place.hasExamples && !mentions Line.isBarred (since Line.isExamples place.below)

end Place

/-- The place after what is said, if this is in an element. -/
def placeOf (said : List (Option Line)) : Option Place :=
  said.foldl Place.after none

@[simp] theorem placeOf_concat (said : List (Option Line)) (entry : Option Line)
    : placeOf (said ++ [entry]) = Place.after (placeOf said) entry := by
  rw [placeOf, List.foldl_append]
  rfl

-----------------------------------------------------------------------------------------
-- Rules
-----------------------------------------------------------------------------------------

/-- Whether a line may follow what is said before it. The feature line, which stands first, and the
ends of doc strings have rules of their own.
-/
def Line.Follows (said : List (Option Line)) : Line → Prop
  | .blank => True
  | .comment _ => True
  | .tags tokens => ∀ token ∈ tokens, isTag token = true
  | .feature _ => True
  | .element keyword _ => keyword.kind = .background → placeOf said = none
  | .examples .. => ∃ place, placeOf said = some place ∧ place.keyword.kind = .outline
  | .step .. =>
    tagsWait said = false ∧ ∃ place, placeOf said = some place ∧ place.hasExamples = false
  | .row text => isRow text = true ∧ ∃ place, placeOf said = some place ∧ place.awaitsRow = true
  | .fence _ => ∃ place, placeOf said = some place ∧ place.awaitsDocString = true
  | .prose _ =>
    tagsWait said = false ∧ ∀ place, placeOf said = some place → place.awaitsProse = true

/-- The rules of a feature file. Lines of doc strings say nothing and have no rules but the one for
their closing delimiter.
-/
structure IsFeatureFile (lines : List Text) : Prop where
  /-- There is one feature line, and nothing but blanks, comments and tags before it. -/
  feature
    : ∃ before name after,
        readings none lines = before ++ some (.feature name) :: after
        ∧ (∀ line, some line ∈ before → line.isPreface = true)
        ∧ ∀ line, some line ∈ after → line.isFeature = false
  /-- Every line may follow what is said before it. -/
  rules
    : ∀ before line after, readings none lines = before ++ some line :: after → line.Follows before
  /-- Every doc string that is opened is closed. -/
  closed
    : ∀ before raw after fence,
        lines = before ++ raw :: after
        → reading (before.foldl fenceAfter none) raw = some (.fence fence)
        → ∃ last ∈ after, trim last = fence.text
  /-- No tags stand after the last line that can have them. -/
  settled : tagsWait (readings none lines) = false

end SuiteScore.Gherkin
