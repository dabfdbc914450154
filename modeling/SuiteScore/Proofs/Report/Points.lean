import SuiteScore.CommandLine
import SuiteScore.Proofs.Scan.Accounting
import SuiteScore.Proofs.Text.Cut
import SuiteScore.Proofs.Text.Decimal

/-! Points in reports. The figures are read back from the lines of a report, and every score is the
sum of the weights that stand under it.
-/

namespace SuiteScore

open Text Report

namespace Report

-----------------------------------------------------------------------------------------
-- Figures
-----------------------------------------------------------------------------------------

/-- What a line of a report says in points: the score of a target or what a rule adds to it, with
the blanks before it, or the score of the suite. Other lines are words.
-/
inductive Figure where
  | score (indent : Nat) (points : Int)
  | weight (indent : Nat) (points : Int)
  | sum (points : Int)
  | words
deriving DecidableEq, Repr

namespace Figure

/-- The integer that digits stand for, of any size. -/
def integer? : Text → Option Int
  | '-' :: digits => (nat? digits).map fun n => -(n : Int)
  | digits => (nat? digits).map Int.ofNat

/-- An integer that is written with its sign. -/
def signed? : Text → Option Int
  | '+' :: digits => (nat? digits).map Int.ofNat
  | '-' :: digits => (nat? digits).map fun n => -(n : Int)
  | _ => none

/-- What is read before a character, if it comes. -/
def before? (sep : Char) (read : Text → Option Int) (text : Text) : Option Int :=
  (cut? sep text).bind fun (front, _) => read front

/-- The start of the line with the score of the suite. -/
def summaryStart : Text := '—' :: (" Summary — score=" : Text)

/-- Reads the figure at the start of a line after some blanks: a score stands in brackets, and a
weight has a sign.
-/
def afterBlanks (indent : Nat) : Text → Figure
  | '[' :: rest => ((before? ']' integer? rest).map (score indent)).getD words
  | rest =>
    match summaryStart.isPrefixOf? rest with
    | some after => ((before? ' ' integer? after).map sum).getD words
    | none => ((before? ' ' signed? rest).map (weight indent)).getD words

def ofText (line : Text) : Figure :=
  afterBlanks (line.takeWhile (· == ' ')).length (line.dropWhile (· == ' '))

/-- What a line adds to the scores above it. -/
def points : Figure → Int
  | weight _ points => points
  | _ => 0

def weight? : Figure → Option Int
  | weight _ points => some points
  | _ => none

def isWeight (figure : Figure) : Bool :=
  figure.weight?.isSome

/-- Whether a line stands deeper than a line with some blanks before it. -/
def isUnder (indent : Nat) : Figure → Bool
  | score deeper _ => decide (indent < deeper)
  | weight deeper _ => decide (indent < deeper)
  | _ => false

/-- Whether a line is a score without blanks before it. -/
def isHeading : Figure → Bool
  | score 0 _ => true
  | _ => false

end Figure

/-- The text of a line without its styles. -/
def textOf (pieces : List Piece) : Text :=
  pieces.flatMap (·.text)

/-- The figure that a line is about. -/
def Line.figure : Line → Figure
  | score indent points _ _ _ => .score indent points
  | hit indent own => .weight indent own.contribution
  | error _ => .words
  | summary result => .sum result.totalScore

-----------------------------------------------------------------------------------------
-- Figures are read back
-----------------------------------------------------------------------------------------

namespace Figure

end Figure

def hitFigures (indent : Nat) (hits : List Hit) : List Figure :=
  hits.map fun hit => .weight indent hit.contribution

def targetFigures (indent : Nat) (target : TargetScore) : List Figure :=
  if target.hits.isEmpty then []
  else .score indent target.score :: hitFigures (indent + 4) target.hits

/-- What the score of a target shows, with the figures before and after it: the total of the
weights that stand deeper under it, and also of those directly under it when it is not the score
of a feature. The first scores without blanks before them are those of the features.
-/
structure AddsUp (features : Nat) (before : List Figure) (indent : Nat) (points : Int)
    (after : List Figure) : Prop where
  under : points = total Figure.points (after.takeWhile (Figure.isUnder indent))
  direct
    : (indent = 0 ∧ before.countP Figure.isHeading < features)
      ∨ points = total Figure.points (after.takeWhile Figure.isWeight)

/-- Every score among some figures adds up, with the figures before and after them. -/
def AllAddUp (features : Nat) (before figures after : List Figure) : Prop :=
  ∀ front indent points back, figures = front ++ .score indent points :: back →
    AddsUp features (before ++ front) indent points (back ++ after)

/-- Figures that end all that stands under a score. -/
def Ends (indent : Nat) (figures : List Figure) : Prop :=
  ∀ first ∈ figures.head?, first.isUnder indent = false ∧ first.isWeight = false

section

variable {features : Nat} {before after : List Figure}

/-- What adds up in two parts, each with the other next to it, adds up as a whole. -/
theorem AllAddUp.append {figures more : List Figure}
    (h : AllAddUp features before figures (more ++ after))
    (hmore : AllAddUp features (before ++ figures) more after)
    : AllAddUp features before (figures ++ more) after := by
  intro front indent points back hsplit
  rcases List.append_eq_append_iff.mp hsplit with ⟨middle, rfl, hback⟩ | ⟨middle, rfl, hback⟩
  · have hadds := hmore middle indent points back hback
    rwa [List.append_assoc] at hadds
  · cases middle with
    | nil =>
        -- The score is the first of the second part.
        have hadds := hmore [] indent points back hback.symm
        rwa [List.append_nil, List.append_nil] at hadds
    | cons first rest =>
        obtain ⟨rfl, rfl⟩ := List.cons.inj hback
        have hadds := h front indent points rest rfl
        rwa [← List.append_assoc] at hadds

theorem AllAddUp.cons {indent : Nat} {points : Int} {rest : List Figure}
    (h : AddsUp features before indent points (rest ++ after))
    (hrest : AllAddUp features (before ++ [.score indent points]) rest after)
    : AllAddUp features before (.score indent points :: rest) after := by
  intro front indent points back hsplit
  cases front with
  | nil =>
      cases hsplit
      rwa [List.append_nil]
  | cons first front =>
      obtain ⟨rfl, rfl⟩ := List.cons.inj hsplit
      have hadds := hrest front indent points back rfl
      rwa [List.append_assoc] at hadds

/-- What ends a score ends those that stand deeper too. -/
theorem Ends.deeper {indent deeper : Nat} (h : Ends indent after) (hle : indent ≤ deeper)
    : Ends deeper after := by
  intro first hfirst
  obtain ⟨hunder, hweight⟩ := h first hfirst
  refine ⟨?_, hweight⟩
  cases first with
  | score other points => simp [Figure.isUnder] at hunder ⊢; omega
  | weight other points => cases hweight
  | sum points | words => rfl

/-- Other targets with the same blanks before them end what stands under a target, by induction on
them.
-/
theorem Ends.targets {indent : Nat} (h : Ends indent after) (targets : List TargetScore)
    : Ends indent (targets.flatMap (targetFigures indent) ++ after) := by
  induction targets with
  | nil => exact h
  | cons first rest ih =>
      rw [List.flatMap_cons, List.append_assoc]
      unfold targetFigures
      split
      · exact ih
      · intro figure hfigure
        cases hfigure
        exact ⟨decide_eq_false (Nat.lt_irrefl indent), rfl⟩

end

end Report

end SuiteScore
