import SuiteScore.Text.Basic

/-! Text with colours for a terminal. -/

namespace SuiteScore.Report

/-- How a piece of text is shown. -/
inductive Style where
  | plain
  | bold
  | red
  | green
  | yellow
  | gray
  | boldRed
deriving DecidableEq, Repr

/-- The sequence that changes how a terminal shows text, by its number. -/
def sequence (code : Text) : Text :=
  "\x1b[" ++ code ++ "m"

namespace Style

def around : Style → Text × Text
  | plain => ([], [])
  | bold => (sequence "1", sequence "0")
  | red => (sequence "31", sequence "39")
  | green => (sequence "32", sequence "39")
  | yellow => (sequence "33", sequence "39")
  | gray => (sequence "90", sequence "39")
  | boldRed => (sequence "1" ++ sequence "31", sequence "39" ++ sequence "0")

def paint (style : Style) (text : Text) : Text :=
  style.around.1 ++ text ++ style.around.2

end Style

/-- A piece of text that is shown in one way. -/
structure Piece where
  style : Style
  text : Text
deriving DecidableEq, Repr

def Piece.plain (text : Text) : Piece :=
  ⟨.plain, text⟩

def Piece.render (colored : Bool) (piece : Piece) : Text :=
  if colored then piece.style.paint piece.text else piece.text

def renderLine (colored : Bool) (pieces : List Piece) : Text :=
  pieces.flatMap (·.render colored) ++ "\n"

def renderLines (colored : Bool) (lines : List (List Piece)) : Text :=
  lines.flatMap (renderLine colored)

end SuiteScore.Report
