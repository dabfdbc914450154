import SuiteScore.Files.Tree
import SuiteScore.Glob.Pattern

/-! The paths of a file tree that a pattern matches. -/

namespace SuiteScore.Glob

open Text

/-- A place in a file tree: the path by which it was reached and the names that lead to it. -/
structure Place where
  path : Text
  names : List Text
deriving DecidableEq, Repr

namespace Place

/-- Where a pattern starts: an absolute one at the root, and others where one is. -/
def start (tree : FileTree) (absolute : Bool) : Place :=
  if absolute then ⟨"/", []⟩ else ⟨".", tree.here⟩

/-- The path of something in the directory at a place. Where one is needs no name. -/
def pathTo (place : Place) (part : Text) : Text :=
  if Path.components place.path = [.here] then part else Path.join place.path part

def descend (place : Place) (names : List Text) : Place :=
  names.foldl (fun place name => ⟨place.pathTo name, place.names ++ [name]⟩) place

def stay (place : Place) (path : Text) : Option Place :=
  if path = [] then none else some ⟨path, place.names⟩

/-- The directory above. Above the root there is the root again. -/
def leave (place : Place) (path : Text) : Place :=
  ⟨path, place.names.dropLast⟩

/-- The place that one part of a path leads to, if there is anything. -/
def enter (tree : FileTree) (place : Place) (part : Text) : Option Place :=
  if !tree.isDirectory place.names then none
  else if part = [] ∨ part = ("." : Text) then place.stay (place.pathTo part)
  else if part = (".." : Text) then some (place.leave (place.pathTo part))
  else
    let next := place.descend [part]
    if (tree.at? next.names).isSome then some next else none

def children (tree : FileTree) (place : Place) : List Place :=
  (tree.children place.names).map fun name => place.descend [name]

def below (tree : FileTree) (place : Place) : List Place :=
  (tree.below place.names).map place.descend

/-- The directory above a place and the one at it, where a part matches their special names. -/
def special (tree : FileTree) (place : Place) (part : Part) : List Place :=
  if part.startsWithDot && tree.isDirectory place.names then
    (if part.matchesName ".." then [place.leave (Path.join place.path "..")] else [])
      ++ (if part.matchesName "." then (place.stay (Path.join place.path ".")).toList else [])
  else []

def fits (part : Part) (place : Place) : Bool :=
  (Path.fileName? place.path).any part.matchesName

end Place

/-- The places that the parts of a pattern lead to from a place. Special names come before the names
in a directory. -/
def expandParts (tree : FileTree) (directoryOnly : Bool) : List Part → Place → List Place
  | [], place => if !directoryOnly || tree.isDirectory place.names then [place] else []
  | .literal name :: rest, place =>
    (place.enter tree name).toList.flatMap (expandParts tree directoryOnly rest)
  | .wild tokens :: rest, place =>
    (place.special tree (.wild tokens)
        ++ (place.children tree).filter (Place.fits (.wild tokens))).flatMap
      (expandParts tree directoryOnly rest)
  | [.directories], place => (place.below tree).filter fun found => tree.isDirectory found.names
  | .directories :: part :: rest, place =>
    ((place.below tree).filter (Place.fits part)).flatMap (expandParts tree directoryOnly rest)

/-- The paths that a pattern matches. -/
def Pattern.paths (tree : FileTree) (pattern : Pattern) : List Text :=
  (expandParts tree pattern.directoryOnly pattern.parts (.start tree pattern.absolute)).map (·.path)

def paths (tree : FileTree) (pattern : Text) : Except PatternError (List Text) :=
  (Pattern.ofText pattern).map (·.paths tree)

end SuiteScore.Glob
