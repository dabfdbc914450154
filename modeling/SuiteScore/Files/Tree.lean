import SuiteScore.Error
import SuiteScore.Path.Basic

/-! Trees of files, seen from a directory in them. -/

namespace SuiteScore

open Text

/-- What a name in a directory stands for. -/
inductive Entry where
  | directory
  | file (bytes : ByteArray)

/-- A file system: the names that lead from its root to the directory where one is, and its entries,
each with the names that lead to it from the root. A directory above an entry need not be listed.
Of two entries in one place the first counts, and what has something below it is a directory. -/
structure FileTree where
  here : List Text
  entries : List (List Text × Entry)

namespace FileTree

/-- A tree with nothing but the directory where one is. -/
def bare : FileTree where
  here := ["work"]
  entries := []

/-- To list no entries is to mean the bare tree. -/
instance : CoeDep (List α) [] FileTree := ⟨.bare⟩

/-- Puts an entry below the directory where one is. -/
def put (tree : FileTree) (names : List Text) (entry : Entry) : FileTree :=
  { tree with entries := (tree.here ++ names, entry) :: tree.entries }

def at? (tree : FileTree) (names : List Text) : Option Entry :=
  if names.isPrefixOf tree.here
      || tree.entries.any fun entry => names.isPrefixOf entry.1 && names != entry.1 then
    some .directory
  else (tree.entries.find? fun entry => entry.1 = names).map (·.2)

def isDirectory (tree : FileTree) (names : List Text) : Bool :=
  match tree.at? names with
  | some .directory => true
  | _ => false

/-- The lists of names that lead from a directory to what lies below it. -/
def below (tree : FileTree) (names : List Text) : List (List Text) :=
  let rests := (tree.here :: tree.entries.map (·.1)).filterMap fun found =>
    (names.isPrefixOf? found).filter fun rest => !rest.isEmpty
  (rests.flatMap fun rest => (List.range rest.length).map fun n => rest.take (n + 1)).eraseDups

def children (tree : FileTree) (names : List Text) : List Text :=
  (tree.below names).filterMap fun rest =>
    match rest with
    | [name] => some name
    | _ => none

/-- The names that a part of a path between its slashes leads to from a directory. Above the root
there is the root again. -/
def namesAfter (names : List Text) (part : Text) : List Text :=
  if part = [] ∨ part = ("." : Text) then names
  else if part = (".." : Text) then names.dropLast
  else names ++ [part]

/-- Follows the parts of a path, each from a directory. -/
def follow (tree : FileTree) : List Text → List Text → Option (List Text)
  | names, [] => some names
  | names, part :: parts =>
    if tree.isDirectory names then follow tree (namesAfter names part) parts else none

/-- Where a path starts: an absolute one at the root, and others in the directory where one is. -/
def startOf (tree : FileTree) (path : Text) : List Text :=
  if Path.isAbsolute path then [] else tree.here

/-- The names that a path leads to. The empty path leads nowhere. -/
def resolve? (tree : FileTree) (path : Text) : Option (List Text) :=
  if path = [] then none else tree.follow (tree.startOf path) (path.splitOn '/')

def entry? (tree : FileTree) (path : Text) : Option Entry :=
  (tree.resolve? path).bind tree.at?

def contains (tree : FileTree) (path : Text) : Bool :=
  (tree.entry? path).isSome

def hasFile (tree : FileTree) (path : Text) : Bool :=
  match tree.entry? path with
  | some (.file _) => true
  | _ => false

def read (tree : FileTree) (path : Text) : Except ReadFault Text :=
  match tree.entry? path with
  | none => .error .missing
  | some .directory => .error .isDirectory
  | some (.file bytes) =>
    match String.fromUTF8? bytes with
    | some text => .ok text.toList
    | none => .error .notUtf8

end FileTree

end SuiteScore
