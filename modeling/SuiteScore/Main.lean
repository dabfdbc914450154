import SuiteScore.CommandLine

/-! The program: it reads the files that a command line can lead to, and writes what the command
line makes of them. -/

namespace SuiteScore

open Text Settings

-----------------------------------------------------------------------------------------
-- What is read
-----------------------------------------------------------------------------------------

/-- The places that the parts of a path lead to one after another, with the first one. -/
def placesOn (names : List Text) : List Text → List (List Text)
  | [] => [names]
  | part :: parts => names :: placesOn (FileTree.namesAfter names part) parts

/-- The paths that the settings of a request can depend on. -/
def settingsPaths (request : Request) : List Text :=
  (upward (request.root.getD ".")).flatMap fun directory =>
    ((".git" : Text) :: configFiles.map (·.1)).map (Path.join directory)

/-- The names that the parts of a pattern start with. -/
def leadingNames : List Glob.Part → List Text
  | .literal name :: parts => name :: leadingNames parts
  | _ => []

/-- The names of a directory that holds all that a pattern can match. Parts that are no name lead
down, but for those that match the directory above. -/
def groundOf (tree : FileTree) (pattern : Glob.Pattern) : List Text :=
  let leading := leadingNames pattern.parts
  let names := leading.foldl FileTree.namesAfter (Glob.Place.start tree pattern.absolute).names
  let ups := (pattern.parts.drop leading.length).countP (·.matchesName "..")
  names.take (names.length - ups)

-----------------------------------------------------------------------------------------
-- Reading
-----------------------------------------------------------------------------------------

/-- The entries of a directory that names have led to, and those below them. What cannot be read is
left out. -/
partial def readBelow (names : List Text) (found : Array IO.FS.DirEntry)
    : IO (List (List Text × Entry)) := do
  let mut entries := []
  for entry in found do
    let below := names ++ [entry.fileName.toList]
    if ← entry.path.isDir then
      let deeper ← try entry.path.readDir catch _ => pure #[]
      entries := entries ++ [(below, .directory)] ++ (← readBelow below deeper)
    else
      try
        entries := entries ++ [(below, .file (← IO.FS.readBinFile entry.path))]
      catch _ => pure ()
  return entries

/-- The entry that names lead to, and those below it when they are asked for. -/
def readPlace (withBelow : Bool) (names : List Text) : IO (List (List Text × Entry)) := do
  let place := (← IO.currentDir) / String.ofList ("/" ++ joined "/" names)
  try
    if ← place.isDir then
      let below ← if withBelow then readBelow names (← place.readDir) else pure []
      return (names, .directory) :: below
    else return [(names, .file (← IO.FS.readBinFile place))]
  catch _ => return []

/-- Adds what lies on the way to some paths. -/
def readPaths (tree : FileTree) (paths : List Text) : IO FileTree := do
  let places := paths.flatMap fun path => placesOn (tree.startOf path) (path.splitOn '/')
  let entries ← places.eraseDups.flatMapM (readPlace false)
  return { tree with entries := tree.entries ++ entries }

/-- Adds all that a pattern can lead to. -/
def readPattern (tree : FileTree) (pattern : Glob.Pattern) : IO FileTree := do
  let start := (Glob.Place.start tree pattern.absolute).names
  let onTheWay ← (placesOn start (leadingNames pattern.parts)).flatMapM (readPlace false)
  let below ← readPlace true (groundOf tree pattern)
  return { tree with entries := tree.entries ++ onTheWay ++ below }

/-- Adds the files that a command looks at: those that its settings depend on, and for a score those
that the patterns of the settings can lead to. -/
def readFor (tree : FileTree) : Command → IO FileTree
  | .rules request => readPaths tree (settingsPaths request)
  | .score request => do
    let tree ← readPaths tree (settingsPaths request)
    match request.resolve tree with
    | .error _ => return tree
    | .ok settings =>
      let patterns := (settings.features ++ settings.support).filterMap fun pattern =>
        (Glob.Pattern.ofText (Path.join settings.root pattern)).toOption
      patterns.foldlM readPattern tree
  | _ => return tree

end SuiteScore

open SuiteScore in
def main (arguments : List String) : IO UInt32 := do
  let given := arguments.map String.toList
  let here := ((← IO.currentDir).toString.toList.splitOn '/').filter fun name => !name.isEmpty
  let nowhere : FileTree := { here, entries := [] }
  let tree ← ((Command.ofArguments given).map (readFor nowhere)).getD (pure nowhere)
  let noColor := (← IO.getEnv "NO_COLOR").isSome
  let outcome := runArguments tree noColor given
  IO.print (String.ofList outcome.output)
  IO.eprint (String.ofList outcome.errors)
  return outcome.code.toUInt32
