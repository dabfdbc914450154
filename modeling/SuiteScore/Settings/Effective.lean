import SuiteScore.Files.Tree
import SuiteScore.Settings.Config

/-! The settings in effect: those of the command line, then those of the settings file at the root
of the repository, then the defaults. -/

namespace SuiteScore.Settings

open Text

/-- The names of settings files. Of several in one directory the first counts. -/
def configFiles : List (Text × Format) :=
  [("bddscore.toml", .toml), ("bddscore.yaml", .yaml), ("bddscore.yml", .yaml)]

def holds (tree : FileTree) (directory name : Text) : Bool :=
  tree.contains (Path.join directory name)

def isRoot (tree : FileTree) (directory : Text) : Bool :=
  configFiles.any (fun (name, _) => holds tree directory name) || holds tree directory ".git"

/-- A path and the paths above it, from the lowest to the highest. -/
def upward (path : Text) : List Text :=
  path :: match h : Path.parent? path with
    | some above =>
      have : above.length < path.length := Path.length_of_parent? h
      upward above
    | none => []
termination_by path.length

/-- The lowest root of a repository from a path upward, or the path itself. -/
def rootFrom (tree : FileTree) (start : Text) : Text :=
  ((upward start).find? (isRoot tree)).getD start

/-- The settings file of a directory and its format, if there is one. -/
def configFile? (tree : FileTree) (root : Text) : Option (Text × Format) :=
  (configFiles.find? fun (name, _) => holds tree root name).map fun (name, format) =>
    (Path.join root name, format)

/-- Reads the settings file of a directory. A file that is there must be readable and in order. -/
def load (tree : FileTree) (root : Text) : Except SuiteError Config :=
  match configFile? tree root with
  | none => .ok .empty
  | some (path, format) =>
    match tree.read path with
    | .error fault => .error (.unreadable path fault)
    | .ok text =>
      match Config.ofText? format text with
      | some config => .ok config
      | none => .error (.config path)

/-- What the command line asks for. -/
structure Request where
  root : Option Text
  output : Option Text
  features : List Text
  threshold : Option Int
deriving DecidableEq, Repr

/-- The settings that a scan works with. -/
structure Effective where
  root : Text
  features : List Text
  support : List Text
  output : Text
  threshold : Option Int
  overrides : Overrides
deriving DecidableEq, Repr

def defaultFeatures : List Text := ["features/**/*.feature"]

def defaultSupport : List Text := ["features/**/*.rb"]

def defaultOutput : Text := "human"

/-- Fills what the command line leaves open from the settings file, and the rest by defaults. -/
def Request.complete (request : Request) (root : Text) (config : Config) : Effective where
  root
  features :=
    if request.features.isEmpty then config.features.getD defaultFeatures else request.features
  support := config.support.getD defaultSupport
  output := (request.output <|> config.output).getD defaultOutput
  threshold := request.threshold <|> config.threshold
  overrides := config.overrides

def Request.resolve (request : Request) (tree : FileTree) : Except SuiteError Effective :=
  let root := rootFrom tree (request.root.getD ".")
  (load tree root).map (request.complete root)

end SuiteScore.Settings
