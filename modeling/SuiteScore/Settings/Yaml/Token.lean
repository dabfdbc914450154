import SuiteScore.Settings.Scalar

/-! The tokens of YAML files: what is written, with the bounds of blocks that indentation gives. -/

namespace SuiteScore.Settings.Yaml

/-- A token of a file. -/
inductive Token where
  /-- The version that the file is written in, and whether it is a known one. -/
  | version (isKnown : Bool)
  /-- What a handle of tags stands for. -/
  | handle (name start : Text)
  | documentStart
  | documentEnd
  /-- Where a list by indentation starts. -/
  | blockList
  /-- Where a map by indentation starts. -/
  | blockMap
  /-- Where a list or a map by indentation ends. -/
  | blockEnd
  | listStart
  | listEnd
  | mapStart
  | mapEnd
  /-- The dash before an item. -/
  | item
  | comma
  /-- Where a key starts. -/
  | key
  /-- Where the value of a key starts. -/
  | value
  | reference (name : Text)
  | anchor (name : Text)
  | tag (handle rest : Text)
  | scalar (style : Style) (text : Text)
deriving DecidableEq, Repr

end SuiteScore.Settings.Yaml
