import SuiteScore.Settings.Yaml.Token

/-! From the tokens of a file to the tree that they write. Where readers take a number of steps,
four times the number of tokens is enough. -/

namespace SuiteScore.Settings.Yaml

open Text

-----------------------------------------------------------------------------------------
-- Trees
-----------------------------------------------------------------------------------------

/-- A node of the tree of a file. -/
inductive Node where
  | scalar (scalar : Scalar)
  /-- The node that an anchor with this number names. -/
  | reference (number : Nat)
  | list (items : List Node)
  | map (pairs : List (Node × Node))
deriving Repr

def Node.nothing : Node :=
  .scalar .nothing

/-- The tree of a document, and the nodes of its anchors by their numbers, those that start last
first. -/
structure Document where
  root : Node
  anchored : List (Nat × Node)
deriving Repr

/-- What is left of a file and known from what was read. -/
structure Source where
  /-- The tokens that are left. -/
  tokens : List Token
  /-- What the handles of tags stand for. -/
  handles : List (Text × Text)
  /-- The names of anchors with the numbers that they have now. -/
  names : List (Text × Nat)
  /-- The nodes of anchors, those that start last first. -/
  anchored : List (Nat × Node)

-----------------------------------------------------------------------------------------
-- Properties
-----------------------------------------------------------------------------------------

def Source.tag? (source : Source) (handle rest : Text) : Option Text :=
  if handle.isEmpty then some rest
  else (source.handles.find? fun entry => entry.1 = handle).map fun entry => entry.2 ++ rest

/-- What is said of a node before it. -/
structure Properties where
  anchor : Option Text
  tag : Option Text
deriving DecidableEq, Repr

def readProperties (source : Source) : Option (Properties × Source) :=
  let tagged (anchor : Option Text) (handle text : Text) (rest : List Token) :=
    (source.tag? handle text).map fun tag =>
      (({ anchor, tag := some tag } : Properties), { source with tokens := rest })
  match source.tokens with
  | .anchor name :: .tag handle text :: rest => tagged (some name) handle text rest
  | .tag handle text :: .anchor name :: rest => tagged (some name) handle text rest
  | .tag handle text :: rest => tagged none handle text rest
  | .anchor name :: rest =>
    some ({ anchor := some name, tag := none }, { source with tokens := rest })
  | _ => some ({ anchor := none, tag := none }, source)

/-- Gives an anchor its number, which is the number of names there were before. A name that is given
again gets a new number, which the next new name gets too; the node that starts last has it. -/
def Source.nameAnchor (name : Text) (source : Source) : Source :=
  let number := source.names.length
  { source with names := (name, number) :: source.names.filter fun entry => entry.1 != name }

/-- Notes the node of an anchor, which started before those noted since then. -/
def Source.noteAnchor (number : Nat) (node : Node) (before : List (Nat × Node)) (source : Source)
    : Source :=
  let since := source.anchored.take (source.anchored.length - before.length)
  { source with anchored := since ++ (number, node) :: before }

-----------------------------------------------------------------------------------------
-- Nodes
-----------------------------------------------------------------------------------------

/-- The places where a node can stand, which decide what it can be. -/
inductive Position where
  /-- Within brackets, where there are no blocks. -/
  | inner
  /-- Where a block can start. -/
  | outer
  /-- At a key or a value of a block, where the items of a list can start without a block of their
  own. -/
  | member
deriving DecidableEq, Repr

def isNext (tokens : List Token) (source : Source) : Bool :=
  source.tokens.head?.any tokens.contains

def Source.advance (source : Source) : Source :=
  { source with tokens := source.tokens.drop 1 }

mutual

def readNode : (steps : Nat) → Position → Source → Option (Node × Source)
  | 0, _, _ => none
  | steps + 1, position, source =>
    match source.tokens with
    | .reference name :: rest =>
      (source.names.find? fun entry => entry.1 = name).map fun entry =>
        (.reference entry.2, { source with tokens := rest })
    | _ =>
      (readProperties source).bind fun (properties, source) =>
        match properties.anchor with
        | none => readContent steps position properties source
        | some name =>
          (readContent steps position properties (source.nameAnchor name)).map
            fun (node, next) =>
              (node, next.noteAnchor source.names.length node source.anchored)

/-- A node after its properties. If there are any the node itself can be missing. -/
def readContent : (steps : Nat) → Position → Properties → Source → Option (Node × Source)
  | 0, _, _, _ => none
  | steps + 1, position, properties, source =>
    let missing : Option (Node × Source) :=
      if properties.anchor.isSome || properties.tag.isSome then
        some (.scalar { Scalar.nothing with tag := properties.tag }, source)
      else none
    match source.tokens with
    | .scalar style text :: _ =>
      some (.scalar { style, tag := properties.tag, text }, source.advance)
    | .listStart :: _ =>
      (readItems steps true source.advance).map fun (items, source) => (.list items, source)
    | .mapStart :: _ =>
      (readMembers steps true source.advance).map fun (pairs, source) => (.map pairs, source)
    | .item :: _ =>
      if position = .member then
        (readOpenItems steps source).map fun (items, source) => (.list items, source)
      else missing
    | .blockList :: _ =>
      if position = .inner then missing
      else (readBlockItems steps source.advance).map fun (items, source) => (.list items, source)
    | .blockMap :: _ =>
      if position = .inner then missing
      else (readBlockPairs steps source.advance).map fun (pairs, source) => (.map pairs, source)
    | _ => missing

def readNodeUnless : (steps : Nat) → Position → List Token → Source → Option (Node × Source)
  | 0, _, _, _ => none
  | steps + 1, position, ends, source =>
    if isNext ends source then some (.nothing, source) else readNode steps position source

/-- The value of a key: nothing if the sign before a value does not come next, or if one of some
tokens comes after it. -/
def readValue : (steps : Nat) → Position → List Token → Source → Option (Node × Source)
  | 0, _, _, _ => none
  | steps + 1, position, ends, source =>
    if isNext [.value] source then readNodeUnless steps position ends source.advance
    else some (.nothing, source)

/-- The items of a list in brackets, from the first or from after an item on. A key with its value
is an item too. -/
def readItems : (steps : Nat) → (isFirst : Bool) → Source → Option (List Node × Source)
  | 0, _, _ => none
  | steps + 1, isFirst, source =>
    if isNext [.listEnd] source then some ([], source.advance)
    else if !isFirst && !isNext [.comma] source then none
    else
      let source := if isFirst then source else source.advance
      if isNext [.listEnd] source then some ([], source.advance)
      else
        let item :=
          if isNext [.key] source then
            (readPair steps source.advance).map fun (pair, source) => (Node.map [pair], source)
          else readNode steps .inner source
        item.bind fun (item, source) =>
          (readItems steps false source).map fun (items, source) => (item :: items, source)

/-- A key with its value as an item of a list. A key that is missing takes the next token with
it. -/
def readPair : (steps : Nat) → Source → Option ((Node × Node) × Source)
  | 0, _ => none
  | steps + 1, source =>
    let key :=
      if isNext [.value, .comma, .listEnd] source then some (.nothing, source.advance)
      else readNode steps .inner source
    key.bind fun (key, source) =>
      (readValue steps .inner [.comma, .listEnd] source).map fun (value, source) =>
        ((key, value), source)

/-- The entries of a map in brackets, from the first or from after an entry on. -/
def readMembers : (steps : Nat) → (isFirst : Bool) → Source → Option (List (Node × Node) × Source)
  | 0, _, _ => none
  | steps + 1, isFirst, source =>
    if isNext [.mapEnd] source then some ([], source.advance)
    else if !isFirst && !isNext [.comma] source then none
    else
      let source := if isFirst then source else source.advance
      if isNext [.mapEnd] source then some ([], source.advance)
      else
        let pair :=
          if isNext [.key] source then
            (readNodeUnless steps .inner [.value, .comma, .mapEnd] source.advance).bind
              fun (key, source) =>
                (readValue steps .inner [.comma, .mapEnd] source).map fun (value, source) =>
                  ((key, value), source)
          else
            (readNode steps .inner source).map fun (key, source) => ((key, .nothing), source)
        pair.bind fun (pair, source) =>
          (readMembers steps false source).map fun (pairs, source) => (pair :: pairs, source)

def readBlockItems : (steps : Nat) → Source → Option (List Node × Source)
  | 0, _ => none
  | steps + 1, source =>
    if isNext [.blockEnd] source then some ([], source.advance)
    else if !isNext [.item] source then none
    else
      (readNodeUnless steps .outer [.item, .blockEnd] source.advance).bind
        fun (item, source) =>
          (readBlockItems steps source).map fun (items, source) => (item :: items, source)

/-- The items of a list without a block of its own, which ends where no item follows. -/
def readOpenItems : (steps : Nat) → Source → Option (List Node × Source)
  | 0, _ => none
  | steps + 1, source =>
    if !isNext [.item] source then some ([], source)
    else
      (readNodeUnless steps .outer [.item, .key, .value, .blockEnd] source.advance).bind
        fun (item, source) =>
          (readOpenItems steps source).map fun (items, source) => (item :: items, source)

def readBlockPairs : (steps : Nat) → Source → Option (List (Node × Node) × Source)
  | 0, _ => none
  | steps + 1, source =>
    if isNext [.blockEnd] source then some ([], source.advance)
    else if !isNext [.key] source then none
    else
      (readNodeUnless steps .member [.key, .value, .blockEnd] source.advance).bind
        fun (key, source) =>
          (readValue steps .member [.key, .value, .blockEnd] source).bind
            fun (value, source) =>
              (readBlockPairs steps source).map fun (pairs, source) =>
                ((key, value) :: pairs, source)

end

-----------------------------------------------------------------------------------------
-- Documents
-----------------------------------------------------------------------------------------

def knownHandles : List (Text × Text) :=
  [("!", "!"), ("!!", commonTag)]

/-- Reads the directives before a document: at most one version, which has to be known, and at most
one meaning of each handle. -/
def readDirectives : (hasVersion : Bool) → (handles : List (Text × Text)) → List Token
    → Option (List (Text × Text) × List Token)
  | hasVersion, handles, .version isKnown :: rest =>
    if hasVersion || !isKnown then none else readDirectives true handles rest
  | hasVersion, handles, .handle name start :: rest =>
    if handles.any fun entry => entry.1 = name then none
    else readDirectives hasVersion ((name, start) :: handles) rest
  | _, handles, rest => some (handles, rest)

def isExplicit (tokens : List Token) : Bool :=
  match tokens with
  | .version _ :: _ => true
  | .handle _ _ :: _ => true
  | .documentStart :: _ => true
  | _ => false

def isEdge (tokens : List Token) : Bool :=
  tokens.isEmpty || isExplicit tokens || tokens.head? == some .documentEnd

/-- The document that the tokens of a file write, if there are no more than one. A file without
tokens is an empty document. -/
def Document.ofTokens? (tokens : List Token) : Option Document :=
  let source (handles : List (Text × Text)) (tokens : List Token) : Source :=
    { tokens, handles, names := [], anchored := [] }
  let read :=
    if isExplicit tokens then
      (readDirectives false [] tokens).bind fun (handles, rest) =>
        match rest with
        | .documentStart :: rest =>
          let source := source (handles ++ knownHandles) rest
          if isEdge rest then some (.nothing, source)
          else readNode (4 * rest.length + 4) .outer source
        | _ => none
    else if tokens.isEmpty then some (.nothing, source [] [])
    else readNode (4 * tokens.length + 4) .outer (source knownHandles tokens)
  read.bind fun (root, source) =>
    if source.tokens.all (· == .documentEnd) then some { root, anchored := source.anchored }
    else none

end SuiteScore.Settings.Yaml
