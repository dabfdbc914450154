import SuiteScore.Error
import SuiteScore.Support.Block
import SuiteScore.Target

/-! Hooks: code that runs before, after or around scenarios. -/

namespace SuiteScore.Support

open Text

-----------------------------------------------------------------------------------------
-- Headers
-----------------------------------------------------------------------------------------

/-- What the header of a hook says. -/
structure HookHeader where
  type : HookType
  tags : List Text
  parameters : List Text
deriving DecidableEq, Repr

namespace HookHeader

/-- Letters, digits and the underscore, all of ASCII. -/
def isIdentifier (c : Char) : Bool :=
  c.isAlphanum || c == '_'

/-- The type that the first word names, and the text after the word. -/
def readType (line : Text) : Except HookFault (HookType × Text) :=
  let word := line.takeWhile isIdentifier
  match HookType.words.find? fun entry => entry.1 = word with
  | some (_, type) => .ok (type, line.dropWhile isIdentifier)
  | none => .error (.unknownType word)

/-- The text between two quotes of one kind, and the text after it. -/
def readQuoted : Text → Except HookFault (Text × Text)
  | [] => .error .unquotedTag
  | c :: rest =>
    if c = '\x27' ∨ c = '\x22' then
      match cut? c rest with
      | some parts => .ok parts
      | none => .error .unclosedTag
    else .error .unquotedTag

/-- A quoted text leaves less than there was. -/
theorem length_of_readQuoted {text tag rest : Text} (h : readQuoted text = .ok (tag, rest))
    : rest.length < text.length := by
  unfold readQuoted at h
  split at h
  · cases h
  · split at h
    · split at h
      · next hp =>
          cases h
          exact Nat.lt_succ_of_lt (length_of_cut? hp)
      · cases h
    · cases h

/-- A quoted text and the comma after it leave less than there was, blanks aside. -/
theorem length_after_comma {text opened tag afterTag more : Text} (ht : trimStart text = opened)
    (hq : readQuoted opened = .ok (tag, afterTag)) (hm : trimStart afterTag = ',' :: more)
    : more.length < text.length := by
  have hl := length_of_readQuoted hq
  have ha := length_trimStart_le text
  have hb := length_trimStart_le afterTag
  rw [ht] at ha
  rw [hm, List.length_cons] at hb
  omega

/-- The quoted tags up to the closing parenthesis, separated by commas, and the text after it. A
comma can also stand before the parenthesis. -/
def readTags (text : Text) : Except HookFault (List Text × Text) :=
  match ht : trimStart text with
  | ')' :: rest => .ok ([], rest)
  | opened =>
    match hq : readQuoted opened with
    | .error fault => .error fault
    | .ok (tag, afterTag) =>
      match hm : trimStart afterTag with
      | ',' :: more =>
        have : more.length < text.length := length_after_comma ht hq hm
        match readTags more with
        | .error fault => .error fault
        | .ok (tags, rest) => .ok (tag :: tags, rest)
      | ')' :: more => .ok ([tag], more)
      | _ => .error .unseparatedTag
termination_by text.length

/-- The tags in parentheses, if there are any, and the text after them. -/
def readTagList (text : Text) : Except HookFault (List Text × Text) :=
  match trimStart text with
  | '(' :: rest =>
    match readTags rest with
    | .error fault => .error fault
    | .ok (tags, rest) => .ok (tags, trimStart rest)
  | other => .ok ([], other)

def readDo (text : Text) : Except HookFault Text :=
  match ("do" : Text).isPrefixOf? text with
  | some rest => if rest.head?.any isIdentifier then .error .noDo else .ok (trimStart rest)
  | none => .error .noDo

/-- The parameters between bars, if there are any, and the text after them. -/
def readParameters (text : Text) : Except HookFault (List Text × Text) :=
  match text with
  | '|' :: rest =>
    match cut? '|' rest with
    | some (names, rest) => .ok (commaPieces names, trimStart rest)
    | none => .error .unclosedParameters
  | other => .ok ([], other)

/-- Nothing but a comment follows a header. -/
def readEnd (text : Text) : Except HookFault Unit :=
  match text with
  | [] => .ok ()
  | '#' :: _ => .ok ()
  | other => .error (.textAfterDo other)

def ofLine (line : Text) : Except HookFault HookHeader := do
  let (type, afterType) ← readType line
  let (tags, afterTags) ← readTagList afterType
  let afterDo ← readDo afterTags
  let (parameters, rest) ← readParameters afterDo
  readEnd rest
  return { type, tags, parameters }

end HookHeader

-----------------------------------------------------------------------------------------
-- Hooks
-----------------------------------------------------------------------------------------

/-- A hook with the lines of its body, comments apart from code. Hooks have no name. -/
structure Hook extends Target where
  type : HookType
  parameters : List Text
  code : List Text
  comments : List Text
deriving DecidableEq, Repr

namespace Hook

def partsOf (lines : List Text) : Except HookFault (HookHeader × BlockParts) :=
  match BlockParts.ofLines lines with
  | .error fault => .error (.block fault)
  | .ok parts => (HookHeader.ofLine parts.header).map (·, parts)

def ofParts (location : Text) (header : HookHeader) (parts : BlockParts) : Hook where
  location
  name := []
  tags := header.tags
  type := header.type
  parameters := header.parameters
  code := parts.code
  comments := parts.comments

def ofBlock (location : Text) (lines : List Text) : Except SuiteError Hook :=
  match partsOf lines with
  | .error fault => .error (.hook location fault)
  | .ok (header, parts) => .ok (ofParts location header parts)

def isAround (hook : Hook) : Bool :=
  hook.type == .around

/-- Whether a line calls what a name stands for, with no letter, digit or underscore next to the
call. Occurrences of the call are taken from the left, as far as they do not overlap. -/
def callsIn (name line : Text) : Bool :=
  let isFree (c : Option Char) : Bool := !c.any fun c => isAlphanumeric c || c == '_'
  (occurrences (name ++ ".call") 0 none line).any fun (before, after) =>
    isFree before && isFree after.head?

def callsBlock (hook : Hook) : Bool :=
  match hook.parameters[1]? with
  | some block => hook.code.any (callsIn block)
  | none => false

def tagTokens (hook : Hook) : List Text :=
  hook.tags.flatMap commaPieces

def hasConflictingTags (hook : Hook) : Bool :=
  hook.tagTokens.any fun token =>
    token.head? != some '~' && hook.tagTokens.contains ('~' :: token)

def hasRepetition : List Text → Bool
  | [] => false
  | first :: rest => rest.contains first || hasRepetition rest

def hasDuplicateTags (hook : Hook) : Bool :=
  hasRepetition hook.tagTokens

def isBegin (line : Text) : Bool :=
  line == ("begin" : Text) || (" begin" : Text).isSuffixOf line

def isRescue (line : Text) : Bool :=
  line == ("rescue" : Text) || ("rescue " : Text).isPrefixOf line

/-- Whether the code starts a guarded block and later catches exceptions. -/
def hasExceptionGuard (hook : Hook) : Bool :=
  ((hook.code.dropWhile fun line => !isBegin line).drop 1).any isRescue

/-- Whether no exception can leave the hook unseen: it has no code or guards it. -/
def rescues (hook : Hook) : Bool :=
  hook.code.isEmpty || hook.hasExceptionGuard

/-- Whether two hooks declare and do the same, wherever they are. -/
def sameDefinition (hook other : Hook) : Bool :=
  hook.type == other.type && hook.tags == other.tags && hook.parameters == other.parameters
    && hook.code == other.code

end Hook

end SuiteScore.Support
