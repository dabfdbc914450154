import SuiteScore.Total

/-! Text as the list of its characters, with the cuts and searches that every reader shares. -/

namespace SuiteScore

/-- Text is the list of its characters, so that every reader is a recursion on it. -/
abbrev Text := List Char

instance : Coe String Text := ⟨String.toList⟩

namespace Text

/-- The parts before and after the first `sep`, when there is one. -/
def cut? (sep : Char) : Text → Option (Text × Text)
  | [] => none
  | c :: rest =>
    if c = sep then some ([], rest)
    else (cut? sep rest).map fun (before, after) => (c :: before, after)

/-- A cut text is longer than the part after the cut, since the separator is in neither part. -/
theorem length_of_cut? {sep : Char} {text : Text} {parts : Text × Text}
    (h : cut? sep text = some parts)
    : parts.2.length < text.length := by
  induction text generalizing parts with
  | nil => cases h
  | cons c rest ih =>
      unfold cut? at h
      split at h
      · cases h
        exact Nat.lt_succ_self _
      · obtain ⟨found, hf, rfl⟩ := Option.map_eq_some_iff.mp h
        have hl := ih hf
        exact Nat.lt_succ_of_lt hl

/-- The parts before and after the last `sep`, when there is one. -/
def cutLast? (sep : Char) : Text → Option (Text × Text)
  | [] => none
  | c :: rest =>
    match cutLast? sep rest with
    | some (before, after) => some (c :: before, after)
    | none => if c = sep then some ([], rest) else none

def joined (sep : Text) (pieces : List Text) : Text :=
  List.intercalate sep pieces

def occurs (part : Text) : Text → Bool
  | [] => part.isEmpty
  | c :: rest => part.isPrefixOf (c :: rest) || occurs part rest

/-- Whether some position satisfies `test`, which is given the character before the position,
if any, and the text from the position on. -/
def anywhere (test : Option Char → Text → Bool) : Option Char → Text → Bool
  | before, [] => test before []
  | before, c :: rest => test before (c :: rest) || anywhere test (some c) rest

/-- The occurrences of `part` that do not overlap, from the left, each as the character before it
and the text after it. The number counts the characters that still belong to an occurrence found
before. -/
def occurrences (part : Text) : Nat → Option Char → Text → List (Option Char × Text)
  | _, _, [] => []
  | within + 1, _, c :: rest => occurrences part within (some c) rest
  | 0, before, c :: rest =>
    match part.isPrefixOf? (c :: rest) with
    | some after => (before, after) :: occurrences part (part.length - 1) (some c) rest
    | none => occurrences part 0 (some c) rest

/-- Replaces the occurrences of `old` that do not overlap, from the left. The number counts the
characters that still belong to an occurrence replaced before. -/
def replaceFrom (old new : Text) : Nat → Text → Text
  | _, [] => []
  | within + 1, _ :: rest => replaceFrom old new within rest
  | 0, c :: rest =>
    if old.isPrefixOf (c :: rest) then new ++ replaceFrom old new (old.length - 1) rest
    else c :: replaceFrom old new 0 rest

/-- Replaces every occurrence of `old`, which is not empty, by `new`. -/
def replace (old new text : Text) : Text :=
  replaceFrom old new 0 text

/-- The number of bytes that the text takes when it is stored. -/
def byteLength (text : Text) : Nat :=
  tally Char.utf8Size text

/-- The order of texts by their characters, which is also the order of their stored bytes. -/
def precedes (left right : Text) : Bool :=
  decide (left < right)

end Text

end SuiteScore
