import SuiteScore.Text.Basic

/-! Paths as text, and the components that they are made of. -/

namespace SuiteScore.Path

open Text

-----------------------------------------------------------------------------------------
-- Components
-----------------------------------------------------------------------------------------

/-- The steps of a path: the root, the directory where one is, the one above, or a name. -/
inductive Component where
  | root
  | here
  | above
  | name (own : Text)
deriving DecidableEq, Repr

namespace Component

/-- The step that a part between two slashes stands for. An empty part and a dot are no step. -/
def ofPart? (part : Text) : Option Component :=
  if part = [] ∨ part = ("." : Text) then none
  else if part = (".." : Text) then some .above
  else some (.name part)

def text : Component → Text
  | root => "/"
  | here => "."
  | above => ".."
  | name own => own

/-- The place of a step in the order of steps: names come last, by their bytes. -/
def key : Component → Nat × Text
  | root => (0, [])
  | here => (1, [])
  | above => (2, [])
  | name own => (3, own)

def precedes (left right : Component) : Bool :=
  decide (left.key.1 < right.key.1)
    || (left.key.1 == right.key.1 && Text.precedes left.key.2 right.key.2)

end Component

/-- The steps of a path. A dot counts only as the first part. -/
def components (path : Text) : List Component :=
  match path with
  | '/' :: rest => .root :: (rest.splitOn '/').filterMap Component.ofPart?
  | _ =>
    match path.splitOn '/' with
    | [] => []
    | first :: rest =>
      (if first = ("." : Text) then [.here] else (Component.ofPart? first).toList)
        ++ rest.filterMap Component.ofPart?

def fileName? (path : Text) : Option Text :=
  match (components path).getLast? with
  | some (.name own) => some own
  | _ => none

-----------------------------------------------------------------------------------------
-- Order
-----------------------------------------------------------------------------------------

/-- Whether a list of steps comes before another: at the first difference the smaller step
decides, and a path comes before those below it. -/
def precedes : List Component → List Component → Bool
  | _, [] => false
  | [], _ :: _ => true
  | left :: lefts, right :: rights =>
    left.precedes right || (left == right && precedes lefts rights)

def same (left right : Text) : Bool :=
  components left == components right

def notAfter (left right : Text) : Bool :=
  !precedes (components right) (components left)

/-- The paths other than those with the steps of the one before them. -/
def withoutRepeats : Option Text → List Text → List Text
  | _, [] => []
  | last, path :: rest =>
    if last.any (same · path) then withoutRepeats last rest
    else path :: withoutRepeats (some path) rest

def sorted (paths : List Text) : List Text :=
  withoutRepeats none (paths.mergeSort notAfter)

-----------------------------------------------------------------------------------------
-- Joining and parents
-----------------------------------------------------------------------------------------

def isAbsolute (path : Text) : Bool :=
  path.head? == some '/'

/-- A path below another. An absolute path stays as it is. -/
def join (base path : Text) : Text :=
  if isAbsolute path then path
  else if base = [] ∨ base.getLast? = some '/' then base ++ path
  else base ++ "/" ++ path

/-- The start of a path that is no part between slashes: the root or a leading dot. -/
def splitStart (path : Text) : Text × Text :=
  match path with
  | '/' :: rest => ("/", rest)
  | ['.'] => (".", [])
  | '.' :: '/' :: rest => (".", '/' :: rest)
  | _ => ([], path)

/-- Drops the slashes and the dots between slashes from the end of a path, which is given from its
last character on. -/
def dropIdle : Text → Text
  | '/' :: rest => dropIdle rest
  | '.' :: '/' :: rest => dropIdle rest
  | ['.'] => []
  | other => other

/-- The path without its last step, as far as it is written. A leading dot has the empty path
above it, and nothing is above the root and the empty path. -/
def parent? (path : Text) : Option Text :=
  let (start, rest) := splitStart path
  match dropIdle rest.reverse with
  | [] => if start = ("." : Text) then some [] else none
  | reversed => some (start ++ (dropIdle (reversed.dropWhile (· != '/'))).reverse)

/-- What is left is no longer than there was. -/
theorem length_dropIdle_le (reversed : Text) : (dropIdle reversed).length ≤ reversed.length := by
  fun_induction dropIdle reversed with
  | case1 rest ih => exact Nat.le_succ_of_le ih
  | case2 rest ih => exact Nat.le_succ_of_le (Nat.le_succ_of_le ih)
  | case3 => exact Nat.zero_le _
  | case4 => exact Nat.le_refl _

/-- No slash is left at the end. -/
theorem dropIdle_ne_slash (reversed rest : Text) : dropIdle reversed ≠ '/' :: rest := by
  fun_induction dropIdle reversed with
  | case1 rest ih => exact ih
  | case2 rest ih => exact ih
  | case3 => simp
  | case4 other hs => exact fun he => hs _ he

/-- The start and the rest make up the path. -/
theorem splitStart_append (path : Text) : (splitStart path).1 ++ (splitStart path).2 = path := by
  unfold splitStart
  split <;> rfl

/-- A path is longer than the path above it, since its last step is not empty. -/
theorem length_of_parent? {path above : Text} (h : parent? path = some above)
    : above.length < path.length := by
  have hs := congrArg List.length (splitStart_append path)
  unfold parent? at h
  generalize splitStart path = parts at h hs
  obtain ⟨start, rest⟩ := parts
  have hi := length_dropIdle_le rest.reverse
  simp only [List.length_append, List.length_reverse] at hs hi
  dsimp only at h
  split at h
  · split at h
    · next he =>
        cases h
        subst he
        have : ("." : Text).length = 1 := rfl
        simp only [List.length_nil]
        omega
    · cases h
  · next reversed hr =>
      cases h
      cases hd : dropIdle rest.reverse with
      | nil => exact absurd hd hr
      | cons c left =>
          have hc : c ≠ '/' := fun he => dropIdle_ne_slash rest.reverse left (he ▸ hd)
          have hw := (List.dropWhile_sublist (l := left) (· != '/')).length_le
          have hj := length_dropIdle_le (left.dropWhile (· != '/'))
          rw [hd, List.length_cons] at hi
          simp only [List.dropWhile_cons, bne_iff_ne, ne_eq, hc, not_false_eq_true, if_true,
            List.length_append, List.length_reverse]
          omega

end SuiteScore.Path
