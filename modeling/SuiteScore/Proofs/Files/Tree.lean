import SuiteScore.Files.Tree
import SuiteScore.Proofs.Text.Split

/-! What files of a tree hold, where their paths lead, and trees that differ in what one file holds.
-/

namespace SuiteScore

/-- A file with a text. -/
def Entry.holding (source : Text) : Entry :=
  .file (String.ofList source).toUTF8

namespace FileTree

variable {names : List Text} {tree other : FileTree} {path : Text}

/-- A file is read as the text that it holds. -/
theorem read_of_holding {source : Text} (h : tree.entry? path = some (.holding source))
    : tree.read path = .ok source := by
  have hvalid : String.fromUTF8? (String.ofList source).toUTF8 = some (String.ofList source) :=
    dif_pos (String.ofList source).isValidUTF8
  rw [read, h]
  simp only [Entry.holding, hvalid, String.toList_ofList]

-----------------------------------------------------------------------------------------
-- Relative and absolute paths
-----------------------------------------------------------------------------------------

/-- What can stand for an entry in its directory. -/
def IsName (name : Text) : Prop :=
  name ≠ [] ∧ name ≠ ("." : Text) ∧ name ≠ (".." : Text) ∧ '/' ∉ name

/-- There are directories from the root to where one is. -/
theorem isDirectory_above (h : names <+: tree.here) : tree.isDirectory names = true := by
  simp [isDirectory, at?, List.isPrefixOf_iff_prefix.mpr h]

/-- The names that lead to the directory where one is can be followed, by induction on those that
are left. -/
theorem follow_here {front rest : List Text} (hhere : tree.here = front ++ rest)
    (hnames : ∀ name ∈ rest, IsName name) (parts : List Text)
    : tree.follow front (rest ++ parts) = tree.follow tree.here parts := by
  induction rest generalizing front with
  | nil => rw [hhere, List.append_nil, List.nil_append]
  | cons name rest ih =>
      obtain ⟨⟨hempty, hdot, hdots, _⟩, hrest⟩ := List.forall_mem_cons.mp hnames
      have hdirectory : tree.isDirectory front = true :=
        isDirectory_above ⟨name :: rest, hhere.symm⟩
      have hafter : namesAfter front name = front ++ [name] := by
        simp only [namesAfter, hempty, hdot, hdots, or_self, if_false]
      rw [List.cons_append, follow, if_pos hdirectory, hafter]
      exact ih (by rw [hhere, List.append_assoc]; rfl) hrest

/-- A path that is not absolute leads where the absolute path through the directory where one is
leads. -/
theorem resolve?_absolute (hhere : ∀ name ∈ tree.here, IsName name) (hne : path ≠ [])
    (hrelative : Path.isAbsolute path = false)
    : tree.resolve? (Text.joined "/" ([] :: tree.here ++ path.splitOn '/'))
      = tree.resolve? path := by
  have hslash : ∀ part ∈ [] :: tree.here ++ path.splitOn '/', '/' ∉ part := by
    intro part hin
    rcases List.mem_append.mp hin with hin | hin
    · rcases List.mem_cons.mp hin with rfl | hin
      · exact List.not_mem_nil
      · exact (hhere part hin).2.2.2
    · exact (Text.facts_of_mem_splitOn hin).2
  have hparts : (Text.joined "/" ([] :: tree.here ++ path.splitOn '/')).splitOn '/'
      = [] :: tree.here ++ path.splitOn '/' :=
    List.splitOn_intercalate '/' hslash (List.cons_ne_nil _ _)
  obtain ⟨first, rest, hrest⟩ := List.exists_cons_of_ne_nil
    (List.append_ne_nil_of_right_ne_nil tree.here (List.splitOn_ne_nil '/' path))
  have habsolute : Text.joined "/" ([] :: tree.here ++ path.splitOn '/')
      = '/' :: Text.joined "/" (tree.here ++ path.splitOn '/') := by
    rw [List.cons_append, hrest]
    rfl
  have hroot : tree.startOf ('/' :: Text.joined "/" (tree.here ++ path.splitOn '/')) = [] :=
    if_pos rfl
  have hstart : tree.startOf path = tree.here := if_neg (by rw [hrelative]; decide)
  rw [resolve?, resolve?, hparts, habsolute, if_neg (List.cons_ne_nil _ _), if_neg hne, hroot,
    hstart, List.cons_append, follow, if_pos (isDirectory_above List.nil_prefix)]
  exact follow_here rfl hhere _

-----------------------------------------------------------------------------------------
-- One file that differs
-----------------------------------------------------------------------------------------

/-- Two trees are seen from the same directory and have the same entries, but for what one file
holds. -/
structure DiffersOnlyIn (names : List Text) (tree other : FileTree) : Prop where
  start : tree.here = other.here
  here : ∃ bytes, tree.at? names = some (.file bytes)
  there : ∃ bytes, other.at? names = some (.file bytes)
  elsewhere : ∀ found, found ≠ names → tree.at? found = other.at? found

/-- To write a file anew changes nothing else in a tree, as long as nothing lies below it. -/
theorem differsOnlyIn_put (tree : FileTree) (hne : names ≠ [])
    (hlast : ∀ entry ∈ tree.entries, tree.here ++ names <+: entry.1 → tree.here ++ names = entry.1)
    (bytes others : ByteArray)
    : DiffersOnlyIn (tree.here ++ names) (tree.put names (.file bytes))
        (tree.put names (.file others)) := by
  have hhere : (tree.here ++ names).isPrefixOf tree.here = false := by
    rw [Bool.eq_false_iff, ne_eq, List.isPrefixOf_iff_prefix]
    intro hprefix
    have hlength := hprefix.length_le
    rw [List.length_append] at hlength
    exact hne (List.length_eq_zero_iff.mp (by omega))
  have hbelow : (tree.entries.any fun entry =>
      (tree.here ++ names).isPrefixOf entry.1 && tree.here ++ names != entry.1) = false := by
    rw [List.any_eq_false]
    intro entry hin hboth
    rw [Bool.and_eq_true, List.isPrefixOf_iff_prefix, bne_iff_ne] at hboth
    exact hboth.2 (hlast entry hin hboth.1)
  refine ⟨rfl, ⟨bytes, ?_⟩, ⟨others, ?_⟩, fun found hfound => ?_⟩
  · simp [at?, put, hhere, hbelow]
  · simp [at?, put, hhere, hbelow]
  · simp only [at?, put, List.find?_cons, List.any_cons, decide_eq_false (Ne.symm hfound)]

namespace DiffersOnlyIn

/-- The same names are those of directories. -/
theorem isDirectory_eq (h : DiffersOnlyIn names tree other) (found : List Text)
    : tree.isDirectory found = other.isDirectory found := by
  rw [isDirectory, isDirectory]
  by_cases hfound : found = names
  · obtain ⟨bytes, hhere⟩ := h.here
    obtain ⟨others, hthere⟩ := h.there
    rw [hfound, hhere, hthere]
  · rw [h.elsewhere found hfound]

/-- The same parts of a path can be followed, by induction on them. -/
theorem follow_eq (h : DiffersOnlyIn names tree other) (start parts : List Text)
    : tree.follow start parts = other.follow start parts := by
  induction parts generalizing start with
  | nil => rfl
  | cons part rest ih => simp only [follow, h.isDirectory_eq, ih]

/-- Every path leads to the same names. -/
theorem resolve?_eq (h : DiffersOnlyIn names tree other) (path : Text)
    : tree.resolve? path = other.resolve? path := by
  simp only [resolve?, startOf, h.start, h.follow_eq]

/-- What does not lead to the file is read as before. -/
theorem read_eq (h : DiffersOnlyIn names tree other) (hpath : tree.resolve? path ≠ some names)
    : tree.read path = other.read path := by
  have hentry : tree.entry? path = other.entry? path := by
    rw [ entry?, entry?, ← h.resolve?_eq]
    cases hresolve : tree.resolve? path with
    | none => rfl
    | some found =>
        have hfound : found ≠ names := fun he => hpath (he ▸ hresolve)
        exact h.elsewhere found hfound
  rw [read, read, hentry]

end DiffersOnlyIn

end FileTree

end SuiteScore
