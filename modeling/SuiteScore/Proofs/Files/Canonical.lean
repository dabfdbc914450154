import Mathlib
import SuiteScore.Proofs.Files.Selection

/-! What the selected files depend on. Which patterns there are decides which files are selected,
and neither their order nor how often one is there or how many match a file; the files of more
patterns are those of both, sorted again.
-/

namespace SuiteScore

open Text

namespace Path

instance : Std.Irrefl Before := ⟨fun path => lt_irrefl (rank path)⟩

instance : Std.Antisymm Before := ⟨fun _ _ hlt hgt => absurd hgt (lt_asymm hlt)⟩

-----------------------------------------------------------------------------------------
-- The first of the same paths
-----------------------------------------------------------------------------------------

/-- Sorting leaves paths with the same steps in their order, since none of them has to go before
another: what it keeps of them is what there was.
-/
theorem filter_mergeSort (path : Text) (paths : List Text)
    : (paths.mergeSort notAfter).filter (same path) = paths.filter (same path) := by
  have hequal : (paths.filter (same path)).Pairwise
      fun left right => notAfter left right = true := by
    refine List.pairwise_of_forall_mem_list fun left hleft right hright => ?_
    have hsame := (same_iff path left).mp (List.mem_filter.mp hleft).2
    have hsame' := (same_iff path right).mp (List.mem_filter.mp hright).2
    exact (notAfter_iff left right).mpr (le_of_eq (hsame.symm.trans hsame'))
  have hkept := (List.sublist_mergeSort notAfter_trans notAfter_total hequal
    List.filter_sublist).filter (same path)
  rw [List.filter_filter] at hkept
  simp only [Bool.and_self] at hkept
  exact (hkept.eq_of_length ((List.mergeSort_perm paths notAfter).filter _).length_eq.symm).symm

/-- A path that is left out has the steps of the one before it, so that paths with other steps are
found as before, by induction on the paths.
-/
theorem find?_withoutRepeats (path : Text) (last : Option Text) (paths : List Text)
    (hlast : ∀ found ∈ last, same path found = false)
    : (withoutRepeats last paths).find? (same path) = paths.find? (same path) := by
  induction paths generalizing last with
  | nil => rfl
  | cons first rest ih =>
      by_cases hrepeated : last.any (same · first) = true
      · obtain ⟨found, hfound, hsame⟩ := (Option.any_eq_true _ _).mp hrepeated
        have hother : same path first = false := by
          rw [← hlast found hfound, same, same, (beq_iff_eq.mp hsame :)]
        rw [withoutRepeats, if_pos hrepeated, ih last hlast,
          List.find?_cons_of_neg (by rw [hother]; decide)]
      · rw [withoutRepeats, if_neg hrepeated]
        by_cases hsame : same path first = true
        · rw [List.find?_cons_of_pos hsame, List.find?_cons_of_pos hsame]
        · rw [List.find?_cons_of_neg hsame, List.find?_cons_of_neg hsame]
          exact ih (some first) (by simpa using hsame)

/-- Of the paths with the same steps the first is kept. -/
theorem find?_sorted (path : Text) (paths : List Text)
    : (sorted paths).find? (same path) = paths.find? (same path) := by
  rw [sorted, find?_withoutRepeats path none _ (by simp), ← List.head?_filter, filter_mergeSort,
    List.head?_filter]

/-- Paths in their order have different steps. -/
theorem eq_of_same {paths : List Text} (h : paths.Pairwise Before) {left right : Text}
    (hleft : left ∈ paths) (hright : right ∈ paths) (hsame : same left right = true)
    : left = right := by
  have hranks : (paths.map rank).Pairwise (· < ·) := List.pairwise_map.mpr h
  exact List.inj_on_of_nodup_map hranks.nodup hleft hright ((same_iff left right).mp hsame)

/-- The sorted paths are those that are the first with their steps. -/
theorem mem_sorted_iff {path : Text} {paths : List Text}
    : path ∈ sorted paths ↔ paths.find? (same path) = some path := by
  rw [← find?_sorted]
  constructor
  · intro hin
    have hfound : ((sorted paths).find? (same path)).isSome = true :=
      List.find?_isSome.mpr ⟨path, hin, (same_iff path path).mpr rfl⟩
    obtain ⟨found, hfound⟩ := Option.isSome_iff_exists.mp hfound
    rw [hfound, eq_of_same (isSorting_sorted paths).increasing hin
      (List.mem_of_find?_eq_some hfound) (List.find?_some hfound)]
  · exact List.mem_of_find?_eq_some

/-- Sorted paths are told by the first path with each steps. -/
theorem sorted_congr {paths others : List Text}
    (h : ∀ path, paths.find? (same path) = others.find? (same path))
    : sorted paths = sorted others := by
  refine (isSorting_sorted paths).increasing.eq_of_mem_iff (isSorting_sorted others).increasing
    fun path => ?_
  rw [mem_sorted_iff, mem_sorted_iff, h path]

/-- Paths that are sorted in parts are sorted together in the same way. -/
theorem sorted_append (paths others : List Text)
    : sorted (sorted paths ++ sorted others) = sorted (paths ++ others) := by
  apply sorted_congr
  intro path
  rw [List.find?_append, List.find?_append, find?_sorted, find?_sorted]

-----------------------------------------------------------------------------------------
-- Lists of the same paths
-----------------------------------------------------------------------------------------

/-- Lists of the same paths, each in their order, have the same steps place by place. -/
theorem map_components_eq {paths others : List Text} (h : paths.Pairwise Before)
    (hothers : others.Pairwise Before) (hin : ∀ path ∈ paths, ∃ found ∈ others, same found path)
    (hin' : ∀ path ∈ others, ∃ found ∈ paths, same found path)
    : paths.map components = others.map components := by
  have hsorted : (paths.map rank).Pairwise (· < ·) := List.pairwise_map.mpr h
  have hsorted' : (others.map rank).Pairwise (· < ·) := List.pairwise_map.mpr hothers
  have hranks : paths.map rank = others.map rank := by
    refine hsorted.eq_of_mem_iff hsorted' fun steps => ?_
    simp only [same_iff, List.mem_map] at hin hin' ⊢
    constructor
    · rintro ⟨path, hpath, rfl⟩
      exact hin path hpath
    · rintro ⟨path, hpath, rfl⟩
      exact hin' path hpath
  have hinjective : Function.Injective (List.map (List.map Component.rank)) :=
    List.map_injective_iff.mpr (List.map_injective_iff.mpr Component.rank_injective)
  apply hinjective
  rw [List.map_map, List.map_map]
  exact hranks

end Path

-----------------------------------------------------------------------------------------
-- Patterns
-----------------------------------------------------------------------------------------

/-- Below a root a text is a pattern. -/
def IsPattern (root pattern : Text) : Prop :=
  ∃ read, Glob.Pattern.ofText (Path.join root pattern) = .ok read

section Patterns

variable {tree : FileTree} {root : Text} {patterns others files otherFiles : List Text}

/-- Patterns match what the first and what the others match, by induction on the first. -/
theorem matchedFiles_append (tree : FileTree) (root : Text) (patterns others : List Text)
    : matchedFiles tree root (patterns ++ others)
      = do
          let left ← matchedFiles tree root patterns
          let right ← matchedFiles tree root others
          return left ++ right := by
  induction patterns with
  | nil =>
      rw [List.nil_append]
      cases matchedFiles tree root others <;> rfl
  | cons pattern rest ih =>
      rw [List.cons_append, matchedFiles, matchedFiles]
      cases Glob.paths tree (Path.join root pattern) with
      | error error => rfl
      | ok found =>
          dsimp only
          rw [ih]
          cases matchedFiles tree root rest with
          | error error => rfl
          | ok left =>
              cases matchedFiles tree root others with
              | error error => rfl
              | ok right => exact congrArg Except.ok (List.append_assoc _ _ _).symm

/-- Patterns without a fault match some files. -/
theorem exists_matchedFiles (tree : FileTree) (h : ∀ pattern ∈ patterns, IsPattern root pattern)
    : ∃ files, matchedFiles tree root patterns = .ok files := by
  refine exists_matchedFiles_iff.mpr fun pattern hin => ?_
  obtain ⟨read, hread⟩ := h pattern hin
  exact ⟨read.paths tree, by rw [Glob.paths, hread, Except.map]⟩

theorem exists_selectFiles (tree : FileTree) (h : ∀ pattern ∈ patterns, IsPattern root pattern)
    : ∃ files, selectFiles tree root patterns = .ok files := by
  obtain ⟨files, hfiles⟩ := exists_matchedFiles tree h
  exact ⟨Path.sorted files, by rw [selectFiles, hfiles]; rfl⟩

/-- The files of more patterns are those of both, sorted again. -/
theorem selectFiles_append (tree : FileTree) (root : Text) (patterns others : List Text)
    : selectFiles tree root (patterns ++ others)
      = do
          let left ← selectFiles tree root patterns
          let right ← selectFiles tree root others
          return Path.sorted (left ++ right) := by
  rw [selectFiles, selectFiles, selectFiles, matchedFiles_append]
  cases matchedFiles tree root patterns with
  | error error => rfl
  | ok left =>
      cases matchedFiles tree root others with
      | error error => rfl
      | ok right => exact congrArg Except.ok (Path.sorted_append left right).symm

/-- The first pattern with a fault is the error, whatever comes after it. -/
theorem selectFiles_of_fault {front back : List Text} {pattern : Text} {fault : Glob.PatternError}
    (hfront : ∀ pattern ∈ front, IsPattern root pattern)
    (h : Glob.Pattern.ofText (Path.join root pattern) = .error fault)
    : selectFiles tree root (front ++ pattern :: back) = .error (.pattern fault) := by
  obtain ⟨files, hfiles⟩ := exists_matchedFiles tree hfront
  have hfault : matchedFiles tree root (pattern :: back) = .error (.pattern fault) := by
    simp only [matchedFiles, Glob.paths, h]
    rfl
  rw [selectFiles, matchedFiles_append, hfiles, hfault]
  rfl

/-- The same patterns match the same files. -/
theorem isMatched_congr (h : ∀ pattern, pattern ∈ patterns ↔ pattern ∈ others) (path : Text)
    : IsMatched tree root patterns path ↔ IsMatched tree root others path := by
  simp only [IsMatched, h]

/-- Two selections of the same files have the same steps place by place. -/
theorem IsFileSelection.map_components_eq (h : IsFileSelection tree root patterns files)
    (hothers : IsFileSelection tree root others otherFiles)
    (hsame : ∀ pattern, pattern ∈ patterns ↔ pattern ∈ others)
    : files.map Path.components = otherFiles.map Path.components := by
  refine Path.map_components_eq h.increasing hothers.increasing (fun path hin => ?_)
    fun path hin => ?_
  · exact hothers.complete path ((isMatched_congr hsame path).mp (h.sound path hin))
  · exact h.complete path ((isMatched_congr hsame path).mpr (hothers.sound path hin))

/-- Where no file is reached by two paths that are written differently, two selections of the same
files are the same.
-/
theorem IsFileSelection.eq_of_written (h : IsFileSelection tree root patterns files)
    (hothers : IsFileSelection tree root others otherFiles)
    (hsame : ∀ pattern, pattern ∈ patterns ↔ pattern ∈ others)
    (hwritten
      : ∀ left right, IsMatched tree root patterns left → IsMatched tree root patterns right →
          Path.same left right = true → left = right)
    : files = otherFiles := by
  have hmatched : ∀ path ∈ otherFiles, IsMatched tree root patterns path := fun path hin =>
    (isMatched_congr hsame path).mpr (hothers.sound path hin)
  refine h.increasing.eq_of_mem_iff hothers.increasing fun path => ⟨fun hin => ?_, fun hin => ?_⟩
  · obtain ⟨found, hfound, hpath⟩ := hothers.complete path
      ((isMatched_congr hsame path).mp (h.sound path hin))
    exact hwritten found path (hmatched found hfound) (h.sound path hin) hpath ▸ hfound
  · obtain ⟨found, hfound, hpath⟩ := h.complete path (hmatched path hin)
    exact hwritten found path (h.sound found hfound) (hmatched path hin) hpath ▸ hfound

end Patterns

/-- Files are selected by the set of patterns. When all of these are patterns, the files are those
that some pattern matches, in strictly increasing order; the same patterns in another order and
number select paths with the same steps, which are written in the same way too unless a file is
matched by paths that are written differently. The files of two lists of patterns are those of
both, sorted again. The first text that is no pattern is the error, and nothing is selected then.
-/
theorem selectFiles_of_patterns (tree : FileTree) (root : Text) (patterns : List Text)
    : ((∀ pattern ∈ patterns, IsPattern root pattern) →
        ∃ files,
          selectFiles tree root patterns = .ok files
          ∧ IsFileSelection tree root patterns files
          ∧ ∀ others, (∀ pattern, pattern ∈ patterns ↔ pattern ∈ others) →
              ∃ otherFiles,
                selectFiles tree root others = .ok otherFiles
                ∧ files.map Path.components = otherFiles.map Path.components
                ∧ ((∀ left right, IsMatched tree root patterns left →
                      IsMatched tree root patterns right →
                      Path.same left right = true → left = right) →
                    files = otherFiles))
      ∧ (∀ others,
          selectFiles tree root (patterns ++ others)
            = do
                let left ← selectFiles tree root patterns
                let right ← selectFiles tree root others
                return Path.sorted (left ++ right))
      ∧ (∀ paths, Path.IsSorting paths (Path.sorted paths))
      ∧ ∀ front pattern back fault,
          patterns = front ++ pattern :: back →
          (∀ before ∈ front, IsPattern root before) →
          Glob.Pattern.ofText (Path.join root pattern) = .error fault →
          selectFiles tree root patterns = .error (.pattern fault) := by
  refine ⟨fun h => ?_, selectFiles_append tree root patterns, Path.isSorting_sorted, ?_⟩
  · obtain ⟨files, hfiles⟩ := exists_selectFiles tree h
    have hselected := isFileSelection_of_selectFiles hfiles
    refine ⟨files, hfiles, hselected, fun others hsame => ?_⟩
    have hothers : ∀ pattern ∈ others, IsPattern root pattern := fun pattern hin =>
      h pattern ((hsame pattern).mpr hin)
    obtain ⟨otherFiles, hotherFiles⟩ := exists_selectFiles tree hothers
    have hselected' := isFileSelection_of_selectFiles hotherFiles
    exact ⟨otherFiles, hotherFiles, hselected.map_components_eq hselected' hsame,
      hselected.eq_of_written hselected' hsame⟩
  · rintro front pattern back fault rfl hfront hfault
    exact selectFiles_of_fault hfront hfault

/-- The files lie next to the directory where one is. The order of their paths is not that of their
characters, and a directory is named as files are.
-/
def overlappingTree : FileTree where
  here := ["work"]
  entries :=
    [
      (["app", "f-a", "b.feature"], .file ⟨#[]⟩),
      (["app", "f", "b.feature"], .file ⟨#[]⟩),
      (["app", "f", "d.feature"], .directory)
    ]

/-- The root can lie above where one is, and it can be absolute. -/
theorem selectFiles_of_overlapping
    : (∀ pattern ∈ [("f*/*.feature" : Text), "f/*.feature"], IsPattern "../app" pattern)
      ∧ selectFiles overlappingTree "../app" ["f*/*.feature", "f/*.feature"]
        = .ok ["../app/f/b.feature", "../app/f-a/b.feature"]
      ∧ selectFiles overlappingTree "../app" ["f/*.feature", "f*/*.feature", "f/*.feature"]
        = .ok ["../app/f/b.feature", "../app/f-a/b.feature"]
      ∧ selectFiles overlappingTree "/app" ([("f/*.feature" : Text)] ++ [("f/**/*.feature" : Text)])
        = .ok ["/app/f/b.feature"]
      ∧ Glob.Pattern.ofText (Path.join "../app" "[") = .error ⟨7, .invalidClass⟩
      ∧ selectFiles overlappingTree "../app" ["f/*.feature", "[", "f**"]
        = .error (.pattern ⟨7, .invalidClass⟩) := by
  have hpatterns : ∀ pattern ∈ [("f*/*.feature" : Text), "f/*.feature"],
      IsPattern "../app" pattern := by
    refine List.forall_mem_cons.mpr ⟨⟨_, by cbv⟩, List.forall_mem_singleton.mpr ⟨_, by cbv⟩⟩
  have hfault : Glob.Pattern.ofText (Path.join "../app" "[") = .error ⟨7, .invalidClass⟩ := by cbv
  have hmatched : matchedFiles overlappingTree "../app" ["f*/*.feature", "f/*.feature"]
      = .ok ["../app/f-a/b.feature", "../app/f/b.feature", "../app/f/b.feature"] := by cbv
  have hfiles : selectFiles overlappingTree "../app" ["f*/*.feature", "f/*.feature"]
      = .ok ["../app/f/b.feature", "../app/f-a/b.feature"] := by
    rw [selectFiles, hmatched]
    cbv
  have hwritten : ∀ left right,
      IsMatched overlappingTree "../app" ["f*/*.feature", "f/*.feature"] left →
      IsMatched overlappingTree "../app" ["f*/*.feature", "f/*.feature"] right →
      Path.same left right = true → left = right := by
    have hpairs : ∀ left ∈ [("../app/f-a/b.feature" : Text), "../app/f/b.feature",
        "../app/f/b.feature"], ∀ right ∈ [("../app/f-a/b.feature" : Text), "../app/f/b.feature",
        "../app/f/b.feature"], Path.same left right = true → left = right := by decide
    simp only [← mem_matchedFiles_iff hmatched]
    exact fun left right hleft => hpairs left hleft right
  obtain ⟨hselected, -, -, -⟩ :=
    selectFiles_of_patterns overlappingTree "../app" ["f*/*.feature", "f/*.feature"]
  obtain ⟨files, hselect, -, hothers⟩ := hselected hpatterns
  cases hselect.symm.trans hfiles
  obtain ⟨_, hother, -, heq⟩ := hothers ["f/*.feature", "f*/*.feature", "f/*.feature"] (by simp)
  rw [← heq hwritten] at hother
  have hfirst : selectFiles overlappingTree "/app" ["f/*.feature"] = .ok ["/app/f/b.feature"] := by
    cbv
  have hsecond : selectFiles overlappingTree "/app" ["f/**/*.feature"]
      = .ok ["/app/f/b.feature"] := by cbv
  obtain ⟨-, hunion, -, -⟩ := selectFiles_of_patterns overlappingTree "/app" ["f/*.feature"]
  have habsolute : selectFiles overlappingTree "/app"
      ([("f/*.feature" : Text)] ++ [("f/**/*.feature" : Text)]) = .ok ["/app/f/b.feature"] := by
    rw [hunion, hfirst, hsecond]
    cbv
  obtain ⟨-, -, -, hfault'⟩ :=
    selectFiles_of_patterns overlappingTree "../app" ["f/*.feature", "[", "f**"]
  exact ⟨hpatterns, hfiles, hother, habsolute, hfault, hfault' ["f/*.feature"] "[" ["f**"] _ rfl
    (fun before hin => hpatterns before (List.mem_cons_of_mem _ hin)) hfault⟩

end SuiteScore
