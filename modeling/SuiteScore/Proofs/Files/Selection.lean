import Mathlib.Data.Char
import Mathlib.Data.List.Lex
import Mathlib.Data.Prod.Lex
import SuiteScore.Files.Selection

/-! Files in the order of their paths. The order compares paths step by step, so that paths with
other steps always come one before the other, and a list of selected files holds each once.
-/

namespace SuiteScore

open Text

-----------------------------------------------------------------------------------------
-- The order of paths
-----------------------------------------------------------------------------------------

namespace Path

/-- What steps are compared by. -/
def Component.rank (component : Component) : Nat ×ₗ Text :=
  toLex component.key

/-- What paths are compared by: step by step, as words are in a dictionary. -/
def rank (path : Text) : List (Nat ×ₗ Text) :=
  (components path).map Component.rank

/-- A path comes before another that has other steps. -/
def Before (left right : Text) : Prop :=
  rank left < rank right

/-- Only a step itself has its rank, by the kinds of steps. -/
theorem Component.rank_injective : Function.Injective Component.rank := by
  intro left right h
  have hkey : left.key = right.key := congrArg ofLex h
  cases left <;> cases right <;> simp_all [key]

/-- A smaller step has a smaller rank. -/
theorem Component.precedes_iff (left right : Component)
    : left.precedes right = true ↔ left.rank < right.rank := by
  simp only [precedes, Text.precedes, rank, Prod.Lex.toLex_lt_toLex, Bool.or_eq_true,
    Bool.and_eq_true, decide_eq_true_eq, beq_iff_eq]

/-- Steps come before others as their ranks do, by recursion over both. -/
theorem precedes_iff (lefts rights : List Component)
    : precedes lefts rights = true ↔ lefts.map Component.rank < rights.map Component.rank := by
  fun_induction precedes lefts rights with
  | case1 lefts => simp
  | case2 right rights => simp
  | case3 left lefts right rights ih =>
      simp only [Bool.or_eq_true, Bool.and_eq_true, beq_iff_eq, Component.precedes_iff, ih,
        List.map_cons, List.cons_lt_cons_iff, Component.rank_injective.eq_iff]

theorem notAfter_iff (left right : Text) : notAfter left right = true ↔ rank left ≤ rank right := by
  rw [notAfter, Bool.not_eq_true', Bool.eq_false_iff, ne_eq, precedes_iff, ← not_lt]
  rfl

theorem notAfter_trans (left mid right : Text) (h : notAfter left mid = true)
    (h' : notAfter mid right = true)
    : notAfter left right = true := by
  rw [notAfter_iff] at *
  exact le_trans h h'

theorem notAfter_total (left right : Text)
    : (notAfter left right || notAfter right left) = true := by
  rw [Bool.or_eq_true, notAfter_iff, notAfter_iff]
  exact le_total _ _

theorem same_iff (left right : Text) : same left right = true ↔ rank left = rank right := by
  rw [same, beq_iff_eq, rank, rank, (List.map_injective_iff.mpr Component.rank_injective).eq_iff]

-----------------------------------------------------------------------------------------
-- Sorted paths
-----------------------------------------------------------------------------------------

/-- Paths in their order: those of a list, without those that have the steps of another. -/
structure IsSorting (paths sorted : List Text) : Prop where
  increasing : sorted.Pairwise Before
  sound : ∀ path ∈ sorted, path ∈ paths
  complete : ∀ path ∈ paths, ∃ found ∈ sorted, same found path = true

/-- What is left of sorted paths after a path that is not after them, by induction on the paths: it
is after that path, and it is sorted.
-/
theorem pairwise_withoutRepeats (last : Option Text) {paths : List Text}
    (hlast : ∀ found ∈ last, ∀ path ∈ paths, rank found ≤ rank path)
    (h : paths.Pairwise fun left right => rank left ≤ rank right)
    : (∀ found ∈ last, ∀ path ∈ withoutRepeats last paths, Before found path)
      ∧ (withoutRepeats last paths).Pairwise Before := by
  induction paths generalizing last with
  | nil => simp [withoutRepeats]
  | cons path rest ih =>
      obtain ⟨hfirst, hrest⟩ := List.pairwise_cons.mp h
      by_cases hsame : last.any (same · path) = true
      · rw [withoutRepeats, if_pos hsame]
        exact ih last (fun found hin later hlater =>
          hlast found hin later (List.mem_cons_of_mem _ hlater)) hrest
      · rw [withoutRepeats, if_neg hsame]
        obtain ⟨hafter, hsorted⟩ := ih (some path) (by simpa using hfirst) hrest
        have hbefore : ∀ found ∈ last, Before found path := by
          intro found hin
          refine lt_of_le_of_ne (hlast found hin path List.mem_cons_self) fun heq => hsame ?_
          exact (Option.any_eq_true _ _).mpr ⟨found, hin, (same_iff found path).mpr heq⟩
        refine ⟨fun found hin => ?_, List.pairwise_cons.mpr ⟨hafter path rfl, hsorted⟩⟩
        exact List.forall_mem_cons.mpr ⟨hbefore found hin, fun later hlater =>
          lt_trans (hbefore found hin) (hafter path rfl later hlater)⟩

/-- Paths that go have the steps of the path before them, by induction on the paths. -/
theorem exists_same_withoutRepeats (last : Option Text) {paths : List Text} {path : Text}
    (hin : path ∈ paths)
    : ∃ found ∈ last.toList ++ withoutRepeats last paths, same found path = true := by
  induction paths generalizing last with
  | nil => cases hin
  | cons first rest ih =>
      by_cases hsame : last.any (same · first) = true
      · rw [withoutRepeats, if_pos hsame]
        rcases List.mem_cons.mp hin with rfl | hin
        · obtain ⟨found, hfound, heq⟩ := (Option.any_eq_true _ _).mp hsame
          exact ⟨found, List.mem_append_left _ (Option.mem_toList.mpr hfound), heq⟩
        · exact ih last hin
      · rw [withoutRepeats, if_neg hsame]
        rcases List.mem_cons.mp hin with rfl | hin
        · exact ⟨path, by simp, (same_iff path path).mpr rfl⟩
        · obtain ⟨found, hfound, heq⟩ := ih (some first) hin
          exact ⟨found, List.mem_append_right _ hfound, heq⟩

theorem mem_of_mem_withoutRepeats {last : Option Text} {paths : List Text} {path : Text}
    (h : path ∈ withoutRepeats last paths)
    : path ∈ paths := by
  fun_induction withoutRepeats last paths with
  | case1 => exact h
  | case2 last first rest hsame ih => exact List.mem_cons_of_mem _ (ih h)
  | case3 last first rest hsame ih =>
      rcases List.mem_cons.mp h with rfl | hin
      · exact List.mem_cons_self
      · exact List.mem_cons_of_mem _ (ih hin)

/-- Paths are sorted by their order, and the order is that of ranks. -/
theorem pairwise_mergeSort (paths : List Text)
    : (paths.mergeSort notAfter).Pairwise fun left right => rank left ≤ rank right :=
  (List.pairwise_mergeSort notAfter_trans notAfter_total paths).imp (notAfter_iff _ _).mp

/-- Sorted paths are in their order, and none but repeated steps are lost. -/
theorem isSorting_sorted (paths : List Text) : IsSorting paths (sorted paths) := by
  refine ⟨(pairwise_withoutRepeats none (by simp) (pairwise_mergeSort paths)).2,
    fun path hin => ?_, fun path hin => ?_⟩
  · exact List.mem_mergeSort.mp (mem_of_mem_withoutRepeats hin)
  · exact exists_same_withoutRepeats none (List.mem_mergeSort.mpr hin)

end Path

-----------------------------------------------------------------------------------------
-- Selected files
-----------------------------------------------------------------------------------------

/-- A path to a file of a tree that one of the patterns matches. -/
def IsMatched (tree : FileTree) (root : Text) (patterns : List Text) (path : Text) : Prop :=
  ∃ pattern ∈ patterns, ∃ found,
    Glob.paths tree (Path.join root pattern) = .ok found ∧ path ∈ found ∧ tree.hasFile path = true

/-- Files that patterns select: each stands once for all the paths to it that have the same steps,
and in the order of paths.
-/
structure IsFileSelection (tree : FileTree) (root : Text) (patterns files : List Text) : Prop where
  increasing : files.Pairwise Path.Before
  sound : ∀ path ∈ files, IsMatched tree root patterns path
  complete : ∀ path, IsMatched tree root patterns path → ∃ found ∈ files, Path.same found path

section Selecting

variable {tree : FileTree} {root : Text} {patterns files : List Text}

/-- The files that patterns match, by induction on the patterns. -/
theorem mem_matchedFiles_iff (h : matchedFiles tree root patterns = .ok files) (path : Text)
    : path ∈ files ↔ IsMatched tree root patterns path := by
  induction patterns generalizing files with
  | nil =>
      cases h
      simp [IsMatched]
  | cons pattern rest ih =>
      unfold matchedFiles at h
      cases hfound : Glob.paths tree (Path.join root pattern) with
      | error error => rw [hfound] at h; cases h
      | ok found =>
          cases hrest : matchedFiles tree root rest with
          | error error => rw [hfound, hrest] at h; cases h
          | ok others =>
              rw [hfound, hrest] at h
              cases h
              simp [hfound, ih hrest, IsMatched]

/-- Patterns select what they match, in order. -/
theorem isFileSelection_of_selectFiles (h : selectFiles tree root patterns = .ok files)
    : IsFileSelection tree root patterns files := by
  unfold selectFiles at h
  cases hmatched : matchedFiles tree root patterns with
  | error error => rw [hmatched] at h; cases h
  | ok matched =>
      rw [hmatched] at h
      cases h
      obtain ⟨hincreasing, hsound, hcomplete⟩ := Path.isSorting_sorted matched
      have hmem := mem_matchedFiles_iff hmatched
      exact ⟨hincreasing, fun path hin => (hmem path).mp (hsound path hin),
        fun path hin => hcomplete path ((hmem path).mpr hin)⟩

/-- Patterns match files when each can be expanded, by induction on them. -/
theorem exists_matchedFiles_iff
    : (∃ files, matchedFiles tree root patterns = .ok files)
      ↔ ∀ pattern ∈ patterns, ∃ found, Glob.paths tree (Path.join root pattern) = .ok found := by
  induction patterns with
  | nil => simp [matchedFiles]
  | cons first rest ih =>
      rw [List.forall_mem_cons, ← ih, matchedFiles]
      cases Glob.paths tree (Path.join root first) with
      | error error => simp
      | ok found => cases matchedFiles tree root rest <;> simp [Except.map]

end Selecting

end SuiteScore
