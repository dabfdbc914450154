import SuiteScore.Proofs.Path.Parent

/-! The file that a path names. It is the last part between slashes that counts, and dots and empty
parts do not, wherever they stand.
-/

namespace SuiteScore.Path

open Text

/-- Whether a part between slashes leads somewhere: it is neither empty nor a dot. -/
def leadsOn (part : Text) : Bool :=
  !(part.isEmpty || part == ("." : Text))

/-- The parts of a path between slashes that lead somewhere. -/
def parts (path : Text) : List Text :=
  (path.splitOn '/').filter leadsOn

/-- The step that a part which leads somewhere stands for. -/
def stepOf (part : Text) : Component :=
  if part = (".." : Text) then .above else .name part

/-- Only a part that leads somewhere stands for a step. -/
theorem ofPart?_eq (part : Text)
    : Component.ofPart? part = if leadsOn part then some (stepOf part) else none := by
  unfold Component.ofPart? leadsOn stepOf
  by_cases hidle : part = [] ∨ part = ("." : Text)
  · rcases hidle with rfl | rfl <;> rfl
  · obtain ⟨hempty, hdot⟩ := not_or.mp hidle
    simp only [if_neg hidle, List.isEmpty_eq_false_iff.mpr hempty, beq_false_of_ne hdot,
      Bool.or_false, Bool.not_false, if_true]
    split <;> rfl

/-- Steps between slashes are those of the parts that lead somewhere, part by part. -/
theorem innerSteps_eq_map_parts (path : Text) : innerSteps path = (parts path).map stepOf := by
  unfold innerSteps parts
  induction path.splitOn '/' with
  | nil => rfl
  | cons part rest ih =>
      rw [List.filterMap_cons, List.filter_cons, ih, ofPart?_eq]
      cases leadsOn part <;> rfl

/-- The start of a path is no part that leads somewhere. -/
theorem innerSteps_splitStart (path : Text) : innerSteps (splitStart path).2 = innerSteps path := by
  rcases path_cases path with ⟨rest, rfl⟩ | rfl | ⟨rest, rfl⟩ | hplain
  · exact (innerSteps_append [] rest).symm
  · rfl
  · exact (innerSteps_append [] rest).trans (innerSteps_append ['.'] rest).symm
  · rw [hplain.splitStart_eq]

/-- The start of a path is no name. -/
theorem name_not_mem_startSteps (own start : Text) : .name own ∉ startSteps start := by
  unfold startSteps
  split <;> simp

theorem fileName?_eq_some_iff_getLast? {path own : Text}
    : fileName? path = some own ↔ (components path).getLast? = some (.name own) := by
  unfold fileName?
  split
  · next name hname => simp [hname]
  · next hnone => exact iff_of_false (by simp) (hnone own)

theorem stepOf_eq_name_iff {part own : Text}
    : stepOf part = .name own ↔ part = own ∧ own ≠ (".." : Text) := by
  unfold stepOf
  split
  · next habove =>
      refine iff_of_false (by simp) fun h => ?_
      exact h.2 (h.1 ▸ habove)
  · next hname =>
      rw [Component.name.injEq, iff_self_and]
      exact fun h => h ▸ hname

/-- A path names a file exactly if this is its last part that leads somewhere, and no way up. -/
theorem fileName?_eq_some_iff {path own : Text}
    : fileName? path = some own ↔ (parts path).getLast? = some own ∧ own ≠ (".." : Text) := by
  have hsteps : components path = startSteps (splitStart path).1 ++ (parts path).map stepOf := by
    rw [components_eq, innerSteps_splitStart, innerSteps_eq_map_parts]
  rw [fileName?_eq_some_iff_getLast?, hsteps]
  rcases List.eq_nil_or_concat (parts path) with hnone | ⟨front, part, hparts⟩
  · rw [hnone, List.map_nil, List.append_nil]
    refine iff_of_false (fun h => ?_) (by simp)
    exact name_not_mem_startSteps own _ (List.mem_of_getLast? h)
  · rw [hparts, List.concat_eq_append, List.map_append, List.map_singleton, ← List.append_assoc,
      List.getLast?_concat, List.getLast?_concat, Option.some.injEq, Option.some.injEq]
    exact stepOf_eq_name_iff

example : fileName? "features/./support//hooks.rb/./" = some "hooks.rb" := by decide

end SuiteScore.Path
