import SuiteScore.Proofs.Feature.Steps

/-! Tables of steps as a whole. They stay sorted by the lines of the steps, so no line has two, and
of tables that are given one after another those are left whose line is not given another table
later.
-/

namespace SuiteScore.StepTables

open Text

variable {line : Text} {rows : List Text} {tables : StepTables}

-----------------------------------------------------------------------------------------
-- Sorted tables
-----------------------------------------------------------------------------------------

/-- Tables stand in the order of their lines, and no line stands twice. -/
def IsSorted (tables : StepTables) : Prop :=
  tables.Pairwise fun entry later => entry.1 < later.1

/-- Only the given table is new, by induction on the tables. -/
theorem mem_of_mem_insert {entry : Text × List Text} (h : entry ∈ insert line rows tables)
    : entry = (line, rows) ∨ entry ∈ tables := by
  induction tables with
  | nil => exact .inl (List.mem_singleton.mp h)
  | cons first rest ih =>
      obtain ⟨other, table⟩ := first
      unfold insert at h
      split at h
      · rcases List.mem_cons.mp h with hnew | hrest
        · exact .inl hnew
        · exact .inr (List.mem_cons_of_mem _ hrest)
      · split at h
        · exact List.mem_cons.mp h
        · rcases List.mem_cons.mp h with hfirst | hrest
          · exact .inr (List.mem_cons.mpr (.inl hfirst))
          · exact (ih hrest).imp_right (List.mem_cons_of_mem _)

/-- Another table leaves tables sorted, by induction on them. -/
theorem IsSorted.insert (line : Text) (rows : List Text) (h : tables.IsSorted)
    : (insert line rows tables).IsSorted := by
  induction tables with
  | nil => exact List.pairwise_singleton _ _
  | cons first rest ih =>
      obtain ⟨other, table⟩ := first
      obtain ⟨hafter, hrest⟩ := List.pairwise_cons.mp h
      unfold StepTables.insert
      split
      · next hline =>
          subst hline
          exact List.pairwise_cons.mpr ⟨hafter, hrest⟩
      · next hline =>
          split
          · next hbefore =>
              have hbefore : line < other := of_decide_eq_true hbefore
              refine List.pairwise_cons.mpr ⟨fun entry hin => ?_, h⟩
              rcases List.mem_cons.mp hin with rfl | hin
              · exact hbefore
              · exact List.lt_trans hbefore (hafter entry hin)
          · next hbefore =>
              have hbefore : ¬line < other := fun hlt => hbefore (decide_eq_true hlt)
              have hlater : other < line :=
                ((Std.lt_trichotomy line other).resolve_left hbefore).resolve_left hline
              refine List.pairwise_cons.mpr ⟨fun entry hin => ?_, ih hrest⟩
              rcases mem_of_mem_insert hin with rfl | hin
              · exact hlater
              · exact hafter entry hin

/-- Tables that are given one after another are sorted, by induction from the end. -/
theorem isSorted_insertAll (entries : List (Text × List Text)) : (insertAll entries).IsSorted := by
  induction entries using List.reverseRecOn with
  | nil => exact .nil
  | append_singleton front last ih =>
      rw [insertAll, List.foldl_append]
      exact ih.insert last.1 last.2

/-- A table goes in the place of the one that its line had. -/
theorem IsSorted.insert_perm (line : Text) (rows : List Text) (h : tables.IsSorted)
    : (StepTables.insert line rows tables).Perm
        ((line, rows) :: tables.filter fun entry => entry.1 ≠ line) := by
  induction tables with
  | nil => exact .refl _
  | cons first rest ih =>
      obtain ⟨other, table⟩ := first
      obtain ⟨hafter, hrest⟩ := List.pairwise_cons.mp h
      have hkept : ∀ {first : Text}, first < other ∨ first = other →
          rest.filter (fun entry => entry.1 ≠ first) = rest := by
        intro first hfirst
        refine List.filter_eq_self.mpr fun entry hin => decide_eq_true fun heq => ?_
        have hlater := hafter entry hin
        rw [heq] at hlater
        rcases hfirst with hlt | rfl
        · exact List.lt_irrefl _ (List.lt_trans hlt hlater)
        · exact List.lt_irrefl _ hlater
      unfold StepTables.insert
      split
      · next hline =>
          rw [List.filter_cons_of_neg (by simp [hline]), hkept (.inr hline)]
      · next hline =>
          have hother : other ≠ line := fun heq => hline heq.symm
          rw [List.filter_cons_of_pos (by simp [hother])]
          split
          · next hbefore => rw [hkept (.inl (of_decide_eq_true hbefore))]
          · exact ((ih hrest).cons _).trans (.swap _ _ _)

-----------------------------------------------------------------------------------------
-- Lasting tables
-----------------------------------------------------------------------------------------

/-- The tables whose line is not given another table later. -/
def lasting : List (Text × List Text) → List (Text × List Text)
  | [] => []
  | entry :: rest =>
    if rest.any fun later => later.1 = entry.1 then lasting rest else entry :: lasting rest

/-- The table that is given last lasts, and takes the place of those that its line had before, by
induction on these.
-/
theorem lasting_concat (front : List (Text × List Text)) (last : Text × List Text)
    : lasting (front ++ [last])
      = (lasting front).filter (fun entry => entry.1 ≠ last.1) ++ [last] := by
  induction front with
  | nil => rfl
  | cons entry rest ih =>
      by_cases hlast : last.1 = entry.1
      · by_cases hrest : rest.any fun later => later.1 = entry.1
        · simp [lasting, hrest, ih]
        · simp [lasting, hrest, ih, hlast]
      · have hkept : entry.1 ≠ last.1 := fun heq => hlast heq.symm
        by_cases hrest : rest.any fun later => later.1 = entry.1
        · simp [lasting, hrest, ih]
        · simp [lasting, hrest, ih, hlast, hkept]

/-- Of all tables the lasting ones are left, by induction from the end. -/
theorem insertAll_perm (entries : List (Text × List Text))
    : (insertAll entries).Perm (lasting entries) := by
  induction entries using List.reverseRecOn with
  | nil => exact .refl _
  | append_singleton front last ih =>
      have hinsert : (insertAll (front ++ [last])).Perm
          (last :: (insertAll front).filter fun entry => entry.1 ≠ last.1) := by
        rw [insertAll, List.foldl_append]
        exact (isSorted_insertAll front).insert_perm last.1 last.2
      have hkept : (last :: (insertAll front).filter fun entry => entry.1 ≠ last.1).Perm
          (last :: (lasting front).filter fun entry => entry.1 ≠ last.1) := (ih.filter _).cons _
      rw [lasting_concat]
      exact (hinsert.trans hkept).trans (List.perm_append_singleton _ _).symm

/-- The tables of those entries that have one, each with the line of its entry. -/
def keyed (key : α → Text) (table? : α → Option (List Text)) (entries : List α)
    : List (Text × List Text) :=
  entries.filterMap fun entry => (table? entry).map (key entry, ·)

section Keyed

variable {key other : α → Text} {table? : α → Option (List Text)} {entries : List α}

/-- A line is given a table by one of the entries. -/
theorem any_keyed_iff
    : (keyed key table? entries).any (fun later => later.1 = line) = true
      ↔ ∃ entry ∈ entries, (table? entry).isSome ∧ key entry = line := by
  simp only [keyed, List.any_eq_true, List.mem_filterMap, Option.map_eq_some_iff,
    decide_eq_true_eq, Option.isSome_iff_exists]
  constructor
  · rintro ⟨_, ⟨entry, hin, rows, hrows, rfl⟩, hline⟩
    exact ⟨entry, hin, ⟨rows, hrows⟩, hline⟩
  · rintro ⟨entry, hin, ⟨rows, hrows⟩, hline⟩
    exact ⟨_, ⟨entry, hin, rows, hrows, rfl⟩, hline⟩

/-- Which tables last depends only on which of their lines are the same, by induction on the
entries.
-/
theorem map_lasting_congr
    (h : ∀ first ∈ entries, ∀ second ∈ entries, (table? first).isSome → (table? second).isSome →
      (key first = key second ↔ other first = other second))
    : (lasting (keyed key table? entries)).map (·.2)
      = (lasting (keyed other table? entries)).map (·.2) := by
  induction entries with
  | nil => rfl
  | cons first rest ih =>
      have hrest := ih fun one hone two htwo =>
        h one (List.mem_cons_of_mem _ hone) two (List.mem_cons_of_mem _ htwo)
      cases ht : table? first with
      | none => simpa [keyed, ht] using hrest
      | some rows =>
          have hfirst : (table? first).isSome := by rw [ht]; rfl
          have hagain : (keyed key table? rest).any (fun later => later.1 = key first)
              = (keyed other table? rest).any fun later => later.1 = other first := by
            rw [Bool.eq_iff_iff, any_keyed_iff, any_keyed_iff]
            refine exists_congr fun entry => and_congr_right fun hin => and_congr_right fun hs => ?_
            exact h entry (List.mem_cons_of_mem _ hin) first List.mem_cons_self hs hfirst
          have hcons : ∀ key : α → Text,
              keyed key table? (first :: rest) = (key first, rows) :: keyed key table? rest :=
            fun key => by simp [keyed, ht]
          rw [hcons, hcons, lasting, lasting, hagain]
          split
          · exact hrest
          · rw [List.map_cons, List.map_cons, hrest]

end Keyed

end SuiteScore.StepTables
