import SuiteScore.Text.Basic

/-! The pieces of a text between separators, and texts that are joined with separators. -/

namespace SuiteScore.Text

variable {sep : Char} {text piece : Text}

/-- There is one piece more than there are separators, by induction on the text. -/
theorem length_splitOn (sep : Char) (text : Text)
    : (text.splitOn sep).length = text.count sep + 1 := by
  induction text with
  | nil => rfl
  | cons c rest ih =>
      rw [List.splitOn_cons_eq_if_modifyHead, List.count_cons]
      split
      · rw [List.length_cons, ih]
      · rw [List.length_modifyHead, ih]

/-- A piece holds only characters of the text, and no separator, by induction on the text. -/
theorem facts_of_mem_splitOn (h : piece ∈ text.splitOn sep) : piece ⊆ text ∧ sep ∉ piece := by
  induction text generalizing piece with
  | nil =>
      rw [List.splitOn_nil, List.mem_singleton] at h
      simp [h]
  | cons c rest ih =>
      obtain ⟨first, others, hrest⟩ := List.exists_cons_of_ne_nil (List.splitOn_ne_nil sep rest)
      rw [hrest] at ih
      obtain ⟨hfirst, hothers⟩ := List.forall_mem_cons.mp fun _ => ih
      rw [List.splitOn_cons_eq_if_modifyHead, hrest] at h
      split at h
      · rcases List.mem_cons.mp h with rfl | hin
        · simp
        · exact ⟨List.subset_cons_of_subset c (ih hin).1, (ih hin).2⟩
      · next hc =>
          rcases List.mem_cons.mp h with rfl | hin
          · refine ⟨List.cons_subset_cons c hfirst.1, ?_⟩
            rw [List.mem_cons, not_or]
            exact ⟨fun hsep => hc (beq_iff_eq.mpr hsep.symm), hfirst.2⟩
          · obtain ⟨hsub, hsep⟩ := hothers _ hin
            exact ⟨List.subset_cons_of_subset c hsub, hsep⟩

/-- What is in joined texts is in a separator or in one of the texts, by induction on these. -/
theorem mem_joined {c : Char} {sep : Text} {pieces : List Text} (h : c ∈ joined sep pieces)
    : c ∈ sep ∨ ∃ piece ∈ pieces, c ∈ piece := by
  induction pieces with
  | nil => cases h
  | cons first rest ih =>
      cases rest with
      | nil => exact .inr ⟨first, List.mem_singleton_self first, by simpa [joined] using h⟩
      | cons second more =>
          have hjoined : joined sep (first :: second :: more)
              = first ++ (sep ++ joined sep (second :: more)) := by
            simp [joined, List.intercalate]
          rw [hjoined, List.mem_append, List.mem_append] at h
          rcases h with hfirst | hsep | hrest
          · exact .inr ⟨first, List.mem_cons_self, hfirst⟩
          · exact .inl hsep
          · refine (ih hrest).imp_right fun ⟨piece, hpiece, hc⟩ => ?_
            exact ⟨piece, List.mem_cons_of_mem _ hpiece, hc⟩

end SuiteScore.Text
