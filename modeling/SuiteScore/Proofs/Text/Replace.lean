import SuiteScore.Text.Basic

/-! Replacing parts of a text. -/

namespace SuiteScore.Text

/-- Replacing leaves only characters of the text and of what is put into it, by induction along the
text.
-/
theorem mem_of_mem_replaceFrom {old new text : Text} {within : Nat} {c : Char}
    (h : c ∈ replaceFrom old new within text)
    : c ∈ text ∨ c ∈ new := by
  fun_induction replaceFrom old new within text with
  | case1 => cases h
  | case2 within first rest ih => exact (ih h).imp_left (List.mem_cons_of_mem first)
  | case3 first rest hold ih =>
      rcases List.mem_append.mp h with hnew | hrest
      · exact .inr hnew
      · exact (ih hrest).imp_left (List.mem_cons_of_mem first)
  | case4 first rest hold ih =>
      rcases List.mem_cons.mp h with rfl | hrest
      · exact .inl List.mem_cons_self
      · exact (ih hrest).imp_left (List.mem_cons_of_mem first)

theorem mem_of_mem_replace {old new text : Text} {c : Char} (h : c ∈ replace old new text)
    : c ∈ text ∨ c ∈ new :=
  mem_of_mem_replaceFrom h

/-- A single character is replaced wherever it stands. -/
theorem replace_singleton_cons (old c : Char) (new rest : Text)
    : replace [old] new (c :: rest)
      = if old = c then new ++ replace [old] new rest else c :: replace [old] new rest := by
  simp only [replace, replaceFrom, List.isPrefixOf, Bool.and_true, beq_iff_eq,
    List.length_singleton]

end SuiteScore.Text
