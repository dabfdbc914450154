import SuiteScore.Proofs.Text.Trim
import SuiteScore.Text.Lines

/-! Lines joined with line feeds are the lines of the joined text. -/

namespace SuiteScore.Text

/-- A character at the front of a text whose first character is no line feed is taken into the
first line. -/
theorem lines_cons {c : Char} {rest : Text} (hc : c ≠ '\n')
    (hr : c = '\r' → rest.head? ≠ some '\n')
    : lines (c :: rest)
      = match lines rest with
        | [] => [[c]]
        | line :: others => (c :: line) :: others := by
  rw [lines.eq_def]
  split
  · next h => cases h
  · next h => exact absurd (List.cons.inj h).1 hc
  · next h =>
      obtain ⟨rfl, rfl⟩ := List.cons.inj h
      exact absurd rfl (hr rfl)
  · next h =>
      obtain ⟨rfl, rfl⟩ := List.cons.inj h
      rfl

/-- A line feed ends the line before it, by induction on that line. -/
theorem lines_append_newline {line : Text} (text : Text) (hn : '\n' ∉ line)
    (hr : line.getLast? ≠ some '\r')
    : lines (line ++ '\n' :: text) = line :: lines text := by
  induction line with
  | nil => rfl
  | cons c rest ih =>
      have hc : c ≠ '\n' := fun h => hn (h ▸ List.mem_cons_self)
      have hrest : '\n' ∉ rest := fun h => hn (List.mem_cons_of_mem c h)
      cases rest with
      | nil =>
          have hne : c ≠ '\r' := fun h => hr (h ▸ rfl)
          simp only [List.singleton_append]
          rw [lines_cons hc fun h => absurd h hne]
          rfl
      | cons d more =>
          have hd : d ≠ '\n' := fun h => hrest (h ▸ List.mem_cons_self)
          rw [List.cons_append, lines_cons hc fun _ => by simpa using hd,
            ih hrest (by simpa using hr)]

/-- A text without line feeds is one line, by induction on the text. -/
theorem lines_of_not_mem {line : Text} (hn : '\n' ∉ line) (hne : line ≠ [])
    : lines line = [line] := by
  induction line with
  | nil => exact absurd rfl hne
  | cons c rest ih =>
      have hc : c ≠ '\n' := fun h => hn (h ▸ List.mem_cons_self)
      have hrest : '\n' ∉ rest := fun h => hn (List.mem_cons_of_mem c h)
      cases rest with
      | nil => rw [lines_cons hc fun _ => by simp]; rfl
      | cons d more =>
          have hd : d ≠ '\n' := fun h => hrest (h ▸ List.mem_cons_self)
          rw [lines_cons hc fun _ => by simpa using hd, ih hrest (by simp)]

/-- No line holds a line feed, by induction on the text. -/
theorem not_mem_of_mem_lines {text line : Text} (h : line ∈ lines text) : '\n' ∉ line := by
  fun_induction lines text generalizing line with
  | case1 => cases h
  | case2 rest ih =>
      rcases List.mem_cons.mp h with rfl | h
      · simp
      · exact ih h
  | case3 rest ih =>
      rcases List.mem_cons.mp h with rfl | h
      · simp
      · exact ih h
  | case4 c rest hc _ he _ =>
      have hn : '\n' ≠ c := fun h => hc h.symm
      rcases List.mem_singleton.mp h with rfl
      simpa using hn
  | case5 c rest hc _ first others he ih =>
      have hn : '\n' ≠ c := fun h => hc h.symm
      rw [he] at ih
      rcases List.mem_cons.mp h with rfl | h
      · rw [List.mem_cons, not_or]
        exact ⟨hn, ih List.mem_cons_self⟩
      · exact ih (List.mem_cons_of_mem _ h)

/-- A text has no more lines than characters, by induction on the text. -/
theorem length_lines_le (text : Text) : (lines text).length ≤ text.length := by
  fun_induction lines text with
  | case1 => exact Nat.le_refl 0
  | case2 rest ih => simpa using ih
  | case3 rest ih =>
      simp only [List.length_cons]
      omega
  | case4 c rest _ _ _ _ => simp
  | case5 c rest _ _ first others he ih =>
      simp only [he, List.length_cons] at ih ⊢
      omega

/-- A text has no more characters than bytes, by induction on the text. -/
theorem length_le_byteLength (text : Text) : text.length ≤ byteLength text := by
  induction text with
  | nil => exact Nat.le_refl 0
  | cons c rest ih =>
      have hc := c.utf8Size_pos
      simp only [byteLength, tally, List.length_cons] at ih ⊢
      omega

/-- Lines without an empty one at their end. -/
def withoutEmptyLast (lines : List Text) : List Text :=
  if lines.getLast? = some [] then lines.dropLast else lines

/-- Without an empty last one, the lines before it stay where they are. -/
theorem withoutEmptyLast_prefix (lines : List Text) : withoutEmptyLast lines <+: lines := by
  unfold withoutEmptyLast
  split
  · exact List.dropLast_prefix lines
  · exact List.prefix_refl lines

/-- Joined lines are read back except for an empty last one, by induction on the lines. A carriage
return at the end of a line would be taken for a part of the line end. -/
theorem lines_joined {pieces : List Text} (hn : ∀ line ∈ pieces, '\n' ∉ line)
    (hr : ∀ line ∈ pieces, line.getLast? ≠ some '\r')
    : lines (joined "\n" pieces) = withoutEmptyLast pieces := by
  induction pieces with
  | nil => rfl
  | cons first rest ih =>
      cases rest with
      | nil =>
          cases first with
          | nil => rfl
          | cons c more =>
              have hc := hn (c :: more) List.mem_cons_self
              simp only [joined, List.intercalate, List.intersperse, List.flatten_singleton]
              rw [lines_of_not_mem hc (by simp)]
              rfl
      | cons second more =>
          have hrest := ih (fun line h => hn line (List.mem_cons_of_mem _ h))
            (fun line h => hr line (List.mem_cons_of_mem _ h))
          have he : joined "\n" (first :: second :: more)
              = first ++ '\n' :: joined "\n" (second :: more) := by
            simp [joined, List.intercalate]
          rw [he, lines_append_newline _ (hn first List.mem_cons_self)
            (hr first List.mem_cons_self), hrest]
          unfold withoutEmptyLast
          rw [List.getLast?_cons_cons]
          split
          · rfl
          · rfl

end SuiteScore.Text
