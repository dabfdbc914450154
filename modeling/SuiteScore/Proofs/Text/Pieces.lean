import SuiteScore.Proofs.Text.Trim

/-! The pieces between commas. Each comma parts the pieces before it from those behind it, and what
is blank around a text is in no piece.
-/

namespace SuiteScore.Text

/-- What is left of pieces without the blanks around them, and without the pieces that are blank. -/
def withoutBlanks (pieces : List Text) : List Text :=
  (pieces.map trim).filter fun piece => !piece.isEmpty

variable {text blanks : Text} {pieces : List Text}

/-- A text without commas is one piece, if it is not blank. -/
theorem commaPieces_of_not_mem (h : ',' ∉ text) : commaPieces text = withoutBlanks [text] := by
  have hnone : ∀ c ∈ text, (c == ',') = false := by
    intro c hc
    apply beq_false_of_ne
    intro hcomma
    exact h (hcomma ▸ hc)
  rw [commaPieces, List.splitOn_eq_splitOnP, List.splitOnP_eq_singleton hnone]
  rfl

/-- Texts without commas are the pieces themselves, by induction on them. -/
theorem flatMap_commaPieces_of_not_mem {texts : List Text} (h : ∀ text ∈ texts, ',' ∉ text)
    : texts.flatMap commaPieces = withoutBlanks texts := by
  induction texts with
  | nil => rfl
  | cons first rest ih =>
      obtain ⟨hfirst, hrest⟩ := List.forall_mem_cons.mp h
      rw [List.flatMap_cons, commaPieces_of_not_mem hfirst, ih hrest, withoutBlanks, withoutBlanks,
        withoutBlanks, ← List.filter_append, ← List.map_append, List.singleton_append]

/-- A comma parts the pieces before it from those behind it. -/
theorem commaPieces_append (front back : Text)
    : commaPieces (front ++ ',' :: back) = commaPieces front ++ commaPieces back := by
  rw [commaPieces, List.splitOn_append_cons_self, List.map_append, List.filter_append]
  rfl

/-- The pieces of texts that are joined with commas are the pieces of the texts, by induction on
them.
-/
theorem commaPieces_joined (texts : List Text)
    : commaPieces (joined "," texts) = texts.flatMap commaPieces := by
  induction texts with
  | nil => rfl
  | cons first rest ih =>
      cases rest with
      | nil => simp [joined, List.intercalate]
      | cons second more =>
          have hjoined : joined "," (first :: second :: more)
              = first ++ ',' :: joined "," (second :: more) := by
            simp [joined, List.intercalate]
          rw [hjoined, commaPieces_append, ih]
          rfl

-----------------------------------------------------------------------------------------
-- Blanks around pieces
-----------------------------------------------------------------------------------------

/-- No comma is blank. -/
theorem not_mem_of_blanks (h : ∀ c ∈ blanks, isBlank c = true) : ',' ∉ blanks := by
  intro hin
  exact absurd (h ',' hin) (by decide)

/-- Blanks before a text are in no piece: they stand before the first comma. -/
theorem commaPieces_blanks_append (text : Text) (h : ∀ c ∈ blanks, isBlank c = true)
    : commaPieces (blanks ++ text) = commaPieces text := by
  have hone : ∀ front : Text, ',' ∉ front →
      commaPieces (blanks ++ front) = commaPieces front := by
    intro front hfront
    have hboth : ',' ∉ blanks ++ front := by
      rw [List.mem_append, not_or]
      exact ⟨not_mem_of_blanks h, hfront⟩
    have htrim : trim (blanks ++ front) = trim front := by
      rw [trim, trimStart_blanks_append front h, trim]
    rw [commaPieces_of_not_mem hboth, commaPieces_of_not_mem hfront]
    simp only [withoutBlanks, List.map_cons, List.map_nil, htrim]
  by_cases hcomma : ',' ∈ text
  · obtain ⟨front, back, rfl, hfront⟩ := List.eq_append_cons_of_mem hcomma
    rw [← List.append_assoc, commaPieces_append, commaPieces_append, hone front hfront]
  · exact hone text hcomma

/-- Blanks behind a text are in no piece, by induction on the text from comma to comma. -/
theorem commaPieces_append_blanks (text : Text) (h : ∀ c ∈ blanks, isBlank c = true)
    : commaPieces (text ++ blanks) = commaPieces text := by
  induction hlength : text.length using Nat.strong_induction_on generalizing text with
  | _ length ih =>
      by_cases hcomma : ',' ∈ text
      · obtain ⟨front, back, rfl, _⟩ := List.eq_append_cons_of_mem hcomma
        have hback : back.length < length := by
          rw [← hlength, List.length_append, List.length_cons]
          omega
        rw [List.append_assoc, List.cons_append, commaPieces_append, commaPieces_append,
          ih back.length hback back rfl]
      · have hboth : ',' ∉ text ++ blanks := by
          rw [List.mem_append, not_or]
          exact ⟨hcomma, not_mem_of_blanks h⟩
        rw [commaPieces_of_not_mem hboth, commaPieces_of_not_mem hcomma]
        simp only [withoutBlanks, List.map_cons, List.map_nil, trim_append_blanks h]

/-- A trimmed text has the pieces of the text. -/
theorem commaPieces_trim (text : Text) : commaPieces (trim text) = commaPieces text := by
  refine apply_trim ?_ (fun text _ hb => commaPieces_append_blanks text hb) text
  intro text
  obtain ⟨blanks, htext, hb⟩ := exists_eq_append_trimStart text
  conv_rhs => rw [htext]
  exact (commaPieces_blanks_append _ hb).symm

/-- Texts have the pieces of what is left of them without blanks, by induction on them. -/
theorem flatMap_commaPieces_withoutBlanks (texts : List Text)
    : (withoutBlanks texts).flatMap commaPieces = texts.flatMap commaPieces := by
  induction texts with
  | nil => rfl
  | cons first rest ih =>
      rw [List.flatMap_cons, ← ih, ← commaPieces_trim first, withoutBlanks, List.map_cons,
        List.filter_cons]
      cases trim first with
      | nil => rfl
      | cons c more => rfl

end SuiteScore.Text
