import SuiteScore.Proofs.Gherkin.Span
import SuiteScore.Proofs.Gherkin.Waiting

/-! The lead of an element: the lines from its first comment or tag to its keyword line. No line
stands there that could have taken what waits for the element.
-/

namespace SuiteScore.Gherkin

open Text

/-- Whether a line leaves comments and tags waiting and belongs to no element by itself. -/
def Line.isIdle : Line → Bool
  | .blank => true
  | .comment _ => true
  | .tags _ => true
  | .prose _ => true
  | _ => false

/-- Whether a line is a row, or opens a doc string: it belongs to what stands before it. -/
def Line.isArgument : Line → Bool
  | .row _ => true
  | .fence _ => true
  | _ => false

/-- A line that does not take comments is idle or opens a doc string. -/
theorem Line.idle_or_argument_of_takesComments {line : Line} (h : line.takesComments = false)
    : line.isIdle = true ∨ line.isArgument = true := by
  cases line <;> first | exact Or.inl rfl | exact Or.inr rfl | cases h

/-- A line that does not end the wait of tags is idle, a row, or opens a doc string. -/
theorem Line.idle_or_argument_of_endsTags {line : Line} (h : line.endsTags = false)
    : line.isIdle = true ∨ line.isArgument = true := by
  cases line <;> first | exact Or.inl rfl | exact Or.inr rfl | cases h

namespace Reader

/-- The reader `idle` stands before the lead of an element, and `opener` after it. -/
structure IsLead (old lead : List Text) (idle opener : Reader) (element : Element) : Prop where
  reached : start.takeAll 1 old = .ok idle
  outside : idle.docString = none
  first : old.length + 1 = Span.firstOf element
  takes : idle.takeAll (old.length + 1) lead = .ok opener
  loose : ∀ line, some line ∈ readings none lead → line.isIdle = true ∨ line.isArgument = true

variable {idle middle opener : Reader} {raw : Text} {rest : List Text} {n : Nat}

/-- The readings after a line outside doc strings go on from the reader after it. -/
theorem readings_cons_of_outside (h : idle.takeRaw n raw = .ok middle)
    (hd : idle.docString = none)
    : readings none (raw :: rest) = some (Line.of raw) :: readings middle.openFence rest := by
  have hf := (takes_of_takeRaw h).openFence_eq
  rw [openFence, openFence, hd, Option.map_none] at hf
  rw [readings, ← hf]
  rfl

/-- A first line that leaves a comment waiting to the end stands outside doc strings, and no later
line takes comments.
-/
theorem loose_of_comment {comment : Comment} (h : idle.takeAll n (raw :: rest) = .ok opener)
    (hc : comment ∈ opener.comments) (hn : comment.line = n)
    (hold : ∀ comment ∈ idle.comments, comment.line < n)
    : idle.docString = none
      ∧ ∀ line, some line ∈ readings none (raw :: rest) →
          line.isIdle = true ∨ line.isArgument = true := by
  obtain ⟨middle, hone, hrest⟩ := exists_of_takeAll_cons h
  obtain ⟨hin, hlater⟩ := comment_waits hrest hc (by omega)
  rcases (takes_of_takeRaw hone).mem_comments hin with ⟨hout, hl, _⟩ | ⟨hback, _⟩
  · refine ⟨hout, fun line hline => ?_⟩
    rw [readings_cons_of_outside hone hout, hl] at hline
    rcases List.mem_cons.mp hline with hline | hline
    · cases hline
      exact Or.inl rfl
    · exact Line.idle_or_argument_of_takesComments (hlater line hline)
  · have hlt := hold comment hback
    omega

/-- A first line that leaves a tag waiting to the end stands outside doc strings, and no later line
ends the wait of tags.
-/
theorem loose_of_tag {tag : Tag} (h : idle.takeAll n (raw :: rest) = .ok opener)
    (ht : tag ∈ opener.tags) (hn : tag.line = n) (hold : ∀ tag ∈ idle.tags, tag.line < n)
    : idle.docString = none
      ∧ ∀ line, some line ∈ readings none (raw :: rest) →
          line.isIdle = true ∨ line.isArgument = true := by
  obtain ⟨middle, hone, hrest⟩ := exists_of_takeAll_cons h
  obtain ⟨hin, hlater⟩ := tag_waits hrest ht (by omega)
  rcases (takes_of_takeRaw hone).mem_tags hin with ⟨hout, ⟨tokens, hl, _⟩, _⟩ | ⟨hback, _⟩
  · refine ⟨hout, fun line hline => ?_⟩
    rw [readings_cons_of_outside hone hout, hl] at hline
    rcases List.mem_cons.mp hline with hline | hline
    · cases hline
      exact Or.inl rfl
    · exact Line.idle_or_argument_of_endsTags (hlater line hline)
  · have hlt := hold tag hback
    omega

/-- Every section has a lead. Witness: the lines before the keyword line from the first line of the
element on; if there are any, the first of them is a comment or a tag that waits for the keyword.
-/
theorem IsSection.exists_lead {before heading body opener opened grown} {element : Element}
    (h : IsSection before heading body opener opened grown element)
    : ∃ old lead idle, before = old ++ lead ∧ IsLead old lead idle opener element := by
  have hle : Span.firstOf element ≤ before.length + 1 := h.line ▸ Span.firstOf_le_line
  obtain ⟨hcomments, htags⟩ := waiting_lines h.reached
  have hpos : 1 ≤ Span.firstOf element := by
    rcases Span.firstOf_cases element with hf | ⟨comment, hc, hf⟩ | ⟨tag, ht, hf⟩
    · rw [hf, h.line]
      omega
    · exact hf ▸ (hcomments comment (h.comments ▸ hc)).1
    · exact hf ▸ (htags tag (h.tags ▸ ht)).1
  obtain ⟨old, lead, rfl, hlength⟩ : ∃ old lead, before = old ++ lead
      ∧ old.length + 1 = Span.firstOf element := by
    refine ⟨before.take (Span.firstOf element - 1), before.drop (Span.firstOf element - 1),
      (List.take_append_drop ..).symm, ?_⟩
    rw [List.length_take]
    omega
  obtain ⟨idle, hidle, hlead⟩ := exists_of_takeAll_append h.reached
  rw [Nat.add_comm] at hlead
  obtain ⟨hcold, htold⟩ := waiting_lines hidle
  cases lead with
  | nil =>
      cases hlead
      exact ⟨old, [], opener, rfl, hidle, h.outside, hlength, rfl, by simp [readings]⟩
  | cons raw rest =>
      have hloose : idle.docString = none
          ∧ ∀ line, some line ∈ readings none (raw :: rest) →
              line.isIdle = true ∨ line.isArgument = true := by
        rcases Span.firstOf_cases element with hf | ⟨comment, hc, hf⟩ | ⟨tag, ht, hf⟩
        · have hline := h.line
          rw [List.length_append, List.length_cons] at hline
          omega
        · refine loose_of_comment hlead (h.comments ▸ hc) (hf.trans hlength.symm) fun other ho => ?_
          exact Nat.lt_succ_of_le (hcold other ho).2
        · refine loose_of_tag hlead (h.tags ▸ ht) (hf.trans hlength.symm) fun other ho => ?_
          exact Nat.lt_succ_of_le (htold other ho).2
      exact ⟨old, raw :: rest, idle, rfl, hidle, hloose.1, hlength, hlead, hloose.2⟩

end Reader

end SuiteScore.Gherkin
