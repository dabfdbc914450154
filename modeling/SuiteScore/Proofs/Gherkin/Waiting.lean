import SuiteScore.Proofs.Gherkin.Section

/-! What waits for an owner: every comment and tag that waits was read from its own line, and no
line since then could have taken it.
-/

namespace SuiteScore.Gherkin

open Text

/-- Whether a line takes the comments that wait. -/
def Line.takesComments : Line → Bool
  | .feature _ => true
  | .element .. => true
  | .examples .. => true
  | .step .. => true
  | .row _ => true
  | _ => false

/-- Whether no tag waits after a line: it takes the tags, or it is refused when there are any. -/
def Line.endsTags : Line → Bool
  | .feature _ => true
  | .element .. => true
  | .examples .. => true
  | .step .. => true
  | .prose _ => true
  | _ => false

namespace Reader

variable {reader next : Reader} {n : Nat} {raw : Text}

/-- A comment that waits after a line is that line, or waited before it, by the cases of the line.
-/
theorem Takes.mem_comments {comment : Comment} (h : reader.Takes n raw next)
    (hc : comment ∈ next.comments)
    : reader.docString = none ∧ Line.of raw = .comment comment.text ∧ comment.line = n
      ∨ comment ∈ reader.comments
        ∧ ∀ line, reading reader.openFence raw = some line → line.takesComments = false := by
  cases h with
  | content hd | close hd =>
      refine Or.inr ⟨hc, ?_⟩
      rw [openFence, hd]
      simp [reading]
  | blank hd hl | tags hd hl | fence hd hl | elementProse hd hl | featureProse hd hl =>
      refine Or.inr ⟨hc, ?_⟩
      rw [reading_of_outside hd, hl]
      simp [Line.takesComments]
  | comment hd hl =>
      rcases List.mem_append.mp hc with hc | hc
      · refine Or.inr ⟨hc, ?_⟩
        rw [reading_of_outside hd, hl]
        simp [Line.takesComments]
      · rw [List.mem_singleton.mp hc]
        exact Or.inl ⟨hd, hl, rfl⟩
  | feature | element | examples | step | row => cases hc

/-- A tag that waits after a line stands in that line, or waited before it, by the cases of the
line.
-/
theorem Takes.mem_tags {tag : Tag} (h : reader.Takes n raw next) (ht : tag ∈ next.tags)
    : reader.docString = none
        ∧ (∃ tokens, Line.of raw = .tags tokens ∧ tag.name ∈ tokens) ∧ tag.line = n
      ∨ tag ∈ reader.tags
        ∧ ∀ line, reading reader.openFence raw = some line → line.endsTags = false := by
  cases h with
  | content hd | close hd =>
      refine Or.inr ⟨ht, ?_⟩
      rw [openFence, hd]
      simp [reading]
  | blank hd hl | comment hd hl | row hd hl | fence hd hl =>
      refine Or.inr ⟨ht, ?_⟩
      rw [reading_of_outside hd, hl]
      simp [Line.endsTags]
  | tags hd hl =>
      rcases List.mem_append.mp ht with ht | ht
      · refine Or.inr ⟨ht, ?_⟩
        rw [reading_of_outside hd, hl]
        simp [Line.endsTags]
      · obtain ⟨name, hn, rfl⟩ := List.mem_map.mp ht
        exact Or.inl ⟨hd, ⟨_, hl, hn⟩, rfl⟩
  | feature | element | examples => cases ht
  | step _ _ hn | elementProse _ _ hn | featureProse _ _ hn => rw [hn] at ht; cases ht

/-- What every line that does not end it hands on from the reader before has waited all the while,
by the run lemma.
-/
theorem waits_of_takeAll (waits : Reader → Prop) {ends : Line → Bool} {lines : List Text}
    (back
      : ∀ {reader m raw next},
          n ≤ m
          → reader.takeRaw m raw = .ok next
          → waits next
          → waits reader
            ∧ ∀ line, reading reader.openFence raw = some line → ends line = false)
    (h : reader.takeAll n lines = .ok next) (hw : waits next)
    : waits reader
      ∧ ∀ line, some line ∈ readings reader.openFence lines → ends line = false := by
  refine takeAll_keeps
    (fun done middle => waits middle →
      waits reader ∧ ∀ line, some line ∈ readings reader.openFence done → ends line = false)
    (fun hin => ⟨hin, by simp [readings]⟩) ?_ h hw
  intro done middle raw after hd hm ht hin
  obtain ⟨hmiddle, hl⟩ := back (Nat.le_add_right n done.length) ht hin
  refine ⟨(hm hmiddle).1, fun line hline => ?_⟩
  rw [readings_append, List.mem_append] at hline
  rcases hline with hline | hline
  · exact (hm hmiddle).2 line hline
  · rw [← openFence_of_takeAll hd] at hline
    exact hl line (List.mem_singleton.mp hline).symm

/-- A comment from before some lines that waits after them met none that takes comments. -/
theorem comment_waits {lines : List Text} {comment : Comment}
    (h : reader.takeAll n lines = .ok next) (hc : comment ∈ next.comments) (hn : comment.line < n)
    : comment ∈ reader.comments
      ∧ ∀ line, some line ∈ readings reader.openFence lines → line.takesComments = false := by
  refine waits_of_takeAll (fun middle => comment ∈ middle.comments) ?_ h hc
  intro reader m raw next hm ht hin
  rcases (takes_of_takeRaw ht).mem_comments hin with ⟨_, _, hline⟩ | hback
  · omega
  · exact hback

/-- A tag from before some lines that waits after them met none after which no tag waits. -/
theorem tag_waits {lines : List Text} {tag : Tag}
    (h : reader.takeAll n lines = .ok next) (ht : tag ∈ next.tags) (hn : tag.line < n)
    : tag ∈ reader.tags
      ∧ ∀ line, some line ∈ readings reader.openFence lines → line.endsTags = false := by
  refine waits_of_takeAll (fun middle => tag ∈ middle.tags) ?_ h ht
  intro reader m raw next hm ht hin
  rcases (takes_of_takeRaw ht).mem_tags hin with ⟨_, _, hline⟩ | hback
  · omega
  · exact hback

/-- What waits was read from lines of the text, by the run lemma. -/
theorem waiting_lines {lines : List Text} (h : start.takeAll 1 lines = .ok reader)
    : (∀ comment ∈ reader.comments, 1 ≤ comment.line ∧ comment.line ≤ lines.length)
      ∧ ∀ tag ∈ reader.tags, 1 ≤ tag.line ∧ tag.line ≤ lines.length := by
  refine takeAll_keeps
    (fun done middle =>
      (∀ comment ∈ middle.comments, 1 ≤ comment.line ∧ comment.line ≤ done.length)
      ∧ ∀ tag ∈ middle.tags, 1 ≤ tag.line ∧ tag.line ≤ done.length)
    (by simp [start]) ?_ h
  intro done middle raw after _ hm ht
  rw [List.length_append, List.length_singleton]
  refine ⟨fun comment hc => ?_, fun tag hg => ?_⟩
  · rcases (takes_of_takeRaw ht).mem_comments hc with ⟨_, _, hline⟩ | ⟨hin, _⟩
    · omega
    · have hb := hm.1 comment hin
      omega
  · rcases (takes_of_takeRaw ht).mem_tags hg with ⟨_, _, hline⟩ | ⟨hin, _⟩
    · omega
    · have hb := hm.2 tag hin
      omega

end Reader

end SuiteScore.Gherkin
