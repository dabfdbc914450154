import SuiteScore.Proofs.Gherkin.Layout
import SuiteScore.Proofs.Gherkin.StepLine
import SuiteScore.Proofs.Text.Lines

/-! Every row of the examples of an element stands in a line of its own, and comments before it are
comments.
-/

namespace SuiteScore.Gherkin

open Text

-----------------------------------------------------------------------------------------
-- Lines of rows
-----------------------------------------------------------------------------------------

/-- A line that reads as a row between two bars is an example row, and it is not commented out. -/
theorem isExampleRow_of_row {raw text : Text} (hl : Line.of raw = .row text)
    (hr : isRow text = true) (hn : '\n' ∉ raw)
    : isExampleRow raw = true ∧ isCommented raw = false := by
  have hfits := Line.fits_ofTrimmed (trim raw)
  rw [← Line.of, hl] at hfits
  obtain ⟨rfl, hbar⟩ := hfits
  have htrimmed : trimStart (trim raw) = trim raw := trimStart_trim raw
  have hline : '\n' ∉ trim raw := fun hin => hn (mem_of_mem_trim hin)
  rw [← isExampleRow_trim, ← isCommented_trim]
  cases htext : trim raw with
  | nil => rw [htext] at hbar; cases hbar
  | cons c rest =>
      rw [htext] at hbar hr htrimmed hline
      cases hbar
      refine ⟨?_, by rw [isCommented, htrimmed]; rfl⟩
      have hlast : rest.getLast? = some '|' := by
        simp only [isRow, Bool.and_eq_true, beq_iff_eq, decide_eq_true_eq, List.length_cons] at hr
        cases rest with
        | nil => exact absurd hr.2 (by decide)
        | cons second more => exact hr.1
      have hend : trimEnd rest = rest := by
        obtain ⟨front, rfl⟩ := List.getLast?_eq_some_iff.mp hlast
        simp [trimEnd, dropEndWhile, isBlank]
      have hinner : '\n' ∉ rest.dropLast := fun hin =>
        hline (List.mem_cons_of_mem _ (List.dropLast_subset _ hin))
      simp [isExampleRow, uncommented, htrimmed, hend, hlast, hinner]

/-- A row stands in its line among lines of which the first has the number `n`, and what is before
it are comments.
-/
structure Row.StandsIn (n : Nat) (lines : List Text) (row : Row) : Prop where
  line
    : ∃ i raw text, row.line = n + i ∧ lines[i]? = some raw ∧ Line.of raw = .row text
        ∧ isRow text = true
  comments : ∀ comment ∈ row.comments, comment.text.head? = some '#'

/-- A row stands in its line when more lines follow. -/
theorem Row.StandsIn.append {n : Nat} {lines : List Text} {row : Row} (h : row.StandsIn n lines)
    (more : List Text)
    : row.StandsIn n (lines ++ more) := by
  obtain ⟨i, raw, text, hline, hraw, hreads⟩ := h.line
  refine ⟨⟨i, raw, text, hline, ?_, hreads⟩, h.comments⟩
  rw [List.getElem?_append_left (List.getElem?_eq_some_iff.mp hraw).1]
  exact hraw

/-- The rows of the examples of an element, block by block. -/
def Element.rows (element : Element) : List Row :=
  element.examples.flatMap (·.rows)

/-- The descriptions of examples have no part in their rows. -/
theorem Element.rows_settled (element : Element) : element.settled.rows = element.rows := by
  simp [rows, settled, Examples.undescribed, List.flatMap_map]

namespace Reader

variable {reader next : Reader} {n : Nat} {raw : Text}

/-- A line leaves only comments waiting, by the cases of the line. -/
theorem Takes.comments_written (h : reader.Takes n raw next)
    (hs : ∀ comment ∈ reader.comments, comment.text.head? = some '#')
    : ∀ comment ∈ next.comments, comment.text.head? = some '#' := by
  intro comment hin
  rcases h.mem_comments hin with ⟨_, hl, _⟩ | ⟨hin, _⟩
  · have hfits := Line.fits_ofTrimmed (trim raw)
    rw [← Line.of, hl] at hfits
    exact hfits.1 ▸ hfits.2
  · exact hs comment hin

/-- A line leaves the example rows of an element in their lines and puts a new one into its own, by
the cases of the line.
-/
theorem Takes.rows_standIn {done : List Text} {element : Element}
    (h : reader.Takes (n + done.length) raw next) (hc : next.current = some element)
    (hw : ∀ comment ∈ reader.comments, comment.text.head? = some '#')
    (hs : ∀ element, reader.current = some element → ∀ row ∈ element.rows, row.StandsIn n done)
    : ∀ row ∈ element.rows, row.StandsIn n (done ++ [raw]) := by
  cases h with
  | content | blank | comment | tags | feature | fence | featureProse =>
      exact fun row hin => (hs element hc row hin).append [raw]
  | close hd hr =>
      obtain ⟨before, hb, rfl⟩ := Option.map_eq_some_iff.mp hc
      exact fun row hin => (hs before hb row hin).append [raw]
  | element =>
      cases hc
      simp [Element.rows]
  | @examples _ _ before hd hl hcurrent hk =>
      cases hc
      intro row hin
      have hold : row ∈ before.rows := by simpa [Element.rows] using hin
      exact (hs before hcurrent row hold).append [raw]
  | step hd hl ht hcurrent he =>
      cases hc
      exact fun row hin => (hs _ hcurrent row hin).append [raw]
  | @row text before _ hd hl hr hcurrent hg =>
      cases hc
      intro row hin
      rcases Element.addRow_cases hg with ⟨front, last, hl', rfl⟩ | ⟨he, front, last, _, _, rfl⟩
      · have hcases : row ∈ before.rows
            ∨ row = ⟨cells text, n + done.length, reader.comments⟩ := by
          simpa [Element.rows, hl', Examples.addRow, or_assoc] using hin
        rcases hcases with hold | rfl
        · exact (hs before hcurrent row hold).append [raw]
        · exact ⟨⟨done.length, raw, text, rfl, by simp, hl, hr⟩, hw⟩
      · exact (hs before hcurrent row hin).append [raw]
  | @elementProse _ before _ hd hl ht hcurrent hg =>
      cases hc
      intro row hin
      rcases Element.describe?_cases hg with ⟨_, _, rfl⟩ | ⟨front, last, hl', hr, rfl⟩
      · exact (hs before hcurrent row hin).append [raw]
      · have hold : row ∈ before.rows := by simpa [Element.rows, hl'] using hin
        exact (hs before hcurrent row hold).append [raw]

/-- The example rows of the element that grows stand in the lines since it began, by the run lemma.
-/
theorem rows_standIn_of_takeAll {lines : List Text} {begun element : Element}
    (h : reader.takeAll n lines = .ok next) (hb : reader.current = some begun)
    (hs : begun.examples = []) (hw : reader.comments = []) (hc : next.current = some element)
    : ∀ row ∈ element.rows, row.StandsIn n lines := by
  refine (takeAll_keeps
    (fun done middle =>
      (∀ comment ∈ middle.comments, comment.text.head? = some '#')
      ∧ ∀ element, middle.current = some element → ∀ row ∈ element.rows, row.StandsIn n done)
    ⟨by simp [hw], ?_⟩ ?_ h).2 element hc
  · intro element hc
    rw [hb] at hc
    cases hc
    simp [Element.rows, hs]
  · intro done middle raw after _ hm ht
    have htakes := takes_of_takeRaw ht
    exact ⟨htakes.comments_written hm.1, fun element hc => htakes.rows_standIn hc hm.1 hm.2⟩

end Reader

/-- A line of the extent is a line of the file. -/
theorem Layout.getElem?_kept {lines : List Text} {element : Element}
    (layout : Layout lines element) {i : Nat} {raw : Text} (h : layout.kept[i]? = some raw)
    : lines[element.line + i]? = some raw := by
  have hall : lines = (layout.old ++ layout.lead ++ [layout.heading])
      ++ (layout.kept ++ (layout.cutoff ++ layout.rest)) := by
    simpa using layout.lines_eq
  have hfront : (layout.old ++ layout.lead ++ [layout.heading]).length = element.line := by
    rw [layout.line_eq, List.length_append, List.length_append, List.length_singleton]
  have hi := (List.getElem?_eq_some_iff.mp h).1
  refine (congrArg (fun lines => lines[element.line + i]?) hall).trans ?_
  rw [List.getElem?_append_right (by omega), hfront, Nat.add_sub_cancel_left,
    List.getElem?_append_left hi]
  exact h

/-- The example rows of an element stand in its extent. -/
theorem Layout.rows_standIn {lines : List Text} {element : Element} (layout : Layout lines element)
    : ∀ row ∈ element.rows, row.StandsIn (element.line + 1) layout.kept := by
  have hrows : layout.last.rows = element.rows := by
    have hsame := congrArg Element.rows layout.isExtent.same
    rwa [Element.rows_settled, Element.rows_settled] at hsame
  have hline : (layout.old ++ layout.lead).length + 2 = element.line + 1 := by
    rw [layout.isSection.line]
  rw [← hrows, ← hline]
  exact Reader.rows_standIn_of_takeAll layout.isExtent.takes layout.isSection.begun rfl
    layout.isSection.bare.2.1 layout.isExtent.grows

end SuiteScore.Gherkin
