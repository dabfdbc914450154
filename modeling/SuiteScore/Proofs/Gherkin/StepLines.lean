import SuiteScore.Proofs.Gherkin.Section

/-! Every step of an element stands in a line of its own, which reads as that step. -/

namespace SuiteScore.Gherkin

open Text

/-- An entry of an amended list was there before, or it comes from one that was. -/
theorem mem_amendLast {change : α → α} {entries : List α} {entry : α}
    (h : entry ∈ amendLast change entries)
    : entry ∈ entries ∨ ∃ old ∈ entries, entry = change old := by
  cases entries using List.reverseRecOn with
  | nil => cases h
  | append_singleton front last =>
      rw [amendLast_concat, List.mem_append, List.mem_singleton] at h
      rcases h with h | h
      · exact Or.inl (List.mem_append_left _ h)
      · exact Or.inr ⟨last, by simp, h⟩

/-- A step stands in its line among lines of which the first has the number `n`. -/
def Step.StandsIn (n : Nat) (lines : List Text) (step : Step) : Prop :=
  ∃ i raw, step.line = n + i ∧ lines[i]? = some raw ∧ Line.of raw = .step step.keyword step.text

/-- A step stands in its line when more lines follow. -/
theorem Step.StandsIn.append {n : Nat} {lines : List Text} {step : Step}
    (h : step.StandsIn n lines) (more : List Text)
    : step.StandsIn n (lines ++ more) := by
  obtain ⟨i, raw, hline, hraw, hreads⟩ := h
  refine ⟨i, raw, hline, ?_, hreads⟩
  rw [List.getElem?_append_left (List.getElem?_eq_some_iff.mp hraw).1]
  exact hraw

/-- A row leaves a step in its line. -/
theorem Step.StandsIn.addRow {n : Nat} {lines : List Text} {step : Step}
    (h : step.StandsIn n lines) (row : Row)
    : (step.addRow row).StandsIn n lines := by
  unfold Step.addRow
  split <;> exact h

namespace Reader

variable {reader next : Reader} {n : Nat} {raw : Text}

/-- A line leaves the steps of an element in their lines and puts a new one into its own, by the
cases of the line.
-/
theorem Takes.standsIn {done : List Text} {element : Element}
    (h : reader.Takes (n + done.length) raw next) (hc : next.current = some element)
    (hs : ∀ element, reader.current = some element → ∀ step ∈ element.steps, step.StandsIn n done)
    : ∀ step ∈ element.steps, step.StandsIn n (done ++ [raw]) := by
  cases h with
  | content | blank | comment | tags | feature | fence | featureProse =>
      exact fun step hin => (hs element hc step hin).append [raw]
  | close hd hr =>
      obtain ⟨before, hb, rfl⟩ := Option.map_eq_some_iff.mp hc
      intro step hin
      rcases mem_amendLast hin with hin | ⟨old, hold, rfl⟩
      · exact (hs before hb step hin).append [raw]
      · exact (hs before hb old hold).append [raw]
  | element hd hl hclosed hb =>
      cases hc
      simp
  | examples hd hl hcurrent hk =>
      cases hc
      exact fun step hin => (hs _ hcurrent step hin).append [raw]
  | step hd hl ht hcurrent he =>
      cases hc
      intro step hin
      rcases List.mem_append.mp hin with hin | hin
      · exact (hs _ hcurrent step hin).append [raw]
      · rw [List.mem_singleton.mp hin]
        exact ⟨done.length, raw, rfl, by simp, hl⟩
  | @row _ before _ hd hl hr hcurrent hg =>
      cases hc
      rcases Element.addRow_cases hg with ⟨_, _, _, rfl⟩ | ⟨_, front, last, hl, _, rfl⟩
      · exact fun step hin => (hs before hcurrent step hin).append [raw]
      · intro step hin
        rcases List.mem_append.mp hin with hin | hin
        · exact (hs before hcurrent step (by simp [hl, hin])).append [raw]
        · rw [List.mem_singleton.mp hin]
          exact ((hs before hcurrent last (by simp [hl])).addRow _).append [raw]
  | @elementProse _ before _ hd hl ht hcurrent hg =>
      cases hc
      rcases Element.describe?_cases hg with ⟨_, _, rfl⟩ | ⟨_, _, _, _, rfl⟩
      · exact fun step hin => (hs before hcurrent step hin).append [raw]
      · exact fun step hin => (hs before hcurrent step hin).append [raw]

/-- The steps of the element that grows stand in the lines since it began, by the run lemma. -/
theorem standsIn_of_takeAll {lines : List Text} {begun element : Element}
    (h : reader.takeAll n lines = .ok next) (hb : reader.current = some begun)
    (hs : begun.steps = []) (hc : next.current = some element)
    : ∀ step ∈ element.steps, step.StandsIn n lines := by
  refine takeAll_keeps
    (fun done middle => ∀ element, middle.current = some element →
      ∀ step ∈ element.steps, step.StandsIn n done)
    ?_ ?_ h element hc
  · intro element hc
    rw [hb] at hc
    cases hc
    simp [hs]
  · intro done middle raw after _ hm ht element hc
    exact (takes_of_takeRaw ht).standsIn hc hm

end Reader

end SuiteScore.Gherkin
