import SuiteScore.Proofs.Gherkin.Line
import SuiteScore.Proofs.Gherkin.Reading

/-! Lines that say the same in different words: they differ in blanks around them, or in the content
of doc strings.
-/

namespace SuiteScore.Gherkin

open Text

/-- A line is blank when nothing is left of it without the blanks around it. -/
theorem Line.of_eq_blank_iff {raw : Text} : Line.of raw = .blank ↔ trim raw = [] := by
  constructor
  · intro h
    have hfits := Line.fits_ofTrimmed (trim raw)
    rw [← Line.of, h] at hfits
    exact hfits
  · intro h
    rw [Line.of, h]
    rfl

/-- The lines of two lists say the same one after another, from the given doc string or from none
on, and outside doc strings they look the same in a view.
-/
inductive SayAlike (view : Text → Text) : Option Fence → List Text → List Text → Prop
  | nil {fence} : SayAlike view fence [] []
  | cons {fence raw line rest more}
    (said : reading fence raw = reading fence line)
    (opens : fenceAfter fence raw = fenceAfter fence line)
    (seen : fence = none → view raw = view line)
    (later : SayAlike view (fenceAfter fence raw) rest more)
    : SayAlike view fence (raw :: rest) (line :: more)

namespace SayAlike

variable {view : Text → Text} {fence : Option Fence} {lines others : List Text}

/-- Lines say the same as themselves, by induction on them. -/
theorem refl (fence : Option Fence) (lines : List Text) : SayAlike view fence lines lines := by
  induction lines generalizing fence with
  | nil => exact .nil
  | cons raw rest ih => exact .cons rfl rfl (fun _ => rfl) (ih _)

/-- Lines that differ in the blanks around them say the same, by induction on the lines. -/
theorem of_trim (h : lines.map trim = others.map trim) : SayAlike trim fence lines others := by
  induction lines generalizing others fence with
  | nil =>
      obtain rfl : others = [] := by simpa using h.symm
      exact .nil
  | cons raw rest ih =>
      cases others with
      | nil => cases h
      | cons line more =>
          obtain ⟨hline, hmore⟩ := List.cons.inj h
          refine .cons ?_ ?_ (fun _ => hline) (ih hmore)
          · cases fence <;> simp [reading, Line.of, hline]
          · cases fence <;> simp [fenceAfter, Line.of, hline]

/-- Lines of a doc string say the same when none of them closes it, by induction on the lines. -/
theorem of_content {delimiter : Fence} (hlength : lines.length = others.length)
    (hl : ∀ raw ∈ lines, trim raw ≠ delimiter.text)
    (ho : ∀ raw ∈ others, trim raw ≠ delimiter.text)
    : SayAlike view (some delimiter) lines others := by
  induction lines generalizing others with
  | nil =>
      obtain rfl : others = [] := List.length_eq_zero_iff.mp hlength.symm
      exact .nil
  | cons raw rest ih =>
      cases others with
      | nil => cases hlength
      | cons line more =>
          have hraw : fenceAfter (some delimiter) raw = some delimiter :=
            if_neg (hl raw List.mem_cons_self)
          have hline : fenceAfter (some delimiter) line = some delimiter :=
            if_neg (ho line List.mem_cons_self)
          refine .cons rfl (hraw.trans hline.symm) nofun ?_
          rw [hraw]
          exact ih (Nat.succ.inj hlength) (fun line hin => hl line (List.mem_cons_of_mem _ hin))
            fun line hin => ho line (List.mem_cons_of_mem _ hin)

/-- What is said alike in two parts is said alike in the whole, by induction on the first part. -/
theorem append {front back : List Text} (h : SayAlike view fence lines others)
    (hl : SayAlike view (lines.foldl fenceAfter fence) front back)
    : SayAlike view fence (lines ++ front) (others ++ back) := by
  induction h with
  | nil => exact hl
  | cons said opens seen _ ih => exact .cons said opens seen (ih hl)

/-- What says the same reads the same. -/
theorem readings_eq (h : SayAlike view fence lines others)
    : readings fence lines = readings fence others := by
  induction h with
  | nil => rfl
  | cons said opens _ _ ih => rw [readings, readings, said, ih, opens]

/-- A line that says something looks the same, by induction on the lines. -/
theorem seen_of_reading (h : SayAlike view fence lines others) {i : Nat} {line : Line}
    (hr : (readings fence lines)[i]? = some (some line))
    : lines[i]?.map view = others[i]?.map view := by
  induction h generalizing i with
  | nil => cases hr
  | @cons fence raw _ rest _ said _ seen _ ih =>
      cases i with
      | zero =>
          cases fence with
          | none => exact congrArg some (seen rfl)
          | some delimiter => cases hr
      | succ i => exact ih hr

/-- Blank lines say what blank lines say, by induction on the lines. -/
theorem all_isEmpty_eq (h : SayAlike view none lines others)
    : lines.all (fun line => (trim line).isEmpty) = others.all fun line => (trim line).isEmpty := by
  induction lines generalizing others with
  | nil =>
      cases h
      rfl
  | cons raw rest ih =>
      cases h with
      | @cons _ _ line _ more said _ _ later =>
          have hread : Line.of raw = Line.of line := Option.some.inj said
          have hempty : (trim raw).isEmpty = (trim line).isEmpty := by
            rw [Bool.eq_iff_iff, List.isEmpty_iff, List.isEmpty_iff, ← Line.of_eq_blank_iff, hread,
              Line.of_eq_blank_iff]
          rw [List.all_cons, List.all_cons, ← hempty]
          cases hb : (trim raw).isEmpty with
          | false => rfl
          | true =>
              have houtside : fenceAfter none raw = none := by
                rw [fenceAfter, Line.of_eq_blank_iff.mpr (List.isEmpty_iff.mp hb)]
              rw [houtside] at later
              rw [ih later]

end SayAlike

end SuiteScore.Gherkin
