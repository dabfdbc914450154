import SuiteScore.Proofs.Gherkin.Transition

/-! What the lines of a file say where they stand. A line of a doc string says nothing, and neither
does the delimiter that closes one.
-/

namespace SuiteScore.Gherkin

open Text

/-- What a line says when the given doc string is open before it. -/
def reading : Option Fence → Text → Option Line
  | some _, _ => none
  | none, raw => some (Line.of raw)

/-- The doc string that is open after a line. -/
def fenceAfter : Option Fence → Text → Option Fence
  | some fence, raw => if trim raw = fence.text then none else some fence
  | none, raw =>
    match Line.of raw with
    | .fence fence => some fence
    | _ => none

/-- What the lines say one after another. -/
def readings : Option Fence → List Text → List (Option Line)
  | _, [] => []
  | fence, raw :: rest => reading fence raw :: readings (fenceAfter fence raw) rest

theorem length_readings (fence : Option Fence) (lines : List Text)
    : (readings fence lines).length = lines.length := by
  induction lines generalizing fence with
  | nil => rfl
  | cons raw rest ih => simp only [readings, List.length_cons, ih]

theorem readings_append (fence : Option Fence) (front back : List Text)
    : readings fence (front ++ back)
      = readings fence front ++ readings (front.foldl fenceAfter fence) back := by
  induction front generalizing fence with
  | nil => rfl
  | cons raw rest ih => simp only [List.cons_append, readings, List.foldl_cons, ih]

/-- What the lines after some others say is read alone when no doc string is open there. -/
theorem readings_between {front : List Text} (h : front.foldl fenceAfter none = none)
    (between rest : List Text)
    : ((readings none (front ++ (between ++ rest))).take (front.length + between.length)).drop
        front.length
      = readings none between := by
  have hlength : (readings none front ++ readings none between).length
      = front.length + between.length := by
    rw [List.length_append, length_readings, length_readings]
  rw [readings_append, h, readings_append, ← List.append_assoc, List.take_left' hlength]
  exact List.drop_left' (length_readings ..)

namespace Reader

variable {reader next : Reader} {n : Nat} {raw : Text}

/-- The delimiter of the open doc string. -/
def openFence (reader : Reader) : Option Fence :=
  reader.docString.map (·.fence)

/-- Outside doc strings a line says what it reads as. -/
theorem reading_of_outside (hd : reader.docString = none)
    : reading reader.openFence raw = some (Line.of raw) := by
  rw [openFence, hd]
  rfl

/-- An accepted line opens and closes doc strings as the readings say, by the cases of the line. -/
theorem Takes.openFence_eq (h : reader.Takes n raw next)
    : next.openFence = fenceAfter reader.openFence raw := by
  cases h with
  | content hd hr => simp [openFence, hd, fenceAfter, hr]
  | close hd hr => simp [openFence, hd, fenceAfter, hr, closeDocString]
  | blank hd hl | comment hd hl | tags hd hl | feature hd hl | element hd hl | examples hd hl
  | step hd hl | row hd hl | fence hd hl | elementProse hd hl | featureProse hd hl =>
      simp [openFence, hd, fenceAfter, hl]

/-- After accepted lines the doc string is open that the readings leave open, by the run lemma. -/
theorem openFence_of_takeAll {lines : List Text} (h : reader.takeAll n lines = .ok next)
    : next.openFence = lines.foldl fenceAfter reader.openFence := by
  refine takeAll_keeps
    (fun done middle => middle.openFence = done.foldl fenceAfter reader.openFence) rfl ?_ h
  intro done middle raw after _ hm ht
  rw [(takes_of_takeRaw ht).openFence_eq, hm, List.foldl_append]
  rfl

/-- From outside doc strings, the doc string is open that the lines alone leave open. -/
theorem openFence_of_takeAll_outside {lines : List Text} (h : reader.takeAll n lines = .ok next)
    (hd : reader.docString = none)
    : next.openFence = lines.foldl fenceAfter none := by
  rw [openFence_of_takeAll h, openFence, hd]
  rfl

end Reader

end SuiteScore.Gherkin
