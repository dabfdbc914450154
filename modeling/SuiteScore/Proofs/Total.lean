import Mathlib.Algebra.BigOperators.Ring.Finset
import SuiteScore.Total

/-! Laws of sums over lists. Totals and tallies are the sums of what is measured, so they can be
taken apart, and summed by rows or by columns.
-/

namespace SuiteScore

/-- A total is the sum of the measured entries, by induction on them. -/
theorem total_eq_sum (measure : α → Int) (entries : List α)
    : total measure entries = (entries.map measure).sum := by
  induction entries with
  | nil => rfl
  | cons first rest ih => rw [total, ih, List.map_cons, List.sum_cons]

/-- A tally is the sum of the counted entries, by induction on them. -/
theorem tally_eq_sum (count : α → Nat) (entries : List α)
    : tally count entries = (entries.map count).sum := by
  induction entries with
  | nil => rfl
  | cons first rest ih => rw [tally, ih, List.map_cons, List.sum_cons]

theorem total_append (measure : α → Int) (front back : List α)
    : total measure (front ++ back) = total measure front + total measure back := by
  simp only [total_eq_sum, List.map_append, List.sum_append]

theorem total_flatMap (measure : β → Int) (f : α → List β) (entries : List α)
    : total measure (entries.flatMap f) = total (fun entry => total measure (f entry)) entries := by
  simp only [total_eq_sum, List.flatMap_def, List.map_flatten, List.sum_flatten, List.map_map]
  rfl

theorem tally_flatMap (count : β → Nat) (f : α → List β) (entries : List α)
    : tally count (entries.flatMap f) = tally (fun entry => tally count (f entry)) entries := by
  simp only [tally_eq_sum, List.flatMap_def, List.map_flatten, List.sum_flatten, List.map_map]
  rfl

/-- A common weight can be taken out of a total of counts. -/
theorem total_mul (weight : Int) (count : α → Nat) (entries : List α)
    : total (fun entry => weight * count entry) entries = weight * tally count entries := by
  rw [total_eq_sum, tally_eq_sum, List.sum_map_mul_left, Nat.cast_list_sum, List.map_map]
  rfl

/-- A total by rows is the total by columns. -/
theorem total_comm (measure : α → β → Int) (rows : List α) (columns : List β)
    : total (fun row => total (measure row) columns) rows
      = total (fun column => total (fun row => measure row column) rows) columns := by
  have hcomm := Multiset.sum_map_sum_map (rows : Multiset α) (columns : Multiset β) (f := measure)
  simpa only [total_eq_sum, Multiset.map_coe, Multiset.sum_coe] using hcomm

/-- A tally by rows is the tally by columns. -/
theorem tally_comm (count : α → β → Nat) (rows : List α) (columns : List β)
    : tally (fun row => tally (count row) columns) rows
      = tally (fun column => tally (fun row => count row column) rows) columns := by
  have hcomm := Multiset.sum_map_sum_map (rows : Multiset α) (columns : Multiset β) (f := count)
  simpa only [tally_eq_sum, Multiset.map_coe, Multiset.sum_coe] using hcomm

end SuiteScore
