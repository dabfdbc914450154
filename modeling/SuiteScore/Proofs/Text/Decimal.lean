import SuiteScore.Text.Decimal

/-! Numbers are read back from their decimal digits. -/

namespace SuiteScore.Text

/-- The digit of a number below ten stands for it. -/
theorem toNat_digitChar {n : Nat} (h : n < 10) : (Nat.digitChar n).toNat - '0'.toNat = n := by
  rw [Nat.toNat_digitChar_of_lt_ten h]
  exact Nat.add_sub_cancel_left _ n

/-- The digits of a number add up to it, by induction on the number without its last digit. -/
theorem foldl_ofNat (n : Nat)
    : (ofNat n).foldl (fun value c => 10 * value + (c.toNat - '0'.toNat)) 0 = n := by
  induction n using Nat.strongRecOn with
  | ind n ih =>
      rw [ofNat, Nat.toDigits_eq_if (by decide)]
      split
      · next hn =>
          rw [List.foldl_cons, List.foldl_nil, toNat_digitChar hn]
          omega
      · next hn =>
          have hfront := ih (n / 10) (by omega)
          rw [ofNat] at hfront
          rw [List.foldl_append, hfront, List.foldl_cons, List.foldl_nil,
            toNat_digitChar (Nat.mod_lt n (by decide))]
          omega

theorem isDigit_of_mem_ofNat {n : Nat} {c : Char} (h : c ∈ ofNat n) : c.isDigit = true :=
  Nat.isDigit_of_mem_toDigits (by decide) (by decide) h

/-- A character that is no digit and no sign does not stand in a number. -/
theorem not_mem_ofNat {c : Char} (hdigit : c.isDigit = false) (n : Nat) : c ∉ ofNat n := fun h =>
  Bool.false_ne_true (hdigit.symm.trans (isDigit_of_mem_ofNat h))

theorem not_mem_ofInt {c : Char} (hdigit : c.isDigit = false) (hminus : c ≠ '-') (n : Int)
    : c ∉ ofInt n := by
  cases n with
  | ofNat n => exact not_mem_ofNat hdigit n
  | negSucc n => exact List.not_mem_cons_of_ne_of_not_mem hminus (not_mem_ofNat hdigit (n + 1))

theorem not_mem_ofSignedInt {c : Char} (hdigit : c.isDigit = false) (hminus : c ≠ '-')
    (hplus : c ≠ '+') (n : Int)
    : c ∉ ofSignedInt n := by
  cases n with
  | ofNat n => exact List.not_mem_cons_of_ne_of_not_mem hplus (not_mem_ofNat hdigit n)
  | negSucc n => exact not_mem_ofInt hdigit hminus (.negSucc n)

/-- A number is read back from its digits. -/
theorem nat?_ofNat (n : Nat) : nat? (ofNat n) = some n := by
  have hne : (ofNat n).isEmpty = false := List.isEmpty_eq_false_iff.mpr Nat.toDigits_ne_nil
  have hall : (ofNat n).all Char.isDigit = true :=
    List.all_eq_true.mpr fun c hc => isDigit_of_mem_ofNat hc
  rw [nat?, hne, hall, foldl_ofNat]
  rfl

/-- A number that fits into a word is read back from its digits, since no digit is a plus sign. -/
theorem word?_ofNat {n : Nat} (h : n < wordBound) : word? (ofNat n) = some n := by
  have hplus : ∀ rest, ofNat n ≠ '+' :: rest := by
    intro rest hc
    exact not_mem_ofNat (c := '+') (by decide) n (hc ▸ List.mem_cons_self)
  simp only [word?, nat?_ofNat, Option.filter_some, decide_eq_true h, if_true]

end SuiteScore.Text
