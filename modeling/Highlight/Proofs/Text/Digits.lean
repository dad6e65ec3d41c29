import Mathlib.Tactic.IntervalCases

set_option autoImplicit false

/-! The decimal digits of a number: where they end in a text, and that they start with no zero. -/

namespace Highlight.Text

theorem takeWhile_toDigits (value : Nat) {rest : List Char}
    (ends : ∀ c ∈ rest.head?, c.isDigit = false) :
    (Nat.toDigits 10 value ++ rest).takeWhile Char.isDigit = Nat.toDigits 10 value := by
  rw [List.takeWhile_append_of_pos fun c member =>
    Nat.isDigit_of_mem_toDigits (by decide) (by decide) member]
  cases rest with
  | nil => simp
  | cons c rest => simp [ends c rfl]

theorem toDigits_ne_zero_cons {value : Nat} (positive : 0 < value) (rest : List Char) :
    Nat.toDigits 10 value ≠ '0' :: rest := by
  induction value using Nat.strongRecOn generalizing rest with
  | ind value ih =>
      rw [Nat.toDigits_eq_if (by decide)]
      split
      · rename_i small
        interval_cases value <;> simp [Nat.digitChar]
      · have filled := Nat.toDigits_ne_nil (n := value / 10) (b := 10)
        intro same
        cases digits : Nat.toDigits 10 (value / 10) with
        | nil => exact filled digits
        | cons first others =>
            rw [digits, List.cons_append] at same
            obtain ⟨rfl, _⟩ := List.cons.inj same
            exact ih (value / 10) (by omega) (by omega) others digits

end Highlight.Text
