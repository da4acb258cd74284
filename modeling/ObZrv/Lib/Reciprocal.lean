import Mathlib.Data.Nat.Basic
import Mathlib.Tactic.Ring

/-!
# Lib.Reciprocal

Division by `n` as multiplication by the truncated reciprocal `k / n` and a division by `k`.

* `recip_div_le`     : it never gives too much.
* `recip_div_eq_iff` : when it gives the quotient.
* `recip_exact_iff`  : it does for `m * n` exactly when `m` is 0 or `n` divides `k`.
-/

namespace Lib

variable {s n k : Nat}

theorem recip_div_le (s k : Nat) (hn : 0 < n) : s * (k / n) / k ≤ s / n := by
  rcases Nat.eq_zero_or_pos k with rfl | hk
  · rw [Nat.div_zero]
    exact Nat.zero_le _
  rw [Nat.le_div_iff_mul_le hn]
  refine Nat.le_of_mul_le_mul_right ?_ hk
  calc s * (k / n) / k * n * k = s * (k / n) / k * k * n := by ring
    _ ≤ s * (k / n) * n := Nat.mul_le_mul_right n (Nat.div_mul_le_self _ _)
    _ = s * (k / n * n) := Nat.mul_assoc _ _ _
    _ ≤ s * k := Nat.mul_le_mul_left s (Nat.div_mul_le_self _ _)

/-- **The reciprocal is exact** when the remainder of `s` makes up for what the quotient loses. -/
theorem recip_div_eq_iff (hn : 0 < n) (hk : 0 < k) :
    s * (k / n) / k = s / n ↔ s / n * (k % n) ≤ s % n * (k / n) := by
  have hprod : s * (k / n) = s / n * (n * (k / n)) + s % n * (k / n) := by
    conv_lhs => rw [← Nat.div_add_mod s n]
    ring
  have hwhole : s / n * k = s / n * (n * (k / n)) + s / n * (k % n) := by
    conv_lhs => rw [← Nat.div_add_mod k n]
    ring
  calc s * (k / n) / k = s / n ↔ s / n ≤ s * (k / n) / k :=
        ⟨fun h => h.ge, fun h => Nat.le_antisymm (recip_div_le s k hn) h⟩
    _ ↔ s / n * k ≤ s * (k / n) := Nat.le_div_iff_mul_le hk
    _ ↔ s / n * (k % n) ≤ s % n * (k / n) := by
        rw [hprod, hwhole]
        exact Nat.add_le_add_iff_left

theorem recip_exact_iff (hn : 0 < n) (m : Nat) :
    m * n / n * (k % n) ≤ m * n % n * (k / n) ↔ m = 0 ∨ n ∣ k := by
  rw [Nat.mul_div_cancel m hn, Nat.mul_mod_left, Nat.zero_mul, Nat.le_zero, Nat.mul_eq_zero,
    Nat.dvd_iff_mod_eq_zero]

end Lib
