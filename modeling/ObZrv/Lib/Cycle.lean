import Mathlib.Algebra.BigOperators.Intervals
import Mathlib.Algebra.Order.BigOperators.Group.Finset
import Mathlib.Data.Nat.ModEq

/-!
# Lib.Cycle

Sums over a sequence that is gone through again and again: `cycle f c p n` adds up `n` values of
`f 0`, `f 1`, … `f (c - 1)`, `f 0`, … from the one at `p` on.

* `cycle_add_round` : `c` more values add the sum of a whole round, wherever they start.
* `cycle_rounds`    : `c * m` values add up to `m` rounds.
-/

namespace Lib

open Finset

variable {M : Type*} [AddCommGroup M] (f : Nat → M) (c p n : Nat)

def cycle : M := ∑ j ∈ range n, f ((p + j) % c)

/-- The sum of one round. -/
def roundSum : M := ∑ j ∈ range c, f j

@[simp] theorem roundSum_zero : roundSum f 0 = 0 := rfl

theorem roundSum_succ : roundSum f (c + 1) = roundSum f c + f c := sum_range_succ _ _

@[simp] theorem cycle_zero : cycle f c p 0 = 0 := rfl

theorem cycle_succ : cycle f c p (n + 1) = cycle f c p n + f ((p + n) % c) := sum_range_succ _ _

theorem cycle_succ_left : cycle f c p (n + 1) = f (p % c) + cycle f c (p + 1) n := by
  rw [cycle, sum_range_succ', add_comm]
  simp only [cycle, Nat.add_zero, Nat.add_assoc, Nat.add_comm 1]

theorem cycle_mod : cycle f c (p % c) n = cycle f c p n := by
  simp only [cycle, Nat.mod_add_mod]

theorem cycle_mod_succ : cycle f c (p % c + 1) n = cycle f c (p + 1) n := by
  rw [← cycle_mod, Nat.mod_add_mod, cycle_mod]

theorem cycle_shift : cycle f c (p + 1) c = cycle f c p c := by
  have h := (cycle_succ_left f c p c).symm.trans (cycle_succ f c p c)
  rw [Nat.add_mod_right, add_comm] at h
  exact add_right_cancel h

theorem cycle_round : cycle f c p c = roundSum f c := by
  induction p with
  | zero =>
    refine sum_congr rfl ?_
    intro j hj
    rw [Nat.zero_add, Nat.mod_eq_of_lt (mem_range.mp hj)]
  | succ p ih => rw [cycle_shift, ih]

theorem cycle_add (m : Nat) : cycle f c p (n + m) = cycle f c p n + cycle f c (p + n) m := by
  rw [cycle, sum_range_add]
  simp only [cycle, Nat.add_assoc]

theorem cycle_add_round : cycle f c p (n + c) = cycle f c p n + roundSum f c := by
  rw [cycle_add, cycle_round]

theorem cycle_rounds (m : Nat) : cycle f c p (c * m) = m • roundSum f c := by
  induction m with
  | zero => simp
  | succ m ih => rw [Nat.mul_succ, cycle_add_round, ih, succ_nsmul]

section Order

variable [PartialOrder M] [IsOrderedAddMonoid M] {f c p n}

theorem cycle_nonneg (h : ∀ k, 0 ≤ f k) : 0 ≤ cycle f c p n := sum_nonneg fun _ _ => h _

theorem cycle_mono (h : ∀ k, 0 ≤ f k) {m : Nat} (hle : n ≤ m) : cycle f c p n ≤ cycle f c p m := by
  obtain ⟨d, rfl⟩ := Nat.exists_eq_add_of_le hle
  rw [cycle_add]
  exact le_add_of_nonneg_right (cycle_nonneg h)

theorem roundSum_nonneg (h : ∀ k, 0 ≤ f k) : 0 ≤ roundSum f c := sum_nonneg fun _ _ => h _

/-- A round of nothing adds nothing. -/
theorem eq_zero_of_roundSum (h : ∀ k, 0 ≤ f k) (hr : roundSum f c = 0) {k : Nat} (hk : k < c) : f k = 0 :=
  (sum_eq_zero_iff_of_nonneg fun _ _ => h _).mp hr k (mem_range.mpr hk)

end Order

end Lib
