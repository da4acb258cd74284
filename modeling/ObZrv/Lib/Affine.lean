import Mathlib.Algebra.Ring.Defs
import Mathlib.Logic.Function.Iterate
import Mathlib.Tactic.Ring

/-!
# Lib.Affine

Affine maps `x ↦ mul * x + add` over a commutative semiring and their iterates. `iterate_half`
halves an iteration count, which is the step of a jump ahead in logarithmic time, and
`iterate_two_pow` gives the iterates at powers of two.
-/

namespace Lib

structure Affine (R : Type*) where
  mul : R
  add : R

namespace Affine

variable {R : Type*} [CommSemiring R]

def apply (f : Affine R) (x : R) : R := f.mul * x + f.add

/-- `f` after `g`. -/
def after (f g : Affine R) : Affine R := ⟨g.mul * f.mul, g.add * f.mul + f.add⟩

def square (f : Affine R) : Affine R := ⟨f.mul * f.mul, f.add * (f.mul + 1)⟩

@[simp] theorem after_apply (f g : Affine R) (x : R) : (f.after g).apply x = f.apply (g.apply x) := by
  simp only [after, apply]
  ring

theorem square_apply (f : Affine R) (x : R) : f.square.apply x = f.apply (f.apply x) := by
  simp only [square, apply]
  ring

theorem iterate_double (f : Affine R) (n : Nat) : f.apply^[2 * n] = f.square.apply^[n] := by
  have hsquare : f.apply^[2] = f.square.apply := by
    funext x
    exact (f.square_apply x).symm
  rw [Function.iterate_mul, hsquare]

theorem iterate_two_pow (f : Affine R) (k : Nat) : f.apply^[2 ^ k] = (square^[k] f).apply := by
  induction k generalizing f with
  | zero => rfl
  | succ k ih => rw [Nat.pow_succ', iterate_double, ih, Function.iterate_succ_apply]

theorem iterate_half (f : Affine R) (n : Nat) (x : R) :
    f.apply^[n] x = f.square.apply^[n / 2] (if n % 2 = 1 then f.apply x else x) := by
  have hn := Nat.div_add_mod n 2
  rcases Nat.mod_two_eq_zero_or_one n with h0 | h1
  · rw [if_neg (by omega), ← iterate_double]
    rw [h0, Nat.add_zero] at hn
    rw [hn]
  · rw [if_pos h1, ← iterate_double, ← Function.iterate_succ_apply]
    rw [h1] at hn
    rw [Nat.succ_eq_add_one, hn]

end Affine
end Lib
