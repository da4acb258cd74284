import Mathlib.Logic.Function.Basic
import Mathlib.Tactic.Common

/-!
# Lib.Loop

Counted loops, and runs of memory cells that are written one by one.

* `forLoop n f s`    : `f 0`, `f 1`, … `f (n - 1)` applied to `s`; `forLoop_inv` is its rule.
* `forLoop_blocks`   : a loop that does `m` passes at a time, and the rest one by one.
* `fill mem base n f` : `n` cells from `base` on get the values of `f`.
* `forLoop_update`   : a loop over a run of cells, each made from what it held, fills the run.
-/

namespace Lib

def forLoop {σ : Type*} (n : Nat) (f : Nat → σ → σ) (s : σ) : σ :=
  match n with
  | 0 => s
  | n + 1 => f n (forLoop n f s)

/-- The invariant `P i` holds before pass `i`. -/
theorem forLoop_inv {σ : Type*} {n : Nat} {f : Nat → σ → σ} {s : σ} (P : Nat → σ → Prop)
    (h0 : P 0 s) (hstep : ∀ i s, i < n → P i s → P (i + 1) (f i s)) : P n (forLoop n f s) := by
  induction n with
  | zero => exact h0
  | succ n ih =>
    refine hstep n _ (Nat.lt_succ_self n) (ih fun i s hi => ?_)
    exact hstep i s (Nat.lt_succ_of_lt hi)

section Blocks

variable {σ : Type*} {f g : Nat → σ → σ}

theorem forLoop_add (a b : Nat) (f : Nat → σ → σ) (s : σ) :
    forLoop (a + b) f s = forLoop b (fun t => f (a + t)) (forLoop a f s) := by
  induction b with
  | zero => rfl
  | succ b ih => rw [← Nat.add_assoc, forLoop, ih, forLoop]

theorem forLoop_mul {m : Nat} (h : ∀ q s, g q s = forLoop m (fun t => f (m * q + t)) s) (n : Nat)
    (s : σ) : forLoop n g s = forLoop (m * n) f s := by
  induction n with
  | zero => rfl
  | succ n ih => rw [forLoop, ih, h, Nat.mul_succ, forLoop_add]

/-- A loop that does `m` passes at a time, and the last ones one by one. -/
theorem forLoop_blocks {m : Nat} (h : ∀ q s, g q s = forLoop m (fun t => f (m * q + t)) s) (n : Nat)
    (s : σ) :
    forLoop (n % m) (fun t => f (m * (n / m) + t)) (forLoop (n / m) g s) = forLoop n f s := by
  rw [forLoop_mul h, ← forLoop_add, Nat.div_add_mod]

end Blocks

section Fill

variable {α : Type*} (mem : Int → α) (base n : Int) (f : Int → α)

def fill : Int → α := fun a => if base ≤ a ∧ a < base + n then f (a - base) else mem a

variable {mem base n f}

theorem fill_in {a : Int} (h : base ≤ a) (h' : a < base + n) : fill mem base n f a = f (a - base) :=
  if_pos ⟨h, h'⟩

theorem fill_out {a : Int} (h : a < base ∨ base + n ≤ a) : fill mem base n f a = mem a :=
  if_neg (by omega)

/-- A run of cells that grows by the next cell. -/
theorem update_fill (mem : Int → α) (base : Int) (f : Int → α) (n : Nat) :
    Function.update (fill mem base n f) (base + n) (f n) = fill mem base (n + 1 : Nat) f := by
  funext a
  by_cases ha : a = base + n
  · subst ha
    rw [Function.update_self, fill_in (by omega) (by omega), show base + n - base = n by omega]
  · rw [Function.update_of_ne ha]
    by_cases hin : base ≤ a ∧ a < base + n
    · rw [fill_in hin.1 hin.2, fill_in hin.1 (by omega)]
    · rw [fill_out (by omega), fill_out (by omega)]

/-- Two runs of cells, one after the other. -/
theorem fill_fill (mem : Int → α) (base : Int) (f : Int → α) {n m : Int} (hn : 0 ≤ n)
    (hm : 0 ≤ m) :
    fill (fill mem base n f) (base + n) m (fun i => f (n + i)) = fill mem base (n + m) f := by
  funext a
  by_cases hlast : base + n ≤ a ∧ a < base + n + m
  · rw [fill_in hlast.1 hlast.2, fill_in (by omega) (by omega),
      show n + (a - (base + n)) = a - base by omega]
  · rw [fill_out (by omega)]
    by_cases hin : base ≤ a ∧ a < base + n
    · rw [fill_in hin.1 hin.2, fill_in hin.1 (by omega)]
    · rw [fill_out (by omega), fill_out (by omega)]

/-- A loop over `n` cells, each made from what it held. -/
theorem forLoop_update (n : Nat) (base : Int) (p : Nat → α → α) (mem : Int → α) :
    forLoop n (fun t mem => Function.update mem (base + t) (p t (mem (base + t)))) mem =
      fill mem base n fun i => p i.toNat (mem (base + i)) := by
  induction n with
  | zero =>
    funext a
    rw [fill_out (by omega)]
    rfl
  | succ n ih =>
    rw [forLoop, ih, fill_out (a := base + n) (by omega)]
    exact update_fill mem base (fun i => p i.toNat (mem (base + i))) n

end Fill

end Lib
