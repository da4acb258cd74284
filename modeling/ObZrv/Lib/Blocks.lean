import Mathlib.Data.List.Perm.Basic
import Mathlib.Data.List.Rotate
import ObZrv.Lib.Loop

/-!
# Lib.Blocks

Blocks of memory of one size, one behind the other, and pointers to them that are passed round.

* `Covers n base size ptr` : each of the `n` blocks from `base` on is pointed to once.
* `Covers.rotate`          : passing the pointers round keeps that.
* `fillBlocks`             : some of the blocks are written; `fillBlocks_in` and `fillBlocks_out` say
  what the others hold.
-/

namespace Lib

/-- `ptr 0`, …, `ptr (n - 1)` are the starts of the `n` blocks, in some order. -/
def Covers (n : Nat) (base size : Int) (ptr : Nat → Int) : Prop :=
  ((List.range n).map ptr).Perm ((List.range n).map fun r : Nat => base + r * size)

section

variable {n : Nat} {base size : Int} {ptr : Nat → Int}

theorem covers_start : Covers n base size fun r : Nat => base + r * size := List.Perm.refl _

theorem map_range_rotate {α : Type*} (n s : Nat) (f : Nat → α) :
    ((List.range n).map fun k => f ((k + s) % n)) = ((List.range n).map f).rotate s := by
  refine List.ext_getElem (by simp) ?_
  intro k h1 h2
  simp [List.getElem_rotate]

theorem Covers.rotate (h : Covers n base size ptr) (s : Nat) :
    Covers n base size fun k => ptr ((k + s) % n) := by
  unfold Covers
  rw [map_range_rotate n s ptr]
  exact (List.rotate_perm _ s).trans h

/-- A pointer points to the start of a block. -/
theorem Covers.block (h : Covers n base size ptr) {k : Nat} (hk : k < n) :
    ∃ r < n, ptr k = base + r * size := by
  have hmem : ptr k ∈ (List.range n).map ptr := List.mem_map_of_mem (List.mem_range.mpr hk)
  obtain ⟨r, hr, heq⟩ := List.mem_map.mp (h.mem_iff.mp hmem)
  exact ⟨r, List.mem_range.mp hr, heq.symm⟩

theorem Covers.base_le (h : Covers n base size ptr) (hsize : 0 ≤ size) {k : Nat} (hk : k < n) :
    base ≤ ptr k := by
  obtain ⟨r, -, heq⟩ := h.block hk
  have hoff : 0 ≤ (r : Int) * size := Int.mul_nonneg (Int.natCast_nonneg r) hsize
  omega

theorem Covers.injective (h : Covers n base size ptr) (hsize : 0 < size) {k l : Nat} (hk : k < n)
    (hl : l < n) (heq : ptr k = ptr l) : k = l := by
  have hnodup : ((List.range n).map fun r : Nat => base + r * size).Nodup := by
    refine List.nodup_range.map ?_
    intro a b hab
    have hmul : (a : Int) * size = b * size := by
      simp only at hab
      omega
    exact Int.ofNat_inj.mp (Int.eq_of_mul_eq_mul_right (by omega) hmul)
  exact List.inj_on_of_nodup_map (h.nodup_iff.mpr hnodup) (List.mem_range.mpr hk)
    (List.mem_range.mpr hl) heq

/-- Two pointers point to blocks without a common cell. -/
theorem Covers.apart (h : Covers n base size ptr) (hsize : 0 < size) {k l : Nat} (hk : k < n)
    (hl : l < n) (hne : k ≠ l) : ptr k + size ≤ ptr l ∨ ptr l + size ≤ ptr k := by
  have hptr : ptr k ≠ ptr l := fun heq => hne (h.injective hsize hk hl heq)
  obtain ⟨r, -, hr⟩ := h.block hk
  obtain ⟨q, -, hq⟩ := h.block hl
  have hnext : ∀ a b : Nat, a < b → base + a * size + size ≤ base + b * size := by
    intro a b hab
    have hmul : ((a : Int) + 1) * size ≤ b * size :=
      Int.mul_le_mul_of_nonneg_right (by omega) (Int.le_of_lt hsize)
    rw [Int.add_mul, Int.one_mul] at hmul
    omega
  rcases Nat.lt_trichotomy r q with hlt | heq | hlt
  · have hle := hnext r q hlt
    omega
  · rw [hr, hq, heq] at hptr
    exact absurd rfl hptr
  · have hle := hnext q r hlt
    omega

end

section Fill

variable {α : Type*} (ptr : Nat → Int) (size : Int) (k0 count : Nat) (f : Nat → Int → α)
  (mem : Int → α)

/-- `count` blocks from `ptr k0` on get the values of `f`. -/
def fillBlocks : Int → α :=
  forLoop count (fun t mem => fill mem (ptr (k0 + t)) size (f (k0 + t))) mem

variable {ptr size k0 count f mem}

theorem fillBlocks_out {a : Int}
    (h : ∀ k, k0 ≤ k → k < k0 + count → a < ptr k ∨ ptr k + size ≤ a) :
    fillBlocks ptr size k0 count f mem a = mem a := by
  unfold fillBlocks
  induction count with
  | zero => rfl
  | succ count ih =>
    rw [forLoop, fill_out (h (k0 + count) (by omega) (by omega))]
    exact ih fun k hlo hhi => h k hlo (by omega)

/-- A block that is written holds what was written to it, though others are written after it. -/
theorem fillBlocks_in {n : Nat} {base : Int} (hc : Covers n base size ptr) (hn : k0 + count ≤ n)
    {k : Nat} (hlo : k0 ≤ k) (hhi : k < k0 + count) {i : Int} (h0 : 0 ≤ i) (h1 : i < size) :
    fillBlocks ptr size k0 count f mem (ptr k + i) = f k i := by
  unfold fillBlocks
  induction count with
  | zero => omega
  | succ count ih =>
    rw [forLoop]
    by_cases hk : k = k0 + count
    · subst hk
      rw [fill_in (by omega) (by omega), show ptr (k0 + count) + i - ptr (k0 + count) = i by omega]
    · have hapart := hc.apart (by omega) (show k < n by omega) (show k0 + count < n by omega) hk
      rw [fill_out (by omega)]
      exact ih (by omega) (by omega)

theorem fillBlocks_other {n : Nat} {base : Int} (hc : Covers n base size ptr) (hn : k0 + count ≤ n)
    {k : Nat} (hk : k < k0) {i : Int} (h0 : 0 ≤ i) (h1 : i < size) :
    fillBlocks ptr size k0 count f mem (ptr k + i) = mem (ptr k + i) := by
  refine fillBlocks_out ?_
  intro l hlo hhi
  have hapart := hc.apart (by omega) (show k < n by omega) (show l < n by omega) (by omega)
  omega

end Fill

end Lib
