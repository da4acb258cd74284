import ObZrv.Codec.ZDataFile

/-!
# Codec.JumpAhead

The key stream of `ZDataFile` as one sequence of states: jumps and single steps lead along it
alike, and it closes after 2^32 steps, so that counts which wrap at 64 bits lead to the same state.

* `seedAfter_add`        : a jump by `m + n` is a jump by `m` and `n` more steps.
* `read_seed`            : a read takes one step a byte, whatever the inner file does.
* `jump_equals_stepping` : both, and what any reads and any calls make of the fields.
-/

namespace ObZrv

open Lib

namespace ZDataFile

/-! ## The period -/

section Period

open scoped UInt32.CommRing

/-- The step composed with itself 2^32 times. -/
theorem stepMap_square : (Affine.square^[32] stepMap).mul = 1 ∧
    (Affine.square^[32] stepMap).add = 0 := by decide

theorem nextSeed_period (x : UInt32) : nextSeed^[2 ^ 32] x = x := by
  have hstep : stepMap.apply = nextSeed := funext stepMap_apply
  rw [← hstep, Affine.iterate_two_pow, Affine.apply, stepMap_square.1, stepMap_square.2]
  ring

end Period

theorem nextSeed_cycles (k : Nat) (x : UInt32) : nextSeed^[2 ^ 32 * k] x = x := by
  induction k with
  | zero => rfl
  | succ k ih => rw [Nat.mul_succ, Function.iterate_add_apply, nextSeed_period, ih]

/-- A count that wraps at 64 bits leads to the same state. -/
theorem nextSeed_wraps (n : Nat) (x : UInt32) : nextSeed^[n % 2 ^ 64] x = nextSeed^[n] x := by
  have hn : n = n % 2 ^ 64 + 2 ^ 32 * (2 ^ 32 * (n / 2 ^ 64)) := by omega
  conv_rhs => rw [hn, Function.iterate_add_apply, nextSeed_cycles]

theorem seedAfter_ofNat (n : Nat) : seedAfter (UInt64.ofNat n) = nextSeed^[n] 32093 := by
  rw [seedAfter_eq, seedAt, UInt64.toNat_ofNat', nextSeed_wraps]

theorem seedAfter_add (m n : UInt64) : seedAfter (m + n) = nextSeed^[n.toNat] (seedAfter m) := by
  rw [seedAfter_eq, seedAfter_eq, seedAt, seedAt, UInt64.toNat_add, nextSeed_wraps, Nat.add_comm,
    Function.iterate_add_apply]

/-! ## The fields -/

section Fields

variable {W : Type}

/-- The seed is the one that belongs to `_pos`. -/
def Keyed (z : ZData W) : Prop := z.seed = seedAfter z.pos

/-- The loop of `read` takes one step a byte. -/
theorem decode_seed {n : Nat} {seed seed' : UInt32} {data data' : List UInt8}
    (h : decode n seed data = some (seed', data')) : seed' = nextSeed^[n] seed := by
  induction n generalizing seed data data' with
  | zero =>
    cases h
    rfl
  | succ n ih =>
    cases data with
    | nil => cases h
    | cons d data =>
      rw [decode] at h
      obtain ⟨⟨s, rest⟩, hrest, heq⟩ := Option.map_eq_some_iff.mp h
      cases heq
      rw [Function.iterate_succ_apply]
      exact ih hrest

/-- What a read does to the fields, whatever the inner file answers. -/
theorem read_seed {inner : Option (UniFile W)} {buf data : List UInt8} {n : Nat} {z z' : ZData W}
    (h : read inner buf z = some (n, data, z')) :
    z'.seed = nextSeed^[n] z.seed ∧ z'.pos = z.pos + UInt64.ofNat n := by
  have hnone : z.seed = nextSeed^[0] z.seed ∧ z.pos = z.pos + UInt64.ofNat 0 :=
    ⟨rfl, (UInt64.add_zero z.pos).symm⟩
  cases inner with
  | none =>
    cases h
    exact hnone
  | some f =>
    rw [read] at h
    by_cases h0 : buf.length = 0
    · rw [if_pos h0] at h
      cases h
      exact hnone
    rw [if_neg h0] at h
    split at h
    · cases h
    split at h
    · cases h
    rename_i hdecode
    cases h
    exact ⟨decode_seed hdecode, rfl⟩

/-- Reads into buffers one after the other, and the number of bytes that they give. -/
def readAll (inner : Option (UniFile W)) : List (List UInt8) → ZData W → Option (Nat × ZData W)
  | [], z => some (0, z)
  | buf :: bufs, z =>
    match read inner buf z with
    | none => none
    | some (n, _, z) => (readAll inner bufs z).map fun (k, z) => (n + k, z)

theorem readAll_seed {inner : Option (UniFile W)} {bufs : List (List UInt8)} {n : Nat}
    {z z' : ZData W} (h : readAll inner bufs z = some (n, z')) :
    z'.seed = nextSeed^[n] z.seed ∧ z'.pos = z.pos + UInt64.ofNat n := by
  induction bufs generalizing n z with
  | nil =>
    cases h
    exact ⟨rfl, (UInt64.add_zero _).symm⟩
  | cons buf bufs ih =>
    rw [readAll] at h
    split at h
    · cases h
    rename_i hread
    obtain ⟨⟨k, w⟩, hrest, heq⟩ := Option.map_eq_some_iff.mp h
    cases heq
    obtain ⟨hseed, hpos⟩ := read_seed hread
    obtain ⟨hseed', hpos'⟩ := ih hrest
    constructor
    · rw [hseed', hseed, ← Function.iterate_add_apply, Nat.add_comm]
    · rw [hpos', hpos, UInt64.add_assoc, UInt64.ofNat_add]

theorem keyed_construct (inner : Option (UniFile W)) (w : W) : Keyed (construct inner w) := by
  have hstart : (32093 : UInt32) = seedAfter 0 := by decide
  cases inner with
  | none => exact hstart
  | some f =>
    rw [construct]
    simp only
    split
    · rfl
    · exact hstart

/-- Every call keeps the seed that belongs to `_pos`, whatever the inner file answers. -/
theorem Keyed.call {inner : Option (UniFile W)} {z z' : ZData W} {c : Call} {r : Reply}
    (hz : Keyed z) (hcall : (uniFile inner).call z c = some (r, z')) : Keyed z' := by
  cases c with
  | seek offset whence =>
    cases hcall
    cases inner with
    | none => exact hz
    | some f =>
      change Keyed (seek (some f) offset whence z).2
      rw [seek]
      simp only
      split
      · exact hz
      split
      · exact hz
      · rfl
  | tell =>
    cases hcall
    cases inner with
    | none => exact hz
    | some f => exact hz
  | read buf =>
    obtain ⟨⟨n, data, w⟩, hread, heq⟩ := Option.map_eq_some_iff.mp hcall
    cases heq
    obtain ⟨hseed, hpos⟩ := read_seed hread
    rw [Keyed, hseed, hpos, seedAfter_add, hz, UInt64.toNat_ofNat', nextSeed_wraps]

theorem Keyed.calls {inner : Option (UniFile W)} {z z' : ZData W} {cs : List Call}
    {rs : List Reply} (hz : Keyed z) (hcalls : (uniFile inner).calls z cs = some (rs, z')) :
    Keyed z' := by
  induction cs generalizing z rs with
  | nil =>
    cases hcalls
    exact hz
  | cons c cs ih =>
    rw [UniFile.calls] at hcalls
    split at hcalls
    · cases hcalls
    rename_i hcall
    obtain ⟨⟨rs', w⟩, hrest, heq⟩ := Option.map_eq_some_iff.mp hcalls
    cases heq
    exact ih (hz.call hcall) hrest

end Fields

/-- **Jumping equals stepping**, for all 64-bit counts and sums of them. The seed after any reads
from offset 0 is the one that a jump by the number of their bytes gives, and after any calls it is
the one that a jump to `_pos` gives. -/
theorem jump_equals_stepping :
    (∀ n : UInt64, seedAfter n = (fun s => 22695477 * s + 1)^[n.toNat] 32093) ∧
    (∀ m n : UInt64, seedAfter (m + n) = (fun s => 22695477 * s + 1)^[n.toNat] (seedAfter m)) ∧
    (∀ (W : Type) (inner : Option (UniFile W)) (w : W) (bufs : List (List UInt8)) (n : Nat)
      (z : ZData W), readAll inner bufs { inner := w } = some (n, z) →
      z.seed = seedAfter (UInt64.ofNat n)) ∧
    (∀ (W : Type) (inner : Option (UniFile W)) (w : W) (cs : List Call) (rs : List Reply)
      (z : ZData W), (uniFile inner).calls (construct inner w) cs = some (rs, z) →
      z.seed = seedAfter z.pos) := by
  have hstep : (fun s : UInt32 => 22695477 * s + 1) = nextSeed := by
    funext s
    rw [nextSeed, UInt32.mul_comm]
  rw [hstep]
  refine ⟨seedAfter_eq, seedAfter_add, ?_, ?_⟩
  · intro W inner w bufs n z hread
    rw [seedAfter_ofNat]
    exact (readAll_seed hread).1
  · intro W inner w cs rs z hcalls
    exact (keyed_construct inner w).calls hcalls

/-- Two reads of two bytes, of which the file holds three. -/
def readThree : Option (Nat × ZData (Session Script.State)) :=
  readAll (some ((⟨1, false⟩ : RemoteFile).uniFile .x64 (Script.calm [1, 2, 3] three_lt).link))
    [[0, 0], [0, 0]] { inner := ⟨Script.start, []⟩ }

theorem jump_equals_stepping_three :
    readThree.isSome ∧ (∀ n z, readThree = some (n, z) → z.seed = seedAfter (UInt64.ofNat n)) ∧
      seedAfter (18446744073709551615 + 2) =
        (fun s => 22695477 * s + 1)^[2] (seedAfter 18446744073709551615) :=
  ⟨by decide, fun n z h => jump_equals_stepping.2.2.1 _ _ _ _ n z h,
    jump_equals_stepping.2.1 18446744073709551615 2⟩

end ZDataFile

end ObZrv
