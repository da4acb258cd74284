import Mathlib.Algebra.Group.Nat.Defs
import Mathlib.Tactic.Common

/-!
# Lib.LittleEndian

Fixed-width little-endian numbers as byte lists. `leBytes w v` writes the low `w` bytes of `v`,
`leNat` reads a byte list back. They are inverse up to the width: `leNat_leBytes`,
`leBytes_leNat`.
-/

namespace Lib

/-- The low `w` bytes of `v`, least significant first. -/
def leBytes : Nat → Nat → List UInt8
  | 0, _ => []
  | w + 1, v => UInt8.ofNat v :: leBytes w (v / 256)

/-- The number a byte list spells, least significant byte first. -/
def leNat : List UInt8 → Nat
  | [] => 0
  | b :: bs => b.toNat + 256 * leNat bs

@[simp] theorem leBytes_length (w v : Nat) : (leBytes w v).length = w := by
  induction w generalizing v with
  | zero => rfl
  | succ w ih => simp [leBytes, ih]

theorem leNat_leBytes (w v : Nat) : leNat (leBytes w v) = v % 256 ^ w := by
  induction w generalizing v with
  | zero => simp [leBytes, leNat, Nat.mod_one]
  | succ w ih =>
    have hhead : (UInt8.ofNat v).toNat = v % 256 := by simp
    rw [leBytes, leNat, ih, hhead, Nat.pow_succ', Nat.mod_mul]

theorem leNat_lt (bs : List UInt8) : leNat bs < 256 ^ bs.length := by
  induction bs with
  | nil => simp [leNat]
  | cons b bs ih =>
    have hb := b.toNat_lt
    rw [leNat, List.length_cons, Nat.pow_succ']
    omega

theorem leBytes_leNat (bs : List UInt8) : leBytes bs.length (leNat bs) = bs := by
  induction bs with
  | nil => rfl
  | cons b bs ih =>
    have hb := b.toNat_lt
    have hhead : UInt8.ofNat (b.toNat + 256 * leNat bs) = b := by
      apply UInt8.toNat_inj.mp
      rw [UInt8.toNat_ofNat']
      omega
    have htail : (b.toNat + 256 * leNat bs) / 256 = leNat bs := by omega
    rw [List.length_cons, leBytes, leNat, hhead, htail, ih]

theorem leNat_take_leBytes (w v : Nat) (rest : List UInt8) :
    leNat ((leBytes w v ++ rest).take w) = v % 256 ^ w := by
  rw [List.take_left' (leBytes_length w v), leNat_leBytes]

/-- Writing back what was read from the front of a stream. -/
theorem leBytes_leNat_take {w : Nat} {p : List UInt8} (h : w ≤ p.length) :
    leBytes w (leNat (p.take w)) = p.take w := by
  have hback := leBytes_leNat (p.take w)
  rwa [List.length_take_of_le h] at hback

theorem leNat_take_lt (w : Nat) (p : List UInt8) : leNat (p.take w) < 256 ^ w :=
  Nat.lt_of_lt_of_le (leNat_lt _) (Nat.pow_le_pow_right (by decide) (List.length_take_le w p))

end Lib
