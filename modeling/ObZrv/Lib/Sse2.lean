import Mathlib.Algebra.Group.Nat.Defs
import ObZrv.Lib.Loop

/-!
# Lib.Sse2

SSE2 registers and the integer instructions on them, lane by lane. A register is 128 bits, and
`lane w x i` is its lane `i` of `w` bits, from the least significant one on.

* `lane_ofLanes`       : a register made of lanes has them.
* `lane_append`        : a lane is its two halves.
* `lane_part`          : a narrow lane is a part of a wide one.
* `lane_addEpi32`, …   : one lemma for each instruction, on a lane of its result.
* `forLoop_quads`      : cells done four at a time, and the rest one by one.
-/

namespace Lib

/-- The number whose `n` digits in base `2 ^ w` are `f 0`, `f 1`, …, least significant first. -/
def ofLanesNat (w : Nat) : Nat → (Nat → BitVec w) → Nat
  | 0, _ => 0
  | n + 1, f => (f 0).toNat + 2 ^ w * ofLanesNat w n fun i => f (i + 1)

theorem ofLanesNat_lt (w n : Nat) (f : Nat → BitVec w) : ofLanesNat w n f < 2 ^ (w * n) := by
  induction n generalizing f with
  | zero => simp [ofLanesNat]
  | succ n ih =>
    have h0 := (f 0).isLt
    have hrest := ih fun i => f (i + 1)
    rw [ofLanesNat, Nat.mul_succ, Nat.pow_add']
    calc (f 0).toNat + 2 ^ w * ofLanesNat w n (fun i => f (i + 1))
        < 2 ^ w + 2 ^ w * ofLanesNat w n (fun i => f (i + 1)) := by omega
      _ = 2 ^ w * (ofLanesNat w n (fun i => f (i + 1)) + 1) := by rw [Nat.mul_succ, Nat.add_comm]
      _ ≤ 2 ^ w * 2 ^ (w * n) := Nat.mul_le_mul_left _ hrest

theorem ofLanesNat_digit {w n i : Nat} {f : Nat → BitVec w} (hi : i < n) :
    ofLanesNat w n f / 2 ^ (w * i) % 2 ^ w = (f i).toNat := by
  induction n generalizing f i with
  | zero => omega
  | succ n ih =>
    have h0 := (f 0).isLt
    rw [ofLanesNat]
    cases i with
    | zero =>
      rw [Nat.mul_zero, Nat.pow_zero, Nat.div_one, Nat.add_mul_mod_self_left, Nat.mod_eq_of_lt h0]
    | succ i =>
      have hdiv : ((f 0).toNat + 2 ^ w * ofLanesNat w n fun i => f (i + 1)) / 2 ^ w =
          ofLanesNat w n fun i => f (i + 1) := by
        rw [Nat.add_mul_div_left _ _ (Nat.two_pow_pos w), Nat.div_eq_of_lt h0, Nat.zero_add]
      rw [Nat.mul_succ, Nat.pow_add', ← Nat.div_div_eq_div_mul, hdiv]
      exact ih (by omega)

/-- An SSE2 register. -/
abbrev M128 := BitVec 128

namespace M128

/-- The lanes of `w` bits. -/
def lane (w : Nat) (x : M128) (i : Nat) : BitVec w := x.extractLsb' (w * i) w

def ofLanes (w : Nat) (f : Nat → BitVec w) : M128 := BitVec.ofNat 128 (ofLanesNat w (128 / w) f)

variable {w i k : Nat} {x y : M128}

theorem toNat_lane : (lane w x i).toNat = x.toNat / 2 ^ (w * i) % 2 ^ w := by
  rw [lane, BitVec.extractLsb'_toNat, Nat.shiftRight_eq_div_pow]

theorem lane_ofLanes {f : Nat → BitVec w} (h : i < 128 / w) : lane w (ofLanes w f) i = f i := by
  have hlt : ofLanesNat w (128 / w) f < 2 ^ 128 :=
    Nat.lt_of_lt_of_le (ofLanesNat_lt w _ f)
      (Nat.pow_le_pow_right (by omega) (Nat.mul_div_le 128 w))
  apply BitVec.eq_of_toNat_eq
  rw [toNat_lane, ofLanes, BitVec.toNat_ofNat, Nat.mod_eq_of_lt hlt, ofLanesNat_digit h]

/-- A lane cut in halves. -/
theorem lane_append (w : Nat) (x : M128) (i : Nat) :
    lane (w + w) x i = lane w x (2 * i + 1) ++ lane w x (2 * i) := by
  have hhi : w * (2 * i + 1) = w * (2 * i) + w := Nat.mul_succ w (2 * i)
  have hlo : w * (2 * i) = (w + w) * i := by rw [← Nat.mul_assoc, Nat.mul_comm w 2, Nat.two_mul]
  rw [lane, lane, lane, BitVec.extractLsb'_append_extractLsb'_eq_extractLsb' hhi, hlo]

theorem toNat_lane_append (w : Nat) (x : M128) (i : Nat) :
    (lane (w + w) x i).toNat = (lane w x (2 * i + 1)).toNat * 2 ^ w + (lane w x (2 * i)).toNat := by
  rw [lane_append, BitVec.toNat_append, ← Nat.shiftLeft_add_eq_or_of_lt (lane w x (2 * i)).isLt,
    Nat.shiftLeft_eq]

/-- A narrow lane is a part of a wide one. -/
theorem lane_part {n m b : Nat} (hn : n = w * m) (hb : b < m) (x : M128) (i : Nat) :
    lane w x (m * i + b) = (lane n x i).extractLsb' (w * b) w := by
  subst hn
  have hin : w * b + w ≤ w * m := by
    rw [← Nat.mul_succ]
    exact Nat.mul_le_mul_left w hb
  apply BitVec.eq_of_getLsbD_eq
  intro j hj
  have hpos : w * (m * i + b) + j = w * m * i + (w * b + j) := by
    rw [Nat.mul_add, Nat.mul_assoc, Nat.add_assoc]
  simp only [lane, BitVec.getLsbD_extractLsb', hpos, hj, decide_true, Bool.true_and,
    decide_eq_true (show w * b + j < w * m by omega)]

theorem toNat_lane_part {n m b : Nat} (hn : n = w * m) (hb : b < m) (x : M128) (i : Nat) :
    (lane w x (m * i + b)).toNat = (lane n x i).toNat / 2 ^ (w * b) % 2 ^ w := by
  rw [lane_part hn hb, BitVec.extractLsb'_toNat, Nat.shiftRight_eq_div_pow]

/-! ## Moves -/

def set1Epi32 (c : BitVec 32) : M128 := ofLanes 32 fun _ => c

def set1Epi16 (c : BitVec 16) : M128 := ofLanes 16 fun _ => c

def cvtsi32Si128 (c : BitVec 32) : M128 := c.setWidth 128

def cvtsi128Si32 (x : M128) : BitVec 32 := lane 32 x 0

/-- The whole register shifted right by `n` bytes. -/
def srliSi128 (x : M128) (n : Nat) : M128 := x >>> (8 * n)

/-- `unpacklo_epi8` and `unpacklo_epi16`: the lower lanes of both, in turn. -/
def unpacklo (w : Nat) (x y : M128) : M128 :=
  ofLanes w fun i => if i % 2 = 0 then lane w x (i / 2) else lane w y (i / 2)

/-- `unpackhi_epi8` and `unpackhi_epi16`: the upper lanes of both, in turn. -/
def unpackhi (w : Nat) (x y : M128) : M128 :=
  ofLanes w fun i =>
    if i % 2 = 0 then lane w x (64 / w + i / 2) else lane w y (64 / w + i / 2)

/-! ## Arithmetic -/

def addEpi32 (x y : M128) : M128 := ofLanes 32 fun i => lane 32 x i + lane 32 y i

def mulloEpi16 (x y : M128) : M128 := ofLanes 16 fun i => lane 16 x i * lane 16 y i

/-- The even lanes of 32 bits, multiplied to 64 bits. -/
def mulEpu32 (x y : M128) : M128 :=
  ofLanes 64 fun i => (lane 32 x (2 * i)).setWidth 64 * (lane 32 y (2 * i)).setWidth 64

/-- Signed products of the lanes of 16 bits, added in pairs. -/
def maddEpi16 (x y : M128) : M128 :=
  ofLanes 32 fun i => BitVec.ofInt 32
    ((lane 16 x (2 * i)).toInt * (lane 16 y (2 * i)).toInt +
      (lane 16 x (2 * i + 1)).toInt * (lane 16 y (2 * i + 1)).toInt)

def addsEpu16 (x y : M128) : M128 :=
  ofLanes 16 fun i => BitVec.ofNat 16 (min ((lane 16 x i).toNat + (lane 16 y i).toNat) 65535)

def subsEpu8 (x y : M128) : M128 :=
  ofLanes 8 fun i => BitVec.ofNat 8 ((lane 8 x i).toNat - (lane 8 y i).toNat)

/-- A value brought into the range of a lane. -/
def saturate (lo hi v : Int) : Int := if v < lo then lo else if v > hi then hi else v

def packsEpi32 (x y : M128) : M128 :=
  ofLanes 16 fun i => BitVec.ofInt 16
    (saturate (-32768) 32767 (lane 32 (if i < 4 then x else y) (i % 4)).toInt)

def packusEpi16 (x y : M128) : M128 :=
  ofLanes 8 fun i => BitVec.ofInt 8
    (saturate 0 255 (lane 16 (if i < 8 then x else y) (i % 8)).toInt)

/-! ## Shifts -/

def slliEpi32 (x : M128) (n : Nat) : M128 := ofLanes 32 fun i => lane 32 x i <<< n

def srliEpi32 (x : M128) (n : Nat) : M128 := ofLanes 32 fun i => lane 32 x i >>> n

def sraiEpi32 (x : M128) (n : Nat) : M128 := ofLanes 32 fun i => (lane 32 x i).sshiftRight n

def srliEpi16 (x : M128) (n : Nat) : M128 := ofLanes 16 fun i => lane 16 x i >>> n

def srliEpi64 (x : M128) (n : Nat) : M128 := ofLanes 64 fun i => lane 64 x i >>> n

/-! ## Lanes of the results -/

@[simp] theorem lane_zero (w i : Nat) : lane w 0 i = 0 := by
  apply BitVec.eq_of_toNat_eq
  rw [toNat_lane]
  simp

theorem lane_and (w : Nat) (x y : M128) (i : Nat) :
    lane w (x &&& y) i = lane w x i &&& lane w y i := BitVec.extractLsb'_and

theorem lane_or (w : Nat) (x y : M128) (i : Nat) :
    lane w (x ||| y) i = lane w x i ||| lane w y i := BitVec.extractLsb'_or

theorem lane_set1Epi32 {c : BitVec 32} (hi : i < 4) : lane 32 (set1Epi32 c) i = c :=
  lane_ofLanes (by omega)

theorem lane_set1Epi16 {c : BitVec 16} (hi : i < 8) : lane 16 (set1Epi16 c) i = c :=
  lane_ofLanes (by omega)

theorem lane_addEpi32 (hi : i < 4) : lane 32 (addEpi32 x y) i = lane 32 x i + lane 32 y i :=
  lane_ofLanes (by omega)

theorem lane_slliEpi32 {n : Nat} (hi : i < 4) : lane 32 (slliEpi32 x n) i = lane 32 x i <<< n :=
  lane_ofLanes (by omega)

theorem lane_srliEpi32 {n : Nat} (hi : i < 4) : lane 32 (srliEpi32 x n) i = lane 32 x i >>> n :=
  lane_ofLanes (by omega)

theorem lane_sraiEpi32 {n : Nat} (hi : i < 4) :
    lane 32 (sraiEpi32 x n) i = (lane 32 x i).sshiftRight n :=
  lane_ofLanes (by omega)

theorem lane_maddEpi16 (hi : i < 4) :
    lane 32 (maddEpi16 x y) i = BitVec.ofInt 32
      ((lane 16 x (2 * i)).toInt * (lane 16 y (2 * i)).toInt +
        (lane 16 x (2 * i + 1)).toInt * (lane 16 y (2 * i + 1)).toInt) :=
  lane_ofLanes (by omega)

theorem toNat_lane_mulloEpi16 (hi : i < 8)
    (hlt : (lane 16 x i).toNat * (lane 16 y i).toNat < 65536) :
    (lane 16 (mulloEpi16 x y) i).toNat = (lane 16 x i).toNat * (lane 16 y i).toNat := by
  rw [mulloEpi16, lane_ofLanes (by omega), BitVec.toNat_mul, Nat.mod_eq_of_lt hlt]

theorem toNat_lane_addsEpu16 (hi : i < 8)
    (hlt : (lane 16 x i).toNat + (lane 16 y i).toNat < 65536) :
    (lane 16 (addsEpu16 x y) i).toNat = (lane 16 x i).toNat + (lane 16 y i).toNat := by
  rw [addsEpu16, lane_ofLanes (by omega), BitVec.toNat_ofNat]
  omega

theorem toNat_lane_subsEpu8 (hi : i < 16) :
    (lane 8 (subsEpu8 x y) i).toNat = (lane 8 x i).toNat - (lane 8 y i).toNat := by
  have hx := (lane 8 x i).isLt
  rw [subsEpu8, lane_ofLanes (by omega), BitVec.toNat_ofNat]
  omega

theorem toNat_lane_srliEpi16 {n : Nat} (hi : i < 8) :
    (lane 16 (srliEpi16 x n) i).toNat = (lane 16 x i).toNat / 2 ^ n := by
  rw [srliEpi16, lane_ofLanes (by omega), BitVec.toNat_ushiftRight, Nat.shiftRight_eq_div_pow]

theorem lane_srliSi128 (x : M128) (m i : Nat) :
    lane 32 (srliSi128 x (4 * m)) i = lane 32 x (i + m) := by
  apply BitVec.eq_of_getLsbD_eq
  intro j hj
  have hpos : 8 * (4 * m) + (32 * i + j) = 32 * (i + m) + j := by omega
  simp only [lane, srliSi128, BitVec.getLsbD_extractLsb', BitVec.getLsbD_ushiftRight, hpos]

/-- The lower half of a product, shifted right. -/
theorem toNat_lane_mulEpu32 {n : Nat} (hi : i < 2) :
    (lane 32 (srliEpi64 (mulEpu32 x y) n) (2 * i)).toNat =
      (lane 32 x (2 * i)).toNat * (lane 32 y (2 * i)).toNat / 2 ^ n % 4294967296 := by
  have hx := (lane 32 x (2 * i)).isLt
  have hy := (lane 32 y (2 * i)).isLt
  have hmul : (lane 32 x (2 * i)).toNat * (lane 32 y (2 * i)).toNat < 2 ^ 64 := by
    rw [show 64 = 32 + 32 from rfl, Nat.pow_add]
    exact Nat.mul_lt_mul'' hx hy
  have hwide : ∀ z : BitVec 32, (z.setWidth 64).toNat = z.toNat := by
    intro z
    have hz := z.isLt
    rw [BitVec.toNat_setWidth]
    omega
  have hlow := toNat_lane_part (w := 32) (n := 64) (m := 2) (b := 0) (by omega) (by omega)
    (srliEpi64 (mulEpu32 x y) n) i
  rw [Nat.add_zero] at hlow
  rw [hlow, srliEpi64, lane_ofLanes (by omega), mulEpu32, lane_ofLanes (by omega),
    BitVec.toNat_ushiftRight, BitVec.toNat_mul, hwide, hwide, Nat.mod_eq_of_lt hmul,
    Nat.shiftRight_eq_div_pow, Nat.mul_zero, Nat.pow_zero, Nat.div_one]
  rfl

theorem toNat_byte_cvtsi32 (c : BitVec 32) (k : Nat) :
    (lane 8 (cvtsi32Si128 c) k).toNat = c.toNat / 2 ^ (8 * k) % 256 := by
  have hlt := c.isLt
  rw [toNat_lane, cvtsi32Si128, BitVec.toNat_setWidth,
    Nat.mod_eq_of_lt (Nat.lt_trans hlt (by omega))]
  rfl

/-- The two unpackings, by where they start to read. -/
structure Unpacks (w : Nat) (unpack : M128 → M128 → M128) (start : Nat) : Prop where
  even : ∀ {x y k}, k < 64 / w → lane w (unpack x y) (2 * k) = lane w x (start + k)
  odd : ∀ {x y k}, k < 64 / w → lane w (unpack x y) (2 * k + 1) = lane w y (start + k)

theorem unpacks_lo (h : 64 / w * 2 ≤ 128 / w) : Unpacks w (unpacklo w) 0 := by
  constructor
  · intro x y k hk
    rw [unpacklo, lane_ofLanes (by omega), if_pos (by omega), Nat.mul_div_cancel_left k (by omega),
      Nat.zero_add]
  · intro x y k hk
    rw [unpacklo, lane_ofLanes (by omega), if_neg (by omega), Nat.zero_add,
      show (2 * k + 1) / 2 = k by omega]

theorem unpacks_hi (h : 64 / w * 2 ≤ 128 / w) : Unpacks w (unpackhi w) (64 / w) := by
  constructor
  · intro x y k hk
    rw [unpackhi, lane_ofLanes (by omega), if_pos (by omega), Nat.mul_div_cancel_left k (by omega)]
  · intro x y k hk
    rw [unpackhi, lane_ofLanes (by omega), if_neg (by omega), show (2 * k + 1) / 2 = k by omega]

/-- Bytes unpacked with zeros are lanes of 16 bits. -/
theorem Unpacks.toNat_bytes {unpack : M128 → M128 → M128} {start : Nat} (h : Unpacks 8 unpack start)
    (hk : k < 8) : (lane 16 (unpack x 0) k).toNat = (lane 8 x (start + k)).toNat := by
  rw [toNat_lane_append 8, h.odd hk, h.even hk, lane_zero]
  simp

theorem lane_packsEpi32 (hi : i < 8) :
    lane 16 (packsEpi32 x y) i = BitVec.ofInt 16
      (saturate (-32768) 32767 (lane 32 (if i < 4 then x else y) (i % 4)).toInt) :=
  lane_ofLanes (by omega)

theorem lane_packusEpi16 (hi : i < 16) :
    lane 8 (packusEpi16 x y) i = BitVec.ofInt 8
      (saturate 0 255 (lane 16 (if i < 8 then x else y) (i % 8)).toInt) :=
  lane_ofLanes (by omega)

/-! ## Memory -/

/-- Four cells of 32 bits, from `i` on. At an aligned address `_mm_load_si128` does the same. -/
def loaduSi128 (mem : Int → UInt32) (i : Int) : M128 := ofLanes 32 fun k => (mem (i + k)).toBitVec

def storeuSi128 (mem : Int → UInt32) (i : Int) (x : M128) : Int → UInt32 :=
  fill mem i 4 fun k => UInt32.ofBitVec (lane 32 x k.toNat)

theorem lane_loaduSi128 {mem : Int → UInt32} {a : Int} (hi : i < 4) :
    lane 32 (loaduSi128 mem a) i = (mem (a + i)).toBitVec := lane_ofLanes (by omega)

/-- Byte `k` of cell `p`. -/
theorem toNat_byte_loaduSi128 {mem : Int → UInt32} {a : Int} {p : Nat} (hp : p < 4) (hk : k < 4) :
    (lane 8 (loaduSi128 mem a) (4 * p + k)).toNat = (mem (a + p)).toNat / 2 ^ (8 * k) % 256 := by
  rw [toNat_lane_part (n := 32) (by omega) hk, lane_loaduSi128 hp]
  rfl

/-- A lane of 32 bits by its bytes. -/
theorem toNat_lane_bytes (x : M128) (i : Nat) :
    (lane 32 x i).toNat = (lane 8 x (4 * i + 3)).toNat * 16777216 +
      (lane 8 x (4 * i + 2)).toNat * 65536 + (lane 8 x (4 * i + 1)).toNat * 256 +
      (lane 8 x (4 * i)).toNat := by
  have hlt := (lane 32 x i).isLt
  rw [toNat_lane_part (n := 32) (b := 3) (by omega) (by omega),
    toNat_lane_part (n := 32) (b := 2) (by omega) (by omega),
    toNat_lane_part (n := 32) (b := 1) (by omega) (by omega),
    show 4 * i = 4 * i + 0 by omega,
    toNat_lane_part (n := 32) (b := 0) (by omega) (by omega)]
  omega

/-- Cells done four at a time by `quad` and the rest one by one, each made from what it held. -/
theorem forLoop_quads {p : Nat → UInt32 → UInt32} {quad : Nat → (Int → UInt32) → M128}
    (h : ∀ q mem k, k < 4 →
      lane 32 (quad q mem) k = (p (4 * q + k) (mem ((4 * q + k : Nat) : Int))).toBitVec)
    (n : Nat) (mem : Int → UInt32) :
    forLoop (n % 4)
        (fun t mem => Function.update mem ((4 * (n / 4) + t : Nat) : Int)
          (p (4 * (n / 4) + t) (mem ((4 * (n / 4) + t : Nat) : Int))))
        (forLoop (n / 4) (fun q mem => storeuSi128 mem ((4 * q : Nat) : Int) (quad q mem)) mem) =
      forLoop n (fun i mem => Function.update mem (i : Int) (p i (mem (i : Int)))) mem := by
  refine forLoop_blocks (m := 4)
    (f := fun i mem => Function.update mem (i : Int) (p i (mem (i : Int)))) ?_ n mem
  intro q mem
  have hfill := forLoop_update 4 ((4 * q : Nat) : Int) (fun t => p (4 * q + t)) mem
  have hcast : ∀ t : Nat, ((4 * q : Nat) : Int) + t = ((4 * q + t : Nat) : Int) := fun t => by omega
  simp only [hcast, Int.cast_ofNat_Int] at hfill
  rw [hfill]
  funext a
  by_cases hin : ((4 * q : Nat) : Int) ≤ a ∧ a < ((4 * q : Nat) : Int) + 4
  · obtain ⟨k, hk, rfl⟩ : ∃ k : Nat, k < 4 ∧ a = ((4 * q : Nat) : Int) + k :=
      ⟨(a - ((4 * q : Nat) : Int)).toNat, by omega, by omega⟩
    rw [storeuSi128, fill_in hin.1 hin.2, fill_in hin.1 hin.2,
      show ((4 * q : Nat) : Int) + k - ((4 * q : Nat) : Int) = k by omega, Int.toNat_natCast,
      h q mem k hk, hcast]
  · rw [storeuSi128, fill_out (by omega), fill_out (by omega)]

end M128
end Lib
