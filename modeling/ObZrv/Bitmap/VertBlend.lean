import ObZrv.Bitmap.BoxAverage
import ObZrv.Lib.Sse2

/-!
# Bitmap.VertBlend

The vertical blend of six rows, as a loop over pixels and with SSE2.

* `lane_sixTapLanes`    : a sum of the SSE2 code is that of one channel of one pixel.
* `toNat_byte_quad`     : the two saturating packs clamp it.
* `blendVert6TapSse2_eq` : the SSE2 row is the row of the loop.
-/

namespace ObZrv

open Lib Lib.M128

def Taps.map {α β : Type} (f : α → β) (t : Taps α) : Taps β :=
  ⟨f t.t0, f t.t1, f t.t2, f t.t3, f t.t4, f t.t5⟩

/-- `_lanczos3_blend_vert`. -/
def lanczos3BlendVert (rows : Taps (Int → UInt32)) (weights : Taps Int16) (w : Int)
    (out : Int → UInt32) : Int → UInt32 :=
  forLoop w.toNat (fun i out =>
    Function.update out (i : Int) (blend6 (weights.map Int16.toInt) (rows.map fun row => row i))) out

/-- Two weights side by side, in every lane of 32 bits. -/
def weightPair (lo hi : Int16) : M128 :=
  set1Epi32 ((hi.toBitVec.setWidth 32 <<< 16) ||| lo.toBitVec.setWidth 32)

/-- The four channels of one pixel of the registers; the unpackings say which. -/
def sixTapLanes (unpack8 unpack16 : M128 → M128 → M128) (r : Taps M128) (weights : Taps Int16) :
    M128 :=
  let t := r.map fun x => unpack8 x 0
  let sum := addEpi32
    (addEpi32 (maddEpi16 (unpack16 t.t0 t.t1) (weightPair weights.t0 weights.t1))
      (maddEpi16 (unpack16 t.t2 t.t3) (weightPair weights.t2 weights.t3)))
    (maddEpi16 (unpack16 t.t4 t.t5) (weightPair weights.t4 weights.t5))
  sraiEpi32 (addEpi32 sum (set1Epi32 (1 <<< 13))) 14

/-- Four pixels of `BlendVert6Tap_SSE2`. -/
def blendVert6TapQuad (r : Taps M128) (weights : Taps Int16) : M128 :=
  packusEpi16
    (packsEpi32 (sixTapLanes (unpacklo 8) (unpacklo 16) r weights)
      (sixTapLanes (unpacklo 8) (unpackhi 16) r weights))
    (packsEpi32 (sixTapLanes (unpackhi 8) (unpacklo 16) r weights)
      (sixTapLanes (unpackhi 8) (unpackhi 16) r weights))

/-- `BlendVert6Tap_SSE2`. -/
def blendVert6TapSse2 (rows : Taps (Int → UInt32)) (weights : Taps Int16) (w : Int)
    (out : Int → UInt32) : Int → UInt32 :=
  let n := w.toNat
  let out := forLoop (n / 4) (fun q out =>
    storeuSi128 out ((4 * q : Nat) : Int)
      (blendVert6TapQuad (rows.map fun row => loaduSi128 row ((4 * q : Nat) : Int)) weights)) out
  -- the scalar tail is the loop of `_lanczos3_blend_vert`
  forLoop (n % 4) (fun t out =>
    let i : Int := ((4 * (n / 4) + t : Nat) : Int)
    Function.update out i (blend6 (weights.map Int16.toInt) (rows.map fun row => row i))) out

/-- The weighted sum of byte `i` of six registers. -/
def byteSum (r : Taps M128) (weights : Taps Int16) (i : Nat) : Int :=
  (lane 8 r.t0 i).toNat * weights.t0.toInt + (lane 8 r.t1 i).toNat * weights.t1.toInt +
    (lane 8 r.t2 i).toNat * weights.t2.toInt + (lane 8 r.t3 i).toNat * weights.t3.toInt +
    (lane 8 r.t4 i).toNat * weights.t4.toInt + (lane 8 r.t5 i).toNat * weights.t5.toInt

theorem byte_mul_bound (b : BitVec 8) (w : Int16) :
    -8355840 ≤ (b.toNat : Int) * w.toInt ∧ (b.toNat : Int) * w.toInt ≤ 8355585 := by
  have hb : (b.toNat : Int) ≤ 255 := by
    have := b.isLt
    omega
  have hlo : -32768 ≤ w.toInt := w.le_toInt
  have hhi : w.toInt ≤ 32767 := Int.lt_add_one_iff.mp w.toInt_lt
  have h1 := Int.mul_le_mul_of_nonneg_left hlo (Int.natCast_nonneg b.toNat)
  have h2 := Int.mul_le_mul_of_nonneg_left hhi (Int.natCast_nonneg b.toNat)
  omega

theorem toInt_lane_weightPair (lo hi : Int16) {k : Nat} (hk : k < 4) :
    (lane 16 (weightPair lo hi) (2 * k)).toInt = lo.toInt ∧
      (lane 16 (weightPair lo hi) (2 * k + 1)).toInt = hi.toInt := by
  have hlo : lane 16 (weightPair lo hi) (2 * k + 0) = lo.toBitVec := by
    rw [lane_part (n := 32) (by omega) (by omega), weightPair, lane_set1Epi32 hk]
    apply BitVec.eq_of_getLsbD_eq
    intro j hj
    simp [hj, show j < 32 by omega]
  have hhi : lane 16 (weightPair lo hi) (2 * k + 1) = hi.toBitVec := by
    rw [lane_part (n := 32) (by omega) (by omega), weightPair, lane_set1Epi32 hk]
    apply BitVec.eq_of_getLsbD_eq
    intro j hj
    simp [hj, show 16 + j < 32 by omega]
  rw [show 2 * k = 2 * k + 0 by omega, hlo, hhi]
  exact ⟨rfl, rfl⟩

section Unpack

variable {unpack8 unpack16 : M128 → M128 → M128} {start8 start16 : Nat} {r : Taps M128}
  {weights : Taps Int16} {k : Nat}

/-- A byte of a row and the byte below it of the next, as the two halves of a lane. -/
theorem lane_madd_bytes (h8 : Unpacks 8 unpack8 start8) (h16 : Unpacks 16 unpack16 start16)
    (hstart : start16 ≤ 4) (hk : k < 4) (x y : M128) (wx wy : Int16) :
    lane 32 (maddEpi16 (unpack16 (unpack8 x 0) (unpack8 y 0)) (weightPair wx wy)) k =
      BitVec.ofInt 32 ((lane 8 x (start8 + (start16 + k))).toNat * wx.toInt +
        (lane 8 y (start8 + (start16 + k))).toNat * wy.toInt) := by
  have hbyte : ∀ v : M128, (lane 16 (unpack8 v 0) (start16 + k)).toInt =
      (lane 8 v (start8 + (start16 + k))).toNat := by
    intro v
    have hnat := h8.toNat_bytes (x := v) (k := start16 + k) (by omega)
    have hlt := (lane 8 v (start8 + (start16 + k))).isLt
    rw [BitVec.toInt_eq_toNat_of_lt (by omega), hnat]
  obtain ⟨hlo, hhi⟩ := toInt_lane_weightPair wx wy hk
  rw [lane_maddEpi16 hk, h16.even (by omega), h16.odd (by omega), hbyte, hbyte, hlo, hhi]

/-- **A sum of the SSE2 code** does not wrap, and is rounded as the loop rounds it. -/
theorem lane_sixTapLanes (h8 : Unpacks 8 unpack8 start8) (h16 : Unpacks 16 unpack16 start16)
    (hstart : start16 ≤ 4) (hk : k < 4) (r : Taps M128) (weights : Taps Int16) :
    (lane 32 (sixTapLanes unpack8 unpack16 r weights) k).toInt =
      (byteSum r weights (start8 + (start16 + k)) + 8192) / 16384 := by
  have h0 := byte_mul_bound (lane 8 r.t0 (start8 + (start16 + k))) weights.t0
  have h1 := byte_mul_bound (lane 8 r.t1 (start8 + (start16 + k))) weights.t1
  have h2 := byte_mul_bound (lane 8 r.t2 (start8 + (start16 + k))) weights.t2
  have h3 := byte_mul_bound (lane 8 r.t3 (start8 + (start16 + k))) weights.t3
  have h4 := byte_mul_bound (lane 8 r.t4 (start8 + (start16 + k))) weights.t4
  have h5 := byte_mul_bound (lane 8 r.t5 (start8 + (start16 + k))) weights.t5
  have hround : (1 <<< 13 : BitVec 32) = BitVec.ofInt 32 8192 := rfl
  have hsum : lane 32 (sixTapLanes unpack8 unpack16 r weights) k =
      (BitVec.ofInt 32 (byteSum r weights (start8 + (start16 + k)) + 8192)).sshiftRight 14 := by
    simp only [sixTapLanes, Taps.map, lane_sraiEpi32 hk, lane_addEpi32 hk, lane_set1Epi32 hk,
      lane_madd_bytes h8 h16 hstart hk, hround, ← BitVec.ofInt_add, byteSum, Int.add_assoc]
  rw [hsum, BitVec.toInt_sshiftRight, BitVec.toInt_ofInt_eq_self (by omega) ?_ ?_]
  · exact Int.shiftRight_eq_div_pow _ 14
  · unfold byteSum
    omega
  · unfold byteSum
    omega

end Unpack

/-- The signed and the unsigned saturation together clamp to a byte. -/
theorem toNat_saturate (v : Int) :
    (BitVec.ofInt 8 (saturate 0 255
      (BitVec.ofInt 16 (saturate (-32768) 32767 v)).toInt)).toNat = (clampByte v).toNat := by
  have hword : (BitVec.ofInt 16 (saturate (-32768) 32767 v)).toInt = saturate (-32768) 32767 v := by
    refine BitVec.toInt_ofInt_eq_self (by omega) ?_ ?_
    · unfold saturate
      split <;> omega
    · unfold saturate
      split <;> omega
  have hclamp : saturate 0 255 (saturate (-32768) 32767 v) = clampByte v := by
    unfold saturate clampByte
    split <;> split <;> omega
  have hrange : 0 ≤ clampByte v ∧ clampByte v ≤ 255 := by
    unfold clampByte
    split <;> omega
  rw [hword, hclamp, BitVec.toNat_ofInt]
  omega

/-- Four lanes of 32 bits in each of four registers, packed to bytes. -/
theorem toNat_lane_packed {s0 s1 s2 s3 : M128} {p k : Nat} (hp : p < 4) (hk : k < 4) :
    (lane 8 (packusEpi16 (packsEpi32 s0 s1) (packsEpi32 s2 s3)) (4 * p + k)).toNat =
      (clampByte (lane 32
        (if p = 0 then s0 else if p = 1 then s1 else if p = 2 then s2 else s3) k).toInt).toNat := by
  have hreg : lane 8 (packusEpi16 (packsEpi32 s0 s1) (packsEpi32 s2 s3)) (4 * p + k) =
      BitVec.ofInt 8 (saturate 0 255 (BitVec.ofInt 16 (saturate (-32768) 32767 (lane 32
        (if p = 0 then s0 else if p = 1 then s1 else if p = 2 then s2 else s3) k).toInt)).toInt) := by
    rw [lane_packusEpi16 (by omega)]
    match p, hp with
    | 0, _ =>
      rw [if_pos (by omega), lane_packsEpi32 (by omega), if_pos (by omega), if_pos rfl,
        show (4 * 0 + k) % 8 % 4 = k by omega]
    | 1, _ =>
      rw [if_pos (by omega), lane_packsEpi32 (by omega), if_neg (by omega), if_neg (by omega),
        if_pos rfl, show (4 * 1 + k) % 8 % 4 = k by omega]
    | 2, _ =>
      rw [if_neg (by omega), lane_packsEpi32 (by omega), if_pos (by omega), if_neg (by omega),
        if_neg (by omega), if_pos rfl, show (4 * 2 + k) % 8 % 4 = k by omega]
    | 3, _ =>
      rw [if_neg (by omega), lane_packsEpi32 (by omega), if_neg (by omega), if_neg (by omega),
        if_neg (by omega), if_neg (by omega), show (4 * 3 + k) % 8 % 4 = k by omega]
  rw [hreg, toNat_saturate]

theorem toNat_byte_quad (r : Taps M128) (weights : Taps Int16) {p k : Nat} (hp : p < 4)
    (hk : k < 4) :
    (lane 8 (blendVert6TapQuad r weights) (4 * p + k)).toNat =
      (clampByte ((byteSum r weights (4 * p + k) + 8192) / 16384)).toNat := by
  have lo8 : Unpacks 8 (unpacklo 8) 0 := unpacks_lo (by decide)
  have hi8 : Unpacks 8 (unpackhi 8) 8 := unpacks_hi (by decide)
  have lo16 : Unpacks 16 (unpacklo 16) 0 := unpacks_lo (by decide)
  have hi16 : Unpacks 16 (unpackhi 16) 4 := unpacks_hi (by decide)
  rw [blendVert6TapQuad, toNat_lane_packed hp hk]
  match p, hp with
  | 0, _ =>
    rw [if_pos rfl, lane_sixTapLanes lo8 lo16 (by omega) hk, show 0 + (0 + k) = 4 * 0 + k by omega]
  | 1, _ =>
    rw [if_neg (by omega), if_pos rfl, lane_sixTapLanes lo8 hi16 (by omega) hk,
      show 0 + (4 + k) = 4 * 1 + k by omega]
  | 2, _ =>
    rw [if_neg (by omega), if_neg (by omega), if_pos rfl, lane_sixTapLanes hi8 lo16 (by omega) hk,
      show 8 + (0 + k) = 4 * 2 + k by omega]
  | 3, _ =>
    rw [if_neg (by omega), if_neg (by omega), if_neg (by omega),
      lane_sixTapLanes hi8 hi16 (by omega) hk, show 8 + (4 + k) = 4 * 3 + k by omega]

/-! ## The row -/

theorem blendChannel_lt (w : Taps Int) (p : Taps UInt32) (shift : UInt32) :
    (blendChannel w p shift).toNat < 256 := by
  have hclamp : ∀ v, (clampByte v).toNat < 256 := by
    intro v
    unfold clampByte
    split <;> omega
  have hlt := hclamp ((channel p.t0 shift * w.t0 + channel p.t1 shift * w.t1 +
    channel p.t2 shift * w.t2 + channel p.t3 shift * w.t3 + channel p.t4 shift * w.t4 +
    channel p.t5 shift * w.t5 + 8192) / 16384)
  rw [blendChannel, UInt32.toNat_ofNat']
  omega

theorem blend6_toNat (w : Taps Int) (p : Taps UInt32) :
    (blend6 w p).toNat = (blendChannel w p 24).toNat * 16777216 +
      (blendChannel w p 16).toNat * 65536 + (blendChannel w p 8).toNat * 256 +
      (blendChannel w p 0).toNat := by
  rw [← pack_toNat (blendChannel_lt w p 24) (blendChannel_lt w p 16) (blendChannel_lt w p 8)
    (blendChannel_lt w p 0), blend6]
  generalize blendChannel w p 0 = b
  generalize blendChannel w p 8 <<< 8 = g
  generalize blendChannel w p 16 <<< 16 = r
  generalize blendChannel w p 24 <<< 24 = a
  rw [UInt32.or_comm b g, UInt32.or_comm _ r, UInt32.or_comm _ a, UInt32.or_assoc, UInt32.or_assoc]

/-- A channel of the loop is a byte of the registers. -/
theorem blendChannel_bytes (rows : Taps (Int → UInt32)) (weights : Taps Int16) (i : Int) {p k : Nat}
    (hp : p < 4) (hk : k < 4) :
    (blendChannel (weights.map Int16.toInt) (rows.map fun row => row (i + p)) (shiftOf k)).toNat =
      (clampByte ((byteSum (rows.map fun row => loaduSi128 row i) weights (4 * p + k) + 8192) /
        16384)).toNat := by
  have hbyte : ∀ row : Int → UInt32, channel (row (i + p)) (shiftOf k) =
      (lane 8 (loaduSi128 row i) (4 * p + k)).toNat := by
    intro row
    rw [toNat_byte_loaduSi128 hp hk, ← channelOf_eq _ hk]
    rfl
  have hclamp : ∀ v, (UInt32.ofNat (clampByte v).toNat).toNat = (clampByte v).toNat := by
    intro v
    have hle : clampByte v ≤ 255 := by
      unfold clampByte
      split <;> omega
    rw [UInt32.toNat_ofNat']
    omega
  simp only [blendChannel, hclamp, Taps.map, hbyte, byteSum]

/-- **Four pixels of the SSE2 code** are four passes of the loop. -/
theorem lane_quad (rows : Taps (Int → UInt32)) (weights : Taps Int16) (i : Int) {p : Nat}
    (hp : p < 4) :
    lane 32 (blendVert6TapQuad (rows.map fun row => loaduSi128 row i) weights) p =
      (blend6 (weights.map Int16.toInt) (rows.map fun row => row (i + p))).toBitVec := by
  have hbyte : ∀ k < 4, (lane 8 (blendVert6TapQuad (rows.map fun row => loaduSi128 row i) weights)
      (4 * p + k)).toNat = (blendChannel (weights.map Int16.toInt)
        (rows.map fun row => row (i + p)) (shiftOf k)).toNat := by
    intro k hk
    rw [toNat_byte_quad _ _ hp hk, blendChannel_bytes rows weights i hp hk]
  apply BitVec.eq_of_toNat_eq
  rw [toNat_lane_bytes, hbyte 3 (by omega), hbyte 2 (by omega), hbyte 1 (by omega)]
  rw [show 4 * p = 4 * p + 0 by omega, hbyte 0 (by omega)]
  exact (blend6_toNat _ _).symm

/-- **`BlendVert6Tap_SSE2`** writes the row that `_lanczos3_blend_vert` writes. -/
theorem blendVert6TapSse2_eq (rows : Taps (Int → UInt32)) (weights : Taps Int16) (w : Int)
    (out : Int → UInt32) :
    blendVert6TapSse2 rows weights w out = lanczos3BlendVert rows weights w out := by
  refine @forLoop_quads
    (fun i _ => blend6 (weights.map Int16.toInt) (rows.map fun row => row (i : Int)))
    (fun q _ => blendVert6TapQuad (rows.map fun row => loaduSi128 row ((4 * q : Nat) : Int)) weights)
    ?_ w.toNat out
  intro q _ k hk
  have hlane := lane_quad rows weights ((4 * q : Nat) : Int) hk
  simp only [show ((4 * q : Nat) : Int) + k = ((4 * q + k : Nat) : Int) by omega] at hlane
  exact hlane

end ObZrv
