import ObZrv.Bitmap.BlendColor
import ObZrv.Bitmap.VertBlend

/-!
# Bitmap.BoxBlock

The loops of the box prefilter over the memory of its column sums, four cells for a column, and the
SSE2 code that does one block of rows.

* `boxAccumRow_cell`, `boxOutputRow_eq` : the loops do what `boxRow` does.
* `boxDownsampleBlockSse2_eq`           : the SSE2 code of a block is these loops.
* `boxDownsampleBlockSse2_boxAt`        : a block of the image becomes its averages.
* `simd_rows`                           : all three SSE2 routines are their loops.
-/

namespace ObZrv

open Lib Lib.M128

/-- `x0` of column `ix`, and how many pixels of a row belong to it. -/
def columnStart (ixMin nx sxStart : Int) (ix : Nat) : Int :=
  if (ixMin + ix) * nx < sxStart then sxStart else (ixMin + ix) * nx

def columnCount (ixMin nx sxStart sxEnd : Int) (ix : Nat) : Nat :=
  let x1 := (ixMin + ix) * nx + nx
  ((if x1 > sxEnd then sxEnd else x1) - columnStart ixMin nx sxStart ix).toNat

/-- The sums of the four channels over a part of a row are added to the column. -/
def boxAccumColumn (srow : Int → UInt32) (ixMin nx sxStart sxEnd : Int) (ix : Nat)
    (colAcc : Int → UInt32) : Int → UInt32 :=
  let x0 := columnStart ixMin nx sxStart ix
  let n := columnCount ixMin nx sxStart sxEnd ix
  forLoop 4 (fun k colAcc => Function.update colAcc (4 * (ix : Int) + k)
    (colAcc (4 * (ix : Int) + k) + rowSum srow x0 n k)) colAcc

/-- The loop of `ScaleCrop` over the columns, for one source row. -/
def boxAccumRow (srow : Int → UInt32) (ixMin nx sxStart sxEnd subW : Int)
    (colAcc : Int → UInt32) : Int → UInt32 :=
  forLoop subW.toNat (boxAccumColumn srow ixMin nx sxStart sxEnd) colAcc

/-- One pixel of the output is made from the sums of its column, which become zero. -/
def boxOutputColumn (recip : UInt32) (ix : Nat) (s : (Int → UInt32) × (Int → UInt32)) :
    (Int → UInt32) × (Int → UInt32) :=
  (Function.update s.1 (ix : Int) (packBox recip.toNat fun k => s.2 (4 * (ix : Int) + k)),
    fill s.2 (4 * (ix : Int)) 4 fun _ => 0)

/-- The loop of `ScaleCrop` over a row of the output. -/
def boxOutputRow (out colAcc : Int → UInt32) (subW : Int) (recip : UInt32) :
    (Int → UInt32) × (Int → UInt32) :=
  forLoop subW.toNat (boxOutputColumn recip) (out, colAcc)

/-! ## SSE2 -/

/-- The four channels of a pixel, as lanes of 32 bits. -/
def pixelLanes (c : UInt32) : M128 := unpacklo 16 (unpacklo 8 (cvtsi32Si128 c.toBitVec) 0) 0

def boxHSum (srow : Int → UInt32) (x0 : Int) (n : Nat) : M128 :=
  forLoop n (fun t hSum => addEpi32 hSum (pixelLanes (srow (x0 + t)))) 0

def boxAccumColumnSse2 (srow : Int → UInt32) (ixMin nx sxStart sxEnd : Int) (ix : Nat)
    (colAcc : Int → UInt32) : Int → UInt32 :=
  let x0 := columnStart ixMin nx sxStart ix
  let n := columnCount ixMin nx sxStart sxEnd ix
  storeuSi128 colAcc (4 * (ix : Int))
    (addEpi32 (loaduSi128 colAcc (4 * (ix : Int))) (boxHSum srow x0 n))

def boxOutputColumnSse2 (recip : UInt32) (ix : Nat) (s : (Int → UInt32) × (Int → UInt32)) :
    (Int → UInt32) × (Int → UInt32) :=
  let vRecip := set1Epi32 recip.toBitVec
  let sums := loaduSi128 s.2 (4 * (ix : Int))
  let rLo := srliEpi64 (mulEpu32 sums vRecip) 22
  let rHi := srliEpi64 (mulEpu32 (srliSi128 sums 4) vRecip) 22
  let b := UInt32.ofBitVec (cvtsi128Si32 rLo)
  let g := UInt32.ofBitVec (cvtsi128Si32 rHi)
  let r := UInt32.ofBitVec (cvtsi128Si32 (srliSi128 rLo 8))
  let a := UInt32.ofBitVec (cvtsi128Si32 (srliSi128 rHi 8))
  (Function.update s.1 (ix : Int) ((a <<< 24) ||| (r <<< 16) ||| (g <<< 8) ||| b),
    storeuSi128 s.2 (4 * (ix : Int)) 0)

/-- `BoxOutputRow_SSE2`. -/
def boxOutputRowSse2 (out colAcc : Int → UInt32) (subW : Int) (recip : UInt32) :
    (Int → UInt32) × (Int → UInt32) :=
  forLoop subW.toNat (boxOutputColumnSse2 recip) (out, colAcc)

/-- `BoxDownsampleBlock_SSE2`: the row of the output, and the sums of the columns. -/
def boxDownsampleBlockSse2 (out colAcc : Int → UInt32) (srcLines : Nat → Int → UInt32)
    (nyActual ixMin nx sxStart sxEnd subW : Int) (recip : UInt32) :
    (Int → UInt32) × (Int → UInt32) :=
  let colAcc := forLoop nyActual.toNat (fun r colAcc =>
    forLoop subW.toNat (boxAccumColumnSse2 (srcLines r) ixMin nx sxStart sxEnd) colAcc) colAcc
  boxOutputRowSse2 out colAcc subW recip

/-! ## The loops -/

section Loops

variable {srow : Int → UInt32} {ixMin nx sxStart sxEnd : Int} {colAcc out : Int → UInt32} {k : Nat}

theorem boxAccumColumn_eq (srow : Int → UInt32) (ixMin nx sxStart sxEnd : Int) (ix : Nat)
    (colAcc : Int → UInt32) :
    boxAccumColumn srow ixMin nx sxStart sxEnd ix colAcc =
      fill colAcc (4 * (ix : Int)) 4 fun k => colAcc (4 * (ix : Int) + k) +
        rowSum srow (columnStart ixMin nx sxStart ix) (columnCount ixMin nx sxStart sxEnd ix)
          k.toNat :=
  forLoop_update 4 (4 * (ix : Int))
    (fun k c => c + rowSum srow (columnStart ixMin nx sxStart ix)
      (columnCount ixMin nx sxStart sxEnd ix) k) colAcc

/-- Columns from `n` on have not been added to yet. -/
theorem boxAccumColumn_loop (n : Nat) (hk : k < 4) (ix : Int) :
    (forLoop n (boxAccumColumn srow ixMin nx sxStart sxEnd) colAcc) (4 * ix + k) =
      if 0 ≤ ix ∧ ix < n then
        colAcc (4 * ix + k) + rowSum srow (columnStart ixMin nx sxStart ix.toNat)
          (columnCount ixMin nx sxStart sxEnd ix.toNat) k
      else colAcc (4 * ix + k) := by
  induction n with
  | zero =>
    rw [if_neg (by omega)]
    rfl
  | succ n ih =>
    rw [forLoop, boxAccumColumn_eq]
    by_cases hix : ix = n
    · subst hix
      rw [fill_in (by omega) (by omega), show 4 * (n : Int) + k - 4 * (n : Int) = k by omega,
        Int.toNat_natCast, ih, if_neg (by omega), if_pos (by omega), Int.toNat_natCast]
    · rw [fill_out (by omega), ih]
      by_cases hin : 0 ≤ ix ∧ ix < n
      · rw [if_pos hin, if_pos (by omega)]
      · rw [if_neg hin, if_neg (by omega)]

/-- **A source row is added** to the cells of every column. -/
theorem boxAccumRow_cell (v : Window) (hk : k < 4) (ix : Int) :
    (boxAccumRow srow v.ixMin nx sxStart sxEnd v.subW colAcc) (4 * ix + k) =
      accumRow nx v sxStart sxEnd srow (fun ix k => colAcc (4 * ix + k)) ix k := by
  rw [boxAccumRow, boxAccumColumn_loop _ hk, accumRow]
  by_cases hix : 0 ≤ ix ∧ ix < v.subW
  · rw [if_pos (by omega), if_pos hix]
    simp only [columnStart, columnCount, Int.toNat_of_nonneg hix.1]
  · rw [if_neg (by omega), if_neg hix]

/-- **The output row** is made from the sums, and leaves them zero. -/
theorem boxOutputRow_eq (out colAcc : Int → UInt32) (subW : Int) (recip : UInt32) :
    boxOutputRow out colAcc subW recip =
      (fill out 0 subW.toNat fun x => packBox recip.toNat fun k => colAcc (4 * x + k),
        fill colAcc 0 (4 * subW.toNat) fun _ => 0) := by
  unfold boxOutputRow
  induction subW.toNat with
  | zero =>
    refine Prod.ext ?_ ?_
    · funext x
      dsimp only
      rw [fill_out (by omega)]
      rfl
    · funext a
      dsimp only
      rw [fill_out (by omega)]
      rfl
  | succ n ih =>
    rw [forLoop, ih, boxOutputColumn]
    -- the sums of column `n` are still there
    have hsums : ∀ k : Nat, fill colAcc 0 (4 * (n : Int)) (fun _ => 0) (4 * (n : Int) + k) =
        colAcc (4 * (n : Int) + k) := fun k => fill_out (by omega)
    simp only [hsums]
    refine Prod.ext ?_ ?_
    · have hcells := update_fill out 0 (fun x => packBox recip.toNat fun k => colAcc (4 * x + k)) n
      rw [Int.zero_add] at hcells
      exact hcells
    · have hcells := fill_fill colAcc 0 (fun _ => 0) (show 0 ≤ 4 * (n : Int) by omega)
        (show (0 : Int) ≤ 4 by omega)
      rw [Int.zero_add] at hcells
      exact hcells

end Loops

/-! ## The SSE2 code -/

section Sse2

variable {srow : Int → UInt32} {c recip : UInt32} {k : Nat}

theorem lane_pixelLanes (hk : k < 4) :
    lane 32 (pixelLanes c) k = ((c >>> shiftOf k) &&& byteMask).toBitVec := by
  have lo8 : Unpacks 8 (unpacklo 8) 0 := unpacks_lo (by decide)
  have lo16 : Unpacks 16 (unpacklo 16) 0 := unpacks_lo (by decide)
  apply BitVec.eq_of_toNat_eq
  change _ = channelOf c k
  have hhalves : (lane 32 (pixelLanes c) k).toNat = _ := toNat_lane_append 16 (pixelLanes c) k
  rw [hhalves, pixelLanes, lo16.odd (by omega), lo16.even (by omega), lane_zero,
    lo8.toNat_bytes (by omega), toNat_byte_cvtsi32, channelOf_eq c hk,
    show 0 + (0 + k) = k by omega]
  simp

/-- A lane of the sum over a part of a row. -/
theorem lane_boxHSum (hk : k < 4) (x0 : Int) (n : Nat) :
    lane 32 (boxHSum srow x0 n) k = (rowSum srow x0 n k).toBitVec := by
  unfold boxHSum rowSum
  induction n with
  | zero => exact lane_zero 32 k
  | succ n ih => rw [forLoop, forLoop, lane_addEpi32 hk, ih, lane_pixelLanes hk, UInt32.toBitVec_add]

theorem boxAccumColumnSse2_eq (srow : Int → UInt32) (ixMin nx sxStart sxEnd : Int) :
    boxAccumColumnSse2 srow ixMin nx sxStart sxEnd = boxAccumColumn srow ixMin nx sxStart sxEnd := by
  funext ix colAcc a
  rw [boxAccumColumn_eq, boxAccumColumnSse2, storeuSi128]
  by_cases hin : 4 * (ix : Int) ≤ a ∧ a < 4 * (ix : Int) + 4
  · rw [fill_in hin.1 hin.2, fill_in hin.1 hin.2]
    obtain ⟨k, hk, rfl⟩ : ∃ k : Nat, k < 4 ∧ a = 4 * (ix : Int) + k :=
      ⟨(a - 4 * (ix : Int)).toNat, by omega, by omega⟩
    rw [show 4 * (ix : Int) + k - 4 * (ix : Int) = k by omega, Int.toNat_natCast, lane_addEpi32 hk,
      lane_loaduSi128 hk, lane_boxHSum hk]
    rfl
  · rw [fill_out (by omega), fill_out (by omega)]

/-- The lower half of a 64-bit product of a sum and the reciprocal, shifted right. -/
theorem ofBitVec_lane_product {x : M128} {s : UInt32} {i : Nat} (hi : i < 2)
    (hs : lane 32 x (2 * i) = s.toBitVec) (recip : UInt32) :
    UInt32.ofBitVec (lane 32 (srliEpi64 (mulEpu32 x (set1Epi32 recip.toBitVec)) 22) (2 * i)) =
      UInt32.ofNat (s.toNat * recip.toNat / 4194304) := by
  apply UInt32.toNat_inj.mp
  rw [UInt32.toNat_ofNat']
  change (lane 32 _ (2 * i)).toNat = _
  rw [toNat_lane_mulEpu32 hi, hs, lane_set1Epi32 (by omega)]
  rfl

theorem boxOutputColumnSse2_eq (recip : UInt32) :
    boxOutputColumnSse2 recip = boxOutputColumn recip := by
  funext ix s
  have hsum : ∀ k < 4, lane 32 (loaduSi128 s.2 (4 * (ix : Int))) k =
      (s.2 (4 * (ix : Int) + k)).toBitVec := fun k hk => lane_loaduSi128 hk
  have hnext : ∀ i < 3, lane 32 (srliSi128 (loaduSi128 s.2 (4 * (ix : Int))) 4) i =
      (s.2 (4 * (ix : Int) + (i + 1 : Nat))).toBitVec := by
    intro i hi
    rw [← hsum (i + 1) (by omega)]
    exact lane_srliSi128 _ 1 i
  have h0 := ofBitVec_lane_product (i := 0) (by omega) (hsum 0 (by omega)) recip
  have h1 := ofBitVec_lane_product (i := 0) (by omega) (hnext 0 (by omega)) recip
  have h2 := ofBitVec_lane_product (i := 1) (by omega) (hsum 2 (by omega)) recip
  have h3 := ofBitVec_lane_product (i := 1) (by omega) (hnext 2 (by omega)) recip
  have hupper : ∀ x : M128, cvtsi128Si32 (srliSi128 x 8) = lane 32 x (2 * 1) :=
    fun x => lane_srliSi128 x 2 0
  have hzero : storeuSi128 s.2 (4 * (ix : Int)) 0 = fill s.2 (4 * (ix : Int)) 4 fun _ => 0 := by
    unfold storeuSi128
    congr 1
    funext k
    rw [lane_zero]
    rfl
  unfold boxOutputColumnSse2 boxOutputColumn packBox
  simp only [hupper, hzero, h2, h3]
  rw [cvtsi128Si32, cvtsi128Si32, show 0 = 2 * 0 from rfl, h0, h1]

/-- **The block** is its rows added one by one, and then the output row. -/
theorem boxDownsampleBlockSse2_eq (out colAcc : Int → UInt32) (srcLines : Nat → Int → UInt32)
    (ny ixMin nx sxStart sxEnd subW : Int) (recip : UInt32) :
    boxDownsampleBlockSse2 out colAcc srcLines ny ixMin nx sxStart sxEnd subW recip =
      boxOutputRow out
        (forLoop ny.toNat (fun r => boxAccumRow (srcLines r) ixMin nx sxStart sxEnd subW) colAcc)
        subW recip := by
  unfold boxDownsampleBlockSse2 boxOutputRowSse2 boxOutputRow boxAccumRow
  simp only [boxAccumColumnSse2_eq, boxOutputColumnSse2_eq]

end Sse2

section Block

variable {src : Pixmap} {nx ny : Int} {v : Window}

/-- The cells of a column, after the first rows of a block. -/
theorem boxAccumRows_cell (hv : v.In src nx ny) {ix : Int} (h0 : 0 ≤ ix) (h1 : ix < v.subW)
    (iy : Int) (rows : Nat) {k : Nat} (hk : k < 4) :
    (forLoop rows (fun r => boxAccumRow (fun x => src.card x (iy * ny + r)) v.ixMin nx
      (v.ixMin * nx) ((v.ixMax + 1) * nx) v.subW) fun _ => 0) (4 * ix + k) =
      blockSum src nx ny (v.ixMin + ix) iy rows k := by
  induction rows with
  | zero => rfl
  | succ r ih =>
    rw [forLoop, boxAccumRow_cell v hk, accumRow_eq hv h0 h1, ih]
    rfl

/-- **A block of the image** becomes the pixels that `boxFilter` makes of it. -/
theorem boxDownsampleBlockSse2_boxAt (hv : v.In src nx ny) {ix : Int} (h0 : 0 ≤ ix)
    (h1 : ix < v.subW) (iy : Int) (out : Int → UInt32) :
    (boxDownsampleBlockSse2 out (fun _ => 0) (fun r x => src.card x (iy * ny + r)) ny v.ixMin nx
      (v.ixMin * nx) ((v.ixMax + 1) * nx) v.subW (UInt32.ofNat (4194304 / (nx * ny).toNat))).1 ix =
      boxAt src nx ny (v.ixMin + ix) iy := by
  have hle : 4194304 / (nx * ny).toNat ≤ 4194304 := Nat.div_le_self _ _
  have hrecip : (UInt32.ofNat (4194304 / (nx * ny).toNat)).toNat = 4194304 / (nx * ny).toNat := by
    rw [UInt32.toNat_ofNat', Nat.mod_eq_of_lt (Nat.lt_of_le_of_lt hle (by omega))]
  have hcell := fun k (hk : k < 4) => boxAccumRows_cell hv h0 h1 iy ny.toNat hk
  rw [boxDownsampleBlockSse2_eq, boxOutputRow_eq]
  dsimp only
  rw [fill_in h0 (by omega), hrecip, boxAt, Int.sub_zero]
  simp only [packBox, hcell 0 (by omega), hcell 1 (by omega), hcell 2 (by omega), hcell 3 (by omega)]

end Block

/-- **The SSE2 routines are their loops.** The blend of six rows, for all rows and weights of 16
bits; the blend with a colour, the two halves of which `BlendColor` has masked; and the box
prefilter of a block of rows, which leaves the sums zero. -/
theorem simd_rows :
    (∀ (rows : Taps (Int → UInt32)) (weights : Taps Int16) (w : Int) (out : Int → UInt32),
      blendVert6TapSse2 rows weights w out = lanczos3BlendVert rows weights w out) ∧
    (∀ (c₁ c₂ : UInt32) (w : Int) (pixels : Int → UInt32),
      blendColorRowSse2 (c₁ &&& rbMask) (c₂ &&& rbMask) w pixels =
        blendColorRowDefault (c₁ &&& rbMask) (c₂ &&& rbMask) w pixels) ∧
    ∀ (out colAcc : Int → UInt32) (srcLines : Nat → Int → UInt32)
      (ny ixMin nx sxStart sxEnd subW : Int) (recip : UInt32),
      let rows := forLoop ny.toNat
        (fun r => boxAccumRow (srcLines r) ixMin nx sxStart sxEnd subW) colAcc
      let block := boxDownsampleBlockSse2 out colAcc srcLines ny ixMin nx sxStart sxEnd subW recip
      block = boxOutputRow out rows subW recip ∧
        ∀ a, 0 ≤ a → a < 4 * subW → block.2 a = 0 := by
  refine ⟨blendVert6TapSse2_eq, blendColorRowSse2_eq, ?_⟩
  intro out colAcc srcLines ny ixMin nx sxStart sxEnd subW recip rows block
  have hblock : block = boxOutputRow out rows subW recip :=
    boxDownsampleBlockSse2_eq out colAcc srcLines ny ixMin nx sxStart sxEnd subW recip
  refine ⟨hblock, fun a h0 h => ?_⟩
  rw [hblock, boxOutputRow_eq]
  dsimp only
  rw [fill_in (by omega) (by omega)]

end ObZrv
