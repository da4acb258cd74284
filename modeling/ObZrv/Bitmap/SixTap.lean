import ObZrv.Bitmap.Pixel

/-!
# Bitmap.SixTap

`_scalecrop_6tap` of `BasicBitmap.cpp`, with an opaque colour and without blending, as
`ScaleCropAda` calls it: the rows are blended from a ring of six source rows, and each row is
resampled from a buffer with its edges repeated.

The buffer `srcrow` and the output `cache` lie in one block of memory, `cache` right behind
`srcrow`; a tap behind the right padding reads from `cache`.

* `sixTapAt`            : the pixel of a position of the scaled image.
* `scaleCrop6tap_pixel` : every pixel of the crop is written, and it is that pixel if no tap with a
  weight lies behind the padding.
-/

namespace ObZrv

open Lib

/-- `PrecomputedMapping`. -/
structure Mapping where
  incx : Int
  incy : Int
  startx : Int
  starty : Int
  offx : Int
  offy : Int

/-- Where the cropped image goes, and the crop rectangle on the scaled image. -/
structure Crop where
  dx : Int
  dy : Int
  crx : Int
  cry : Int
  crw : Int
  crh : Int
deriving DecidableEq, Repr

/-- The clipping against a destination of `w` times `h`. -/
def Crop.clip (c : Crop) (w h : Int) : Crop :=
  let c := if c.dx < 0 then { c with crx := c.crx + -c.dx, crw := c.crw + c.dx, dx := 0 } else c
  let c := if c.dy < 0 then { c with cry := c.cry + -c.dy, crh := c.crh + c.dy, dy := 0 } else c
  let c := if c.dx + c.crw > w then { c with crw := w - c.dx } else c
  if c.dy + c.crh > h then { c with crh := h - c.dy } else c

/-- The tests behind the clipping. -/
def Crop.Rejected (c : Crop) (scw sch : Int) : Prop :=
  c.crh ≤ 0 ∨ c.crw ≤ 0 ∨ c.crx < 0 ∨ c.cry < 0 ∨ c.crx + c.crw > scw ∨ c.cry + c.crh > sch

instance (c : Crop) (scw sch : Int) : Decidable (c.Rejected scw sch) :=
  inferInstanceAs (Decidable (_ ∨ _))

/-- The step between two positions of the scaled image and the offset of the first, on an axis with
`n` source pixels. -/
def stepOf (n sc : Int) : Int := n * 65536 / sc
def offsetOf (n sc : Int) : Int := if sc = n then 0 else 0x8000

section

variable (src : Pixmap) (wtab : Nat → Taps Int)

/-- The six source rows for row `yi`, in place of those for row `lastYi`. -/
def fetchRing (sx yi lastYi : Int) (ring : Nat → Int → UInt32) : Nat → Int → UInt32 :=
  let row (k : Nat) : Int → UInt32 := fun i => src.card (sx + i) (clamp src.h (yi - 2 + k))
  let shift := yi - lastYi
  if shift ≤ 0 ∧ lastYi ≥ 0 then ring
  else if shift ≥ 1 ∧ shift ≤ 5 ∧ lastYi ≥ 0 then
    fun k => if k < 6 - shift.toNat then ring ((k + shift.toNat) % 6) else row k
  else row

/-- `_resample_horiz_6tap` within one block of memory: `w` pixels to `out`, from the row at `0`. -/
def resampleHoriz6tap (out : Int) (w : Nat) (x dx : Int) (mem : Int → UInt32) : Int → UInt32 :=
  forLoop w (fun i mem =>
    let xi := x + i * dx
    Function.update mem (out + i) (blend6 (wtab (frac8 xi).toNat) (tapsAt mem (whole xi)))) mem

/-- The first of the `sw` pixels from cell 2 on is repeated to the left, the last to the right. -/
def padEdges (sw : Int) (mem : Int → UInt32) : Int → UInt32 :=
  let mem := fill mem 0 2 fun _ => mem 2
  fill mem (sw + 2) 3 fun _ => mem (sw + 1)

/-- The row buffer once the six rows have been blended and the edges repeated. -/
def blendRow (sw cury : Int) (ring : Nat → Int → UInt32) (mem : Int → UInt32) : Int → UInt32 :=
  let weights := wtab (frac8 cury).toNat
  let mem := fill mem 2 sw fun i =>
    blend6 weights ⟨ring 0 i, ring 1 i, ring 2 i, ring 3 i, ring 4 i, ring 5 i⟩
  let mem := padEdges sw mem
  if src.fmt = .X8R8G8B8 then fill mem 0 (sw + 5) fun i => setAlpha (mem i) else mem

structure SixTapState where
  canvas : Canvas
  mem : Int → UInt32
  ring : Nat → Int → UInt32
  lastYi : Int

/-- Row `j` of the crop. -/
def sixTapRow (c : Crop) (sx sw localStartx incx starty incy : Int) (j : Nat) (s : SixTapState) :
    SixTapState :=
  let cury := starty + j * incy
  let yi := whole cury
  let ring := fetchRing src sx yi s.lastYi s.ring
  let mem := blendRow src wtab sw cury ring s.mem
  let mem := resampleHoriz6tap wtab (sw + 5) c.crw.toNat localStartx incx mem
  let cache := fun i => mem (sw + 5 + i)
  let canvas :=
    if s.canvas.fmt.bpp = 32 then s.canvas.setRow (c.dy + j) c.dx c.crw cache
    else s.canvas.store (c.dy + j) c.dx c.crw cache
  { canvas, mem, ring, lastYi := yi }

/-- `_scalecrop_6tap`; `junk` is what the buffer holds when it is allocated. -/
def scaleCrop6tap (dst : Canvas) (scw sch : Int) (crop : Crop) (precomputed : Option Mapping)
    (junk : Int → UInt32) : Canvas :=
  if scw ≤ 0 ∨ sch ≤ 0 ∨ crop.crw ≤ 0 ∨ crop.crh ≤ 0 then dst
  else
    let c := crop.clip dst.w dst.h
    if c.Rejected scw sch then dst
    else
      let m := precomputed.getD
        { incx := stepOf src.w scw
          incy := stepOf src.h sch
          startx := offsetOf src.w scw + c.crx * stepOf src.w scw
          starty := offsetOf src.h sch + c.cry * stepOf src.h sch
          offx := offsetOf src.w scw
          offy := offsetOf src.h sch }
      let idxMin := whole m.startx - 2
      let idxMax := whole (m.startx + (c.crw - 1) * m.incx) + 3
      let sx := if idxMin < 0 then 0 else idxMin
      let sxEnd := if idxMax ≥ src.w then src.w - 1 else idxMax
      let sw := sxEnd - sx + 1
      if sw ≤ 0 then dst
      else
        let localStartx := m.startx - (sx - 2) * 65536
        (forLoop c.crh.toNat (sixTapRow src wtab c sx sw localStartx m.incx m.starty m.incy)
          { canvas := dst, mem := junk, ring := fun _ => junk, lastYi := -100 }).canvas

/-! ## The pixel of a position -/

/-- The blended source column `c` at height `y`. -/
def columnAt (y c : Int) : UInt32 :=
  let v := blend6 (wtab (frac8 y).toNat) (tapsAt (fun r => src.card c (clamp src.h r)) (whole y))
  if src.fmt = .X8R8G8B8 then setAlpha v else v

/-- The pixel of the scaled image at the source coordinates `x` and `y`. -/
def sixTapAt (x y : Int) : UInt32 :=
  blend6 (wtab (frac8 x).toNat) (tapsAt (fun c => columnAt src wtab y (clamp src.w c)) (whole x))

end

/-! ## Coordinates -/

/-- The source coordinate of position `X` on an axis. -/
def coordAt (n sc X : Int) : Int := offsetOf n sc + X * stepOf n sc

section Coordinates

variable {n sc X Y : Int}

theorem stepOf_nonneg (hn : 1 ≤ n) (hs : 1 ≤ sc) : 0 ≤ stepOf n sc :=
  Int.ediv_nonneg (by omega) (by omega)

theorem offsetOf_bounds (n sc : Int) : 0 ≤ offsetOf n sc ∧ offsetOf n sc ≤ 0x8000 := by
  unfold offsetOf
  split <;> omega

theorem coordAt_mono (hn : 1 ≤ n) (hs : 1 ≤ sc) (h : X ≤ Y) : coordAt n sc X ≤ coordAt n sc Y :=
  Int.add_le_add_left (Int.mul_le_mul_of_nonneg_right h (stepOf_nonneg hn hs)) _

/-- The last position lies at most half a pixel behind the last source pixel. -/
theorem coordAt_le (hn : 1 ≤ n) (hs : 1 ≤ sc) (h : X ≤ sc) : coordAt n sc X ≤ n * 65536 + 0x8000 := by
  have hstep := stepOf_nonneg hn hs
  have hmul : X * stepOf n sc ≤ sc * stepOf n sc := Int.mul_le_mul_of_nonneg_right h hstep
  have hdiv : sc * stepOf n sc ≤ n * 65536 := Int.mul_ediv_self_le (by omega)
  have hoff := (offsetOf_bounds n sc).2
  unfold coordAt
  omega

theorem coordAt_nonneg (hn : 1 ≤ n) (hs : 1 ≤ sc) (h : 0 ≤ X) : 0 ≤ coordAt n sc X :=
  Int.add_nonneg (offsetOf_bounds n sc).1 (Int.mul_nonneg h (stepOf_nonneg hn hs))

theorem whole_mono {a b : Int} (h : a ≤ b) : whole a ≤ whole b := Int.ediv_le_ediv (by omega) h

theorem whole_coordAt_bounds (hn : 1 ≤ n) (hs : 1 ≤ sc) (h0 : 0 ≤ X) (h : X < sc) :
    0 ≤ whole (coordAt n sc X) ∧ whole (coordAt n sc X) ≤ n := by
  have hlo := coordAt_nonneg hn hs h0
  have hhi := coordAt_le hn hs (Int.le_of_lt h)
  unfold whole
  omega

/-- Moving by whole pixels changes no fraction. -/
theorem whole_sub (a k : Int) : whole (a - k * 65536) = whole a - k := by
  unfold whole
  omega

theorem frac8_sub (a k : Int) : frac8 (a - k * 65536) = frac8 a := by
  unfold frac8
  omega

theorem frac_sub (a k : Int) : frac (a - k * 65536) = frac a := by
  unfold frac
  omega

theorem coordAt_add (n sc X i : Int) : coordAt n sc X + i * stepOf n sc = coordAt n sc (X + i) := by
  unfold coordAt
  rw [Int.add_mul, Int.add_assoc]

end Coordinates

/-- A range of columns, cut at the image: clamped to the range is clamped to the image. -/
theorem clamp_range {n lo hi c sx sxEnd : Int} (hsx : sx = if lo < 0 then 0 else lo)
    (hend : sxEnd = if hi ≥ n then n - 1 else hi) (hlo : lo ≤ c) (hhi : c ≤ hi) :
    sx + clamp (sxEnd - sx + 1) (c - sx) = clamp n c := by
  subst hsx hend
  unfold clamp
  split_ifs <;> omega

/-! ## One row -/

section Row

variable {src : Pixmap} {wtab : Nat → Taps Int}

/-- The ring holds the rows for `lastYi`, or nothing yet. -/
def RingHolds (src : Pixmap) (sx lastYi : Int) (ring : Nat → Int → UInt32) : Prop :=
  0 ≤ lastYi → ∀ k < 6, ∀ i, ring k i = src.card (sx + i) (clamp src.h (lastYi - 2 + k))

/-- Whether rows are kept or fetched, the ring holds those for `yi`. -/
theorem fetchRing_holds {sx yi lastYi : Int} {ring : Nat → Int → UInt32}
    (h : RingHolds src sx lastYi ring) (hle : lastYi ≤ yi) :
    RingHolds src sx yi (fetchRing src sx yi lastYi ring) := by
  intro hyi k hk i
  unfold fetchRing
  simp only
  split
  · rename_i hc
    have heq : lastYi = yi := by omega
    rw [← heq]
    exact h hc.2 k hk i
  · split
    · rename_i hc
      dsimp only
      by_cases hkeep : k < 6 - (yi - lastYi).toNat
      · have hmod : (k + (yi - lastYi).toNat) % 6 = k + (yi - lastYi).toNat :=
          Nat.mod_eq_of_lt (by omega)
        rw [if_pos hkeep, hmod, h hc.2.2 _ (by omega)]
        congr 2
        push_cast
        omega
      · rw [if_neg hkeep]
    · rfl

theorem blend6_congr {w : Taps Int} {p q : Taps UInt32} (h0 : p.t0 = q.t0) (h1 : p.t1 = q.t1)
    (h2 : p.t2 = q.t2) (h3 : p.t3 = q.t3) (h4 : p.t4 = q.t4) (h5 : w.t5 = 0 ∨ p.t5 = q.t5) :
    blend6 w p = blend6 w q := by
  rcases p with ⟨p0, p1, p2, p3, p4, p5⟩
  simp only at h0 h1 h2 h3 h4 h5
  subst h0 h1 h2 h3 h4
  rcases h5 with hw | rfl
  · exact blend6_last hw q p5
  · rfl

/-- The taps of the pixel at `x` with a weight lie before `out`. -/
def TapsBefore (wtab : Nat → Taps Int) (out x : Int) : Prop :=
  whole x + 2 < out ∧ ((wtab (frac8 x).toNat).t5 = 0 ∨ whole x + 3 < out)

theorem blend6_taps {wtab : Nat → Taps Int} {out x : Int} (h : TapsBefore wtab out x)
    {f g : Int → UInt32} (hfg : ∀ a, whole x - 2 ≤ a → a < out → f a = g a) :
    blend6 (wtab (frac8 x).toNat) (tapsAt f (whole x)) =
      blend6 (wtab (frac8 x).toNat) (tapsAt g (whole x)) := by
  obtain ⟨hlt, hlast⟩ := h
  refine blend6_congr ?_ ?_ ?_ ?_ ?_ (hlast.imp_right fun hl => ?_)
  all_goals exact hfg _ (by omega) (by omega)

/-- A pixel whose taps lie before the output is resampled from what the memory held before. -/
theorem resample_pixel {out : Int} {w : Nat} {x dx : Int} {mem : Int → UInt32} {i : Nat} (hi : i < w)
    (h : TapsBefore wtab out (x + i * dx)) :
    resampleHoriz6tap wtab out w x dx mem (out + i) =
      blend6 (wtab (frac8 (x + i * dx)).toNat) (tapsAt mem (whole (x + i * dx))) := by
  have hinv := forLoop_inv (n := w) (s := mem) (f := fun i mem =>
      Function.update mem (out + i)
        (blend6 (wtab (frac8 (x + i * dx)).toNat) (tapsAt mem (whole (x + i * dx)))))
    (fun k m => (∀ a < out, m a = mem a) ∧ ∀ i < k, TapsBefore wtab out (x + i * dx) →
      m (out + i) = blend6 (wtab (frac8 (x + i * dx)).toNat) (tapsAt mem (whole (x + i * dx))))
    ⟨fun _ _ => rfl, fun i hi => absurd hi (Nat.not_lt_zero i)⟩ ?_
  · exact hinv.2 i hi h
  · rintro k m - ⟨hrow, hdone⟩
    constructor
    · intro a ha
      rw [Function.update_of_ne (by omega)]
      exact hrow a ha
    · intro i hik htaps
      rcases Nat.lt_succ_iff_lt_or_eq.mp hik with hlt | rfl
      · rw [Function.update_of_ne (by omega)]
        exact hdone i hlt htaps
      · rw [Function.update_self]
        exact blend6_taps htaps fun a _ ha => hrow a ha

theorem padEdges_cell {sw t : Int} (mem : Int → UInt32) (hsw : 1 ≤ sw) (h0 : 0 ≤ t)
    (h1 : t < sw + 5) : padEdges sw mem t = mem (2 + clamp sw (t - 2)) := by
  unfold padEdges fill clamp
  simp only
  split_ifs <;> first | omega | (congr 1 <;> omega)

/-- The row buffer holds the blended columns, with the first and the last repeated. -/
theorem blendRow_cell {sw cury sx : Int} {ring : Nat → Int → UInt32} {mem : Int → UInt32}
    (hring : RingHolds src sx (whole cury) ring) (hyi : 0 ≤ whole cury) (hsw : 1 ≤ sw) {t : Int}
    (h0 : 0 ≤ t) (h1 : t < sw + 5) :
    blendRow src wtab sw cury ring mem t = columnAt src wtab cury (sx + clamp sw (t - 2)) := by
  have hrow : ∀ i, (⟨ring 0 i, ring 1 i, ring 2 i, ring 3 i, ring 4 i, ring 5 i⟩ : Taps UInt32) =
      tapsAt (fun r => src.card (sx + i) (clamp src.h r)) (whole cury) := by
    intro i
    have hr := hring hyi
    rw [hr 0 (by decide), hr 1 (by decide), hr 2 (by decide), hr 3 (by decide), hr 4 (by decide),
      hr 5 (by decide)]
    simp only [tapsAt, Taps.mk.injEq]
    refine ⟨?_, ?_, ?_, ?_, ?_, ?_⟩ <;> (congr 2; push_cast; omega)
  have hclamp : 0 ≤ clamp sw (t - 2) ∧ clamp sw (t - 2) < sw := by
    unfold clamp
    split_ifs <;> omega
  have hcell : 2 + clamp sw (t - 2) - 2 = clamp sw (t - 2) := by omega
  unfold blendRow columnAt
  simp only [hrow]
  split
  · rw [fill_in h0 (by omega), Int.sub_zero, padEdges_cell _ hsw h0 h1,
      fill_in (by omega) (by omega), hcell]
  · rw [padEdges_cell _ hsw h0 h1, fill_in (by omega) (by omega), hcell]

end Row

/-! ## All rows -/

/-- The crop rectangle lies in the scaled image, and what it gives in the destination. -/
structure Crop.Fits (c : Crop) (w h scw sch : Int) : Prop where
  dx : 0 ≤ c.dx
  dy : 0 ≤ c.dy
  right : c.dx + c.crw ≤ w
  bottom : c.dy + c.crh ≤ h
  crx : 0 ≤ c.crx
  cry : 0 ≤ c.cry
  crw : 1 ≤ c.crw
  crh : 1 ≤ c.crh
  inW : c.crx + c.crw ≤ scw
  inH : c.cry + c.crh ≤ sch

theorem Crop.Fits.one_le_scale {c : Crop} {w h scw sch : Int} (hf : c.Fits w h scw sch) :
    1 ≤ scw ∧ 1 ≤ sch := by
  obtain ⟨-, -, -, -, hcrx, hcry, hcrw, hcrh, hinW, hinH⟩ := hf
  omega

theorem Crop.Fits.column {c : Crop} {w h scw sch : Int} (hf : c.Fits w h scw sch) {i : Nat}
    (hi : i < c.crw.toNat) : 0 ≤ c.crx + i ∧ c.crx + i < scw := by
  have hcrx := hf.crx
  have hinW := hf.inW
  omega

theorem Crop.Fits.row {c : Crop} {w h scw sch : Int} (hf : c.Fits w h scw sch) {j : Nat}
    (hj : j < c.crh.toNat) : 0 ≤ c.cry + j ∧ c.cry + j < sch := by
  have hcry := hf.cry
  have hinH := hf.inH
  omega

theorem Crop.Fits.clip {c : Crop} {w h scw sch : Int} (hf : c.Fits w h scw sch) : c.clip w h = c := by
  obtain ⟨hdx, hdy, hr, hb, -⟩ := hf
  simp only [Crop.clip, if_neg (Int.not_lt.mpr hdx), if_neg (Int.not_lt.mpr hdy),
    if_neg (Int.not_lt.mpr hr), if_neg (Int.not_lt.mpr hb)]

theorem Crop.Fits.not_rejected {c : Crop} {w h scw sch : Int} (hf : c.Fits w h scw sch) :
    ¬ c.Rejected scw sch := by
  obtain ⟨-, -, -, -, hx, hy, hw, hh, hr, hb⟩ := hf
  unfold Crop.Rejected
  omega

theorem storeCard_narrow {fmt : Fmt} (h : fmt.bpp ≠ 32) (c : UInt32) : storeCard fmt c = c := by
  cases fmt with
  | A8R8G8B8 => rfl
  | A8B8G8R8 => exact absurd rfl h
  | X8R8G8B8 => exact absurd rfl h
  | R8G8B8 => rfl
  | R5G6B5 => rfl
  | A1R5G5B5 => rfl
  | X1R5G5B5 => rfl
  | A4R4G4B4 => rfl
  | G8 => rfl

section Rows

variable {src : Pixmap} {wtab : Nat → Taps Int} {c : Crop} {scw sch : Int} {w h : Int}

/-- At position `X` every tap with a weight lies in the image, as far as padding goes. -/
def TapsIn (src : Pixmap) (wtab : Nat → Taps Int) (scw X : Int) : Prop :=
  whole (coordAt src.w scw X) < src.w ∨ (wtab (frac8 (coordAt src.w scw X)).toNat).t5 = 0

/-- The first `j` rows of the crop have been written. -/
structure RowsDone (src : Pixmap) (wtab : Nat → Taps Int) (c : Crop) (scw sch sx : Int)
    (j : Nat) (s : SixTapState) : Prop where
  ring : RingHolds src sx s.lastYi s.ring
  last : s.lastYi ≤ whole (coordAt src.h sch (c.cry + j))
  px : ∀ j' < j, ∀ i : Nat, i < c.crw.toNat → ∃ v, s.canvas.px (c.dx + i) (c.dy + j') = some v ∧
    (TapsIn src wtab scw (c.crx + i) →
      v = sixTapAt src wtab (coordAt src.w scw (c.crx + i)) (coordAt src.h sch (c.cry + j')))

theorem setRow_px {canvas : Canvas} {y x n : Int} {f : Int → UInt32} {a b : Int} :
    (canvas.setRow y x n f).px a b =
      if b = y ∧ x ≤ a ∧ a < x + n then some (f (a - x)) else canvas.px a b := rfl

theorem sixTapRow_canvas (sx sw localStartx incx starty incy : Int) (j : Nat) (s : SixTapState) :
    (sixTapRow src wtab c sx sw localStartx incx starty incy j s).canvas =
      s.canvas.setRow (c.dy + j) c.dx c.crw fun k =>
        resampleHoriz6tap wtab (sw + 5) c.crw.toNat localStartx incx
          (blendRow src wtab sw (starty + j * incy)
            (fetchRing src sx (whole (starty + j * incy)) s.lastYi s.ring) s.mem) (sw + 5 + k) := by
  unfold sixTapRow
  simp only
  split
  · rfl
  · rename_i hbpp
    unfold Canvas.store
    simp only [storeCard_narrow hbpp]

/-- Row `j` is added to the rows before it, each pixel of which is as `P` says. -/
theorem rows_next {canvas : Canvas} {x y n : Int} {j : Nat} {f : Int → UInt32}
    {P : Nat → Nat → UInt32 → Prop}
    (hold : ∀ j' < j, ∀ i : Nat, i < n.toNat → ∃ v, canvas.px (x + i) (y + j') = some v ∧ P j' i v)
    (hnew : ∀ i : Nat, i < n.toNat → P j i (f i)) :
    ∀ j' < j + 1, ∀ i : Nat, i < n.toNat →
      ∃ v, (canvas.setRow (y + j) x n f).px (x + i) (y + j') = some v ∧ P j' i v := by
  intro j' hj' i hi
  rw [setRow_px]
  rcases Nat.lt_succ_iff_lt_or_eq.mp hj' with hlt | rfl
  · rw [if_neg (by omega)]
    exact hold j' hlt i hi
  · rw [if_pos ⟨rfl, by omega, by omega⟩, show x + (i : Int) - x = i by omega]
    exact ⟨_, rfl, hnew i hi⟩

/-- The pixel in column `i` of a row that is resampled from the blended columns `sx` and the `sw`
from it on. -/
theorem blendedRow_pixel {sx sw y : Int} {ring : Nat → Int → UInt32} {mem : Int → UInt32}
    (hf : c.Fits w h scw sch) (hw : 1 ≤ src.w) (hring : RingHolds src sx (whole y) ring)
    (hy : 0 ≤ whole y)
    (hsx : sx = if whole (coordAt src.w scw c.crx) - 2 < 0 then 0
      else whole (coordAt src.w scw c.crx) - 2)
    (hsw : sw = (if whole (coordAt src.w scw (c.crx + (c.crw - 1))) + 3 ≥ src.w then src.w - 1
      else whole (coordAt src.w scw (c.crx + (c.crw - 1))) + 3) - sx + 1) (hpos : 1 ≤ sw) {i : Nat}
    (hi : i < c.crw.toNat) (htaps : TapsIn src wtab scw (c.crx + i)) :
    resampleHoriz6tap wtab (sw + 5) c.crw.toNat (coordAt src.w scw c.crx - (sx - 2) * 65536)
        (stepOf src.w scw) (blendRow src wtab sw y ring mem) (sw + 5 + i) =
      sixTapAt src wtab (coordAt src.w scw (c.crx + i)) y := by
  have hscw := hf.one_le_scale.1
  have hcol := hf.column hi
  have hx : coordAt src.w scw c.crx - (sx - 2) * 65536 + i * stepOf src.w scw =
      coordAt src.w scw (c.crx + i) - (sx - 2) * 65536 := by
    rw [← coordAt_add]
    omega
  have hfirst : whole (coordAt src.w scw c.crx) ≤ whole (coordAt src.w scw (c.crx + i)) :=
    whole_mono (coordAt_mono hw hscw (by omega))
  have hlast : whole (coordAt src.w scw (c.crx + i)) ≤
      whole (coordAt src.w scw (c.crx + (c.crw - 1))) :=
    whole_mono (coordAt_mono hw hscw (by omega))
  have hbounds := whole_coordAt_bounds hw hscw hcol.1 hcol.2
  have htb : TapsBefore wtab (sw + 5)
      (coordAt src.w scw c.crx - (sx - 2) * 65536 + i * stepOf src.w scw) := by
    rw [hx, TapsBefore, whole_sub, frac8_sub]
    rcases htaps with hin | hzero
    · refine ⟨?_, .inr ?_⟩ <;> (subst hsx hsw; split_ifs <;> omega)
    · refine ⟨?_, .inl hzero⟩
      subst hsx hsw
      split_ifs <;> omega
  rw [resample_pixel hi htb, sixTapAt, hx, frac8_sub, whole_sub]
  rw [hx, TapsBefore, whole_sub, frac8_sub] at htb
  -- a cell of the buffer holds the column it stands for
  have hcell : ∀ u a, a = u + (sx - 2) → whole (coordAt src.w scw (c.crx + i)) - 2 ≤ a →
      a ≤ whole (coordAt src.w scw (c.crx + i)) + 3 → u < sw + 5 →
      blendRow src wtab sw y ring mem u = columnAt src wtab y (clamp src.w a) := by
    intro u a ha hlo hhi hu
    have hu0 : 0 ≤ u := by
      subst hsx
      split_ifs at ha <;> omega
    rw [blendRow_cell hring hy hpos hu0 hu]
    have hrange : sx + clamp sw (u - 2) = clamp src.w a := by
      rw [hsw, show u - 2 = a - sx by omega]
      exact clamp_range hsx rfl (by omega) (by omega)
    rw [hrange]
  refine blend6_congr ?_ ?_ ?_ ?_ ?_ (htb.2.imp_right fun hu => ?_)
  all_goals exact hcell _ _ (by omega) (by omega) (by omega) (by omega)

theorem RowsDone.next {sx sw : Int} {j : Nat} {s : SixTapState}
    (hs : RowsDone src wtab c scw sch sx j s) (hf : c.Fits w h scw sch) (hw : 1 ≤ src.w)
    (hh : 1 ≤ src.h) (hj : j < c.crh.toNat)
    (hsx : sx = if whole (coordAt src.w scw c.crx) - 2 < 0 then 0
      else whole (coordAt src.w scw c.crx) - 2)
    (hsw : sw = (if whole (coordAt src.w scw (c.crx + (c.crw - 1))) + 3 ≥ src.w then src.w - 1
      else whole (coordAt src.w scw (c.crx + (c.crw - 1))) + 3) - sx + 1) (hpos : 1 ≤ sw) :
    RowsDone src wtab c scw sch sx (j + 1)
      (sixTapRow src wtab c sx sw (coordAt src.w scw c.crx - (sx - 2) * 65536) (stepOf src.w scw)
        (coordAt src.h sch c.cry) (stepOf src.h sch) j s) := by
  have hsch := hf.one_le_scale.2
  have hrow := hf.row hj
  have hy : coordAt src.h sch c.cry + j * stepOf src.h sch = coordAt src.h sch (c.cry + j) :=
    coordAt_add _ _ _ _
  have hyi := (whole_coordAt_bounds hh hsch hrow.1 hrow.2).1
  have hring := fetchRing_holds hs.ring hs.last
  refine ⟨?_, ?_, ?_⟩
  · simp only [sixTapRow, hy]
    exact hring
  · simp only [sixTapRow, hy]
    exact whole_mono (coordAt_mono hh hsch (by push_cast; omega))
  · rw [sixTapRow_canvas]
    refine rows_next hs.px ?_
    intro i hi htaps
    simp only [hy]
    exact blendedRow_pixel hf hw hring hyi hsx hsw hpos hi htaps

/-- **Every pixel of the crop is written.** It is the pixel of its position if no tap with a weight
lies behind the padding. -/
theorem scaleCrop6tap_pixel {dst : Canvas} (hf : c.Fits dst.w dst.h scw sch) (hw : 1 ≤ src.w)
    (hh : 1 ≤ src.h) (junk : Int → UInt32) {i j : Nat} (hi : i < c.crw.toNat) (hj : j < c.crh.toNat) :
    ∃ v, (scaleCrop6tap src wtab dst scw sch c none junk).px (c.dx + i) (c.dy + j) = some v ∧
      (TapsIn src wtab scw (c.crx + i) →
        v = sixTapAt src wtab (coordAt src.w scw (c.crx + i)) (coordAt src.h sch (c.cry + j))) := by
  obtain ⟨hscw, hsch⟩ := hf.one_le_scale
  obtain ⟨-, -, -, -, hcrx, hcry, hcrw, hcrh, hinW, hinH⟩ := id hf
  have hb := whole_coordAt_bounds hw hscw (X := c.crx) hcrx (by omega)
  have hb' := whole_coordAt_bounds hw hscw (X := c.crx + (c.crw - 1)) (by omega) (by omega)
  have hfirst : offsetOf src.w scw + c.crx * stepOf src.w scw = coordAt src.w scw c.crx := rfl
  have hfirst' : offsetOf src.h sch + c.cry * stepOf src.h sch = coordAt src.h sch c.cry := rfl
  have hpos : 1 ≤ (if whole (coordAt src.w scw (c.crx + (c.crw - 1))) + 3 ≥ src.w then src.w - 1
      else whole (coordAt src.w scw (c.crx + (c.crw - 1))) + 3) -
      (if whole (coordAt src.w scw c.crx) - 2 < 0 then 0
        else whole (coordAt src.w scw c.crx) - 2) + 1 := by
    have hmono := whole_mono (coordAt_mono hw hscw (show c.crx ≤ c.crx + (c.crw - 1) by omega))
    split_ifs <;> omega
  unfold scaleCrop6tap
  rw [if_neg (by omega), hf.clip]
  simp only [if_neg hf.not_rejected, Option.getD_none, hfirst, hfirst', coordAt_add]
  rw [if_neg (Int.not_le.mpr (Int.lt_of_lt_of_le Int.zero_lt_one hpos))]
  have hdone := forLoop_inv (n := c.crh.toNat) (RowsDone src wtab c scw sch _)
    (s := { canvas := dst, mem := junk, ring := fun _ => junk, lastYi := -100 })
    ⟨fun h => absurd h (by decide : ¬ (0 : Int) ≤ -100), ?_, fun j' hj' => absurd hj' (Nat.not_lt_zero j')⟩
    fun j s hj hs => hs.next hf hw hh hj rfl rfl hpos
  · exact hdone.px j hj i hi
  · have hy := (whole_coordAt_bounds hh hsch (X := c.cry + (0 : Nat)) (by omega) (by omega)).1
    simp only
    omega

end Rows

end ObZrv
