import ObZrv.Bitmap.BoxFilter
import ObZrv.Bitmap.Bilinear
import ObZrv.Codec.Image

/-!
# Bitmap.ScaleCrop

`ScaleCrop` and `ScaleCropAda`, with an opaque colour and without blending, as `getBBitmap` of the
codecs calls them.

The sizes are below 32768 where the guard lets them pass, so no coordinate leaves 32 bits
(`coordAt_le`).

* `getBBitmap_complete_iff` : every pixel of the view is written exactly when the sizes, or'ed
  together, are below `0x7fff`.
* `getBBitmap_stable`       : two views have one pixel for a position, if neither reads behind its
  row buffer and neither takes a part of the prefiltered image for all of it.
-/

namespace ObZrv

open Lib

/-- The block of the prefilter. The `float` calculation of its sides is left out; it rounds
`0.6 * w / scw` for a `w` of at least 20, and is not below 1. -/
structure BlockSize (w h : Int) where
  nx : Int
  ny : Int
  nx_pos : 1 ≤ nx
  nx_le : nx ≤ w
  ny_pos : 1 ≤ ny
  ny_le : ny ≤ h

/-- The filters `ScaleCropAda` asks for. -/
inductive Filter where
  | BILINEAR
  | LANCZOS3
deriving DecidableEq, Repr

/-- What new memory holds: the prefiltered bitmap and the row buffer. -/
structure Memory where
  bitmap : Int → Int → UInt32
  buffer : Int → UInt32

/-- The `int` that `|` makes of four. -/
def orSizes (a b c d : Int) : Int :=
  (BitVec.ofInt 32 a ||| BitVec.ofInt 32 b ||| BitVec.ofInt 32 c ||| BitVec.ofInt 32 d).toInt

/-- `Blend` between bitmaps of one format, for a rectangle in both: a copy. -/
def Canvas.blend (dst : Canvas) (src : Pixmap) (c : Crop) : Canvas :=
  forLoop c.crh.toNat
    (fun j dst => dst.setRow (c.dy + j) c.dx c.crw fun i => src.card (c.crx + i) (c.cry + j)) dst

/-! ## The prefilter -/

/-- The size of the prefiltered image on an axis. -/
def interOf (n block : Int) : Int := if n / block < 1 then 1 else n / block

/-- The part of an axis of `n` prefiltered pixels that the crop needs, with a margin of 3. -/
def partMin (n sc cr : Int) : Int :=
  let i := whole (offsetOf n sc + cr * stepOf n sc) - 3
  if i < 0 then 0 else i

def partMax (n sc cr len : Int) : Int :=
  let i := whole (offsetOf n sc + (cr + len - 1) * stepOf n sc) + 1 + 3
  if i ≥ n then n - 1 else i

def windowOf (interW interH scw sch : Int) (c : Crop) : Window where
  ixMin := partMin interW scw c.crx
  ixMax := partMax interW scw c.crx c.crw
  iyMin := partMin interH sch c.cry
  iyMax := partMax interH sch c.cry c.crh

/-- The prefiltered image, of which `boxFilter` makes a window. -/
def boxImage (src : Pixmap) (b : BlockSize src.w src.h) : Pixmap where
  w := interOf src.w b.nx
  h := interOf src.h b.ny
  fmt := if src.fmt.bpp = 32 then src.fmt else .A8R8G8B8
  card := boxAt src b.nx b.ny

/-- The window for a crop. -/
def cropWindow (src : Pixmap) (b : BlockSize src.w src.h) (scw sch : Int) (c : Crop) : Window :=
  windowOf (interOf src.w b.nx) (interOf src.h b.ny) scw sch c

/-- The bitmap that is scaled, and the mapping onto it. -/
def prefilter (src : Pixmap) (blocks : Option (BlockSize src.w src.h)) (scw sch : Int) (c : Crop)
    (junk : Int → Int → UInt32) : Pixmap × Option Mapping :=
  match blocks with
  | none => (src, none)
  | some b =>
    let interW := interOf src.w b.nx
    let interH := interOf src.h b.ny
    let v := windowOf interW interH scw sch c
    if v.subW > 0 ∧ v.subH > 0 then
      (boxFilter src b.nx b.ny v junk,
        some
          { incx := stepOf interW scw
            incy := stepOf interH sch
            startx := offsetOf interW scw + c.crx * stepOf interW scw - v.ixMin * 65536
            starty := offsetOf interH sch + c.cry * stepOf interH sch - v.iyMin * 65536
            offx := offsetOf interW scw
            offy := offsetOf interH sch })
    else (src, none)

/-! ## ScaleCrop -/

section

variable (wtab : Nat → Taps Int)

def scaleCrop (src : Pixmap) (dst : Canvas) (scw sch : Int) (crop : Crop) (filter : Filter)
    (blocks : Option (BlockSize src.w src.h)) (junk : Memory) : Canvas :=
  if orSizes dst.w dst.h src.w src.h ≥ 0x7fff then dst
  else if scw ≤ 0 ∨ sch ≤ 0 ∨ crop.crw ≤ 0 ∨ crop.crh ≤ 0 then dst
  else if scw = src.w ∧ sch = src.h then dst.blend src crop
  else
    let c := crop.clip dst.w dst.h
    if c.Rejected scw sch then dst
    else
      let (src, mapping) := prefilter src blocks scw sch c junk.bitmap
      match filter with
      | .LANCZOS3 => scaleCrop6tap src wtab dst scw sch c mapping junk.buffer
      | .BILINEAR => scaleCropBilinear src dst scw sch c mapping junk.buffer

/-- The test of `ScaleCropAda`; the products are 32-bit. -/
def ExtremeDownscale (src : Pixmap) (scw sch : Int) : Prop :=
  src.w ≥ 20 ∧ src.h ≥ 20 ∧ src.w ≥ Int.bmod (scw * 3) 4294967296 ∧
    src.h ≥ Int.bmod (sch * 3) 4294967296

instance (src : Pixmap) (scw sch : Int) : Decidable (ExtremeDownscale src scw sch) :=
  inferInstanceAs (Decidable (_ ∧ _))

variable (blocks : (w h scw sch : Int) → Option (BlockSize w h))

/-- `ScaleCropAda`; `blocks` is what the prefilter decides on when both scales are compared with
`0.6f`. -/
def scaleCropAda (src : Pixmap) (dst : Canvas) (scw sch : Int) (crop : Crop) (junk : Memory) :
    Canvas :=
  if ExtremeDownscale src scw sch then
    scaleCrop wtab src dst scw sch crop .BILINEAR (blocks src.w src.h scw sch) junk
  else scaleCrop wtab src dst scw sch crop .LANCZOS3 none junk

/-- The crop that `getBBitmap` asks for. -/
def Rect.crop (r : Rect) : Crop where
  dx := 0
  dy := 0
  crx := r.left
  cry := r.top
  crw := r.right - r.left
  crh := r.bottom - r.top

/-- `getBBitmap` of both codecs. -/
def Pixmap.getBBitmap (fbitmap : Pixmap) (scaleSize : Size) (cropRect : Rect) (junk : Memory) :
    Canvas :=
  let outBitmap := Canvas.fresh (cropRect.right - cropRect.left) (cropRect.bottom - cropRect.top)
    fbitmap.fmt
  scaleCropAda wtab blocks fbitmap outBitmap scaleSize.cx scaleSize.cy cropRect.crop junk

end

/-- A rectangle that is not empty and lies in the scaled image. -/
structure Rect.InScaled (r : Rect) (scaleSize : Size) : Prop where
  left : 0 ≤ r.left
  top : 0 ≤ r.top
  width : r.left < r.right
  height : r.top < r.bottom
  right : r.right ≤ scaleSize.cx
  bottom : r.bottom ≤ scaleSize.cy

instance (r : Rect) (scaleSize : Size) : Decidable (r.InScaled scaleSize) :=
  decidable_of_iff (0 ≤ r.left ∧ 0 ≤ r.top ∧ r.left < r.right ∧ r.top < r.bottom ∧
      r.right ≤ scaleSize.cx ∧ r.bottom ≤ scaleSize.cy)
    ⟨fun ⟨hl, ht, hw, hh, hR, hB⟩ => ⟨hl, ht, hw, hh, hR, hB⟩,
      fun ⟨hl, ht, hw, hh, hR, hB⟩ => ⟨hl, ht, hw, hh, hR, hB⟩⟩

theorem Rect.InScaled.fits {r : Rect} {scaleSize : Size} (hr : r.InScaled scaleSize) :
    r.crop.Fits (r.right - r.left) (r.bottom - r.top) scaleSize.cx scaleSize.cy := by
  obtain ⟨hl, ht, hw, hh, hR, hB⟩ := hr
  constructor <;> (dsimp only [Rect.crop]; omega)

/-! ## The part for a crop -/

section Part

variable {n sc cr len : Int}

theorem interOf_bounds {block : Int} (hpos : 1 ≤ block) (hle : block ≤ n) :
    1 ≤ interOf n block ∧ interOf n block * block ≤ n := by
  have hdiv : 1 ≤ n / block := Int.le_ediv_of_mul_le (by omega) (by omega)
  rw [interOf, if_neg (by omega)]
  exact ⟨hdiv, Int.ediv_mul_le _ (by omega)⟩

/-- The margin is enough for both taps. -/
theorem partAxis_range (hn : 1 ≤ n) (hs : 1 ≤ sc) (h0 : 0 ≤ cr) (hlen : 1 ≤ len)
    (hin : cr + len ≤ sc) :
    PartAxis n (partMax n sc cr len - partMin n sc cr + 1) (partMin n sc cr)
      (whole (coordAt n sc cr)) (whole (coordAt n sc (cr + (len - 1)))) := by
  have hfirst := whole_coordAt_bounds hn hs h0 (show cr < sc by omega)
  have hlast := whole_coordAt_bounds hn hs (X := cr + (len - 1)) (by omega) (by omega)
  have hmono := whole_mono (coordAt_mono hn hs (show cr ≤ cr + (len - 1) by omega))
  have hmin : partMin n sc cr =
      if whole (coordAt n sc cr) - 3 < 0 then 0 else whole (coordAt n sc cr) - 3 := rfl
  have hmax : partMax n sc cr len =
      if whole (coordAt n sc (cr + (len - 1))) + 1 + 3 ≥ n then n - 1
      else whole (coordAt n sc (cr + (len - 1))) + 1 + 3 := by
    rw [← Int.add_sub_assoc]
    rfl
  refine ⟨?_, ?_, ?_, ?_, fun a halo hahi => clamp_range hmin hmax (by omega) (by omega)⟩
  all_goals rw [hmin]
  · rw [hmax]
    split_ifs <;> omega
  · split_ifs <;> omega
  · split_ifs <;> omega
  · rw [hmax]
    split_ifs <;> omega

end Part

section

variable {src : Pixmap} {scw sch : Int} {c : Crop} {w h : Int}

theorem cropWindow_in (b : BlockSize src.w src.h) (hf : c.Fits w h scw sch) :
    (cropWindow src b scw sch c).In src b.nx b.ny := by
  obtain ⟨-, -, -, -, hcrx, hcry, hcrw, hcrh, hinW, hinH⟩ := hf
  obtain ⟨hw1, hwle⟩ := interOf_bounds b.nx_pos b.nx_le
  obtain ⟨hh1, hhle⟩ := interOf_bounds b.ny_pos b.ny_le
  have hx := partAxis_range hw1 (show 1 ≤ scw by omega) hcrx hcrw hinW
  have hy := partAxis_range hh1 (show 1 ≤ sch by omega) hcry hcrh hinH
  have hxmax : partMax (interOf src.w b.nx) scw c.crx c.crw + 1 ≤ interOf src.w b.nx := by
    unfold partMax
    simp only
    split_ifs <;> omega
  have hymax : partMax (interOf src.h b.ny) sch c.cry c.crh + 1 ≤ interOf src.h b.ny := by
    unfold partMax
    simp only
    split_ifs <;> omega
  exact
    { nx_pos := b.nx_pos
      ny_pos := b.ny_pos
      ixMin := hx.nonneg
      iyMin := hy.nonneg
      ix := by have := hx.pos; dsimp only [cropWindow, windowOf]; omega
      iy := by have := hy.pos; dsimp only [cropWindow, windowOf]; omega
      right := Int.le_trans (Int.mul_le_mul_of_nonneg_right hxmax (by have := b.nx_pos; omega)) hwle
      bottom := Int.le_trans (Int.mul_le_mul_of_nonneg_right hymax (by have := b.ny_pos; omega)) hhle }

/-- The prefiltered bitmap is the part of the prefiltered image that the crop needs. -/
theorem boxFilter_part (b : BlockSize src.w src.h) (hf : c.Fits w h scw sch)
    (junk : Int → Int → UInt32) :
    PartOf (boxImage src b) (boxFilter src b.nx b.ny (cropWindow src b scw sch c) junk)
      (cropWindow src b scw sch c).ixMin (cropWindow src b scw sch c).iyMin c scw sch := by
  have hin := cropWindow_in b hf
  obtain ⟨-, -, -, -, hcrx, hcry, hcrw, hcrh, hinW, hinH⟩ := hf
  exact
    { fmt := rfl
      card := fun x y hx0 hx hy0 hy => boxFilter_card hin hx0 hx hy0 hy
      cols := partAxis_range (interOf_bounds b.nx_pos b.nx_le).1 (by omega) hcrx hcrw hinW
      rows := partAxis_range (interOf_bounds b.ny_pos b.ny_le).1 (by omega) hcry hcrh hinH }

/-! ## The pixels that are written -/

/-- What the bilinear branch scales: the source, or its prefiltered image. -/
def scaledImage (src : Pixmap) (blocks : Option (BlockSize src.w src.h)) : Pixmap :=
  match blocks with
  | none => src
  | some b => boxImage src b

/-- How wide the bitmap is that the branch gets for a crop. -/
def partWidth (src : Pixmap) (blocks : Option (BlockSize src.w src.h)) (scw sch : Int) (c : Crop) :
    Int :=
  match blocks with
  | none => src.w
  | some b => (cropWindow src b scw sch c).subW

theorem prefilter_some (b : BlockSize src.w src.h) (hf : c.Fits w h scw sch)
    (junk : Int → Int → UInt32) :
    prefilter src (some b) scw sch c junk =
      (boxFilter src b.nx b.ny (cropWindow src b scw sch c) junk,
        some (partMapping (boxImage src b) (cropWindow src b scw sch c).ixMin
          (cropWindow src b scw sch c).iyMin c scw sch)) := by
  have hp := boxFilter_part b hf junk
  exact if_pos ⟨Int.lt_of_lt_of_le Int.zero_lt_one hp.cols.pos,
    Int.lt_of_lt_of_le Int.zero_lt_one hp.rows.pos⟩

theorem blend_px (dst : Canvas) {i j : Nat} (hi : i < c.crw.toNat) (hj : j < c.crh.toNat) :
    (dst.blend src c).px (c.dx + i) (c.dy + j) = some (src.card (c.crx + i) (c.cry + j)) := by
  have hinv := forLoop_inv (n := c.crh.toNat) (s := dst)
    (f := fun (j : Nat) dst => dst.setRow (c.dy + j) c.dx c.crw
      fun i => src.card (c.crx + i) (c.cry + j))
    (fun k dst => ∀ j < k, dst.px (c.dx + i) (c.dy + j) = some (src.card (c.crx + i) (c.cry + j)))
    (fun j hj => absurd hj (Nat.not_lt_zero j)) ?_
  · exact hinv j hj
  · intro k dst hk hdone j hj
    rw [setRow_px]
    rcases Nat.lt_succ_iff_lt_or_eq.mp hj with hlt | rfl
    · rw [if_neg (by omega)]
      exact hdone j hlt
    · rw [if_pos ⟨rfl, by omega, by omega⟩, show c.dx + (i : Int) - c.dx = i by omega]

variable {wtab : Nat → Taps Int} {dst : Canvas} {junk : Memory}

/-- `ScaleCrop` behind its early returns. -/
theorem scaleCrop_eq {filter : Filter} {blocks : Option (BlockSize src.w src.h)}
    (hf : c.Fits dst.w dst.h scw sch) (hsize : orSizes dst.w dst.h src.w src.h < 0x7fff) :
    scaleCrop wtab src dst scw sch c filter blocks junk =
      if scw = src.w ∧ sch = src.h then dst.blend src c
      else
        match filter with
        | .LANCZOS3 => scaleCrop6tap (prefilter src blocks scw sch c junk.bitmap).1 wtab dst scw sch c
            (prefilter src blocks scw sch c junk.bitmap).2 junk.buffer
        | .BILINEAR => scaleCropBilinear (prefilter src blocks scw sch c junk.bitmap).1 dst scw sch c
            (prefilter src blocks scw sch c junk.bitmap).2 junk.buffer := by
  have ⟨_, _, _, _, hcrx, hcry, hcrw, hcrh, hinW, hinH⟩ := hf
  unfold scaleCrop
  rw [if_neg (Int.not_le.mpr hsize), if_neg (by omega), hf.clip]
  simp only [if_neg hf.not_rejected]

/-- The bilinear branch with or without the prefilter. -/
theorem scaleCrop_bilinear_pixel {blocks : Option (BlockSize src.w src.h)}
    (hf : c.Fits dst.w dst.h scw sch) (hsize : orSizes dst.w dst.h src.w src.h < 0x7fff)
    (hw : 1 ≤ src.w) (hh : 1 ≤ src.h) (hne : ¬(scw = src.w ∧ sch = src.h)) {i j : Nat}
    (hi : i < c.crw.toNat) (hj : j < c.crh.toNat) :
    ∃ v, (scaleCrop wtab src dst scw sch c .BILINEAR blocks junk).px (c.dx + i) (c.dy + j) = some v ∧
      ((partWidth src blocks scw sch c = scw → (scaledImage src blocks).w = scw) →
        v = (if partWidth src blocks scw sch c = scw then storeCard dst.fmt else id)
          (bilinearPixel (scaledImage src blocks) scw sch (c.crx + i) (c.cry + j))) := by
  rw [scaleCrop_eq hf hsize, if_neg hne]
  cases blocks with
  | none =>
    have ⟨_, _, _, _, hcrx, hcry, hcrw, hcrh, hinW, hinH⟩ := hf
    have hpart : PartOf src src 0 0 c scw sch :=
      { fmt := rfl
        card := fun x y _ _ _ _ => by rw [Int.zero_add, Int.zero_add]
        cols := .all hw (whole_coordAt_bounds hw (by omega) (by omega) (by omega)).1
          (whole_coordAt_bounds hw (by omega) (by omega) (by omega)).2
        rows := .all hh (whole_coordAt_bounds hh (by omega) (by omega) (by omega)).1
          (whole_coordAt_bounds hh (by omega) (by omega) (by omega)).2 }
    exact scaleCropBilinear_pixel hpart hf hw hh (.inr ⟨rfl, rfl, rfl, rfl⟩) _ hi hj
  | some b =>
    rw [prefilter_some b hf]
    exact scaleCropBilinear_pixel (boxFilter_part b hf _) hf (interOf_bounds b.nx_pos b.nx_le).1
      (interOf_bounds b.ny_pos b.ny_le).1 (.inl rfl) _ hi hj

end

/-! ## Views -/

section Views

variable (wtab : Nat → Taps Int) (blocks : (w h scw sch : Int) → Option (BlockSize w h))

/-- Neither crop reads with a weight behind its row buffer at column `X`, and neither gets a bitmap
that is as wide as the scaled image without being all of the prefiltered one. A copied row differs
from a resampled one by what `Store` does to a card, if that is anything. -/
def Undisturbed (src : Pixmap) (scw sch X : Int) (c c' : Crop) : Prop :=
  if scw = src.w ∧ sch = src.h then True
  else if ExtremeDownscale src scw sch then
    let bs := blocks src.w src.h scw sch
    (partWidth src bs scw sch c = scw → (scaledImage src bs).w = scw) ∧
      (partWidth src bs scw sch c' = scw → (scaledImage src bs).w = scw) ∧
      ((partWidth src bs scw sch c = scw ↔ partWidth src bs scw sch c' = scw) ∨
        src.fmt ≠ .A8B8G8R8 ∧ src.fmt ≠ .X8R8G8B8)
  else TapsIn src wtab scw X

/-- The pixel at `(X, Y)` of the scaled image, in a view of the crop `c`. -/
def viewPixel (src : Pixmap) (scw sch : Int) (c : Crop) (X Y : Int) : UInt32 :=
  if scw = src.w ∧ sch = src.h then src.card X Y
  else if ExtremeDownscale src scw sch then
    let bs := blocks src.w src.h scw sch
    (if partWidth src bs scw sch c = scw then storeCard src.fmt else id)
      (bilinearPixel (scaledImage src bs) scw sch X Y)
  else sixTapAt src wtab (coordAt src.w scw X) (coordAt src.h sch Y)

variable {wtab blocks} {src : Pixmap} {scw sch : Int} {c c' : Crop} {X : Int}

theorem Undisturbed.symm (hu : Undisturbed wtab blocks src scw sch X c c') :
    Undisturbed wtab blocks src scw sch X c' c := by
  unfold Undisturbed at hu ⊢
  split
  · exact trivial
  · rename_i hne
    rw [if_neg hne] at hu
    split
    · rename_i hex
      rw [if_pos hex] at hu
      exact ⟨hu.2.1, hu.1, hu.2.2.imp_left Iff.symm⟩
    · rename_i hex
      rw [if_neg hex] at hu
      exact hu

theorem storeCard_plain {fmt : Fmt} (h : fmt ≠ .A8B8G8R8 ∧ fmt ≠ .X8R8G8B8) :
    storeCard fmt = id := by
  cases fmt with
  | A8B8G8R8 => exact absurd rfl h.1
  | X8R8G8B8 => exact absurd rfl h.2
  | A8R8G8B8 => rfl
  | R8G8B8 => rfl
  | R5G6B5 => rfl
  | A1R5G5B5 => rfl
  | X1R5G5B5 => rfl
  | A4R4G4B4 => rfl
  | G8 => rfl

theorem Undisturbed.viewPixel_eq (hu : Undisturbed wtab blocks src scw sch X c c') (Y : Int) :
    viewPixel wtab blocks src scw sch c X Y = viewPixel wtab blocks src scw sch c' X Y := by
  unfold Undisturbed at hu
  unfold viewPixel
  split
  · rfl
  · rename_i hne
    rw [if_neg hne] at hu
    split
    · rename_i hex
      rw [if_pos hex] at hu
      rcases hu.2.2 with hiff | hplain
      · simp only [hiff]
      · simp only [storeCard_plain hplain, ite_self]
    · rfl

variable (wtab blocks)

/-- **A view is written.** An undisturbed pixel is the one of its position. -/
theorem scaleCropAda_pixel (dst : Canvas) (hf : c.Fits dst.w dst.h scw sch)
    (hsize : orSizes dst.w dst.h src.w src.h < 0x7fff) (hw : 1 ≤ src.w) (hh : 1 ≤ src.h)
    (hfmt : dst.fmt = src.fmt) (junk : Memory) (c' : Crop) {i j : Nat} (hi : i < c.crw.toNat)
    (hj : j < c.crh.toNat) :
    ∃ v, (scaleCropAda wtab blocks src dst scw sch c junk).px (c.dx + i) (c.dy + j) = some v ∧
      (Undisturbed wtab blocks src scw sch (c.crx + i) c c' →
        v = viewPixel wtab blocks src scw sch c (c.crx + i) (c.cry + j)) := by
  unfold scaleCropAda Undisturbed viewPixel
  by_cases hsame : scw = src.w ∧ sch = src.h
  · refine ⟨_, ?_, fun _ => rfl⟩
    rw [scaleCrop_eq hf hsize, scaleCrop_eq hf hsize, if_pos hsame, if_pos hsame, ite_self,
      blend_px dst hi hj, if_pos hsame]
  · simp only [if_neg hsame]
    split
    · refine (scaleCrop_bilinear_pixel hf hsize hw hh hsame hi hj).imp fun v hv =>
        ⟨hv.1, fun hu => ?_⟩
      rw [hv.2 hu.1, hfmt]
    · rw [scaleCrop_eq hf hsize, if_neg hsame]
      exact scaleCrop6tap_pixel hf hw hh junk.buffer hi hj

end Views

/-- The rows of `_lanczos3_wtab` for a whole pixel and for its quarters. -/
def quarterWeights : Nat → Taps Int
  | 0 => ⟨0, 0, 16384, 0, 0, 0⟩
  | 64 => ⟨493, -2183, 14627, 4440, -1114, 120⟩
  | 128 => ⟨400, -2226, 10017, 10017, -2226, 400⟩
  | _ => ⟨120, -1114, 4440, 14627, -2183, 493⟩

section Results

variable (wtab : Nat → Taps Int) (blocks : (w h scw sch : Int) → Option (BlockSize w h))

theorem getBBitmap_px {image : Pixmap} (hw : 1 ≤ image.w) (hh : 1 ≤ image.h) {scaleSize : Size}
    {r : Rect} (hr : r.InScaled scaleSize)
    (hsize : orSizes (r.right - r.left) (r.bottom - r.top) image.w image.h < 0x7fff)
    (junk : Memory) {X Y : Int} (hX : r.left ≤ X ∧ X < r.right ∧ r.top ≤ Y ∧ Y < r.bottom)
    (c' : Crop) :
    ∃ v, (image.getBBitmap wtab blocks scaleSize r junk).px (X - r.left) (Y - r.top) = some v ∧
      (Undisturbed wtab blocks image scaleSize.cx scaleSize.cy X r.crop c' →
        v = viewPixel wtab blocks image scaleSize.cx scaleSize.cy r.crop X Y) := by
  obtain ⟨i, hi⟩ := Int.eq_ofNat_of_zero_le (show 0 ≤ X - r.left by omega)
  obtain ⟨j, hj⟩ := Int.eq_ofNat_of_zero_le (show 0 ≤ Y - r.top by omega)
  obtain ⟨v, hv, hpixel⟩ := scaleCropAda_pixel wtab blocks
    (Canvas.fresh (r.right - r.left) (r.bottom - r.top) image.fmt) hr.fits hsize hw hh rfl junk c'
    (i := i) (j := j) (by dsimp only [Rect.crop]; omega) (by dsimp only [Rect.crop]; omega)
  have hXi : r.crop.crx + i = X := by
    dsimp only [Rect.crop]
    omega
  have hYj : r.crop.cry + j = Y := by
    dsimp only [Rect.crop]
    omega
  rw [hXi, hYj] at hpixel
  refine ⟨v, ?_, hpixel⟩
  rw [hi, hj]
  rw [show r.crop.dx = 0 from rfl, show r.crop.dy = 0 from rfl, Int.zero_add, Int.zero_add] at hv
  exact hv

theorem getBBitmap_guarded (image : Pixmap) (scaleSize : Size) (r : Rect) (junk : Memory)
    (hsize : orSizes (r.right - r.left) (r.bottom - r.top) image.w image.h ≥ 0x7fff) :
    image.getBBitmap wtab blocks scaleSize r junk =
      Canvas.fresh (r.right - r.left) (r.bottom - r.top) image.fmt := by
  have hret : ∀ filter bs, scaleCrop wtab image
      (Canvas.fresh (r.right - r.left) (r.bottom - r.top) image.fmt) scaleSize.cx scaleSize.cy r.crop
      filter bs junk = Canvas.fresh (r.right - r.left) (r.bottom - r.top) image.fmt :=
    fun filter bs => if_pos hsize
  simp only [Pixmap.getBBitmap, scaleCropAda, hret, ite_self]

/-- **Completeness.** Every pixel of a view is written exactly when the sizes of the view and of the
image, or'ed together, stay below the limit of the guard. -/
theorem getBBitmap_complete_iff (image : Pixmap) (hw : 1 ≤ image.w) (hh : 1 ≤ image.h)
    {scaleSize : Size} {cropRect : Rect} (hr : cropRect.InScaled scaleSize) (junk : Memory) :
    (∀ x y, 0 ≤ x → x < cropRect.right - cropRect.left → 0 ≤ y →
        y < cropRect.bottom - cropRect.top →
        (image.getBBitmap wtab blocks scaleSize cropRect junk).px x y ≠ none) ↔
      orSizes (cropRect.right - cropRect.left) (cropRect.bottom - cropRect.top) image.w image.h <
        0x7fff := by
  have hwidth := hr.width
  have hheight := hr.height
  constructor
  · intro hall
    by_contra hge
    refine hall 0 0 (by omega) (by omega) (by omega) (by omega) ?_
    rw [getBBitmap_guarded wtab blocks image scaleSize cropRect junk (Int.not_lt.mp hge)]
    rfl
  · intro hsize x y hx0 hx hy0 hy hnone
    obtain ⟨v, hv, -⟩ := getBBitmap_px wtab blocks hw hh hr hsize junk
      (X := cropRect.left + x) (Y := cropRect.top + y) (by omega) cropRect.crop
    rw [show cropRect.left + x - cropRect.left = x by omega,
      show cropRect.top + y - cropRect.top = y by omega] at hv
    exact Option.some_ne_none v (hv.symm.trans hnone)

theorem getBBitmap_complete_half :
    (Pixmap.getBBitmap quarterWeights (fun _ _ _ _ => none) ⟨4, 4, .A8R8G8B8, fun _ _ => 0⟩ ⟨4, 4⟩
      ⟨1, 0, 3, 4⟩ ⟨fun _ _ => 0, fun _ => 0⟩).px 1 3 ≠ none :=
  (getBBitmap_complete_iff _ _ ⟨4, 4, .A8R8G8B8, fun _ _ => 0⟩ (by decide) (by decide)
    (by decide : Rect.InScaled ⟨1, 0, 3, 4⟩ ⟨4, 4⟩) _).mpr (by decide) 1 3 (by decide) (by decide)
    (by decide) (by decide)

/-- `21845` and `10922` have no bit in common and fill 15 bits: no view of an image of this size is
drawn. -/
theorem getBBitmap_unset :
    ∃ (image : Pixmap) (scaleSize : Size) (cropRect : Rect), image.w = 21845 ∧ image.h = 10922 ∧
      cropRect.InScaled scaleSize ∧ cropRect.right - cropRect.left ≤ 32766 ∧
      cropRect.bottom - cropRect.top ≤ 32766 ∧
      ∀ wtab blocks junk, (image.getBBitmap wtab blocks scaleSize cropRect junk).px 0 0 = none := by
  refine ⟨⟨21845, 10922, .A8R8G8B8, fun _ _ => 0⟩, ⟨1920, 960⟩, ⟨0, 0, 1920, 960⟩, rfl, rfl,
    by decide, by decide, by decide, ?_⟩
  intro wtab blocks junk
  rw [getBBitmap_guarded wtab blocks _ _ _ junk (by decide)]
  rfl

/-- **Stability.** Two views of one scaled image have the same pixel for a position they both hold,
if it is undisturbed. -/
theorem getBBitmap_stable (image : Pixmap) (hw : 1 ≤ image.w) (hh : 1 ≤ image.h)
    {scaleSize : Size} {r r' : Rect} (hr : r.InScaled scaleSize) (hr' : r'.InScaled scaleSize)
    (hsize : orSizes (r.right - r.left) (r.bottom - r.top) image.w image.h < 0x7fff)
    (hsize' : orSizes (r'.right - r'.left) (r'.bottom - r'.top) image.w image.h < 0x7fff)
    (junk junk' : Memory) {X Y : Int} (hX : r.left ≤ X ∧ X < r.right ∧ r.top ≤ Y ∧ Y < r.bottom)
    (hX' : r'.left ≤ X ∧ X < r'.right ∧ r'.top ≤ Y ∧ Y < r'.bottom)
    (hu : Undisturbed wtab blocks image scaleSize.cx scaleSize.cy X r.crop r'.crop) :
    ∃ v, (image.getBBitmap wtab blocks scaleSize r junk).px (X - r.left) (Y - r.top) = some v ∧
      (image.getBBitmap wtab blocks scaleSize r' junk').px (X - r'.left) (Y - r'.top) = some v := by
  obtain ⟨v, hv, hpixel⟩ := getBBitmap_px wtab blocks hw hh hr hsize junk hX r'.crop
  obtain ⟨v', hv', hpixel'⟩ := getBBitmap_px wtab blocks hw hh hr' hsize' junk' hX' r.crop
  refine ⟨v, hv, ?_⟩
  rw [hv', hpixel hu, hpixel' hu.symm, hu.viewPixel_eq]

end Results

/-- Any two views of the image have the same pixel for a position they both hold. -/
def Stable (wtab : Nat → Taps Int) (blocks : (w h scw sch : Int) → Option (BlockSize w h))
    (image : Pixmap) : Prop :=
  ∀ (scaleSize : Size) (r r' : Rect) (junk junk' : Memory) (X Y : Int),
    r.InScaled scaleSize → r'.InScaled scaleSize →
    orSizes (r.right - r.left) (r.bottom - r.top) image.w image.h < 0x7fff →
    orSizes (r'.right - r'.left) (r'.bottom - r'.top) image.w image.h < 0x7fff →
    r.left ≤ X ∧ X < r.right ∧ r.top ≤ Y ∧ Y < r.bottom →
    r'.left ≤ X ∧ X < r'.right ∧ r'.top ≤ Y ∧ Y < r'.bottom →
    (image.getBBitmap wtab blocks scaleSize r junk).px (X - r.left) (Y - r.top) =
      (image.getBBitmap wtab blocks scaleSize r' junk').px (X - r'.left) (Y - r'.top)

/-- A black pixel next to a white one. -/
def blackWhite : Pixmap := ⟨2, 1, .A8R8G8B8, fun x _ => if x = 0 then 0xff000000 else 0xffffffff⟩

/-- Blocks of 2 times 2, as for an image of 20 times 20 scaled to 5 times 5. -/
def halfBlocks (w h _scw _sch : Int) : Option (BlockSize w h) :=
  if hd : 2 ≤ w ∧ 2 ≤ h then
    some { nx := 2, ny := 2, nx_pos := by decide, nx_le := hd.1, ny_pos := by decide, ny_le := hd.2 }
  else none

/-- A black edge on white. -/
def blackEdge : Pixmap :=
  ⟨20, 20, .A8R8G8B8, fun x _ => if x < 2 then 0xff000000 else 0xffffffff⟩

/-- Enlarged four times, the last pixel takes a tap from the first pixel of the view; reduced to 5
pixels, the view of the first pixel is cut from a part that is 5 pixels wide. -/
theorem getBBitmap_unstable :
    ¬ Stable quarterWeights (fun _ _ _ _ => none) blackWhite ∧
      ¬ Stable quarterWeights halfBlocks blackEdge := by
  constructor
  · intro h
    refine absurd (h ⟨8, 1⟩ ⟨0, 0, 8, 1⟩ ⟨6, 0, 8, 1⟩ ⟨fun _ _ => 0, fun _ => 0⟩
      ⟨fun _ _ => 0, fun _ => 0⟩ 7 0 ?_ ?_ ?_ ?_ ?_ ?_) (by decide +kernel)
    all_goals decide
  · intro h
    refine absurd (h ⟨5, 5⟩ ⟨0, 0, 1, 1⟩ ⟨0, 0, 2, 1⟩ ⟨fun _ _ => 0, fun _ => 0⟩
      ⟨fun _ _ => 0, fun _ => 0⟩ 0 0 ?_ ?_ ?_ ?_ ?_ ?_) (by decide +kernel)
    all_goals decide

theorem getBBitmap_stable_middle :
    ∃ v, (Pixmap.getBBitmap quarterWeights (fun _ _ _ _ => none) ⟨3, 2, .A8R8G8B8, fun _ _ => 7⟩
        ⟨6, 4⟩ ⟨0, 0, 4, 4⟩ ⟨fun _ _ => 0, fun _ => 0⟩).px 2 1 = some v ∧
      (Pixmap.getBBitmap quarterWeights (fun _ _ _ _ => none) ⟨3, 2, .A8R8G8B8, fun _ _ => 7⟩
        ⟨6, 4⟩ ⟨1, 0, 5, 2⟩ ⟨fun _ _ => 1, fun _ => 1⟩).px 1 1 = some v :=
  getBBitmap_stable _ _ ⟨3, 2, .A8R8G8B8, fun _ _ => 7⟩ (by decide) (by decide)
    (by decide : Rect.InScaled ⟨0, 0, 4, 4⟩ ⟨6, 4⟩) (by decide : Rect.InScaled ⟨1, 0, 5, 2⟩ ⟨6, 4⟩)
    (by decide) (by decide) _ _ (X := 2) (Y := 1) (by decide) (by decide)
    (show TapsIn ⟨3, 2, .A8R8G8B8, fun _ _ => 7⟩ quarterWeights 6 2 from .inl (by decide))

end ObZrv
