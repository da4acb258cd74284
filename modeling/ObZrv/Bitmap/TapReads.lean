import ObZrv.Bitmap.ScaleCrop
import ObZrv.Text.Config

/-!
# Bitmap.TapReads

The memory that `_resample_horiz_6tap` reads in a call from `ScaleCrop`, with the prefilter or
without: the padded row, or one cell behind it.

* `scaleCrop_rows`          : the rows are resampled with the values of `sixTapSetup`.
* `sixTapSetup_spec`        : these values on the axis of the image that is scaled, the same for both.
* `sixTap_reads_row_iff`    : when all taps lie in the padded row and no position leaves 32 bits.
* `tap_behind_row`          : ten pixels scaled to thirty.
-/

namespace ObZrv

open Lib

/-- The part of the source rows that is blended, and the first position in the padded row with the
step from one to the next. -/
structure SixTapSetup where
  sx : Int
  sw : Int
  localStartx : Int
  incx : Int

/-- The set-up of `_scalecrop_6tap` on the horizontal axis, for a bitmap of width `w`. -/
def sixTapSetup (w : Int) (m : Mapping) (crw : Int) : SixTapSetup :=
  let idxMin := whole m.startx - 2
  let idxMax := whole (m.startx + (crw - 1) * m.incx) + 3
  let sx := if idxMin < 0 then 0 else idxMin
  let sxEnd := if idxMax ≥ w then w - 1 else idxMax
  { sx, sw := sxEnd - sx + 1, localStartx := m.startx - (sx - 2) * 65536, incx := m.incx }

/-- The mapping where none is precomputed. -/
def mappingOf (src : Pixmap) (scw sch : Int) (c : Crop) : Mapping where
  incx := stepOf src.w scw
  incy := stepOf src.h sch
  startx := offsetOf src.w scw + c.crx * stepOf src.w scw
  starty := offsetOf src.h sch + c.cry * stepOf src.h sch
  offx := offsetOf src.w scw
  offy := offsetOf src.h sch

namespace SixTapSetup

variable (s : SixTapSetup) (crw : Int)

/-- The fixed-point position after `i` steps. -/
def position (i : Nat) : Int := s.localStartx + i * s.incx

/-- All taps of all pixels lie in the padded row. -/
def ReadsRow : Prop :=
  ∀ i < crw.toNat, ∀ t, -2 ≤ t → t ≤ 3 →
    0 ≤ whole (s.position i) + t ∧ whole (s.position i) + t < s.sw + 5

/-- No position overflows, that behind the last pixel included. -/
def PositionsFit : Prop := ∀ i ≤ crw.toNat, InInt32 (s.position i)

end SixTapSetup

/-- The crop is not rejected once it is clipped: `ScaleCrop` goes on with it. -/
def Crop.Accepted (crop : Crop) (dst : Canvas) (scw sch : Int) : Prop :=
  ¬ (crop.clip dst.w dst.h).Rejected scw sch

theorem Crop.Accepted.fits {crop : Crop} {dst : Canvas} {scw sch : Int}
    (h : crop.Accepted dst scw sch) :
    (crop.clip dst.w dst.h).Fits dst.w dst.h scw sch := by
  unfold Crop.Accepted Crop.Rejected at h
  have hclip : 0 ≤ (crop.clip dst.w dst.h).dx ∧ 0 ≤ (crop.clip dst.w dst.h).dy ∧
      (crop.clip dst.w dst.h).dx + (crop.clip dst.w dst.h).crw ≤ dst.w ∧
      (crop.clip dst.w dst.h).dy + (crop.clip dst.w dst.h).crh ≤ dst.h := by
    obtain ⟨dx, dy, crx, cry, crw, crh⟩ := crop
    unfold Crop.clip
    by_cases hdx : dx < 0 <;> by_cases hdy : dy < 0 <;> simp only [hdx, hdy, ↓reduceIte]
    all_goals
      split_ifs
      all_goals
        dsimp only at *
        omega
  obtain ⟨hdx, hdy, hright, hbottom⟩ := hclip
  constructor <;> omega

section

variable {src : Pixmap} {scw sch : Int} {c : Crop} {w h : Int} {wtab : Nat → Taps Int}

/-- The set-up of a call from `ScaleCrop`. -/
def setupOf (src : Pixmap) (blocks : Option (BlockSize src.w src.h)) (scw sch : Int) (c : Crop)
    (junk : Memory) : SixTapSetup :=
  let (bitmap, mapping) := prefilter src blocks scw sch c junk.bitmap
  sixTapSetup bitmap.w (mapping.getD (mappingOf bitmap scw sch c)) c.crw

/-- The rows of the crop are resampled with these values. -/
theorem scaleCrop_rows {dst : Canvas} (hf : c.Fits dst.w dst.h scw sch)
    (hsize : orSizes dst.w dst.h src.w src.h < 0x7fff) (hne : ¬ (scw = src.w ∧ sch = src.h))
    (blocks : Option (BlockSize src.w src.h)) (junk : Memory) :
    let s := setupOf src blocks scw sch c junk
    let r := prefilter src blocks scw sch c junk.bitmap
    let m := r.2.getD (mappingOf r.1 scw sch c)
    scaleCrop wtab src dst scw sch c .LANCZOS3 blocks junk =
      if s.sw ≤ 0 then dst
      else
        (forLoop c.crh.toNat (sixTapRow r.1 wtab c s.sx s.sw s.localStartx s.incx m.starty m.incy)
          { canvas := dst, mem := junk.buffer, ring := fun _ => junk.buffer, lastYi := -100 }).canvas := by
  have hscale := hf.one_le_scale
  have hcrw := hf.crw
  have hcrh := hf.crh
  rw [scaleCrop_eq hf hsize, if_neg hne]
  simp only
  unfold scaleCrop6tap
  rw [if_neg (by omega), hf.clip]
  simp only [if_neg hf.not_rejected]
  rfl

/-- The first column of the axis that is blended. -/
def firstOf (n sc cr : Int) : Int :=
  if whole (coordAt n sc cr) - 2 < 0 then 0 else whole (coordAt n sc cr) - 2

/-- The set-up on an axis of `n` pixels. -/
structure SixTapSetup.On (s : SixTapSetup) (n scw : Int) (c : Crop) : Prop where
  sw : s.sw = (if whole (coordAt n scw (c.crx + (c.crw - 1))) + 3 ≥ n then n - 1
    else whole (coordAt n scw (c.crx + (c.crw - 1))) + 3) - firstOf n scw c.crx + 1
  position : ∀ i : Nat, s.position i =
    coordAt n scw (c.crx + i) - (firstOf n scw c.crx - 2) * 65536

/-- The set-up for a part of an axis of `n` pixels, from pixel `ox` on and with room for the taps. -/
theorem sixTapSetup_on (ox : Int) {n scw subW : Int} {m : Mapping} (hincx : m.incx = stepOf n scw)
    (hstart : m.startx = coordAt n scw c.crx - ox * 65536)
    (hfirst : ox + (if whole (coordAt n scw c.crx) - ox - 2 < 0 then 0
      else whole (coordAt n scw c.crx) - ox - 2) = firstOf n scw c.crx)
    (hlast : ox + (if whole (coordAt n scw (c.crx + (c.crw - 1))) - ox + 3 ≥ subW then subW - 1
        else whole (coordAt n scw (c.crx + (c.crw - 1))) - ox + 3) =
      if whole (coordAt n scw (c.crx + (c.crw - 1))) + 3 ≥ n then n - 1
        else whole (coordAt n scw (c.crx + (c.crw - 1))) + 3) :
    (sixTapSetup subW m c.crw).On n scw c := by
  have hend : m.startx + (c.crw - 1) * m.incx =
      coordAt n scw (c.crx + (c.crw - 1)) - ox * 65536 := by
    rw [hincx, hstart, ← coordAt_add]
    omega
  constructor
  · unfold sixTapSetup
    simp only
    rw [hend, hstart, whole_sub, whole_sub, ← hlast, ← hfirst]
    omega
  · intro i
    unfold SixTapSetup.position sixTapSetup
    simp only
    rw [hincx, hstart, whole_sub, ← hfirst, ← coordAt_add]
    omega

/-- **The set-up** is the same for a part of a prefiltered image as for all of it. -/
theorem setupOf_on (hf : c.Fits w h scw sch) (blocks : Option (BlockSize src.w src.h))
    (junk : Memory) :
    (setupOf src blocks scw sch c junk).On (scaledImage src blocks).w scw c := by
  cases blocks with
  | none =>
    refine sixTapSetup_on 0 rfl ?_ ?_ ?_
    · rw [Int.zero_mul, Int.sub_zero]
      rfl
    · rw [Int.zero_add, Int.sub_zero]
      rfl
    · rw [Int.zero_add, Int.sub_zero]
      rfl
  | some b =>
    have hmin : (cropWindow src b scw sch c).ixMin =
        if whole (coordAt (boxImage src b).w scw c.crx) - 3 < 0 then 0
          else whole (coordAt (boxImage src b).w scw c.crx) - 3 := rfl
    have hmax : (cropWindow src b scw sch c).ixMax =
        if whole (coordAt (boxImage src b).w scw (c.crx + (c.crw - 1))) + 1 + 3 ≥ (boxImage src b).w
        then (boxImage src b).w - 1
        else whole (coordAt (boxImage src b).w scw (c.crx + (c.crw - 1))) + 1 + 3 := by
      rw [← Int.add_sub_assoc]
      rfl
    have hsub : (cropWindow src b scw sch c).subW =
        (cropWindow src b scw sch c).ixMax - (cropWindow src b scw sch c).ixMin + 1 := rfl
    change (setupOf src (some b) scw sch c junk).On (boxImage src b).w scw c
    unfold setupOf
    rw [prefilter_some b hf]
    refine sixTapSetup_on (cropWindow src b scw sch c).ixMin rfl rfl ?_ ?_
    · rw [hmin, firstOf]
      split_ifs <;> omega
    · change _ + (if _ ≥ (cropWindow src b scw sch c).subW then
        (cropWindow src b scw sch c).subW - 1 else _) = _
      rw [hsub, hmax]
      split_ifs <;> omega

/-! ## When the taps lie in the row -/

section Reads

variable {n : Int} {s : SixTapSetup}

theorem firstOf_bounds (n sc cr : Int) :
    0 ≤ firstOf n sc cr ∧ whole (coordAt n sc cr) - 2 ≤ firstOf n sc cr ∧
      (0 < firstOf n sc cr → firstOf n sc cr = whole (coordAt n sc cr) - 2) := by
  unfold firstOf
  split_ifs <;> omega

/-- **The taps lie in the padded row** exactly when the last position lies in the image. -/
theorem SixTapSetup.On.readsRow_iff (hs : s.On n scw c) (hf : c.Fits w h scw sch) (hn : 1 ≤ n) :
    s.ReadsRow c.crw ↔ coordAt n scw (c.crx + (c.crw - 1)) < n * 65536 := by
  have hscw := hf.one_le_scale.1
  have hcrw := hf.crw
  have hsw := hs.sw
  have hwhole : whole (coordAt n scw (c.crx + (c.crw - 1))) < n ↔
      coordAt n scw (c.crx + (c.crw - 1)) < n * 65536 := by
    unfold whole
    omega
  rw [← hwhole]
  constructor
  · intro h
    -- the last tap of the last pixel
    have hlast := (h (c.crw - 1).toNat (by omega) 3 (by omega) (by omega)).2
    rw [hs.position, whole_sub, Int.toNat_of_nonneg (by omega), hsw] at hlast
    split_ifs at hlast <;> omega
  · intro hin i hi t hlo hhi
    have hcol := hf.column hi
    have hcrx := hf.crx
    have hpos := (whole_coordAt_bounds hn hscw hf.crx (by omega)).1
    have hfirst := whole_mono (coordAt_mono hn hscw (show c.crx ≤ c.crx + i by omega))
    have hlast := whole_mono (coordAt_mono hn hscw
      (show c.crx + (i : Int) ≤ c.crx + (c.crw - 1) by omega))
    have hbounds := firstOf_bounds n scw c.crx
    rw [hs.position, whole_sub, hsw]
    constructor
    · omega
    · split_ifs <;> omega

/-- **No position overflows**, but for the widest image, whole from the left to the right edge. -/
theorem SixTapSetup.On.positionsFit_iff (hs : s.On n scw c) (hf : c.Fits w h scw sch) (hn : 1 ≤ n)
    (hn' : n ≤ 32766) :
    s.PositionsFit c.crw ↔
      ¬ (n = 32766 ∧ firstOf n scw c.crx = 0 ∧ n * 65536 ≤ coordAt n scw (c.crx + c.crw)) := by
  have hscw := hf.one_le_scale.1
  have hcrw := hf.crw
  have hcrx := hf.crx
  have hinW := hf.inW
  have hbounds := firstOf_bounds n scw c.crx
  have hend := coordAt_le hn hscw hinW
  constructor
  · rintro h ⟨hwide, hfirst, hge⟩
    have hfit := (h c.crw.toNat (Nat.le_refl _)).2
    rw [hs.position, hfirst, Int.toNat_of_nonneg (by omega)] at hfit
    omega
  · intro h i hi
    have hmono := coordAt_mono hn hscw (show c.crx + (i : Int) ≤ c.crx + c.crw by omega)
    have hstart := coordAt_mono hn hscw (show c.crx ≤ c.crx + (i : Int) by omega)
    have hnonneg := coordAt_nonneg hn hscw hcrx
    have hwhole : whole (coordAt n scw c.crx) * 65536 ≤ coordAt n scw c.crx :=
      Int.ediv_mul_le _ (by omega)
    rw [hs.position]
    constructor
    · omega
    · omega

/-- A pixel whose taps lie in the padded row is resampled from that row and nothing else. -/
theorem resample_row {out : Int} {crw : Nat} {x dx : Int} {mem row : Int → UInt32} {i : Nat}
    (hi : i < crw) (hlo : 0 ≤ whole (x + i * dx) - 2) (hhi : whole (x + i * dx) + 3 < out)
    (hrow : ∀ a, 0 ≤ a → a < out → mem a = row a) :
    resampleHoriz6tap wtab out crw x dx mem (out + i) =
      blend6 (wtab (frac8 (x + i * dx)).toNat) (tapsAt row (whole (x + i * dx))) := by
  have hbefore : TapsBefore wtab out (x + i * dx) := ⟨by omega, .inr hhi⟩
  rw [resample_pixel hi hbefore]
  exact blend6_taps hbefore fun a ha hout => hrow a (by omega) hout

end Reads

variable (src wtab) in
/-- **What `_resample_horiz_6tap` reads**, for a crop that `ScaleCrop` accepts, with the prefilter or
without. All taps lie in the padded row and no position overflows exactly when the last position
lies in the image and the image, if it is as wide as can be, is not drawn from the left edge to the
right; then each pixel is made from the padded row alone. -/
theorem sixTap_reads_row_iff {dst : Canvas} {crop : Crop} (hw : 1 ≤ src.w) (hw' : src.w ≤ 32766)
    (haccept : crop.Accepted dst scw sch) (blocks : Option (BlockSize src.w src.h))
    (junk : Memory) :
    let c := crop.clip dst.w dst.h
    let s := setupOf src blocks scw sch c junk
    let n := (scaledImage src blocks).w
    let Inside := coordAt n scw (c.crx + (c.crw - 1)) < n * 65536
    let Widest := n = 32766 ∧ firstOf n scw c.crx = 0 ∧ n * 65536 ≤ coordAt n scw (c.crx + c.crw)
    (s.ReadsRow c.crw ∧ s.PositionsFit c.crw ↔ Inside ∧ ¬ Widest) ∧
      (Inside → ∀ i < c.crw.toNat, ∀ mem row : Int → UInt32,
        (∀ a, 0 ≤ a → a < s.sw + 5 → mem a = row a) →
        resampleHoriz6tap wtab (s.sw + 5) c.crw.toNat s.localStartx s.incx mem (s.sw + 5 + i) =
          blend6 (wtab (frac8 (s.position i)).toNat) (tapsAt row (whole (s.position i)))) := by
  intro c s n Inside Widest
  have hf := haccept.fits
  have hs : s.On n scw c := setupOf_on hf blocks junk
  have hn : 1 ≤ n ∧ n ≤ 32766 := by
    cases blocks with
    | none => exact ⟨hw, hw'⟩
    | some b =>
      obtain ⟨hpos, hle⟩ := interOf_bounds b.nx_pos b.nx_le
      have hmul := Int.mul_le_mul_of_nonneg_left b.nx_pos
        (show 0 ≤ interOf src.w b.nx by omega)
      change 1 ≤ interOf src.w b.nx ∧ interOf src.w b.nx ≤ 32766
      omega
  have hreads := hs.readsRow_iff hf hn.1
  refine ⟨and_congr hreads (hs.positionsFit_iff hf hn.1 hn.2), ?_⟩
  intro hin i hi mem row hrow
  have hread := hreads.mpr hin i hi
  have hlo : 0 ≤ whole (s.position i) - 2 := (hread (-2) (by omega) (by omega)).1
  have hhi : whole (s.position i) + 3 < s.sw + 5 := (hread 3 (by omega) (by omega)).2
  exact resample_row hi hlo hhi hrow

end

/-- Ten columns scaled down to six. -/
theorem sixTap_reads_row_ten :
    let src : Pixmap := ⟨10, 10, .A8R8G8B8, fun _ _ => 0⟩
    let s := setupOf src none 6 6 ⟨0, 0, 0, 0, 6, 6⟩ ⟨fun _ _ => 0, fun _ => 0⟩
    s.ReadsRow 6 ∧ s.PositionsFit 6 := by
  intro src s
  have haccept : Crop.Accepted ⟨0, 0, 0, 0, 6, 6⟩ (Canvas.fresh 6 6 .A8R8G8B8) 6 6 := by
    unfold Crop.Accepted
    decide
  have h := sixTap_reads_row_iff src quarterWeights (by decide) (by decide) haccept none
    ⟨fun _ _ => 0, fun _ => 0⟩
  exact h.1.mpr (by decide)

/-- Ten columns scaled up to thirty: the last tap of the last pixel is the cell behind the padded
row, in which the first pixel of the output is. -/
theorem tap_behind_row :
    let src : Pixmap := ⟨10, 10, .A8R8G8B8, fun _ _ => 0⟩
    let s := setupOf src none 30 30 ⟨0, 0, 0, 0, 30, 30⟩ ⟨fun _ _ => 0, fun _ => 0⟩
    Crop.Accepted ⟨0, 0, 0, 0, 30, 30⟩ (Canvas.fresh 30 30 .A8R8G8B8) 30 30 ∧
      orSizes 30 30 10 10 < 0x7fff ∧ s.sw = 10 ∧ whole (s.position 29) + 3 = s.sw + 5 ∧
      ¬ s.ReadsRow 30 := by
  intro src s
  have hlast : whole (s.position 29) + 3 = s.sw + 5 := by decide
  refine ⟨?_, by decide, by decide, hlast, ?_⟩
  · unfold Crop.Accepted
    decide
  · intro h
    have hread := (h 29 (by decide) 3 (by decide) (by decide)).2
    omega

end ObZrv
