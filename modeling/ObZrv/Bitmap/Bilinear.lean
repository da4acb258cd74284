import ObZrv.Bitmap.SixTap

/-!
# Bitmap.Bilinear

The bilinear branch of `ScaleCrop`, with an opaque colour and without blending. Each row is
interpolated between two source rows into a buffer, which is padded on the right by two pixels, and
resampled from there.

The source may be a part of a larger image: the box prefilter only computes the part that the crop
needs. The coordinates are those of the whole image, less the place of the part.

* `bilinearAt`              : the pixel of a position of the scaled image.
* `scaleCropBilinear_pixel` : every pixel of the crop is written, and it is that pixel, unless the
  part happens to be as wide as the scaled image.
-/

namespace ObZrv

open Lib

/-- The row buffer `srcrow` from cell `0` on, and `cache` behind it. -/
structure BilinearState where
  canvas : Canvas
  mem : Int → UInt32

section

variable (src : Pixmap)

/-- Column `c` between the two rows at height `y`. -/
def interpolatedAt (y c : Int) : UInt32 :=
  let y1 := clamp src.h (whole y)
  let y2 := clamp src.h (whole y + 1)
  interpolateRow (decide (src.fmt.bpp = 32 ∧ y1 = y2)) (frac y) (src.card c y1) (src.card c y2)

/-- The row buffer for `sw` columns from `sx` on. -/
def interpolatedRow (sx sw y : Int) (mem : Int → UInt32) : Int → UInt32 :=
  let mem := fill mem 0 sw fun i => interpolatedAt src y (sx + i)
  let mem := if src.fmt = .X8R8G8B8 then fill mem 0 sw fun i => setAlpha (mem i) else mem
  fill mem sw 2 fun _ => mem (sw - 1)

/-- Row `j` of the crop. -/
def bilinearRow (c : Crop) (scw sx sw localStartx incx starty incy : Int) (j : Nat)
    (s : BilinearState) : BilinearState :=
  let mem := interpolatedRow src sx sw (starty + j * incy) s.mem
  if scw = src.w then { canvas := s.canvas.store (c.dy + j) c.dx c.crw mem, mem }
  else if s.canvas.fmt.bpp = 32 then
    { canvas := s.canvas.setRow (c.dy + j) c.dx c.crw (interpolateCol mem localStartx incx), mem }
  else
    let mem := fill mem (sw + 4) c.crw (interpolateCol mem localStartx incx)
    { canvas := s.canvas.store (c.dy + j) c.dx c.crw fun i => mem (sw + 4 + i), mem }

/-- The branch; the crop has been clipped. -/
def scaleCropBilinear (dst : Canvas) (scw sch : Int) (c : Crop) (precomputed : Option Mapping)
    (junk : Int → UInt32) : Canvas :=
  let m := precomputed.getD
    { incx := stepOf src.w scw
      incy := stepOf src.h sch
      startx := offsetOf src.w scw + c.crx * stepOf src.w scw
      starty := offsetOf src.h sch + c.cry * stepOf src.h sch
      offx := offsetOf src.w scw
      offy := offsetOf src.h sch }
  let idxMin := clamp src.w (whole m.startx)
  let idxMax := clamp src.w (whole (m.startx + (c.crw - 1) * m.incx))
  let sw := idxMax - idxMin + 2
  let sx := idxMin
  let sw := if sx + sw > src.w then src.w - sx else sw
  if sw ≤ 0 then dst
  else
    let localStartx := m.startx - idxMin * 65536
    (forLoop c.crh.toNat (bilinearRow src c scw sx sw localStartx m.incx m.starty m.incy)
      { canvas := dst, mem := junk }).canvas

/-! ## The pixel of a position -/

/-- Column `c` at height `y`, as the row buffer has it. -/
def lineAt (y c : Int) : UInt32 :=
  let v := interpolatedAt src y c
  if src.fmt = .X8R8G8B8 then setAlpha v else v

/-- The pixel of the scaled image at the source coordinates `x` and `y`; `dx` is the step. -/
def bilinearAt (dx x y : Int) : UInt32 :=
  if dx = 0x10000 ∧ frac x = 0 then lineAt src y (clamp src.w (whole x))
  else lerpCol x (lineAt src y (clamp src.w (whole x))) (lineAt src y (clamp src.w (whole x + 1)))

/-- The pixel at `(X, Y)` of the image scaled to `scw` times `sch`. -/
def bilinearPixel (scw sch X Y : Int) : UInt32 :=
  bilinearAt src (stepOf src.w scw) (coordAt src.w scw X) (coordAt src.h sch Y)

end

/-! ## A part of an image -/

/-- The axis of a part: `n` pixels from `o` on, of an axis of `full`, seen by the whole coordinates
`lo` to `hi`. -/
structure PartAxis (full n o lo hi : Int) : Prop where
  pos : 1 ≤ n
  nonneg : 0 ≤ o
  start : o ≤ lo
  last : hi ≤ o + n
  clamp : ∀ a, lo ≤ a → a ≤ hi + 1 → o + clamp n (a - o) = clamp full a

theorem PartAxis.all {n lo hi : Int} (hn : 1 ≤ n) (hlo : 0 ≤ lo) (hhi : hi ≤ n) :
    PartAxis n n 0 lo hi :=
  ⟨hn, Int.le_refl 0, hlo, by omega, fun a _ _ => by rw [Int.sub_zero, Int.zero_add]⟩

/-- `q` holds what the crop needs of `p`, from column `ox` and row `oy` on. -/
structure PartOf (p q : Pixmap) (ox oy : Int) (c : Crop) (scw sch : Int) : Prop where
  fmt : q.fmt = p.fmt
  card : ∀ x y, 0 ≤ x → x < q.w → 0 ≤ y → y < q.h → q.card x y = p.card (ox + x) (oy + y)
  cols : PartAxis p.w q.w ox (whole (coordAt p.w scw c.crx))
    (whole (coordAt p.w scw (c.crx + (c.crw - 1))))
  rows : PartAxis p.h q.h oy (whole (coordAt p.h sch c.cry))
    (whole (coordAt p.h sch (c.cry + (c.crh - 1))))

/-- The mapping onto the part. -/
def partMapping (p : Pixmap) (ox oy : Int) (c : Crop) (scw sch : Int) : Mapping where
  incx := stepOf p.w scw
  incy := stepOf p.h sch
  startx := offsetOf p.w scw + c.crx * stepOf p.w scw - ox * 65536
  starty := offsetOf p.h sch + c.cry * stepOf p.h sch - oy * 65536
  offx := offsetOf p.w scw
  offy := offsetOf p.h sch

theorem clamp_bounds {n i : Int} (hn : 1 ≤ n) : 0 ≤ clamp n i ∧ clamp n i < n := by
  unfold clamp
  split_ifs <;> omega

section Row

variable {p q : Pixmap} {ox oy : Int} {c : Crop} {scw sch : Int}

theorem PartOf.lineAt (hp : PartOf p q ox oy c scw sch) {Y x : Int}
    (hlo : whole (coordAt p.h sch c.cry) ≤ whole (coordAt p.h sch Y))
    (hhi : whole (coordAt p.h sch Y) ≤ whole (coordAt p.h sch (c.cry + (c.crh - 1))))
    (hx0 : 0 ≤ x) (hx : x < q.w) :
    lineAt q (coordAt p.h sch Y - oy * 65536) x = lineAt p (coordAt p.h sch Y) (ox + x) := by
  have h1 := hp.rows.clamp (whole (coordAt p.h sch Y)) hlo (by omega)
  have h2 := hp.rows.clamp (whole (coordAt p.h sch Y) + 1) (by omega) (by omega)
  have hb1 := clamp_bounds hp.rows.pos (i := whole (coordAt p.h sch Y) - oy)
  have hb2 := clamp_bounds hp.rows.pos (i := whole (coordAt p.h sch Y) + 1 - oy)
  have hnext : whole (coordAt p.h sch Y) - oy + 1 = whole (coordAt p.h sch Y) + 1 - oy := by omega
  have hsame : (clamp q.h (whole (coordAt p.h sch Y) - oy) =
        clamp q.h (whole (coordAt p.h sch Y) + 1 - oy)) =
      (clamp p.h (whole (coordAt p.h sch Y)) = clamp p.h (whole (coordAt p.h sch Y) + 1)) := by
    rw [← h1, ← h2]
    exact propext ⟨fun h => by rw [h], fun h => by omega⟩
  simp only [ObZrv.lineAt, interpolatedAt, whole_sub, frac_sub, hp.fmt, hnext, hsame]
  rw [hp.card _ _ hx0 hx hb1.1 hb1.2, hp.card _ _ hx0 hx hb2.1 hb2.2, h1, h2]

/-- A cell of the row buffer holds its column, the last one repeated. -/
theorem interpolatedRow_cell {src : Pixmap} {sx sw y t : Int} (mem : Int → UInt32) (hsw : 1 ≤ sw)
    (h0 : 0 ≤ t) (h1 : t < sw + 2) :
    interpolatedRow src sx sw y mem t = lineAt src y (sx + clamp sw t) := by
  have hb := clamp_bounds hsw (i := t)
  have hcell : ∀ i, 0 ≤ i → i < sw →
      (if src.fmt = .X8R8G8B8 then
        fill (fill mem 0 sw fun i => interpolatedAt src y (sx + i)) 0 sw
          fun i => setAlpha (fill mem 0 sw (fun i => interpolatedAt src y (sx + i)) i)
      else fill mem 0 sw fun i => interpolatedAt src y (sx + i)) i = lineAt src y (sx + i) := by
    intro i hi0 hi1
    unfold lineAt
    simp only
    split
    · rw [fill_in hi0 (by omega), Int.sub_zero, fill_in hi0 (by omega), Int.sub_zero]
    · rw [fill_in hi0 (by omega), Int.sub_zero]
  unfold interpolatedRow
  by_cases hin : t < sw
  · have hclamp : clamp sw t = t := by
      unfold clamp
      split_ifs <;> omega
    rw [fill_out (.inl hin), hcell t h0 hin, hclamp]
  · have hclamp : clamp sw t = sw - 1 := by
      unfold clamp
      split_ifs <;> omega
    rw [fill_in (by omega) h1, hcell (sw - 1) (by omega) (by omega), hclamp]

end Row

/-! ## All rows -/

section Rows

variable {p q : Pixmap} {ox oy : Int} {c : Crop} {scw sch : Int}

/-- The first column and the number of columns that are interpolated. -/
structure Columns (p q : Pixmap) (ox : Int) (c : Crop) (scw sx sw : Int) : Prop where
  first : sx = clamp q.w (whole (coordAt p.w scw c.crx) - ox)
  pos : 1 ≤ sw
  width : sw = q.w - sx ∨
    sw = whole (coordAt p.w scw (c.crx + (c.crw - 1))) - ox - sx + 2 ∧ sx + sw ≤ q.w

/-- A cell of the buffer that is read holds the column of the image it stands for. -/
theorem Columns.cell {sx sw Y : Int} (hc : Columns p q ox c scw sx sw)
    (hp : PartOf p q ox oy c scw sch) (mem : Int → UInt32) {a : Int}
    (hlo : whole (coordAt p.h sch c.cry) ≤ whole (coordAt p.h sch Y))
    (hhi : whole (coordAt p.h sch Y) ≤ whole (coordAt p.h sch (c.cry + (c.crh - 1))))
    (halo : whole (coordAt p.w scw c.crx) ≤ a)
    (hahi : a ≤ whole (coordAt p.w scw (c.crx + (c.crw - 1))) + 1) :
    interpolatedRow q sx sw (coordAt p.h sch Y - oy * 65536) mem (a - ox - sx) =
      lineAt p (coordAt p.h sch Y) (clamp p.w a) := by
  obtain ⟨hn, -, hstart, hlast, hclamp⟩ := hp.cols
  have hfirst := hc.first
  have hpos := hc.pos
  have hcell : sx + clamp sw (a - ox - sx) = clamp q.w (a - ox) := by
    rcases hc.width with hw | ⟨hw, hle⟩ <;> (unfold clamp at hfirst ⊢; split_ifs at hfirst ⊢ <;> omega)
  have hb := clamp_bounds hn (i := a - ox)
  rw [interpolatedRow_cell mem hpos, hcell, hp.lineAt hlo hhi hb.1 hb.2, hclamp a halo hahi]
  · unfold clamp at hfirst
    split_ifs at hfirst <;> omega
  · rcases hc.width with hw | ⟨hw, hle⟩ <;> (unfold clamp at hfirst; split_ifs at hfirst <;> omega)

theorem lerpCol_sub (x k : Int) (c1 c2 : UInt32) :
    lerpCol (x - k * 65536) c1 c2 = lerpCol x c1 c2 := by
  simp only [lerpCol, frac8_sub]

theorem frac_add (x k : Int) : frac (x + k * 65536) = frac x := by
  unfold frac
  omega

theorem whole_add (x k : Int) : whole (x + k * 65536) = whole x + k := by
  unfold whole
  omega

theorem Columns.resampled {sx sw Y i : Int} (hc : Columns p q ox c scw sx sw)
    (hp : PartOf p q ox oy c scw sch) {mem : Int → UInt32} (hw : 1 ≤ p.w) (hscw : 1 ≤ scw)
    (hlo : whole (coordAt p.h sch c.cry) ≤ whole (coordAt p.h sch Y))
    (hhi : whole (coordAt p.h sch Y) ≤ whole (coordAt p.h sch (c.cry + (c.crh - 1))))
    (h0 : 0 ≤ i) (hi : i < c.crw) :
    interpolateCol (interpolatedRow q sx sw (coordAt p.h sch Y - oy * 65536) mem)
        (coordAt p.w scw c.crx - ox * 65536 - sx * 65536) (stepOf p.w scw) i =
      bilinearPixel p scw sch (c.crx + i) Y := by
  have hfirst : whole (coordAt p.w scw c.crx) ≤ whole (coordAt p.w scw (c.crx + i)) :=
    whole_mono (coordAt_mono hw hscw (by omega))
  have hlast : whole (coordAt p.w scw (c.crx + i)) ≤
      whole (coordAt p.w scw (c.crx + (c.crw - 1))) :=
    whole_mono (coordAt_mono hw hscw (by omega))
  have hx : coordAt p.w scw c.crx - ox * 65536 - sx * 65536 + i * stepOf p.w scw =
      coordAt p.w scw (c.crx + i) - ox * 65536 - sx * 65536 := by
    rw [← coordAt_add]
    omega
  have hnext : whole (coordAt p.w scw (c.crx + i)) - ox - sx + 1 =
      whole (coordAt p.w scw (c.crx + i)) + 1 - ox - sx := by omega
  unfold interpolateCol bilinearPixel bilinearAt
  simp only [hx, whole_sub, frac_sub, lerpCol_sub, hnext]
  have hcopy := hc.cell hp mem hlo hhi hfirst (by omega)
  rw [hcopy, hc.cell hp mem hlo hhi (by omega) (by omega)]
  by_cases hstep : stepOf p.w scw = 0x10000
  · -- the step is a whole pixel
    have hcoord : coordAt p.w scw (c.crx + i) = coordAt p.w scw c.crx + i * 65536 := by
      rw [← coordAt_add, hstep]
    have hcol : whole (coordAt p.w scw c.crx) - ox - sx + i =
        whole (coordAt p.w scw c.crx) + i - ox - sx := by omega
    rw [hcoord, whole_add] at hcopy
    rw [hcoord, frac_add, whole_add, hcol, hcopy]
  · rw [if_neg (fun h => hstep h.1), if_neg (fun h => hstep h.1)]

theorem Columns.copied {sx sw Y i : Int} (hc : Columns p q ox c scw sx sw)
    (hp : PartOf p q ox oy c scw sch) {mem : Int → UInt32} (hw : 1 ≤ p.w)
    (hlo : whole (coordAt p.h sch c.cry) ≤ whole (coordAt p.h sch Y))
    (hhi : whole (coordAt p.h sch Y) ≤ whole (coordAt p.h sch (c.cry + (c.crh - 1))))
    (h0 : 0 ≤ i) (hi : i < c.crw) (hq : q.w = scw) (hwide : p.w = scw) (hin : c.crx + c.crw ≤ scw) :
    interpolatedRow q sx sw (coordAt p.h sch Y - oy * 65536) mem i =
      bilinearPixel p scw sch (c.crx + i) Y := by
  have hstep : stepOf p.w scw = 0x10000 := by
    rw [← hwide, stepOf, Int.mul_ediv_cancel_left _ (by omega)]
  have hcoord : ∀ X, coordAt p.w scw X = X * 65536 := by
    intro X
    rw [coordAt, hstep, offsetOf, if_pos hwide.symm, Int.zero_add]
  have hwhole : ∀ X, whole (coordAt p.w scw X) = X := by
    intro X
    rw [hcoord, whole]
    omega
  have hpart := hp.cols.nonneg
  have hstart := hp.cols.start
  have hfirst := hc.first
  rw [hwhole] at hstart hfirst
  have hsx : sx = c.crx - ox := by
    rw [hfirst, clamp]
    split_ifs <;> omega
  have hcell := hc.cell hp mem hlo hhi (a := c.crx + i) (by rw [hwhole]; omega)
    (by rw [hwhole]; omega)
  rw [show c.crx + i - ox - sx = i by omega] at hcell
  have hfrac : frac (coordAt p.w scw (c.crx + i)) = 0 := by
    rw [hcoord, frac]
    omega
  rw [hcell, bilinearPixel, bilinearAt, if_pos ⟨hstep, hfrac⟩, hwhole]

/-- The first `j` rows of the crop have been written. -/
structure BilinearDone (p q : Pixmap) (c : Crop) (scw sch : Int) (fmt : Fmt) (j : Nat)
    (s : BilinearState) : Prop where
  format : s.canvas.fmt = fmt
  px : ∀ j' < j, ∀ i : Nat, i < c.crw.toNat → ∃ v, s.canvas.px (c.dx + i) (c.dy + j') = some v ∧
    ((q.w = scw → p.w = scw) → v = (if q.w = scw then storeCard fmt else id)
      (bilinearPixel p scw sch (c.crx + i) (c.cry + j')))

/-- Row `j` is added to the rows before it. -/
theorem BilinearDone.next {w h sx sw : Int} {fmt : Fmt} {j : Nat} {s : BilinearState}
    (hs : BilinearDone p q c scw sch fmt j s) (hc : Columns p q ox c scw sx sw)
    (hp : PartOf p q ox oy c scw sch) (hf : c.Fits w h scw sch) (hw : 1 ≤ p.w) (hh : 1 ≤ p.h)
    (hj : j < c.crh.toNat) :
    BilinearDone p q c scw sch fmt (j + 1)
      (bilinearRow q c scw sx sw (coordAt p.w scw c.crx - ox * 65536 - sx * 65536) (stepOf p.w scw)
        (coordAt p.h sch c.cry - oy * 65536) (stepOf p.h sch) j s) := by
  obtain ⟨hscw, hsch⟩ := hf.one_le_scale
  have hinW := hf.inW
  have hy : coordAt p.h sch c.cry - oy * 65536 + j * stepOf p.h sch =
      coordAt p.h sch (c.cry + j) - oy * 65536 := by
    rw [← coordAt_add]
    omega
  have hlo : whole (coordAt p.h sch c.cry) ≤ whole (coordAt p.h sch (c.cry + j)) :=
    whole_mono (coordAt_mono hh hsch (by omega))
  have hhi : whole (coordAt p.h sch (c.cry + j)) ≤
      whole (coordAt p.h sch (c.cry + (c.crh - 1))) :=
    whole_mono (coordAt_mono hh hsch (by omega))
  unfold bilinearRow
  simp only [hy]
  by_cases hcopy : scw = q.w
  · rw [if_pos hcopy]
    refine ⟨hs.format, ?_⟩
    simp only [Canvas.store]
    refine rows_next hs.px ?_
    intro i hi hwide
    rw [if_pos hcopy.symm, hs.format,
      hc.copied hp hw hlo hhi (by omega) (by omega) hcopy.symm (hwide hcopy.symm) hinW]
  · rw [if_neg hcopy]
    -- the resampled row, or what the narrower pixels keep of it
    have hrow : ∀ i : Nat, i < c.crw.toNat →
        interpolateCol (interpolatedRow q sx sw (coordAt p.h sch (c.cry + j) - oy * 65536) s.mem)
          (coordAt p.w scw c.crx - ox * 65536 - sx * 65536) (stepOf p.w scw) i =
        bilinearPixel p scw sch (c.crx + i) (c.cry + j) := fun i hi =>
      hc.resampled hp hw hscw hlo hhi (by omega) (by omega)
    split
    · refine ⟨hs.format, rows_next hs.px ?_⟩
      intro i hi _
      rw [if_neg (fun h => hcopy h.symm), hrow i hi]
      rfl
    · rename_i hbpp
      refine ⟨hs.format, ?_⟩
      simp only [Canvas.store]
      refine rows_next hs.px ?_
      intro i hi _
      rw [if_neg (fun h => hcopy h.symm), storeCard_narrow hbpp, fill_in (by omega) (by omega),
        show sw + 4 + (i : Int) - (sw + 4) = i by omega, hrow i hi]
      rfl

/-- **Every pixel of the crop is written.** It is the pixel of its position, unless the part alone is
as wide as the scaled image. -/
theorem scaleCropBilinear_pixel {dst : Canvas} {m : Option Mapping} (hp : PartOf p q ox oy c scw sch)
    (hf : c.Fits dst.w dst.h scw sch) (hw : 1 ≤ p.w) (hh : 1 ≤ p.h)
    (hm : m = some (partMapping p ox oy c scw sch) ∨ m = none ∧ q = p ∧ ox = 0 ∧ oy = 0)
    (junk : Int → UInt32) {i j : Nat} (hi : i < c.crw.toNat) (hj : j < c.crh.toNat) :
    ∃ v, (scaleCropBilinear q dst scw sch c m junk).px (c.dx + i) (c.dy + j) = some v ∧
      ((q.w = scw → p.w = scw) → v = (if q.w = scw then storeCard dst.fmt else id)
        (bilinearPixel p scw sch (c.crx + i) (c.cry + j))) := by
  have hget : m.getD
        { incx := stepOf q.w scw
          incy := stepOf q.h sch
          startx := offsetOf q.w scw + c.crx * stepOf q.w scw
          starty := offsetOf q.h sch + c.cry * stepOf q.h sch
          offx := offsetOf q.w scw
          offy := offsetOf q.h sch } = partMapping p ox oy c scw sch := by
    rcases hm with rfl | ⟨rfl, rfl, rfl, rfl⟩
    · rfl
    · simp only [Option.getD_none, partMapping, Int.zero_mul, Int.sub_zero]
  have hfirst : offsetOf p.w scw + c.crx * stepOf p.w scw = coordAt p.w scw c.crx := rfl
  have hfirst' : offsetOf p.h sch + c.cry * stepOf p.h sch = coordAt p.h sch c.cry := rfl
  have hlastx : coordAt p.w scw c.crx - ox * 65536 + (c.crw - 1) * stepOf p.w scw =
      coordAt p.w scw (c.crx + (c.crw - 1)) - ox * 65536 := by
    rw [← coordAt_add]
    omega
  unfold scaleCropBilinear
  rw [hget]
  simp only [partMapping, hfirst, hfirst', hlastx, whole_sub]
  have hcrw := hf.crw
  have hmono := whole_mono (coordAt_mono hw
    hf.one_le_scale.1 (show c.crx ≤ c.crx + (c.crw - 1) by omega))
  obtain ⟨hn, -, hstart, hlast, -⟩ := hp.cols
  have hcols : Columns p q ox c scw (clamp q.w (whole (coordAt p.w scw c.crx) - ox))
      (if clamp q.w (whole (coordAt p.w scw c.crx) - ox) +
          (clamp q.w (whole (coordAt p.w scw (c.crx + (c.crw - 1))) - ox) -
            clamp q.w (whole (coordAt p.w scw c.crx) - ox) + 2) > q.w
        then q.w - clamp q.w (whole (coordAt p.w scw c.crx) - ox)
        else clamp q.w (whole (coordAt p.w scw (c.crx + (c.crw - 1))) - ox) -
          clamp q.w (whole (coordAt p.w scw c.crx) - ox) + 2) := by
    refine ⟨rfl, ?_, ?_⟩
    · unfold clamp
      split_ifs <;> omega
    · unfold clamp
      split_ifs <;> omega
  rw [if_neg (Int.not_le.mpr (Int.lt_of_lt_of_le Int.zero_lt_one hcols.pos))]
  have hdone := forLoop_inv (n := c.crh.toNat) (BilinearDone p q c scw sch dst.fmt)
    (s := { canvas := dst, mem := junk })
    ⟨rfl, fun j' hj' => absurd hj' (Nat.not_lt_zero j')⟩
    fun j s hj hs => hs.next hcols hp hf hw hh hj
  exact hdone.px j hj i hi

end Rows

end ObZrv
