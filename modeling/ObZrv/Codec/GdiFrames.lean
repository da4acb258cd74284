import ObZrv.Lib.Blocks
import ObZrv.Lib.Machine
import ObZrv.Bitmap.Raster
import ObZrv.Codec.Bitmap

/-!
# Codec.GdiFrames

`gdiplusConvert` and `GdiPlusImage` with the pixels. A frame is locked and copied in blocks of rows.

* `convertRows_spec`      : a frame is copied whole or not at all, and never left locked.
* `dimension_pageid`      : frames are selected by the dimension that the format has.
* `nextFrame_outline`     : without the pixels these are the functions of `Codec.GdiPlus`.
* `gdi_frame_shown`       : the bitmap always shows the frame that the image is at.
-/

namespace ObZrv

open Lib

theorem PixelFmt.pixelsize_toFmt (fmt : PixelFmt) : fmt.toFmt.pixelsize = fmt.nbytes := by
  cases fmt <;> rfl

/-- What `LockBits` gives: with `Ok` the memory from `Scan0` on, the stride and the format; else
whether it has set `Scan0`. -/
inductive LockResult where
  | ok (scan0 : Int → UInt8) (stride : Int) (pixelFormat : GdiPixelFormat)
  | failed (scan0 : Bool)

/-- The two calls of GDI+ that give the pixels; a rectangle is given by its corner and its size. -/
structure GdiBits (G : Type) where
  lockBits : G → (x y width height : Int) → GdiPixelFormat → LockResult × G
  unlockBits : G → G

/-- `getfmt`. -/
def lockFormat : PixelFmt → GdiPixelFormat
  | .A8R8G8B8 => .argb32
  | .R8G8B8 => .rgb24
  | .R5G6B5 => .rgb565
  | .A1R5G5B5 => .argb1555
  | .X1R5G5B5 => .rgb555

/-- `stride`, a `long` made from an unsigned product. -/
def strideOf (fmt : PixelFmt) (width : UInt32) : Int :=
  ((UInt32.ofNat fmt.nbytes * width + 3) &&& (0xfffffffc : UInt32)).toBitVec.toInt

section Convert

variable {G Id : Type} (lib : GdiLib G Id) (bits : GdiBits G)

/-- The rows of a block are copied behind the first `i` rows. -/
def copyBlock (scan0 : Int → UInt8) (bmStride stride pitch : Int) (i blockh : Nat)
    (mem : Int → UInt8) : Int → UInt8 :=
  forLoop blockh (fun j mem =>
    fill mem (((i + j : Nat) : Int) * pitch) stride fun k => scan0 (bmStride * j + k)) mem

/-- The block loop from row `i` on. -/
def convertRows (fmt : PixelFmt) (stride pitch : Int) (linestep width height : Nat) :
    Nat → Nat → (Int → UInt8) → G → Option (Int → UInt8) × G
  | 0, _, mem, g => (some mem, g)
  | fuel + 1, i, mem, g =>
    if i < height then
      let blockh := min linestep (height - i)
      match bits.lockBits g 0 i width blockh (lockFormat fmt) with
      | (.failed scan0, g) => (none, if scan0 then bits.unlockBits g else g)
      | (.ok scan0 bmStride got, g) =>
        if got ≠ lockFormat fmt then (none, bits.unlockBits g)
        else
          convertRows fmt stride pitch linestep width height fuel (i + linestep)
            (copyBlock scan0 bmStride stride pitch i blockh mem) (bits.unlockBits g)
    else (some mem, g)

/-- `linestep`: about 10 MB at a time. -/
def linestepOf (stride : Int) : Nat := (max 1 (Int.tdiv (1024 * 1024 * 10) stride)).toNat

/-- `gdiplusConvert`, with what the memory of the bitmap holds before. -/
def convertPixels (fresh : Int → UInt8) (g : G) : Option Raster × G :=
  let fmt := outFormat (lib.getPixelFormat g)
  let width := lib.getWidth g
  let height := lib.getHeight g
  let stride := strideOf fmt width
  let bmp := Raster.create width.toBitVec.toInt height.toBitVec.toInt fmt.toFmt fresh
  match convertRows bits fmt stride bmp.pitch (linestepOf stride) width.toNat height.toNat
      height.toNat 0 bmp.bits g with
  | (some mem, g) => (some (bmp.setBits mem), g)
  | (none, g) => (none, g)

/-- GDI+ with `LockBits` and `UnlockBits` taken together. -/
def GdiLib.withBits : GdiLib G Id :=
  { lib with
    lockBits := fun g y h fmt =>
      match bits.lockBits g 0 y (lib.getWidth g).toNat h (lockFormat fmt) with
      | (.failed scan0, g) => (false, if scan0 then bits.unlockBits g else g)
      | (.ok _ _ got, g) => (decide (got = lockFormat fmt), bits.unlockBits g) }

/-- The active frame is not empty, and its bitmap takes less than 2 GB. -/
structure GdiLib.Fits (g : G) : Prop where
  width : 0 < lib.getWidth g
  row : (outFormat (lib.getPixelFormat g)).nbytes * (lib.getWidth g).toNat + 3 < 2147483648
  height : (lib.getHeight g).toNat < 2147483648
  all : ((outFormat (lib.getPixelFormat g)).nbytes * (lib.getWidth g).toNat + 3) *
    (lib.getHeight g).toNat < 2147483648

/-- The dimension that a file of several frames has them in, as far as GDI+ documents one: the time of
a gif, the pages of a tiff. -/
def GdiFormat.dimension : GdiFormat → Option FrameDimension
  | .gif => some .time
  | .tiff => some .page
  | .other => none

/-- What GDI+ promises of the file `buf`: it is of one format, and selects frames by the dimension of
that format only; a frame has its size and its rows in each pixel format, byte for byte; a lock gives
those that were asked for, if nothing is locked and they lie in the frame; what sets `Scan0` leaves
the bitmap locked until it is unlocked. -/
structure GdiFile (buf : List UInt8) where
  format : GdiFormat
  frames : Nat
  width : Int → UInt32
  height : Int → UInt32
  row : Int → PixelFmt → Nat → Nat → UInt8
  active : G → Int
  locked : G → Bool
  widths : ∀ g, lib.getWidth g = width (active g)
  heights : ∀ g, lib.getHeight g = height (active g)
  opened : ∀ g, lib.fromStream buf = some g → active g = 0 ∧ locked g = false
  raw : ∀ g fmt, lib.fromStream buf = some g → lib.getRawFormat g = some fmt → fmt = format
  counted : ∀ g dimids, lib.fromStream buf = some g → lib.getFrameDimensions g = some dimids →
    ∀ id ∈ dimids.head?, (lib.getFrameCount g id).toNat = frames
  selected : ∀ g dim (i : Int), format.dimension = some dim → 0 ≤ i → i < frames →
    active (lib.selectActiveFrame g dim i) = i ∧ locked (lib.selectActiveFrame g dim i) = locked g
  unlocked : ∀ g, locked (bits.unlockBits g) = false ∧ active (bits.unlockBits g) = active g
  lock : ∀ g y h fmt, locked g = false → 1 ≤ h → y + h ≤ (lib.getHeight g).toNat →
    let r := bits.lockBits g 0 y (lib.getWidth g).toNat h (lockFormat fmt)
    active r.2 = active g ∧
      match r.1 with
      | .failed scan0 => locked r.2 = scan0
      | .ok scan0 stride got => locked r.2 = true ∧ (got = lockFormat fmt →
          ∀ j < h, ∀ k < fmt.nbytes * (lib.getWidth g).toNat,
            scan0 (stride * (j : Int) + (k : Int)) = row (active g) fmt (y + j) k)

end Convert

/-! ## Strides -/

/-- The low two bits are cleared. -/
theorem and_clear_two {x : Nat} (h : x < 4294967296) : x &&& 4294967292 = x / 4 * 4 := by
  have hmask : (4294967292 : Nat) = (2 ^ 30 - 1) * 2 ^ 2 := by decide
  have hquot : x / 4 < 2 ^ 30 := by omega
  rw [hmask, show x / 4 * 4 = x / 2 ^ 2 * 2 ^ 2 from rfl]
  refine Nat.eq_of_testBit_eq fun i => ?_
  rw [Nat.testBit_and, Nat.testBit_mul_two_pow, Nat.testBit_mul_two_pow, Nat.testBit_two_pow_sub_one,
    Nat.testBit_div_two_pow]
  by_cases hi : 2 ≤ i
  · have hback : i - 2 + 2 = i := by omega
    simp only [hi, decide_true, Bool.true_and, hback]
    by_cases hlt : i - 2 < 30
    · simp only [hlt, decide_true, Bool.and_true]
    · have hbit : x.testBit i = false := by
        refine Nat.testBit_lt_two_pow (Nat.lt_of_lt_of_le h ?_)
        exact Nat.pow_le_pow_right (n := 2) (by decide) (by omega : 32 ≤ i)
      rw [hbit, Bool.false_and]
  · simp only [hi, decide_false, Bool.false_and, Bool.and_false]

section Strides

variable {fmt : PixelFmt} {width : UInt32}

theorem PixelFmt.nbytes_bounds (fmt : PixelFmt) : 2 ≤ fmt.nbytes ∧ fmt.nbytes ≤ 4 := by
  cases fmt <;> decide

theorem strideOf_eq (h : fmt.nbytes * width.toNat + 3 < 2147483648) :
    strideOf fmt width = ((fmt.nbytes * width.toNat + 3) / 4 * 4 : Nat) := by
  have hn := fmt.nbytes_bounds
  have hsum : (UInt32.ofNat fmt.nbytes * width + 3).toNat = fmt.nbytes * width.toNat + 3 := by
    rw [UInt32.toNat_add, UInt32.toNat_mul,
      UInt32.toNat_ofNat_of_lt' (by simp only [UInt32.size]; omega),
      Nat.mod_eq_of_lt (by omega : fmt.nbytes * width.toNat < 2 ^ 32)]
    exact Nat.mod_eq_of_lt (by omega : fmt.nbytes * width.toNat + 3 < 2 ^ 32)
  have hand : ((UInt32.ofNat fmt.nbytes * width + 3) &&& (0xfffffffc : UInt32)).toNat =
      (fmt.nbytes * width.toNat + 3) / 4 * 4 := by
    rw [UInt32.toNat_and, hsum]
    exact and_clear_two (by omega)
  rw [strideOf, toInt_of_lt (by rw [hand]; omega), hand]

theorem width_lt (h : fmt.nbytes * width.toNat + 3 < 2147483648) : width.toNat < 2147483648 := by
  have hmul := Nat.mul_le_mul_right width.toNat fmt.nbytes_bounds.1
  omega

theorem pitch_create (h : fmt.nbytes * width.toNat + 3 < 2147483648) (height : Int)
    (fresh : Int → UInt8) :
    (Raster.create width.toBitVec.toInt height fmt.toFmt fresh).pitch = strideOf fmt width := by
  have hround : ∀ n : Nat, pixelRound (n : Int) 4 = ((n + 3) / 4 * 4 : Nat) := by
    intro n
    unfold pixelRound
    omega
  change pixelRound (width.toBitVec.toInt * fmt.toFmt.pixelsize) 4 = _
  rw [strideOf_eq h, toInt_of_lt (width_lt h), fmt.pixelsize_toFmt, ← Int.natCast_mul, hround,
    Nat.mul_comm width.toNat]

theorem le_strideOf (h : fmt.nbytes * width.toNat + 3 < 2147483648) :
    ((fmt.nbytes * width.toNat : Nat) : Int) ≤ strideOf fmt width := by
  rw [strideOf_eq h]
  omega

theorem linestepOf_natCast (stride : Nat) : linestepOf stride = max 1 (1024 * 1024 * 10 / stride) := by
  have hdiv : Int.tdiv (1024 * 1024 * 10) (stride : Int) = ((1024 * 1024 * 10 / stride : Nat) : Int) :=
    rfl
  rw [linestepOf, hdiv]
  omega

end Strides

/-! ## Copying a frame -/

section Copy

variable {scan0 mem : Int → UInt8} {bmStride pitch : Int} {i blockh : Nat}

/-- The rows of a block are the blocks of memory behind each other. -/
theorem copyBlock_eq : copyBlock scan0 bmStride pitch pitch i blockh mem =
    fillBlocks (fun r : Nat => 0 + (r : Int) * pitch) pitch i blockh
      (fun r k => scan0 (bmStride * ((r - i : Nat) : Int) + k)) mem := by
  unfold copyBlock fillBlocks
  have hbody : ∀ j : Nat, i + j - i = j := fun j => by omega
  simp only [Int.zero_add, hbody]

theorem blocks_covered {n : Nat} : Covers n 0 pitch fun r : Nat => 0 + (r : Int) * pitch := covers_start

theorem copyBlock_row {y k : Nat} (hlo : i ≤ y) (hhi : y < i + blockh) (hk : (k : Int) < pitch) :
    copyBlock scan0 bmStride pitch pitch i blockh mem ((y : Int) * pitch + k) =
      scan0 (bmStride * ((y - i : Nat) : Int) + k) := by
  rw [copyBlock_eq, show (y : Int) * pitch + k = 0 + (y : Int) * pitch + k by omega]
  exact fillBlocks_in blocks_covered (Nat.le_refl _) hlo hhi (Int.natCast_nonneg k) hk

theorem copyBlock_other {y k : Nat} (hlo : y < i) (hk : (k : Int) < pitch) :
    copyBlock scan0 bmStride pitch pitch i blockh mem ((y : Int) * pitch + k) =
      mem ((y : Int) * pitch + k) := by
  rw [copyBlock_eq, show (y : Int) * pitch + k = 0 + (y : Int) * pitch + k by omega]
  exact fillBlocks_other blocks_covered (Nat.le_refl (i + blockh)) hlo (Int.natCast_nonneg k) hk

end Copy

section Frames

variable {G Id : Type} {lib : GdiLib G Id} {bits : GdiBits G} {buf : List UInt8}

variable (file : GdiFile lib bits buf)

/-- The first `n` rows of the frame are in memory. -/
def GdiFile.Copied (g : G) (fmt : PixelFmt) (pitch : Int) (n : Nat) (mem : Int → UInt8) : Prop :=
  ∀ y < n, ∀ k < fmt.nbytes * (lib.getWidth g).toNat,
    mem ((y : Int) * pitch + (k : Int)) = file.row (file.active g) fmt y k

/-- The outcome of a conversion: nothing is locked, the same frame is active, and what was made holds
all its rows. -/
structure GdiFile.Converted (g : G) (fmt : PixelFmt) (pitch : Int) (r : Option (Int → UInt8) × G) :
    Prop where
  locked : file.locked r.2 = false
  same : file.active r.2 = file.active g
  rows : ∀ mem, r.1 = some mem → file.Copied g fmt pitch (lib.getHeight g).toNat mem

variable {file}

theorem GdiFile.width_of_active {g g' : G} (h : file.active g' = file.active g) :
    lib.getWidth g' = lib.getWidth g := by
  rw [file.widths, file.widths, h]

theorem GdiFile.height_of_active {g g' : G} (h : file.active g' = file.active g) :
    lib.getHeight g' = lib.getHeight g := by
  rw [file.heights, file.heights, h]

theorem GdiFile.Converted.of_same {g g' : G} {fmt : PixelFmt} {pitch : Int}
    {r : Option (Int → UInt8) × G} (h : file.Converted g' fmt pitch r)
    (hs : file.active g' = file.active g) : file.Converted g fmt pitch r := by
  refine ⟨h.locked, h.same.trans hs, fun mem hmem => ?_⟩
  have hrows := h.rows mem hmem
  rw [height_of_active hs] at hrows
  intro y hy k hk
  rw [← hs]
  exact hrows y hy k (by rwa [width_of_active hs])

/-- One block: the rows before it stay, and its own are those of the frame. -/
theorem GdiFile.Copied.block {g : G} {fmt : PixelFmt} {pitch bmStride : Int} {i blockh : Nat}
    {mem scan0 : Int → UInt8} (h : file.Copied g fmt pitch i mem)
    (hpitch : ((fmt.nbytes * (lib.getWidth g).toNat : Nat) : Int) ≤ pitch)
    (hrows : ∀ j < blockh, ∀ k < fmt.nbytes * (lib.getWidth g).toNat,
      scan0 (bmStride * (j : Int) + (k : Int)) = file.row (file.active g) fmt (i + j) k) :
    file.Copied g fmt pitch (i + blockh) (copyBlock scan0 bmStride pitch pitch i blockh mem) := by
  intro y hy k hk
  by_cases hlo : i ≤ y
  · have hrow := hrows (y - i) (by omega) k hk
    rw [copyBlock_row hlo hy (by omega), hrow, show i + (y - i) = y by omega]
  · rw [copyBlock_other (by omega) (by omega)]
    exact h y (by omega) k hk

theorem GdiFile.Copied.of_same {g g' : G} {fmt : PixelFmt} {pitch : Int} {n : Nat}
    {mem : Int → UInt8} (h : file.Copied g fmt pitch n mem) (hs : file.active g' = file.active g) :
    file.Copied g' fmt pitch n mem := by
  intro y hy k hk
  rw [hs]
  exact h y hy k (by rwa [width_of_active hs] at hk)

/-- One call of `LockBits` and of `UnlockBits`, as the blocks are counted. -/
theorem withBits_lockBits (lib : GdiLib G Id) (bits : GdiBits G) (g : G) (y h : Nat) (fmt : PixelFmt) :
    (lib.withBits bits).lockBits g y h fmt =
      match bits.lockBits g 0 y (lib.getWidth g).toNat h (lockFormat fmt) with
      | (.failed scan0, g) => (false, if scan0 then bits.unlockBits g else g)
      | (.ok _ _ got, g) => (decide (got = lockFormat fmt), bits.unlockBits g) := rfl

theorem convertRows_spec (file : GdiFile lib bits buf) {fmt : PixelFmt} {pitch : Int}
    {linestep width height : Nat} (hpitch : ((fmt.nbytes * width : Nat) : Int) ≤ pitch)
    (hstep : 1 ≤ linestep) (fuel : Nat) :
    ∀ i mem g, file.locked g = false → (lib.getWidth g).toNat = width →
      (lib.getHeight g).toNat = height → height ≤ i + fuel →
      file.Copied g fmt pitch (min i height) mem →
      let r := convertRows bits fmt pitch pitch linestep width height fuel i mem g
      (r.1.isSome, r.2) = lockRows (lib.withBits bits) fmt linestep height fuel i g ∧
        file.Converted g fmt pitch r := by
  induction fuel with
  | zero =>
    intro i mem g hg hw hh hfuel hmem
    refine ⟨rfl, hg, rfl, ?_⟩
    rintro _ ⟨⟩
    rwa [hh, ← Nat.min_eq_right (by omega : height ≤ i)]
  | succ fuel ih =>
    intro i mem g hg hw hh hfuel hmem
    unfold convertRows lockRows
    by_cases hi : i < height
    · rw [Nat.min_eq_left (Nat.le_of_lt hi)] at hmem
      simp only [hi, if_true, withBits_lockBits, hw]
      have hend : i + min linestep (height - i) = min (i + linestep) height := by omega
      have hsize : 1 ≤ min linestep (height - i) := by omega
      have hin : i + min linestep (height - i) ≤ height := by omega
      generalize min linestep (height - i) = blockh at hend hsize hin
      have hlock := file.lock g i blockh fmt hg hsize (by rwa [hh])
      rw [hw] at hlock
      cases hr : bits.lockBits g 0 i width blockh (lockFormat fmt) with
      | mk res g' =>
        rw [hr] at hlock
        obtain ⟨hsame, hres⟩ := hlock
        have hopen := file.unlocked g'
        have hafter := hopen.2.trans hsame
        cases res with
        | failed scan0 =>
          simp only at hres
          cases scan0 with
          | false => exact ⟨rfl, hres, hsame, fun _ h => by cases h⟩
          | true => exact ⟨rfl, hopen.1, hafter, fun _ h => by cases h⟩
        | ok scan0 bmStride got =>
          obtain ⟨-, hrows⟩ := hres
          by_cases hgot : got = lockFormat fmt
          · rw [← hw] at hpitch hrows
            have hblock := (hmem.block hpitch (hrows hgot)).of_same hafter
            rw [hend] at hblock
            have hrest := ih (i + linestep) _ (bits.unlockBits g') hopen.1
              (by rw [GdiFile.width_of_active hafter, hw])
              (by rw [GdiFile.height_of_active hafter, hh]) (by omega) hblock
            simp only [hgot, ne_eq, not_true_eq_false, if_false, decide_true]
            exact ⟨hrest.1, hrest.2.of_same hafter⟩
          · simp only [hgot, ne_eq, not_false_eq_true, if_true, decide_false]
            exact ⟨rfl, hopen.1, hafter, fun _ h => by cases h⟩
    · simp only [hi, if_false]
      refine ⟨rfl, hg, rfl, ?_⟩
      rintro _ ⟨⟩
      rwa [hh, ← Nat.min_eq_right (by omega : height ≤ i)]

end Frames

/-! ## The bitmap of a frame -/

section Bitmap

variable {G Id : Type} {lib : GdiLib G Id} {bits : GdiBits G} {buf : List UInt8}
  {file : GdiFile lib bits buf}

/-- The bitmap is that of frame `i`, blended with the colour, in one of the formats. -/
def GdiFile.Drawn (file : GdiFile lib bits buf) (color : UInt32) (i : Int) (bmp : Raster) : Prop :=
  ∃ fmt : PixelFmt, bmp.fmt = fmt.toFmt ∧ bmp.w = (file.width i).toNat ∧
    bmp.h = (file.height i).toNat ∧ bmp.Shows color (file.row i fmt)

theorem gdiplusConvert_locks {lib : GdiLib G Id} {g : G} {fmt : PixelFmt} {linestep : Nat}
    (hfmt : outFormat (lib.getPixelFormat g) = fmt)
    (hlines : max 1 (1024 * 1024 * 10 / ((fmt.nbytes * (lib.getWidth g).toNat + 3) / 4 * 4)) =
      linestep) :
    gdiplusConvert lib g =
      let locks := lockRows lib fmt linestep (lib.getHeight g).toNat (lib.getHeight g).toNat 0 g
      (if locks.1 then
        some ⟨⟨(lib.getWidth g).toBitVec.toInt, (lib.getHeight g).toBitVec.toInt⟩, fmt⟩
      else none, locks.2) := by
  subst hfmt hlines
  unfold gdiplusConvert
  dsimp only
  generalize lockRows lib _ _ _ _ 0 g = locks
  obtain ⟨_ | _, g'⟩ := locks <;> rfl

theorem convertPixels_spec (file : GdiFile lib bits buf) {g : G} (hfits : lib.Fits g)
    (hg : file.locked g = false) (fresh : Int → UInt8) :
    let r := convertPixels lib bits fresh g
    (r.1.map Raster.outline, r.2) = gdiplusConvert (lib.withBits bits) g ∧
      file.locked r.2 = false ∧ ∀ bmp, r.1 = some bmp → ∀ color,
        file.Drawn color (file.active g) (bmp.blendColor color) := by
  have hrow := hfits.row
  have hheight := toInt_of_lt hfits.height
  generalize hfmt : outFormat (lib.getPixelFormat g) = fmt at hrow
  have hlines : linestepOf (strideOf fmt (lib.getWidth g)) =
      max 1 (1024 * 1024 * 10 / ((fmt.nbytes * (lib.getWidth g).toNat + 3) / 4 * 4)) := by
    rw [strideOf_eq hrow, linestepOf_natCast]
  have hspec := convertRows_spec file (le_strideOf hrow)
    (by rw [hlines]; omega : 1 ≤ linestepOf (strideOf fmt (lib.getWidth g))) (lib.getHeight g).toNat
    0 fresh g hg rfl rfl (Nat.le_add_left _ _)
    (by rw [Nat.zero_min]; exact fun y hy => absurd hy (Nat.not_lt_zero y))
  obtain ⟨hrows, hconv⟩ := hspec
  have hpitch := pitch_create hrow (lib.getHeight g).toBitVec.toInt fresh
  have hbits : (Raster.create (lib.getWidth g).toBitVec.toInt (lib.getHeight g).toBitVec.toInt
    fmt.toFmt fresh).bits = fresh := rfl
  unfold convertPixels
  simp only [hfmt, hpitch, hbits]
  have hold : gdiplusConvert (lib.withBits bits) g =
      let locks := lockRows (lib.withBits bits) fmt (linestepOf (strideOf fmt (lib.getWidth g)))
        (lib.getHeight g).toNat (lib.getHeight g).toNat 0 g
      (if locks.1 then
        some ⟨⟨(lib.getWidth g).toBitVec.toInt, (lib.getHeight g).toBitVec.toInt⟩, fmt⟩
      else none, locks.2) := gdiplusConvert_locks hfmt hlines.symm
  rw [hold, ← hrows]
  generalize convertRows bits fmt _ _ _ _ _ _ 0 fresh g = r at hconv
  obtain ⟨_ | mem, g'⟩ := r
  · exact ⟨rfl, hconv.locked, fun _ h => by cases h⟩
  · refine ⟨?_, hconv.locked, ?_⟩
    · simp only [Option.isSome_some, Option.map_some, Raster.outline, Raster.setBits, Raster.create,
        PixelFmt.toPixelFmt_toFmt, if_true]
    · rintro _ ⟨⟩ color
      refine ⟨fmt, ?_, ?_, ?_, Raster.shows_blendColor fun y hy k hk => ?_⟩
      · rw [Raster.blendColor_fmt]
        rfl
      · rw [Raster.blendColor_w, ← file.widths]
        exact toInt_of_lt (width_lt hrow)
      · rw [Raster.blendColor_h, ← file.heights]
        exact hheight
      · have hcopied := hconv.rows mem rfl
        have hline : ((Raster.create (lib.getWidth g).toBitVec.toInt (lib.getHeight g).toBitVec.toInt
          fmt.toFmt fresh).setBits mem).pitch = strideOf fmt (lib.getWidth g) := hpitch
        rw [hline]
        simp only [Raster.setBits, Raster.create] at hy hk ⊢
        rw [hheight, Int.toNat_natCast] at hy
        rw [toInt_of_lt (width_lt hrow), Int.toNat_natCast, fmt.pixelsize_toFmt, Nat.mul_comm] at hk
        exact hcopied y hy k hk

end Bitmap

/-! ## The image -/

/-- `GdiPlusImage`, with the pixels of its bitmap. -/
structure GdiPlusPixels (G : Type) where
  filebuf : Option (List UInt8)
  imgfmt : GdiFormat := .other
  dimension : Size := ⟨0, 0⟩
  framecnt : Int := 0
  framedelay : List Int := []
  loopnum : Int := 0
  curfid : Int := 0
  fbitmap : Option Raster := none
  gbitmap : Option G := none
  bgcolor : UInt32

namespace GdiPlusPixels

variable {G Id : Type} (lib : GdiLib G Id) (bits : GdiBits G) (fresh : Int → UInt8)
  (img : GdiPlusPixels G)

/-- The image without the pixels. -/
def outline : GdiPlusImage G :=
  { filebuf := img.filebuf, imgfmt := img.imgfmt, dimension := img.dimension, framecnt := img.framecnt,
    framedelay := img.framedelay, loopnum := img.loopnum, curfid := img.curfid,
    fbitmap := img.fbitmap.map Raster.outline, gbitmap := img.gbitmap }

def nextFrame (rewind : Bool) : IM × GdiPlusPixels G :=
  if img.framecnt ≤ 1 then (.OK, img)
  else
    let img := { img with curfid := if rewind then 0 else img.curfid + 1 }
    if img.curfid ≥ img.framecnt then (.NO_MORE_FRAMES, img)
    else
      match img.gbitmap with
      | none => (.FAIL, img)
      | some g =>
        let pageid : FrameDimension := if img.imgfmt = .gif then .time else .page
        match convertPixels lib bits fresh (lib.selectActiveFrame g pageid img.curfid) with
        | (none, g) => (.FAIL, { img with fbitmap := none, gbitmap := some g })
        | (some bmp, g) =>
          (.OK, { img with fbitmap := some (bmp.blendColor img.bgcolor), gbitmap := some g })

/-- The end of `openFromBuffer`: the first frame becomes the bitmap. -/
def convertFirst (g : G) : IM × GdiPlusPixels G :=
  match convertPixels lib bits fresh g with
  | (none, g) => (.FAIL, { img with gbitmap := some g })
  | (some bmp, g) =>
    let fbitmap := some (bmp.blendColor img.bgcolor)
    if img.framecnt ≤ 1 then (.OK, { img with fbitmap, gbitmap := none, filebuf := none })
    else (.OK, { img with fbitmap, gbitmap := some g })

/-- `openFromBuffer`; the properties of the file are read as in `GdiPlusImage`. -/
def openFromBuffer (bgcolor : UInt32) (buf : List UInt8) : IM × GdiPlusPixels G :=
  let img : GdiPlusPixels G := { filebuf := some buf, bgcolor }
  if ¬ lib.createStream buf then (.FAIL, img)
  else
    match lib.fromStream buf with
    | none => (.FAIL, img)
    | some g =>
      let img := { img with
        gbitmap := some g
        dimension := ⟨(lib.getWidth g).toBitVec.toInt, (lib.getHeight g).toBitVec.toInt⟩ }
      match lib.getRawFormat g with
      | none => (.NOT_SUPPORTED, img)
      | some imgfmt =>
        match lib.getFrameDimensions g with
        | none => (.FAIL, { img with imgfmt })
        | some dimids =>
          let framecnt : UInt32 := (dimids.head?.map (lib.getFrameCount g)).getD 1
          let cnt := framecnt.toBitVec.toInt
          let cnt := if cnt > 1 ∧ imgfmt ≠ .gif ∧ imgfmt ≠ .tiff then 1 else cnt
          let img := { img with imgfmt, framecnt := cnt }
          if framecnt > 1 then
            match GdiPlusImage.readAnimation lib framecnt g with
            | none => (.FAIL, img)
            | some (framedelay, loopnum) =>
              { img with framedelay, loopnum }.convertFirst lib bits fresh g
          else img.convertFirst lib bits fresh g

/-- An image opened from `buf` and the `nextFrame` calls made on it, each with what is in the memory it
gets. -/
def shown (bgcolor : UInt32) (buf : List UInt8) :
    Machine (GdiPlusPixels G) (Bool × (Int → UInt8)) :=
  .ofExec (fun img => ∃ fresh, openFromBuffer lib bits fresh bgcolor buf = (.OK, img))
    fun img l => some (img.nextFrame lib bits l.2 l.1).2

/-- `pageid`, the dimension that `nextFrame` selects a frame by. -/
def pageid : FrameDimension := if img.imgfmt = .gif then .time else .page

/-- For the formats of several frames this is their dimension. -/
theorem dimension_pageid {img : GdiPlusPixels G} (h : img.imgfmt = .gif ∨ img.imgfmt = .tiff) :
    img.imgfmt.dimension = some img.pageid := by
  unfold pageid
  rcases h with h | h <;> rw [h] <;> rfl

/-- The frame that the bitmap is of: the one `curfid` counts, which goes on behind the last. -/
def frameId : Int := if img.framecnt ≤ 1 then 0 else min img.curfid (img.framecnt - 1)

/-! ## Without the pixels -/

section Outline

variable {lib bits fresh img} {g : G}

/-- The conversion of this state is, without the pixels, `gdiplusConvert`. -/
def Agrees (lib : GdiLib G Id) (bits : GdiBits G) (fresh : Int → UInt8) (g : G) : Prop :=
  ((convertPixels lib bits fresh g).1.map Raster.outline, (convertPixels lib bits fresh g).2) =
    gdiplusConvert (lib.withBits bits) g

theorem convertFirst_outline (h : Agrees lib bits fresh g) :
    ((img.convertFirst lib bits fresh g).1, (img.convertFirst lib bits fresh g).2.outline) =
      img.outline.convertFirst (lib.withBits bits) g := by
  unfold convertFirst GdiPlusImage.convertFirst
  rw [← h]
  obtain ⟨_ | bmp, g'⟩ := convertPixels lib bits fresh g
  · rfl
  · have hcnt : img.outline.framecnt = img.framecnt := rfl
    simp only [Option.map_some, hcnt]
    split
    · simp only [outline, Option.map_some, Raster.outline_blendColor]
    · simp only [outline, Option.map_some, Raster.outline_blendColor]

theorem nextFrame_outline (rewind : Bool) (hcurfid : 0 ≤ img.curfid)
    (h : ∀ g fid, img.gbitmap = some g → 1 < img.framecnt → 0 ≤ fid → fid < img.framecnt →
      Agrees lib bits fresh (lib.selectActiveFrame g img.pageid fid)) :
    ((img.nextFrame lib bits fresh rewind).1, (img.nextFrame lib bits fresh rewind).2.outline) =
      img.outline.nextFrame (lib.withBits bits) rewind := by
  unfold nextFrame GdiPlusImage.nextFrame
  have hcnt : img.outline.framecnt = img.framecnt := rfl
  have hcur : img.outline.curfid = img.curfid := rfl
  simp only [hcnt, hcur]
  by_cases hstill : img.framecnt ≤ 1
  · simp only [hstill, if_true]
  · by_cases hend : (if rewind then 0 else img.curfid + 1) ≥ img.framecnt
    · simp only [hstill, hend, if_false, if_true]
      rfl
    · have hmap : img.outline.gbitmap = img.gbitmap := rfl
      simp only [hstill, hend, if_false, hmap]
      cases hg : img.gbitmap with
      | none => simp only [outline, hg]
      | some g =>
        have hconv := h g (if rewind then 0 else img.curfid + 1) hg (by omega) (by split <;> omega)
          (by omega)
        rw [pageid] at hconv
        simp only [GdiPlusImage.selectFrame]
        have hselect : (lib.withBits bits).selectActiveFrame = lib.selectActiveFrame := rfl
        have hfmt : img.outline.imgfmt = img.imgfmt := rfl
        simp only [hselect, hfmt]
        rw [← hconv]
        obtain ⟨_ | bmp, g'⟩ := convertPixels lib bits fresh _
        · rfl
        · simp only [outline, Option.map_some, Raster.outline_blendColor]

theorem openFromBuffer_outline (bgcolor : UInt32) {buf : List UInt8}
    (h : ∀ g, lib.fromStream buf = some g → Agrees lib bits fresh g) :
    ((openFromBuffer lib bits fresh bgcolor buf).1,
        (openFromBuffer lib bits fresh bgcolor buf).2.outline) =
      GdiPlusImage.openFromBuffer (lib.withBits bits) buf := by
  have hcreate : (lib.withBits bits).createStream = lib.createStream := rfl
  have hfrom : (lib.withBits bits).fromStream = lib.fromStream := rfl
  have hraw : (lib.withBits bits).getRawFormat = lib.getRawFormat := rfl
  have hdims : (lib.withBits bits).getFrameDimensions = lib.getFrameDimensions := rfl
  have hcount : (lib.withBits bits).getFrameCount = lib.getFrameCount := rfl
  have hanim : ∀ n g, GdiPlusImage.readAnimation (lib.withBits bits) n g =
    GdiPlusImage.readAnimation lib n g := fun _ _ => rfl
  unfold openFromBuffer GdiPlusImage.openFromBuffer
  simp only [hcreate, hfrom, hraw, hdims, hcount, hanim]
  by_cases hstream : lib.createStream buf = true
  · simp only [hstream, not_true_eq_false, if_false]
    cases hg : lib.fromStream buf with
    | none => rfl
    | some g =>
      have hconv := h g hg
      dsimp only
      cases lib.getRawFormat g with
      | none => rfl
      | some imgfmt =>
        dsimp only
        cases lib.getFrameDimensions g with
        | none => rfl
        | some dimids =>
          dsimp only
          split
          · cases GdiPlusImage.readAnimation lib _ g with
            | none => rfl
            | some anim => exact convertFirst_outline hconv
          · exact convertFirst_outline hconv
  · simp only [hstream]
    rfl

end Outline

/-! ## Every run -/

section Runs

variable {lib bits} {buf : List UInt8} {file : GdiFile lib bits buf} {bgcolor : UInt32}

/-- Nothing is locked, and the bitmap is that of the frame that the image is at. -/
structure Kept (file : GdiFile lib bits buf) (bgcolor : UInt32) (img : GdiPlusPixels G) : Prop where
  color : img.bgcolor = bgcolor
  curfid : 0 ≤ img.curfid
  count : img.framecnt ≤ 1 ∨
    img.gbitmap.isSome ∧ img.framecnt ≤ file.frames ∧ file.format.dimension = some img.pageid
  unlocked : ∀ g, img.gbitmap = some g → file.locked g = false
  drawn : ∀ bmp, img.fbitmap = some bmp → file.Drawn bgcolor img.frameId bmp

theorem convertFirst_kept (hfits : ∀ g, lib.Fits g) {img img' : GdiPlusPixels G} {g : G}
    (hg : file.active g = 0 ∧ file.locked g = false) (hcurfid : img.curfid = 0)
    (hcount : img.framecnt ≤ 1 ∨
      img.framecnt ≤ file.frames ∧ file.format.dimension = some img.pageid)
    (h : img.convertFirst lib bits fresh g = (.OK, img')) : Kept file img.bgcolor img' := by
  obtain ⟨-, hlocked, hdrawn⟩ := convertPixels_spec file (hfits g) hg.2 fresh
  unfold convertFirst at h
  generalize convertPixels lib bits fresh g = r at h hlocked hdrawn
  obtain ⟨_ | bmp, g'⟩ := r
  · cases h
  · have hfirst := hdrawn bmp rfl img.bgcolor
    rw [hg.1] at hfirst
    simp only at h
    split at h
    · rename_i hstill
      cases h
      refine ⟨rfl, Int.le_of_eq hcurfid.symm, .inl hstill, (fun _ h => by cases h), ?_⟩
      rintro _ ⟨⟩
      rw [frameId, if_pos hstill]
      exact hfirst
    · rename_i hanim
      cases h
      refine ⟨rfl, Int.le_of_eq hcurfid.symm, .inr ⟨rfl, hcount.resolve_left hanim⟩, ?_, ?_⟩
      · rintro _ ⟨⟩
        exact hlocked
      · rintro _ ⟨⟩
        have hid : min img.curfid (img.framecnt - 1) = 0 := by omega
        rw [frameId, if_neg hanim, hid]
        exact hfirst

theorem openFromBuffer_kept (hfits : ∀ g, lib.Fits g) {img : GdiPlusPixels G}
    (h : openFromBuffer lib bits fresh bgcolor buf = (.OK, img)) : Kept file bgcolor img := by
  unfold openFromBuffer at h
  simp only at h
  split at h
  · cases h
  · cases hg : lib.fromStream buf with
    | none => rw [hg] at h; cases h
    | some g =>
      rw [hg] at h
      have hopened := file.opened g hg
      dsimp only at h
      split at h
      · cases h
      · rename_i imgfmt hraw
        obtain rfl := file.raw g imgfmt hg hraw
        split at h
        · cases h
        · rename_i dimids hdims
          have hcount : ∀ img : GdiPlusPixels G, img.imgfmt = file.format →
              let framecnt := (dimids.head?.map (lib.getFrameCount g)).getD 1
              let cnt := framecnt.toBitVec.toInt
              let cnt := if cnt > 1 ∧ file.format ≠ .gif ∧ file.format ≠ .tiff then 1 else cnt
              cnt ≤ 1 ∨ cnt ≤ file.frames ∧ file.format.dimension = some img.pageid := by
            intro img hfmt framecnt cnt
            dsimp only
            split
            · exact .inl (Int.le_refl 1)
            · rename_i hsome
              refine Classical.or_iff_not_imp_left.mpr fun hmany => ⟨?_, ?_⟩
              swap
              · have hformat : img.imgfmt = .gif ∨ img.imgfmt = .tiff := by
                  rw [hfmt]
                  refine Decidable.not_not.mp fun hother => hsome ⟨by omega, ?_⟩
                  exact not_or.mp hother
                rw [← hfmt]
                exact dimension_pageid hformat
              have hle : cnt ≤ framecnt.toNat := by
                have hcond := BitVec.toInt_eq_toNat_cond framecnt.toBitVec
                have hnat : framecnt.toBitVec.toNat = framecnt.toNat := rfl
                split at hcond <;> omega
              cases hhead : dimids.head? with
              | none =>
                have hone : framecnt = 1 := by simp [framecnt, hhead]
                have hcnt : cnt = 1 := by rw [show cnt = framecnt.toBitVec.toInt from rfl, hone]; decide
                omega
              | some id =>
                have hid : framecnt = lib.getFrameCount g id := by simp [framecnt, hhead]
                rwa [hid, file.counted g dimids hg hdims id hhead] at hle
          split at h
          · split at h
            · cases h
            · exact convertFirst_kept fresh hfits hopened rfl (hcount _ rfl) h
          · exact convertFirst_kept fresh hfits hopened rfl (hcount _ rfl) h

theorem nextFrame_kept (hfits : ∀ g, lib.Fits g) {img : GdiPlusPixels G} (hk : Kept file bgcolor img)
    (rewind : Bool) : Kept file bgcolor (img.nextFrame lib bits fresh rewind).2 := by
  have hcurfid := hk.curfid
  unfold nextFrame
  by_cases hstill : img.framecnt ≤ 1
  · rw [if_pos hstill]
    exact hk
  rw [if_neg hstill]
  obtain ⟨hsome, hframes, hdim⟩ := hk.count.resolve_left hstill
  dsimp only
  have hfid : 0 ≤ (if rewind then 0 else img.curfid + 1) := by split <;> omega
  have hnext : (if rewind then 0 else img.curfid + 1) = 0 ∨
    (if rewind then 0 else img.curfid + 1) = img.curfid + 1 := by split <;> simp
  generalize (if rewind then 0 else img.curfid + 1) = fid at hfid hnext
  by_cases hend : fid ≥ img.framecnt
  · -- behind the last frame, which stays
    rw [if_pos hend]
    refine ⟨hk.color, hfid, .inr ⟨hsome, hframes, hdim⟩, hk.unlocked, fun bmp hbmp => ?_⟩
    have hdrawn := hk.drawn bmp hbmp
    have hlast : min img.curfid (img.framecnt - 1) = min fid (img.framecnt - 1) := by omega
    rw [frameId, if_neg hstill] at hdrawn ⊢
    rwa [hlast] at hdrawn
  · rw [if_neg hend]
    obtain ⟨g, hg⟩ := Option.isSome_iff_exists.mp hsome
    simp only [hg]
    obtain ⟨hactive, hlocked⟩ := file.selected g img.pageid fid hdim hfid (by omega)
    rw [pageid] at hactive hlocked
    rw [hk.unlocked g hg] at hlocked
    obtain ⟨-, hfree, hdrawn⟩ := convertPixels_spec file (hfits _) hlocked fresh
    rw [hactive] at hdrawn
    generalize convertPixels lib bits fresh _ = r at hfree hdrawn
    obtain ⟨_ | bmp, g'⟩ := r
    · refine ⟨hk.color, hfid, .inr ⟨rfl, hframes, hdim⟩, ?_, fun _ h => by cases h⟩
      rintro _ ⟨⟩
      exact hfree
    · refine ⟨hk.color, hfid, .inr ⟨rfl, hframes, hdim⟩, ?_, ?_⟩
      · rintro _ ⟨⟩
        exact hfree
      · rintro _ ⟨⟩
        have hid : min fid (img.framecnt - 1) = fid := by omega
        rw [frameId, if_neg hstill, hid, hk.color]
        exact hdrawn bmp rfl bgcolor

/-- **A bitmap is always that of the frame the image is at.** Let no frame be empty or take 2 GB. In every
run of `nextFrame` calls on an opened image, whatever the memory it gets holds: the size and format of
the bitmap are those of `GdiPlusImage`; nothing is left locked; and the bitmap has, pixel for pixel, the
frame that `curfid` counts, blended with the background, where behind the last frame the last one
stays. -/
theorem gdi_frame_shown (file : GdiFile lib bits buf) (hfits : ∀ g, lib.Fits g) {img : GdiPlusPixels G}
    (h : (shown lib bits bgcolor buf).Reach Machine.always img) :
    (GdiPlusImage.shown (lib.withBits bits) buf).Reach Machine.always img.outline ∧
      (∀ g, img.gbitmap = some g → file.locked g = false) ∧
      ∀ bmp, img.fbitmap = some bmp → file.Drawn bgcolor img.frameId bmp := by
  have hrun : Kept file bgcolor img ∧
      (GdiPlusImage.shown (lib.withBits bits) buf).Reach Machine.always img.outline := by
    refine h.holds (P := fun img => Kept file bgcolor img ∧
      (GdiPlusImage.shown (lib.withBits bits) buf).Reach Machine.always img.outline) ?_ ?_
    · rintro img ⟨fresh, hopen⟩
      have houtline := openFromBuffer_outline bgcolor fun g hg =>
          (convertPixels_spec file (hfits g) (file.opened g hg).2 fresh).1
      rw [hopen] at houtline
      exact ⟨openFromBuffer_kept fresh hfits hopen, .of_init houtline.symm⟩
    · rintro img ⟨rewind, fresh⟩ img' ⟨hk, hreach⟩ - hstep
      obtain rfl := Option.some.inj hstep
      have houtline := nextFrame_outline rewind hk.curfid
        fun g fid hg hanim hlo hhi => by
          obtain ⟨-, hframes, hdim⟩ := hk.count.resolve_left (Int.not_le.mpr hanim)
          obtain ⟨-, hlocked⟩ := file.selected g img.pageid fid hdim hlo (by omega)
          exact (convertPixels_spec file (hfits _) (hlocked.trans (hk.unlocked g hg)) fresh).1
      refine ⟨nextFrame_kept fresh hfits hk rewind, hreach.step (l := rewind) trivial ?_⟩
      exact congrArg (fun r => some r.2) houtline.symm
  exact ⟨hrun.2, hrun.1.unlocked, hrun.1.drawn⟩

end Runs

/-! ## A gif of two frames -/

/-- GDI+ on a gif of one column and two rows; a state is the active frame and whether it is locked. -/
def gifLib : GdiLib (Int × Bool) Unit where
  createStream _ := true
  fromStream _ := some (0, false)
  getWidth _ := 1
  getHeight _ := 2
  getRawFormat _ := some .gif
  getFrameDimensions _ := some [()]
  getFrameCount _ _ := 2
  frameDelay _ := some fun _ => 10
  loopCount _ := some 0
  getPixelFormat _ := .argb32
  selectActiveFrame g dim i := if dim = .time then (i, g.2) else g
  lockBits g _ _ _ := (false, g)

def gifRow (i y k : Int) : UInt8 := UInt8.ofInt (100 * i + 10 * y + k)

def gifBits : GdiBits (Int × Bool) where
  lockBits g _ y _ _ fmt :=
    if g.2 then (.failed false, g)
    else (.ok (fun a => gifRow g.1 (y + a / 16) (a % 16)) 16 fmt, (g.1, true))
  unlockBits g := (g.1, false)

def gifFile (buf : List UInt8) : GdiFile gifLib gifBits buf where
  format := .gif
  frames := 2
  width _ := 1
  height _ := 2
  row i _ y k := gifRow i y k
  active := Prod.fst
  locked := Prod.snd
  widths _ := rfl
  heights _ := rfl
  opened := by
    rintro _ ⟨⟩
    exact ⟨rfl, rfl⟩
  raw := by
    rintro g _ - ⟨⟩
    rfl
  counted _ _ _ _ _ _ := rfl
  selected := by
    rintro g _ i ⟨⟩ - -
    exact ⟨rfl, rfl⟩
  unlocked _ := ⟨rfl, rfl⟩
  lock g y h fmt hg _ _ := by
    have hn := fmt.nbytes_bounds.2
    simp only [gifBits, hg, Bool.false_eq_true, if_false, true_and]
    intro _ j _ k hk
    have hk : k < fmt.nbytes * 1 := hk
    have hrow : (16 * (j : Int) + k) / 16 = j ∧ (16 * (j : Int) + k) % 16 = k := by omega
    rw [hrow.1, hrow.2, Int.natCast_add]

theorem gif_fits (g : Int × Bool) : gifLib.Fits g :=
  ⟨show (0 : UInt32) < 1 by decide, show 4 * 1 + 3 < 2147483648 by decide,
    show 2 < 2147483648 by decide, show (4 * 1 + 3) * 2 < 2147483648 by decide⟩

/-- The gif at its second frame, in memory that held something else. -/
def gifSecond : GdiPlusPixels (Int × Bool) :=
  ((openFromBuffer gifLib gifBits (fun _ => 7) 0xfafafa []).2.nextFrame gifLib gifBits (fun _ => 9)
    false).2

theorem gdi_frame_shown_second : ∃ bmp, gifSecond.fbitmap = some bmp ∧ gifSecond.curfid = 1 ∧
    (gifFile []).Drawn 0xfafafa 1 bmp := by
  have hinit : (shown gifLib gifBits 0xfafafa []).init
    (openFromBuffer gifLib gifBits (fun _ => 7) 0xfafafa []).2 := ⟨fun _ => 7, rfl⟩
  have hreach : (shown gifLib gifBits 0xfafafa []).Reach Machine.always gifSecond :=
    (Machine.Reach.of_init hinit).step (l := (false, fun _ => 9)) trivial rfl
  have hsome : gifSecond.fbitmap.isSome = true := rfl
  obtain ⟨bmp, hbmp⟩ := Option.isSome_iff_exists.mp hsome
  have hdrawn := (gdi_frame_shown (gifFile []) gif_fits hreach).2.2 bmp hbmp
  exact ⟨bmp, hbmp, rfl, hdrawn⟩

end GdiPlusPixels

end ObZrv
