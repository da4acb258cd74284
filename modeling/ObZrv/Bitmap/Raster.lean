import ObZrv.Lib.Cells
import ObZrv.Lib.LittleEndian
import ObZrv.Bitmap.BlendColor
import ObZrv.Codec.Image

/-!
# Bitmap.Raster

`BasicBitmap` with the bytes of its rows, and `BlendColor` on it.

* `blendColor_pixel` : every pixel is blended with the colour by what it was.
* `shows_blendColor` : a picture copied in and blended is shown.
-/

namespace ObZrv

open Lib

def Fmt.pixelsize (fmt : Fmt) : Nat := (fmt.bpp + 1) / 8

/-- `pixel_round`, for a power of two. -/
def pixelRound (x n : Int) : Int := (x + n - 1) / n * n

/-- A `BasicBitmap`; row `y` begins at `y * pitch`. -/
structure Raster where
  w : Int
  h : Int
  fmt : Fmt
  pitch : Int
  bits : Int → UInt8
  pitch_ge : w * fmt.pixelsize ≤ pitch

theorem le_pixelRound (x : Int) : x ≤ pixelRound x 4 := by
  unfold pixelRound
  omega

namespace Raster

/-- The constructor, with what the memory holds when it is allocated. -/
def create (w h : Int) (fmt : Fmt) (fresh : Int → UInt8) : Raster where
  w
  h
  fmt
  pitch := pixelRound (w * fmt.pixelsize) 4
  bits := fresh
  pitch_ge := le_pixelRound _

variable (r : Raster)

/-- The bytes of a pixel. -/
def pixel (x y : Nat) : List UInt8 :=
  loadCells r.bits ((y : Int) * r.pitch + (x : Int) * r.fmt.pixelsize) r.fmt.pixelsize

def setBits (bits : Int → UInt8) : Raster := { r with bits }

/-- The loops over the rows and their pixels. -/
def mapPixels (p : List UInt8 → List UInt8) : Raster :=
  r.setBits (mapRows r.fmt.pixelsize p r.pitch r.w.toNat r.h.toNat r.bits)

end Raster

/-! ## Blending with one colour -/

/-- A loop body on an `IUINT32*`, and on an `IUINT16*`. -/
def onU32 (p : UInt32 → UInt32) (bytes : List UInt8) : List UInt8 :=
  leBytes 4 (p (UInt32.ofNat (leNat bytes))).toNat
def onU16 (p : UInt16 → UInt16) (bytes : List UInt8) : List UInt8 :=
  leBytes 2 (p (UInt16.ofNat (leNat bytes))).toNat

/-- `_pixel_asm_1555` and `_pixel_asm_4444`. -/
def pixelAsm1555 (a b c d : UInt32) : UInt16 :=
  ((a &&& 0x80).toUInt16 <<< 8) ||| ((b &&& 0xf8).toUInt16 <<< 7) |||
    ((c &&& 0xf8).toUInt16 <<< 2) ||| ((d &&& 0xf8).toUInt16 >>> 3)
def pixelAsm4444 (a b c d : UInt32) : UInt16 :=
  ((a &&& 0xf0).toUInt16 <<< 8) ||| ((b &&& 0xf0).toUInt16 <<< 4) |||
    (c &&& 0xf0).toUInt16 ||| ((d &&& 0xf0).toUInt16 >>> 4)

/-- `_pixel_scale_4`, with which `_pixel_disasm_4444` widens a channel. -/
def pixelScale4 (c : UInt16) : UInt32 :=
  [0, 16, 32, 49, 65, 82, 98, 115, 139, 156, 172, 189, 205, 222, 238, 255].getD (c &&& 0xf).toNat 0

/-- A pixel of the loop for A1R5G5B5. -/
def blend1555 (opaqueBg p : UInt16) : UInt16 := if p &&& 0x8000 = 0 then opaqueBg else p

/-- A pixel of the loop for A4R4G4B4. -/
def blend4444 (bgR bgG bgB : UInt32) (p : UInt16) : UInt16 :=
  let a := pixelScale4 (p >>> 12)
  let r := pixelScale4 (p >>> 8)
  let g := pixelScale4 (p >>> 4)
  let b := pixelScale4 p
  if a = 0 then pixelAsm4444 0xff bgR bgG bgB
  else if a < 255 then
    let invA := 255 - a
    pixelAsm4444 0xff (pixelFastDiv255 (r * a + bgR * invA)) (pixelFastDiv255 (g * a + bgG * invA))
      (pixelFastDiv255 (b * a + bgB * invA))
  else pixelAsm4444 0xff r g b

/-- What `BlendColor` does with a pixel; of a format without alpha nothing. -/
def blendPixel (fmt : Fmt) (color : UInt32) : List UInt8 → List UInt8 :=
  let bgR := (color >>> 16) &&& byteMask
  let bgG := (color >>> 8) &&& byteMask
  let bgB := color &&& byteMask
  match fmt with
  | .A8R8G8B8 => onU32 (blendColorPixel (color &&& rbMask) ((color >>> 8) &&& rbMask))
  | .A8B8G8R8 => onU32 (blendColorPixel ((bgR ||| (bgB <<< 16)) &&& rbMask) ((color >>> 8) &&& rbMask))
  | .A1R5G5B5 => onU16 (blend1555 (pixelAsm1555 0xff bgR bgG bgB))
  | .A4R4G4B4 => onU16 (blend4444 bgR bgG bgB)
  | _ => id

/-- `BlendColor`. -/
def Raster.blendColor (color : UInt32) (r : Raster) : Raster :=
  if r.fmt ≠ .A8R8G8B8 ∧ r.fmt ≠ .A8B8G8R8 ∧ r.fmt ≠ .A1R5G5B5 ∧ r.fmt ≠ .A4R4G4B4 then r
  else r.mapPixels (blendPixel r.fmt color)

theorem blendPixel_length (fmt : Fmt) (color : UInt32) (bytes : List UInt8)
    (h : bytes.length = fmt.pixelsize) : (blendPixel fmt color bytes).length = fmt.pixelsize := by
  cases fmt with
  | A8R8G8B8 => exact leBytes_length _ _
  | A8B8G8R8 => exact leBytes_length _ _
  | A1R5G5B5 => exact leBytes_length _ _
  | A4R4G4B4 => exact leBytes_length _ _
  | X8R8G8B8 => exact h
  | R8G8B8 => exact h
  | R5G6B5 => exact h
  | X1R5G5B5 => exact h
  | G8 => exact h

namespace Raster

variable {r : Raster} {color : UInt32} {x y : Nat}

theorem mapPixels_pixel {p : List UInt8 → List UInt8}
    (hp : ∀ l, l.length = r.fmt.pixelsize → (p l).length = r.fmt.pixelsize) (hx : x < r.w.toNat)
    (hy : y < r.h.toNat) : (r.mapPixels p).pixel x y = p (r.pixel x y) := by
  have hwidth : (r.w.toNat : Int) = r.w := by omega
  refine mapRows_load hp r.bits ?_ hy hx
  rw [hwidth]
  exact r.pitch_ge

/-- Only the pixels change. -/
theorem blendColor_eq (color : UInt32) (r : Raster) : ∃ bits, r.blendColor color = r.setBits bits := by
  unfold blendColor
  split
  · exact ⟨r.bits, rfl⟩
  · exact ⟨_, rfl⟩

@[simp] theorem blendColor_w (color : UInt32) (r : Raster) : (r.blendColor color).w = r.w := by
  obtain ⟨bits, h⟩ := blendColor_eq color r
  rw [h, setBits]

@[simp] theorem blendColor_h (color : UInt32) (r : Raster) : (r.blendColor color).h = r.h := by
  obtain ⟨bits, h⟩ := blendColor_eq color r
  rw [h, setBits]

@[simp] theorem blendColor_fmt (color : UInt32) (r : Raster) : (r.blendColor color).fmt = r.fmt := by
  obtain ⟨bits, h⟩ := blendColor_eq color r
  rw [h, setBits]

theorem blendColor_pixel (hx : x < r.w.toNat) (hy : y < r.h.toNat) :
    (r.blendColor color).pixel x y = blendPixel r.fmt color (r.pixel x y) := by
  unfold blendColor
  split
  · rename_i hnone
    obtain ⟨h1, h2, h3, h4⟩ := hnone
    have hid : blendPixel r.fmt color = id := by
      unfold blendPixel
      split
      · exact absurd ‹_› h1
      · exact absurd ‹_› h2
      · exact absurd ‹_› h3
      · exact absurd ‹_› h4
      · rfl
    rw [hid, id_eq]
  · exact mapPixels_pixel (blendPixel_length _ _) hx hy

/-- The bitmap shows the picture with these rows, blended with the colour. -/
def Shows (r : Raster) (color : UInt32) (row : Nat → Nat → UInt8) : Prop :=
  ∀ y < r.h.toNat, ∀ x < r.w.toNat, r.pixel x y =
    blendPixel r.fmt color ((List.range r.fmt.pixelsize).map fun k => row y (x * r.fmt.pixelsize + k))

theorem shows_blendColor {row : Nat → Nat → UInt8}
    (h : ∀ y < r.h.toNat, ∀ k < r.w.toNat * r.fmt.pixelsize,
      r.bits ((y : Int) * r.pitch + (k : Int)) = row y k) :
    (r.blendColor color).Shows color row := by
  unfold Shows
  simp only [blendColor_w, blendColor_h, blendColor_fmt]
  intro y hy x hx
  have hpixel : r.pixel x y =
      (List.range r.fmt.pixelsize).map fun k => row y (x * r.fmt.pixelsize + k) := by
    refine List.map_congr_left fun k hk => ?_
    have hk := List.mem_range.mp hk
    have hnext : (x + 1) * r.fmt.pixelsize ≤ r.w.toNat * r.fmt.pixelsize :=
      Nat.mul_le_mul_right _ hx
    rw [Nat.succ_mul] at hnext
    rw [← h y hy (x * r.fmt.pixelsize + k) (by omega), Int.natCast_add, Int.natCast_mul, Int.add_assoc]
  rw [blendColor_pixel hx hy, hpixel]

end Raster

/-! ## As the codecs have it -/

def PixelFmt.toFmt : PixelFmt → Fmt
  | .A8R8G8B8 => .A8R8G8B8
  | .R8G8B8 => .R8G8B8
  | .R5G6B5 => .R5G6B5
  | .A1R5G5B5 => .A1R5G5B5
  | .X1R5G5B5 => .X1R5G5B5

/-- The format of a bitmap as `Codec.Image` has it; the formats that it leaves out are not made. -/
def Fmt.toPixelFmt : Fmt → PixelFmt
  | .R8G8B8 => .R8G8B8
  | .R5G6B5 => .R5G6B5
  | .A1R5G5B5 => .A1R5G5B5
  | .X1R5G5B5 => .X1R5G5B5
  | .A8R8G8B8 | .A8B8G8R8 | .X8R8G8B8 | .A4R4G4B4 | .G8 => .A8R8G8B8

theorem PixelFmt.toPixelFmt_toFmt (fmt : PixelFmt) : fmt.toFmt.toPixelFmt = fmt := by
  cases fmt <;> rfl

/-- A bitmap without its pixels. -/
def Raster.outline (r : Raster) : BasicBitmap := ⟨⟨r.w, r.h⟩, r.fmt.toPixelFmt⟩

theorem Raster.outline_blendColor (color : UInt32) (r : Raster) :
    (r.blendColor color).outline = r.outline := by
  rw [outline, outline, blendColor_w, blendColor_h, blendColor_fmt]

theorem toInt_of_lt {x : UInt32} (h : x.toNat < 2147483648) : x.toBitVec.toInt = x.toNat := by
  rw [BitVec.toInt_eq_toNat_of_lt]
  · rfl
  · change 2 * x.toNat < 2 ^ 32
    omega

end ObZrv
