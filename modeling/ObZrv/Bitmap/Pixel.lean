import ObZrv.Lib.Loop

/-!
# Bitmap.Pixel

Bitmaps with their pixels, and the arithmetic of `BasicBitmap.cpp` on single pixels. A pixel is a
32-bit card: of a 32-bit format the raw pixel, of a narrower one what `RowFetch` makes of it or what
`Store` is given.

The SSE2 routines are not installed by obZrv, so the loops of `BasicBitmap.cpp` are the ones that
run.
-/

namespace ObZrv

open Lib

/-- `BasicBitmap::PixelFmt`. -/
inductive Fmt where
  | A8R8G8B8
  | A8B8G8R8
  | X8R8G8B8
  | R8G8B8
  | R5G6B5
  | A1R5G5B5
  | X1R5G5B5
  | A4R4G4B4
  | G8
deriving DecidableEq, Repr

def Fmt.bpp : Fmt → Nat
  | .A8R8G8B8 | .A8B8G8R8 | .X8R8G8B8 => 32
  | .R8G8B8 => 24
  | .R5G6B5 | .A1R5G5B5 | .X1R5G5B5 | .A4R4G4B4 => 16
  | .G8 => 8

/-- A `BasicBitmap` that is read; `card x y` is the pixel in column `x` and row `y`. -/
structure Pixmap where
  w : Int
  h : Int
  fmt : Fmt
  card : Int → Int → UInt32

/-- A `BasicBitmap` that is drawn on; `none` is a pixel nothing was assigned to since the bitmap was
allocated. -/
structure Canvas where
  w : Int
  h : Int
  fmt : Fmt
  px : Int → Int → Option UInt32

def Canvas.fresh (w h : Int) (fmt : Fmt) : Canvas := ⟨w, h, fmt, fun _ _ => none⟩

/-- Row `y` gets `n` pixels from column `x` on. -/
def Canvas.setRow (c : Canvas) (y x n : Int) (f : Int → UInt32) : Canvas :=
  { c with px := fun a b => if b = y ∧ x ≤ a ∧ a < x + n then some (f (a - x)) else c.px a b }

/-- The masks of a single channel, of red and blue, and of alpha and green. -/
def byteMask : UInt32 := 0xff
def rbMask : UInt32 := 0xff00ff
def agMask : UInt32 := 0xff00ff00

/-- What `Store` leaves of a card in a bitmap with 32 bits. -/
def storeCard : Fmt → UInt32 → UInt32
  | .A8B8G8R8, c => (c &&& agMask) ||| ((c &&& (0xff0000 : UInt32)) >>> 16) ||| ((c &&& byteMask) <<< 16)
  | .X8R8G8B8, c => c &&& (0xffffff : UInt32)
  | _, c => c

def Canvas.store (c : Canvas) (y x n : Int) (f : Int → UInt32) : Canvas :=
  c.setRow y x n fun i => storeCard c.fmt (f i)

/-- `CardSetAlpha` with 0xff. -/
def setAlpha (c : UInt32) : UInt32 := c ||| (0xff000000 : UInt32)

/-- `>> 16` and `& 0xffff` of a 16.16 coordinate; `frac8` are the upper 8 bits of the fraction. -/
def whole (x : Int) : Int := x / 65536
def frac (x : Int) : Int := x % 65536
def frac8 (x : Int) : Int := x / 256 % 256

/-- An index brought into `[0, n)`. -/
def clamp (n i : Int) : Int := if i < 0 then 0 else if i ≥ n then n - 1 else i

/-! ## Six taps -/

structure Taps (α : Type) where
  t0 : α
  t1 : α
  t2 : α
  t3 : α
  t4 : α
  t5 : α

/-- Six neighbours of `i`, from `i - 2` on. -/
def tapsAt {α : Type} (f : Int → α) (i : Int) : Taps α :=
  ⟨f (i - 2), f (i - 1), f i, f (i + 1), f (i + 2), f (i + 3)⟩

def channel (p : UInt32) (shift : UInt32) : Int := ((p >>> shift) &&& byteMask).toNat

def clampByte (v : Int) : Int := if v < 0 then 0 else if v > 255 then 255 else v

/-- One channel: the weighted sum, rounded from 14 fraction bits. -/
def blendChannel (w : Taps Int) (p : Taps UInt32) (shift : UInt32) : UInt32 :=
  let sum := channel p.t0 shift * w.t0 + channel p.t1 shift * w.t1 + channel p.t2 shift * w.t2 +
    channel p.t3 shift * w.t3 + channel p.t4 shift * w.t4 + channel p.t5 shift * w.t5
  UInt32.ofNat (clampByte ((sum + 8192) / 16384)).toNat

/-- One pixel of `_lanczos3_blend_vert` and of `_resample_horiz_6tap`. -/
def blend6 (w : Taps Int) (p : Taps UInt32) : UInt32 :=
  blendChannel w p 0 ||| (blendChannel w p 8 <<< 8) ||| (blendChannel w p 16 <<< 16) |||
    (blendChannel w p 24 <<< 24)

/-- A tap without weight is not seen. -/
theorem blend6_last {w : Taps Int} (hw : w.t5 = 0) (p : Taps UInt32) (c : UInt32) :
    blend6 w { p with t5 := c } = blend6 w p := by
  simp only [blend6, blendChannel, hw, Int.mul_zero]

/-! ## Two taps -/

/-- One pixel of `InterpolateRow`; `same` tells whether both rows are the same row. -/
def interpolateRow (same : Bool) (fraction : Int) (c1 c2 : UInt32) : UInt32 :=
  let f2 := frac8 fraction
  let f1 := 256 - f2
  if f2 = 0 ∨ same = true then c1
  else if f1 = 0x80 then
    let half (shift : UInt32) : UInt32 :=
      ((((c1 >>> shift) &&& byteMask) + ((c2 >>> shift) &&& byteMask)) >>> 1) <<< shift
    half 0 ||| half 8 ||| half 16 ||| half 24
  else
    let g1 := UInt32.ofNat f1.toNat
    let g2 := UInt32.ofNat f2.toNat
    let rb := ((c1 &&& rbMask) * g1 + (c2 &&& rbMask) * g2) >>> 8
    let ag := (((c1 >>> 8) &&& rbMask) * g1 + ((c2 >>> 8) &&& rbMask) * g2) &&& agMask
    ag ||| (rb &&& rbMask)

/-- One pixel of `InterpolateCol` in its loop. -/
def lerpCol (x : Int) (c1 c2 : UInt32) : UInt32 :=
  let fx := UInt32.ofNat (frac8 x).toNat
  let fz := 256 - fx
  let rb := ((c1 &&& rbMask) * fz + (c2 &&& rbMask) * fx) >>> 8
  let ag := ((c1 >>> 8) &&& rbMask) * fz + ((c2 >>> 8) &&& rbMask) * fx
  (rb &&& rbMask) ||| (ag &&& agMask)

/-- `InterpolateCol`: pixel `i` of the row made of the cells of `src`. -/
def interpolateCol (src : Int → UInt32) (x dx : Int) (i : Int) : UInt32 :=
  if dx = 0x10000 ∧ frac x = 0 then src (whole x + i)
  else lerpCol (x + i * dx) (src (whole (x + i * dx))) (src (whole (x + i * dx) + 1))

end ObZrv
