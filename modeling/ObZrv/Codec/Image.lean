/-!
# Codec.Image

The types that `Codec.h` shares between the codecs. Of a `BasicBitmap` its size and pixel format
are kept; the pixels are left out.
-/

namespace ObZrv

/-- `IM_ErrorCodes`. -/
inductive IM where
  | OK
  | FAIL
  | TOO_LARGE
  | NOT_SUPPORTED
  | READFILE_ERR
  | NO_MORE_FRAMES
deriving DecidableEq, Repr

structure Size where
  cx : Int
  cy : Int
deriving DecidableEq, Repr

structure Rect where
  left : Int
  top : Int
  right : Int
  bottom : Int
deriving DecidableEq, Repr

def Rect.width (r : Rect) : Int := r.right - r.left
def Rect.height (r : Rect) : Int := r.bottom - r.top

/-- `BasicBitmap::PixelFmt`, the formats the codecs produce. -/
inductive PixelFmt where
  | A8R8G8B8
  | R8G8B8
  | R5G6B5
  | A1R5G5B5
  | X1R5G5B5
deriving DecidableEq, Repr

structure BasicBitmap where
  size : Size
  fmt : PixelFmt
deriving DecidableEq, Repr

/-- `getBBitmap(scaleSize, cropRect)` of both codecs: a new bitmap of the size of the crop, in the
format of the current frame. With `_fbitmap` null it is a null dereference, `none` here. -/
def cropOf (fbitmap : Option BasicBitmap) (_scaleSize : Size) (cropRect : Rect) :
    Option BasicBitmap :=
  fbitmap.map fun b => { size := ⟨cropRect.width, cropRect.height⟩, fmt := b.fmt }

/-- The bitmap of the current frame is there and has the size of the image. -/
def HasBitmap (fbitmap : Option BasicBitmap) (dimension : Size) : Prop :=
  ∃ b, fbitmap = some b ∧ b.size = dimension

theorem not_hasBitmap_none (dimension : Size) : ¬ HasBitmap none dimension := by
  rintro ⟨b, hb, -⟩
  cases hb

theorem HasBitmap.cropOf_isSome {fbitmap : Option BasicBitmap} {dimension : Size}
    (h : HasBitmap fbitmap dimension) (scaleSize : Size) (cropRect : Rect) :
    (cropOf fbitmap scaleSize cropRect).isSome := by
  obtain ⟨b, rfl, -⟩ := h
  rfl

/-- The virtual methods of `Image` that the document calls. -/
structure ImageOps (I : Type) where
  getFrameCount : I → Int
  getLoopNum : I → Int
  getFrameDelay : I → Int
  nextFrame : I → Bool → IM × I

def ImageOps.isAnim {I : Type} (ops : ImageOps I) (img : I) : Bool := ops.getFrameCount img > 1

end ObZrv
