import ObZrv.View.Window

/-!
# View.Paint

`ImageView::OnPaint`: the scale of the image, the part of it that is visible, and what is drawn.
-/

namespace ObZrv

namespace ImageView

variable {B : Type} (v : ImageView B) (env : ViewEnv B)

/-- Zoom level and size of an image that fills the client area on one axis. -/
def fitAspect (size dim : Size) : Option (Int × Size) :=
  if size.cx * dim.cy > size.cy * dim.cx then do
    let level ← divInt (size.cy * 100) dim.cy
    let cx ← scaledAxis size.cy dim.cx dim.cy
    return (level, ⟨cx, size.cy⟩)
  else do
    let level ← divInt (size.cx * 100) dim.cx
    let cy ← scaledAxis size.cx dim.cy dim.cx
    return (level, ⟨size.cx, cy⟩)

/-- A scale at which the whole image is visible. -/
def fitWhole (level : Int) (scale : Size) : ImageView B :=
  { v with
    fitlevel := level
    scaleSize := scale
    viewCrop := ⟨0, 0, scale.cx, scale.cy⟩
    viewOffset := ⟨0, 0⟩ }

/-- The scale when no zoom level is set. -/
def autoFit (size dim : Size) : Option (ImageView B) :=
  match v.zoomtype with
  | .W2I | .NOFIT => some { v with fitlevel := 100, scaleSize := dim }
  | .I2W =>
    if dim.cx = 0 ∨ dim.cy = 0 then some (v.fitWhole 100 ⟨1, 1⟩)
    else (fitAspect size dim).map fun p => v.fitWhole p.1 p.2
  | .W2I_ZOOMOUT | .I2W_ZOOMOUT =>
    if size.cx ≥ dim.cx ∧ size.cy ≥ dim.cy then some (v.fitWhole 100 dim)
    else (fitAspect size dim).map fun p => v.fitWhole p.1 p.2

/-- The visible part of one axis, centred. -/
def centreAxis (client scale : Int) : Int × Int :=
  if client ≥ scale then (0, scale)
  else ((scale - client).tdiv 2, (scale - client).tdiv 2 + client)

/-- One axis moved by the pan offset and kept on the image, and the offset applied. -/
def panAxis (lo hi scale offset : Int) : Int × Int × Int :=
  if hi - lo < scale then
    let offset := if lo + offset < 0 then -lo else offset
    let offset := if hi + offset > scale then scale - hi else offset
    (offset, lo + offset, hi + offset)
  else (0, lo, hi)

/-- The pan offset with that of a drag under way. -/
def dragOffset : Size :=
  if v.isdragging ∧ v.dragType = .PAN then
    { cx := v.viewOffset.cx - (v.draggingCur.x - v.draggingOrigin.x)
      cy := v.viewOffset.cy - (v.draggingCur.y - v.draggingOrigin.y) }
  else v.viewOffset

/-- The visible part at a fixed zoom level or at 100%. -/
def cropView (size dim : Size) : ImageView B :=
  let scale : Size :=
    if v.zoomlevel ≠ 0 then
      ⟨max ((dim.cx * v.zoomlevel).tdiv 100) 1, max ((dim.cy * v.zoomlevel).tdiv 100) 1⟩
    else v.scaleSize
  let (left, right) := centreAxis size.cx scale.cx
  let (top, bottom) := centreAxis size.cy scale.cy
  if v.viewOffset ≠ ⟨0, 0⟩ ∨ (v.isdragging ∧ v.draggingOrigin ≠ v.draggingCur) then
    let (ox, left, right) := panAxis left right scale.cx v.dragOffset.cx
    let (oy, top, bottom) := panAxis top bottom scale.cy v.dragOffset.cy
    { v with
      scaleSize := scale
      viewCrop := ⟨left, top, right, bottom⟩
      viewOffset := if v.isdragging then v.viewOffset else ⟨ox, oy⟩ }
  else { v with scaleSize := scale, viewCrop := ⟨left, top, right, bottom⟩ }

/-- The bitmap of the visible part, made anew if the part changed or there is none. `oldCrop` is
the part of the last time. -/
def makeBitmap (img : OpenImage B) (oldCrop : Rect) : ImageView B :=
  let v := { v with viewWndDim := env.client }
  let v := if v.viewCrop ≠ oldCrop then v.releaseBitmap else v
  if v.viewBitmap.isNone then
    { v with viewBitmap := img.getBBitmap v.scaleSize v.viewCrop, timecost := env.timecost }
  else v

/-- Whether `OnPaint` computes the view anew. -/
def stale : Bool := v.viewBitmap.isNone || env.client != v.viewWndDim

/-- `OnPaint` up to the drawing. -/
def recompute (img : OpenImage B) : Option (ImageView B) :=
  let fitted := if v.zoomlevel = 0 then v.autoFit env.client img.dim else some v
  fitted.map fun f =>
    let f :=
      if f.zoomlevel ≠ 0 ∨ f.zoomtype = .W2I ∨ f.zoomtype = .NOFIT then
        f.cropView env.client img.dim
      else f
    (f.makeBitmap env img v.viewCrop).updateStatus env

/-- Where one axis of the visible part is drawn. -/
def drawAxis (client extent : Int) : Int × Int :=
  if client > extent then ((client - extent).tdiv 2, (client - extent).tdiv 2 + extent)
  else (0, client)

/-- The bitmap, centred, and the margins around it. -/
def draw (bitmap : B) : ImageView B :=
  let imgw := v.viewCrop.width
  let imgh := v.viewCrop.height
  let (left, right) := drawAxis env.width imgw
  let (top, bottom) := drawAxis env.height imgh
  let fill (cond : Bool) (x y w h : Int) : List (ViewEffect B) :=
    if cond then [.fillRect x y w h] else []
  { v with
    effects := v.effects ++ [.setDIBitsToDevice bitmap left top imgw imgh] ++
      fill (left > 0) 0 0 left env.height ++
      fill (right < env.width) right 0 (env.width - right) env.height ++
      fill (top > 0) left 0 imgw top ++
      fill (bottom < env.height) left bottom imgw (env.height - bottom) }

/-- The drawing of `OnPaint`. -/
def drawView : ImageView B :=
  match v.viewBitmap with
  | none => v.send .fillBg
  | some bitmap => v.draw env bitmap

def onPaint : Option (ImageView B) :=
  match env.image with
  | none => some (v.send .fillBg)
  | some img => (if v.stale env then v.recompute env img else some v).map (·.drawView env)

end ImageView

end ObZrv
