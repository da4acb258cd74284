import ObZrv.Codec.Image
import ObZrv.Doc.Document

/-!
# View.Window

The state of `ImageView`, what its handlers read, and `fitWindow2Image`.

An integer division is `divInt`, which is `none` at a zero divisor; with a constant divisor it is
`Int.tdiv`. Products and sums are exact, the overflow of a signed integer is undefined in the source.
Calculations with `double` are exact as well, but for the two whose results are parameters
(`minWidth` here, the zoom of a drag in `View.ImageView`). A bitmap `B` is what `getBBitmap`
gives back.
-/

namespace ObZrv

structure Point where
  x : Int
  y : Int
deriving DecidableEq, Repr

/-- `ImageView::ZoomType`. -/
inductive ZoomType where
  | W2I_ZOOMOUT
  | W2I
  | I2W_ZOOMOUT
  | I2W
  | NOFIT
deriving DecidableEq, Repr

/-- The modes that resize the window. -/
def ZoomType.isW2I (zt : ZoomType) : Bool := zt = .W2I_ZOOMOUT || zt = .W2I

/-- `ImageView::DragType`. -/
inductive DragType where
  | PAN
  | ZOOMDRAG
deriving DecidableEq, Repr

/-- `a / b` on integers; `none` is the crash. -/
def divInt (a b : Int) : Option Int := if b = 0 then none else some (a.tdiv b)

/-- `std::max((LONG)((double)a * b / c + 0.5), 1L)`. -/
def scaledAxis (a b c : Int) : Option Int :=
  if c = 0 then none else some (max ((2 * a * b + c).tdiv (2 * c)) 1)

/-- The image that is open, as the view sees it. -/
structure OpenImage (B : Type) where
  dim : Size
  getBBitmap : Size → Rect → Option B
  cx_pos : 1 ≤ dim.cx
  cy_pos : 1 ≤ dim.cy

/-- The main window in its normal place. `monitor` is the work area; there is none when the window
is not shown normal or its monitor is not known. -/
structure MainPlace where
  normal : Rect
  monitor : Option Rect
  /-- `(int)(400 * dpiScale)`. -/
  minWidth : Int

/-- What a handler reads when it runs. -/
structure ViewEnv (B : Type) where
  image : Option (OpenImage B)
  /-- `GetClientRect`. -/
  width : Nat
  height : Nat
  window : Option MainPlace
  /-- `preserveMouse` on a toolbar button. -/
  mouseOn : Nat → Point
  /-- How long `getBBitmap` took. -/
  timecost : Int

def ViewEnv.client {B : Type} (env : ViewEnv B) : Size := ⟨env.width, env.height⟩

/-- What a handler does outside the view. Of the status line the parts that the view adds are
kept. -/
inductive ViewEffect (B : Type) where
  | invalidateRect
  | setInfo (zoom timecost : Int)
  | setWindowPlacement (normal : Rect)
  | setCursorPos (pos : Point)
  | fillBg
  | fillRect (x y w h : Int)
  | setDIBitsToDevice (bitmap : B) (x y w h : Int)
  | setCapture
  | releaseCapture
  | navigate (cmd : NavCmd)
  | exit

structure ImageView (B : Type) where
  zoomtype : ZoomType := .W2I_ZOOMOUT
  zoomlevel : Int := 0
  fitlevel : Int := 0
  timecost : Int := 0
  viewBitmap : Option B := none
  viewWndDim : Size := ⟨-1, -1⟩
  scaleSize : Size := ⟨-1, -1⟩
  viewOffset : Size := ⟨0, 0⟩
  viewCrop : Rect := ⟨-1, -1, -1, -1⟩
  dragType : DragType := .PAN
  isdragging : Bool := false
  draggingOrigin : Point := ⟨-1, -1⟩
  draggingCur : Point := ⟨-1, -1⟩
  zoomDragOrigin : Point := ⟨-1, -1⟩
  zoomDragStartLevel : Int := 0
  clickImageCoord : Size := ⟨0, 0⟩
  effects : List (ViewEffect B) := []

namespace ImageView

variable {B : Type} (v : ImageView B) (env : ViewEnv B)

def send (e : ViewEffect B) : ImageView B := { v with effects := v.effects ++ [e] }

/-- `_zoomlevel != 0 ? _zoomlevel : _fitlevel`. -/
def level : Int := if v.zoomlevel ≠ 0 then v.zoomlevel else v.fitlevel

/-- `releaseBitmap`; `_internalBitmap` is never set. -/
def releaseBitmap : ImageView B := { v with viewBitmap := none }

/-- `releaseBitmap` and `InvalidateRect`, as most handlers end. -/
def redraw : ImageView B := v.releaseBitmap.send .invalidateRect

def updateStatus : ImageView B :=
  if env.image.isSome then v.send (.setInfo v.level v.timecost) else v

/-- `preserveMouse`. -/
def preserveMouse (id : Int) : Point := if id < 0 then ⟨-1, -1⟩ else env.mouseOn id.toNat

/-- The client size `fitWindow2Image` asks for, before the minimum; `most` is what the monitor
has. -/
def wantedSize (dim most : Size) : Option Size :=
  if v.zoomlevel ≠ 0 ∨ v.zoomtype = .W2I then
    let im : Size :=
      if v.zoomlevel ≠ 0 then
        ⟨(dim.cx * v.zoomlevel).tdiv 100, (dim.cy * v.zoomlevel).tdiv 100⟩
      else dim
    some ⟨min im.cx most.cx, min im.cy most.cy⟩
  else if dim.cx > most.cx ∧ most.cx * dim.cy ≤ most.cy * dim.cx then
    (divInt (most.cx * dim.cy) dim.cx).map fun h => ⟨most.cx, min (h + 1) most.cy⟩
  else if dim.cy > most.cy ∧ most.cx * dim.cy ≥ most.cy * dim.cx then
    (divInt (most.cy * dim.cx) dim.cy).map fun w => ⟨min (w + 1) most.cx, most.cy⟩
  else some dim

/-- One axis of the window, `d` wider and moved back into the work area. -/
def growAxis (lo hi d workLo workHi : Int) : Int × Int :=
  if d = 0 then (lo, hi)
  else
    let lo := lo - d.tdiv 2
    let hi := hi + (d - d.tdiv 2)
    let (lo, hi) := if hi > workHi then (workHi - (hi - lo), workHi) else (lo, hi)
    if lo < workLo then (workLo, workLo + (hi - lo)) else (lo, hi)

/-- The window takes the client size wanted, no smaller than the minimum and no larger than the
monitor, and the mouse stays on its button. -/
def placeWindow (win : MainPlace) (work : Rect) (most wanted : Size) (mousepos : Point) :
    ImageView B :=
  let dw := min (max wanted.cx win.minWidth) most.cx - env.width
  let dh := min (max wanted.cy 20) most.cy - env.height
  let (left, right) := growAxis win.normal.left win.normal.right dw work.left work.right
  let (top, bottom) := growAxis win.normal.top win.normal.bottom dh work.top work.bottom
  if dw ≠ 0 ∨ dh ≠ 0 then
    let v := v.send (.setWindowPlacement ⟨left, top, right, bottom⟩)
    if mousepos.x ≥ 0 then v.send (.setCursorPos ⟨mousepos.x + left, mousepos.y + top⟩) else v
  else v

/-- `fitWindow2Image`. A `WM_SIZE` that `SetWindowPlacement` brings about only has the view
recomputed at the next paint, and is a message of its own here. -/
def fitWindow2Image (dim : Size) (mousepos : Point) : Option (ImageView B) :=
  match env.window with
  | none => some v.redraw
  | some win =>
    match win.monitor with
    | none => some v.redraw
    | some work =>
      let most : Size :=
        { cx := work.width - (win.normal.width - env.width)
          cy := work.height - (win.normal.height - env.height) }
      (v.wantedSize dim most).map fun wanted =>
        (v.placeWindow env win work most wanted mousepos).redraw

end ImageView

end ObZrv
