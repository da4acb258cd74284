import ObZrv.Lib.Machine
import ObZrv.View.Paint

/-!
# View.ImageView

The handlers of `ImageView` and the machine of its messages. A handler is `none` where it divides by
zero.

A handler that calls `Doc::navigate` does nothing with the view after it, so what the document calls
back (`onFileOpened`, `updateStatus`) are messages of their own.
-/

namespace ObZrv

/-- The level that a drag of `dy` leads to from a start level: `(int)(start * pow(1.01, -dy) + 0.5)`
as the `double` arithmetic gives it. -/
abbrev DragZoom := Int → Int → Int

/-- The keys of `WM_KEYDOWN`. -/
inductive ViewKey where
  | left
  | up
  | prior
  | right
  | down
  | next
  | home
  | «end»
  | escape
  | plus
  | minus
  | other
deriving DecidableEq, Repr

/-- A window message, or a call by the document or the main window. -/
inductive ViewMsg where
  | paint
  | eraseBkgnd
  | size
  | keyDown (key : ViewKey) (shift ctrl alt : Bool)
  | mouseWheel (delta : Int)
  | lButtonDown (pos : Point) (ctrl : Bool)
  | lButtonUp
  | rButtonDown (pos : Point)
  | rButtonUp
  | mouseMove (pos : Point)
  | setFocus
  | other
  | fileOpened (cmdid : Int)
  | frameUpdate
  | updateStatus
  | zoom (inout : Int) (test : Bool)
  | setZoomMode (cmdId : Int)
deriving DecidableEq, Repr

def ID_FILE_PREV : Int := 1005
def ID_FILE_NEXT : Int := 1006
def ID_VIEW_ZOOMIN : Int := 1007
def ID_VIEW_ZOOMOUT : Int := 1008
def ID_ZOOMMODE_W2I_ZOOMOUT : Int := 1010

/-- The zoom modes in the order of their command ids. -/
def zoomModes : List ZoomType := [.W2I_ZOOMOUT, .W2I, .I2W_ZOOMOUT, .I2W, .NOFIT]

/-- The levels that `zoom` steps through. -/
def zoomLevels : List Int :=
  [1, 2, 3, 5, 7, 10, 15, 20, 30, 50, 70,
    100, 150, 200, 300, 500, 700, 1000, 2000, 3000, 5000, 7000, 10000]

/-- `*std::upper_bound`, the first level above. -/
def levelAbove (level : Int) : Int := (zoomLevels.find? (level < ·)).getD 0

/-- `*std::prev(std::lower_bound)`, the last level below. -/
def levelBelow (level : Int) : Int := (zoomLevels.takeWhile (· < level)).getLastD 0

inductive KeyAction where
  | navigate (cmd : NavCmd)
  | exit
  | zoom (inout : Int)
  | pass

def keyAction (key : ViewKey) (shift ctrl alt : Bool) : KeyAction :=
  match key with
  | .left | .up | .prior => if shift || ctrl || alt then .pass else .navigate .prev
  | .right | .down | .next => if shift || ctrl || alt then .pass else .navigate .next
  | .home => .navigate .first
  | .end => .navigate .last
  | .escape => .exit
  | .plus => if alt then .pass else .zoom 1
  | .minus => if alt then .pass else .zoom (-1)
  | .other => .pass

namespace ImageView

variable {B : Type} (v : ImageView B) (env : ViewEnv B)

/-- The window fits itself to the image, or the view is drawn anew. -/
def showZoomed (dim : Size) (mousepos : Point) : Option (ImageView B) :=
  if v.zoomtype.isW2I then v.fitWindow2Image env dim mousepos else some v.redraw

def onFileOpened (cmdid : Int) : Option (ImageView B) :=
  match env.image with
  | none => some v
  | some img =>
    let tbid :=
      if cmdid = NavCmd.prev.toInt then ID_FILE_PREV
      else if cmdid = NavCmd.next.toInt then ID_FILE_NEXT
      else if cmdid = ID_FILE_PREV ∨ cmdid = ID_FILE_NEXT then cmdid
      else -1
    let v := { v with
      zoomlevel := 0
      fitlevel := 0
      scaleSize := ⟨-1, -1⟩
      viewCrop := ⟨-1, -1, -1, -1⟩
      viewOffset := ⟨0, 0⟩ }
    v.showZoomed env img.dim (preserveMouse env tbid)

def onFrameUpdate : ImageView B :=
  let bitmap := env.image.bind fun img => img.getBBitmap v.scaleSize v.viewCrop
  ({ v with viewBitmap := bitmap }.send .invalidateRect).updateStatus env

/-- The view at a new zoom level: the window fits itself, or all is computed anew. -/
def showLevel (dim : Size) (inout : Int) : Option (ImageView B) :=
  if v.zoomtype.isW2I then
    v.fitWindow2Image env dim
      (preserveMouse env (if inout > 0 then ID_VIEW_ZOOMIN else ID_VIEW_ZOOMOUT))
  else some { v with viewWndDim := ⟨-1, -1⟩ }.redraw

/-- The end of `zoom`, once the level has been chosen. -/
def zoomTo (dim : Size) (newlevel inout : Int) : Option (ImageView B) := do
  let orilevel := if v.zoomlevel ≠ 0 then v.zoomlevel else 100
  let cx ← divInt (v.viewOffset.cx * newlevel) orilevel
  let cy ← divInt (v.viewOffset.cy * newlevel) orilevel
  let v := { v with zoomlevel := newlevel, viewOffset := ⟨cx, cy⟩ }
  return (← v.showLevel env dim inout).updateStatus env

/-- `zoom` with the value it returns. -/
def zoom (inout : Int) (test : Bool) : Option (Int × ImageView B) :=
  match env.image with
  | none => some (-1, v)
  | some img =>
    if inout = 0 then some (0, v)
    else if inout > 0 then
      if v.level ≥ 10000 then some (-1, v)
      else if test then some (0, v)
      else (v.zoomTo env img.dim (levelAbove v.level) inout).map (0, ·)
    else
      if v.level ≤ 1 then some (-1, v)
      else if (max img.dim.cx img.dim.cy * levelBelow v.level).tdiv 100 < 1 then some (-1, v)
      else if test then some (0, v)
      else (v.zoomTo env img.dim (levelBelow v.level) inout).map (0, ·)

def zoomModeOf (cmdId : Int) : Option ZoomType :=
  if cmdId < ID_ZOOMMODE_W2I_ZOOMOUT then none
  else zoomModes[(cmdId - ID_ZOOMMODE_W2I_ZOOMOUT).toNat]?

def setZoomMode (cmdId : Int) : Option (ImageView B) :=
  match zoomModeOf cmdId with
  | none => some v
  | some zt =>
    let v := { v with
      zoomtype := zt
      zoomlevel := 0
      fitlevel := 0
      viewOffset := ⟨0, 0⟩
      scaleSize := ⟨-1, -1⟩
      viewCrop := ⟨-1, -1, -1, -1⟩
      viewWndDim := ⟨-1, -1⟩ }
    match env.image with
    | none => some v
    | some img => v.showZoomed env img.dim ⟨-1, -1⟩

/-- How far the middle of the view is inside a larger image, on one axis. -/
def centerOffset (scale client : Int) : Int :=
  if (scale - client).tdiv 2 < 0 then 0 else (scale - client).tdiv 2

def startDrag (pos : Point) : ImageView B :=
  { v with isdragging := true, draggingOrigin := pos, draggingCur := pos }

/-- A zoom drag starts: the point of the image under the cursor is kept. The button is down
already. -/
def startZoomDrag : Option (ImageView B) := do
  let v := { v with
    dragType := .ZOOMDRAG
    zoomDragOrigin := v.draggingOrigin
    zoomDragStartLevel := v.level }
  let scaledImageX := centerOffset v.scaleSize.cx env.width + v.viewOffset.cx + v.zoomDragOrigin.x
  let scaledImageY := centerOffset v.scaleSize.cy env.height + v.viewOffset.cy + v.zoomDragOrigin.y
  let cx ← divInt (scaledImageX * 100) v.zoomDragStartLevel
  let cy ← divInt (scaledImageY * 100) v.zoomDragStartLevel
  return { v with clickImageCoord := ⟨cx, cy⟩ }.send .setCapture

/-- `WM_LBUTTONDOWN`. -/
def onLButtonDown (pos : Point) (ctrl : Bool) : Option (ImageView B) :=
  if ctrl then (v.startDrag pos).startZoomDrag env
  else some ({ v.startDrag pos with dragType := .PAN }.send .setCapture)

/-- `WM_RBUTTONDOWN`. -/
def onRButtonDown (pos : Point) : Option (ImageView B) := (v.startDrag pos).startZoomDrag env

/-- `WM_LBUTTONUP`. -/
def onLButtonUp : ImageView B :=
  if v.isdragging then
    let v := { v with isdragging := false }.send .releaseCapture
    let v :=
      if v.dragType = .PAN then
        { v with viewOffset :=
          { cx := v.viewOffset.cx - (v.draggingCur.x - v.draggingOrigin.x)
            cy := v.viewOffset.cy - (v.draggingCur.y - v.draggingOrigin.y) } }
      else v
    v.redraw
  else v

/-- `WM_RBUTTONUP`. -/
def onRButtonUp : ImageView B :=
  if v.isdragging then ({ v with isdragging := false }.send .releaseCapture).redraw else v

/-- `adjustViewOffsetForZoom`; its arguments are not used in the source. -/
def adjustViewOffsetForZoom : ImageView B :=
  { v with
    viewOffset :=
      { cx := (v.clickImageCoord.cx * v.zoomlevel).tdiv 100 - v.zoomDragOrigin.x -
          centerOffset v.scaleSize.cx env.width
        cy := (v.clickImageCoord.cy * v.zoomlevel).tdiv 100 - v.zoomDragOrigin.y -
          centerOffset v.scaleSize.cy env.height }
    viewWndDim := ⟨-1, -1⟩ }

def applyZoomDrag (targetZoomLevel : Int) : ImageView B :=
  match env.image with
  | none => v
  | some img =>
    let target := min (max targetZoomLevel 1) 10000
    if target = v.level then v
    else
      { v with
        zoomlevel := target
        scaleSize :=
          { cx := max ((img.dim.cx * target).tdiv 100) 1
            cy := max ((img.dim.cy * target).tdiv 100) 1 } }.adjustViewOffsetForZoom env

/-- `WM_MOUSEMOVE`. -/
def onMouseMove (dragZoom : DragZoom) (pos : Point) : ImageView B :=
  if v.isdragging then
    let v := { v with draggingCur := pos }
    let v :=
      if v.dragType = .ZOOMDRAG then
        v.applyZoomDrag env
          (dragZoom v.zoomDragStartLevel (v.draggingCur.y - v.draggingOrigin.y))
      else v
    v.redraw
  else v

/-- `HandleMessage`, and the calls of the document and the main window. -/
def handle (dragZoom : DragZoom) : ViewMsg → Option (ImageView B)
  | .paint => v.onPaint env
  | .size => some ({ v with viewWndDim := ⟨-1, -1⟩ }.send .invalidateRect)
  | .keyDown key shift ctrl alt =>
    match keyAction key shift ctrl alt with
    | .navigate cmd => some (v.send (.navigate cmd))
    | .exit => some (v.send .exit)
    | .zoom inout => (v.zoom env inout false).map (·.2)
    | .pass => some v
  | .mouseWheel delta => some (v.send (.navigate (if delta > 0 then .prev else .next)))
  | .lButtonDown pos ctrl => v.onLButtonDown env pos ctrl
  | .lButtonUp => some v.onLButtonUp
  | .rButtonDown pos => v.onRButtonDown env pos
  | .rButtonUp => some v.onRButtonUp
  | .mouseMove pos => some (v.onMouseMove env dragZoom pos)
  | .eraseBkgnd | .setFocus | .other => some v
  | .fileOpened cmdid => v.onFileOpened env cmdid
  | .frameUpdate => some (v.onFrameUpdate env)
  | .updateStatus => some (v.updateStatus env)
  | .zoom inout test => (v.zoom env inout test).map (·.2)
  | .setZoomMode cmdId => v.setZoomMode env cmdId

end ImageView

abbrev ViewRun (B : Type) := List (ViewMsg × ViewEnv B)

/-- A run of messages from a state on, as far as no handler divides by zero. -/
def ImageView.run {B : Type} (dragZoom : DragZoom) (v : ImageView B) (msgs : ViewRun B) :
    Option (ImageView B) :=
  Lib.Machine.execAll (fun v m => v.handle m.2 dragZoom m.1) Lib.Machine.always v msgs

end ObZrv
