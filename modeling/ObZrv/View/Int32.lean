import ObZrv.Text.Config
import ObZrv.View.ZoomDrag

/-!
# View.Int32

The products and sums that `zoom`, the drags and `OnPaint` evaluate in 32 bits, in the order and
under the conditions of the source, and the pace of a run under which they are bounded. Products that
the source evaluates as `UINT64` or `double` are not among them.

* `ImageView.terms`      : the products and sums of a message.
* `PacedView`            : the view, and what was done since the last paint.
* `PacedView.Moderate`   : the messages that keep the pace.
-/

namespace ObZrv

open ViewSettings (levelScale)

def AllFit (terms : List Int) : Prop := ∀ n ∈ terms, InInt32 n

instance (terms : List Int) : Decidable (AllFit terms) :=
  inferInstanceAs (Decidable (∀ n ∈ terms, InInt32 n))

theorem allFit_nil : AllFit [] := by
  intro n hn
  cases hn

theorem allFit_cons {n : Int} {terms : List Int} : AllFit (n :: terms) ↔ InInt32 n ∧ AllFit terms :=
  List.forall_mem_cons

theorem allFit_append {terms terms' : List Int} :
    AllFit (terms ++ terms') ↔ AllFit terms ∧ AllFit terms' :=
  List.forall_mem_append

/-- Of `fitAspect`. -/
def fitTerms (size dim : Size) : List Int :=
  if size.cx * dim.cy > size.cy * dim.cx then [size.cy * 100] else [size.cx * 100]

/-- Of `centreAxis`. -/
def centreTerms (client scale : Int) : List Int :=
  if client ≥ scale then [] else [scale - client, (scale - client).tdiv 2 + client]

/-- Of `panAxis`, once the pan offset with the drag is there. -/
def panTerms (lo hi scale offset : Int) : List Int :=
  let above := if lo + offset < 0 then -lo else offset
  let kept := if hi + above > scale then scale - hi else above
  [lo + offset, above, hi + above, kept, lo + kept, hi + kept]

/-- Of `drawAxis`, and the margin after it. -/
def drawTerms (client lo hi : Int) : List Int :=
  if client > hi - lo then
    [hi - lo, client - (hi - lo), (client - (hi - lo)).tdiv 2 + (hi - lo),
      client - ((client - (hi - lo)).tdiv 2 + (hi - lo))]
  else [hi - lo]

namespace ImageView

variable {B : Type} (v : ImageView B) (env : ViewEnv B)

/-- Of a pan drag under way. -/
def dragTerms (a : Axis) : List Int :=
  if v.isdragging ∧ v.dragType = .PAN then
    [v.draggingCur.along a - v.draggingOrigin.along a,
      v.viewOffset.along a - (v.draggingCur.along a - v.draggingOrigin.along a)]
  else []

/-- Of `autoFit`. -/
def autoTerms (size dim : Size) : List Int :=
  match v.zoomtype with
  | .W2I | .NOFIT => []
  | .I2W => if dim.cx = 0 ∨ dim.cy = 0 then [] else fitTerms size dim
  | .W2I_ZOOMOUT | .I2W_ZOOMOUT =>
    if size.cx ≥ dim.cx ∧ size.cy ≥ dim.cy then [] else fitTerms size dim

/-- Of `cropView`. -/
def cropTerms (size dim : Size) (a : Axis) : List Int :=
  let scale := (v.settings.scale dim).along a
  let centred := centreAxis (size.along a) scale
  (if v.zoomlevel ≠ 0 then [dim.along a * v.zoomlevel] else []) ++
    centreTerms (size.along a) scale ++
    if (v.viewOffset ≠ ⟨0, 0⟩ ∨ (v.isdragging ∧ v.draggingOrigin ≠ v.draggingCur)) ∧
        centred.2 - centred.1 < scale then
      v.dragTerms a ++ panTerms centred.1 centred.2 scale (v.dragOffset.along a)
    else []

/-- Of `OnPaint`. -/
def paintTerms : List Int :=
  match env.image with
  | none => []
  | some img =>
    (if v.stale env then
      (if v.zoomlevel = 0 then v.autoTerms env.client img.dim else []) ++
        if v.settings.Pans then
          v.cropTerms env.client img.dim .x ++ v.cropTerms env.client img.dim .y
        else []
    else []) ++
    match v.onPaint env with
    | none => []
    | some p =>
      if p.viewBitmap.isNone then []
      else drawTerms env.width (p.viewCrop.lo .x) (p.viewCrop.hi .x) ++
        drawTerms env.height (p.viewCrop.lo .y) (p.viewCrop.hi .y)

/-- Of `zoom`. -/
def zoomTerms (inout : Int) (test : Bool) : List Int :=
  let offsets (level : Int) : List Int := [v.viewOffset.cx * level, v.viewOffset.cy * level]
  match env.image with
  | none => []
  | some img =>
    if inout > 0 then
      if v.level ≥ 10000 ∨ test = true then [] else offsets (levelAbove v.level)
    else if inout < 0 ∧ v.level > 1 then
      let product := max img.dim.cx img.dim.cy * levelBelow v.level
      if product.tdiv 100 < 1 ∨ test = true then [product]
      else product :: offsets (levelBelow v.level)
    else []

/-- Of `startZoomDrag`. -/
def startTerms (pos : Point) (a : Axis) : List Int :=
  let centre := centerOffset (v.scaleSize.along a) (env.client.along a)
  [v.scaleSize.along a - env.client.along a, centre + v.viewOffset.along a,
    centre + v.viewOffset.along a + pos.along a,
    (centre + v.viewOffset.along a + pos.along a) * 100]

/-- The level of a zoom drag. -/
def dragTarget (dragZoom : DragZoom) (cur : Point) : Int :=
  min (max (dragZoom v.zoomDragStartLevel (cur.y - v.draggingOrigin.y)) 1) 10000

/-- Of `applyZoomDrag` and `adjustViewOffsetForZoom` with a new level. -/
def moveTerms (dim : Size) (level : Int) (a : Axis) : List Int :=
  let scale := levelScale (dim.along a) level
  let kept := (v.clickImageCoord.along a * level).tdiv 100 - v.zoomDragOrigin.along a
  [dim.along a * level, scale - env.client.along a, v.clickImageCoord.along a * level, kept,
    kept - centerOffset scale (env.client.along a)]

/-- Of `WM_MOUSEMOVE`. -/
def mouseMoveTerms (dragZoom : DragZoom) (cur : Point) : List Int :=
  if v.isdragging ∧ v.dragType = .ZOOMDRAG then
    [cur.y - v.draggingOrigin.y, -(cur.y - v.draggingOrigin.y)] ++
      match env.image with
      | none => []
      | some img =>
        let level := v.dragTarget dragZoom cur
        if level = v.level then []
        else v.moveTerms env img.dim level .x ++ v.moveTerms env img.dim level .y
  else []

/-- The products and sums of a message. -/
def terms (dragZoom : DragZoom) : ViewMsg → List Int
  | .paint => v.paintTerms env
  | .zoom inout test => v.zoomTerms env inout test
  | .keyDown key shift ctrl alt =>
    match keyAction key shift ctrl alt with
    | .zoom inout => v.zoomTerms env inout false
    | _ => []
  | .lButtonDown pos ctrl =>
    if ctrl then v.startTerms env pos .x ++ v.startTerms env pos .y else []
  | .rButtonDown pos => v.startTerms env pos .x ++ v.startTerms env pos .y
  | .lButtonUp => v.dragTerms .x ++ v.dragTerms .y
  | .mouseMove cur => v.mouseMoveTerms env dragZoom cur
  | _ => []

end ImageView

/-! ## The pace of a run -/

/-- What was done since the view was last painted with nothing dragged: nothing that changes it, zoom
steps, or a drag. -/
inductive Pace where
  | painted
  | scaled
  | moved
deriving DecidableEq, Repr

structure PacedView (B : Type) where
  view : ImageView B := {}
  pace : Pace := .scaled

namespace ImageView

variable {B : Type} (v : ImageView B) (env : ViewEnv B)

/-- Whether `zoom` gets as far as the next level. -/
def ZoomSteps (inout : Int) (test : Bool) : Prop :=
  test = false ∧ (inout > 0 ∧ v.level < 10000 ∨ inout < 0 ∧ 1 < v.level)

instance (inout : Int) (test : Bool) : Decidable (v.ZoomSteps inout test) :=
  inferInstanceAs (Decidable (_ ∧ _))

def paceOfPaint (pace : Pace) : Pace :=
  if v.stale env then
    if v.isdragging then if pace = .moved then .moved else .scaled else .painted
  else pace

/-- The pace after a message. -/
def nextPace (pace : Pace) : ViewMsg → Pace
  | .paint => v.paceOfPaint env pace
  | .zoom inout test => if v.ZoomSteps inout test then .scaled else pace
  | .keyDown key shift ctrl alt =>
    match keyAction key shift ctrl alt with
    | .zoom inout => if v.ZoomSteps inout false then .scaled else pace
    | _ => pace
  | .fileOpened _ => .scaled
  | .setZoomMode cmdId => if (zoomModeOf cmdId).isSome then .scaled else pace
  | .lButtonUp => if v.isdragging ∧ v.dragType = .PAN then .moved else pace
  | .mouseMove _ => if v.isdragging ∧ v.dragType = .ZOOMDRAG then .moved else pace
  | _ => pace

end ImageView

/-- A mouse position, 16 bits for each axis. -/
def Point.InInt16 (p : Point) : Prop := ∀ a, -32768 ≤ p.along a ∧ p.along a ≤ 32767

/-- The image is open, and the client area is one of 1 to 32766 pixels. -/
def ViewEnv.Within {B : Type} (env : ViewEnv B) (dim : Size) : Prop :=
  (∃ img, env.image = some img ∧ img.dim = dim) ∧
    ∀ a, 1 ≤ env.client.along a ∧ env.client.along a ≤ 32766

namespace PacedView

variable {B : Type} (dragZoom : DragZoom) (dim : Size)

/-- A zoom step of a view that is moved from the middle does not come right after a drag that took
the pan offset beyond half the image, and the image size by the old and the new level is within
`200 * INT_MAX`. -/
def ZoomsWithin (s : PacedView B) (inout : Int) (test : Bool) : Prop :=
  s.view.ZoomSteps inout test → ∀ a, s.view.viewOffset.along a = 0 ∨
    (s.pace ≠ .moved ∨
      200 * |s.view.viewOffset.along a| ≤ dim.along a * s.view.orilevel) ∧
    dim.along a * s.view.orilevel * s.view.nextLevel inout ≤ 200 * 2147483647

/-- A pan drag starts with a pan offset that leaves room for the drag and the largest scale. -/
def PansFrom (s : PacedView B) (pos : Point) : Prop :=
  pos.InInt16 ∧ ∀ a, |s.view.viewOffset.along a| + 65535 + 3276600 ≤ 2147483647

/-- A zoom drag starts in the client area of a view as it is painted. -/
def DragsFrom (s : PacedView B) (env : ViewEnv B) (pos : Point) : Prop :=
  s.pace = .painted ∧ s.view.viewWndDim = env.client ∧
    ∀ a, 0 ≤ pos.along a ∧ pos.along a < env.client.along a

/-- The messages that keep the pace. A zoom drag goes no further than to where the cursor is from the
edge, at the scale of the new level to the level it started from. -/
def Moderate (s : PacedView B) (l : ViewMsg × ViewEnv B) : Prop :=
  l.2.Within dim ∧
    match l.1 with
    | .zoom inout test => s.ZoomsWithin dim inout test
    | .keyDown key shift ctrl alt =>
      match keyAction key shift ctrl alt with
      | .zoom inout => s.ZoomsWithin dim inout false
      | _ => True
    | .lButtonDown pos ctrl =>
      if ctrl then s.DragsFrom l.2 pos else s.PansFrom pos
    | .rButtonDown pos => s.DragsFrom l.2 pos
    | .mouseMove cur => cur.InInt16 ∧
      (s.view.isdragging → s.view.dragType = .ZOOMDRAG → ∀ a,
        s.view.zoomDragOrigin.along a * 100 * s.view.dragTarget dragZoom cur ≤
          2147483647 * s.view.zoomDragStartLevel)
    | _ => True

def step (s : PacedView B) (l : ViewMsg × ViewEnv B) : Option (PacedView B) :=
  (s.view.handle l.2 dragZoom l.1).map fun v =>
    { view := v, pace := s.view.nextPace l.2 s.pace l.1 }

def machine : Lib.Machine (PacedView B) (ViewMsg × ViewEnv B) :=
  .ofExec (· = {}) (step dragZoom)

end PacedView

end ObZrv
