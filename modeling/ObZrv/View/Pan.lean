import ObZrv.View.Steps

/-!
# View.Pan

The visible part of an image that is larger than the view. `OnPaint` centres it, moves it by the pan
offset and the drag under way, and keeps it on the image; only when nothing is dragged is the offset
kept that way itself. The end of a drag adds the drag to the offset as it is; but the right button
ends any drag, and drops one that pans.

* `cropAxis_range`          : one axis of the visible part is on the image, and as large as it can be.
* `onLButtonUp_settings`    : the end of a pan drag leaves what the view is computed from.
* `onRButtonUp_settings`    : the right button takes the drag out of it.
* `ImageView.run_panning`   : a pan drag goes on until a button goes up or a zoom drag starts.
* `ImageView.pan_view`      : the crop, the offset that is kept, and the crop after a pan drag.
* `ImageView.pan_dropped`   : a pan drag that the right button ends.
-/

namespace ObZrv

namespace ViewSettings

open ImageView

theorem cropAxis_range {client scale : Int} (hclient : 0 ≤ client) (hscale : 0 ≤ scale)
    (offset : Int) :
    0 ≤ (cropAxis client scale offset).1 ∧
      (cropAxis client scale offset).1 ≤ (cropAxis client scale offset).2 ∧
      (cropAxis client scale offset).2 ≤ scale ∧
      (cropAxis client scale offset).2 - (cropAxis client scale offset).1 = min client scale := by
  have hdiv := Int.tdiv_eq_ediv_of_nonneg (a := scale - client) (b := 2)
  unfold cropAxis panAxis centreAxis
  by_cases hfits : client ≥ scale
  · simp only [if_pos hfits, Int.sub_zero, Int.lt_irrefl, if_false]
    omega
  · simp only [if_neg hfits, hdiv (by omega)]
    rw [if_pos (by omega)]
    simp only
    omega

/-- The visible part is the centred one, moved by the offset that is applied. -/
theorem cropAxis_eq (client scale offset : Int) :
    (cropAxis client scale offset).1 = (centreAxis client scale).1 +
      (panAxis (centreAxis client scale).1 (centreAxis client scale).2 scale offset).1 := by
  unfold cropAxis panAxis
  simp only
  split
  · rfl
  · rw [Int.add_zero]

theorem view_along {st : ViewSettings} (hpans : st.Pans) {size dim scale : Size} {crop : Rect}
    (h : st.view size dim = some (scale, crop)) (a : Axis) :
    crop.lo a = (cropAxis (size.along a) (scale.along a) (st.offset.along a)).1 ∧
      crop.hi a = (cropAxis (size.along a) (scale.along a) (st.offset.along a)).2 := by
  rw [view_pans hpans, Option.some.injEq, Prod.mk.injEq] at h
  obtain ⟨rfl, rfl⟩ := h
  cases a with
  | x => exact ⟨rfl, rfl⟩
  | y => exact ⟨rfl, rfl⟩

theorem view_scale_eq {st : ViewSettings} (hpans : st.Pans) {size dim scale : Size} {crop : Rect}
    (h : st.view size dim = some (scale, crop)) : scale = st.scale dim := by
  rw [view_pans hpans, Option.some.injEq, Prod.mk.injEq] at h
  exact h.1.symm

theorem applied_along (st : ViewSettings) (size dim : Size) (a : Axis) :
    (st.applied size dim).along a =
      (panAxis (centreAxis (size.along a) ((st.scale dim).along a)).1
        (centreAxis (size.along a) ((st.scale dim).along a)).2 ((st.scale dim).along a)
        (st.offset.along a)).1 := by
  cases a with
  | x => rfl
  | y => rfl

/-- The scale on one axis at a level. -/
def levelScale (dim level : Int) : Int := max ((dim * level).tdiv 100) 1

theorem scale_along {st : ViewSettings} {dim : Size} (a : Axis) :
    (st.scale dim).along a =
      if st.zoomlevel ≠ 0 then levelScale (dim.along a) st.zoomlevel else dim.along a := by
  unfold scale levelScale
  split
  · cases a with
    | x => rfl
    | y => rfl
  · rfl

theorem one_le_scale {st : ViewSettings} {dim : Size} (hdim : ∀ a, 1 ≤ dim.along a) (a : Axis) :
    1 ≤ (st.scale dim).along a := by
  rw [scale_along]
  split
  · exact Int.le_max_right _ _
  · exact hdim a

end ViewSettings

/-- The visible part is on the image, and as large as the client area and the image are. -/
def CropOn (client scale : Size) (crop : Rect) : Prop :=
  ∀ a, 0 ≤ crop.lo a ∧ crop.lo a ≤ crop.hi a ∧ crop.hi a ≤ scale.along a ∧
    crop.hi a - crop.lo a = min (client.along a) (scale.along a)

/-- The messages that neither end a pan drag nor make a zoom drag of it. `WM_RBUTTONUP` ends it like
`WM_LBUTTONUP`, without the drag added to the offset. -/
def ViewMsg.keepsPan : ViewMsg → Bool
  | .lButtonUp | .rButtonUp | .rButtonDown _ => false
  | .lButtonDown _ ctrl => !ctrl
  | _ => true

namespace ImageView

variable {B : Type} {v v' : ImageView B} {env : ViewEnv B} {dragZoom : DragZoom}

/-- The pan offset that is kept is the one that moved the visible part from the middle. -/
def Applied (client : Size) (v : ImageView B) (a : Axis) : Prop :=
  v.viewCrop.lo a = (centreAxis (client.along a) (v.scaleSize.along a)).1 + v.viewOffset.along a

instance (client : Size) (v : ImageView B) (a : Axis) : Decidable (Applied client v a) :=
  inferInstanceAs (Decidable (_ = _))

def Panning (v : ImageView B) : Prop := v.isdragging = true ∧ v.dragType = .PAN

theorem Painted.viewOffset {size dim : Size} (h : Painted size dim v v') :
    v'.viewOffset = v.paintedOffset size dim := by
  obtain ⟨bitmap, timecost, effects, hstate⟩ := h.state
  rw [hstate]

theorem Painted.cropOn {img : OpenImage B} (h : Painted env.client img.dim v v')
    (hpans : v.settings.Pans) : CropOn env.client v'.scaleSize v'.viewCrop := by
  intro a
  obtain ⟨hlo, hhi⟩ := ViewSettings.view_along hpans h.view a
  have hscale : 1 ≤ v'.scaleSize.along a := by
    rw [ViewSettings.view_scale_eq hpans h.view]
    exact ViewSettings.one_le_scale img.dim_pos a
  rw [hlo, hhi]
  exact ViewSettings.cropAxis_range (env.client_nonneg a) (by omega) _

theorem Painted.applied {size dim : Size} (h : Painted size dim v v') (hpans : v.settings.Pans)
    (hidle : v.isdragging = false) (a : Axis) : Applied size v' a := by
  unfold Applied
  rw [(ViewSettings.view_along hpans h.view a).1, ViewSettings.cropAxis_eq, h.viewOffset,
    paintedOffset, if_pos hpans, hidle, if_neg Bool.false_ne_true, ViewSettings.applied_along,
    ViewSettings.view_scale_eq hpans h.view]

/-! ## A pan drag -/

theorem Redrawn.panning (h : Redrawn v v') (hv : v.Panning) : v'.Panning := by
  obtain ⟨bitmap, timecost, effects, rfl⟩ := h
  exact hv

theorem zoom_panning {inout : Int} {test : Bool} (h : (v.zoom env inout test).map (·.2) = some v')
    (hv : v.Panning) : v'.Panning := by
  rcases zoom_cases h with rfl | ⟨-, -, -, wnd, hzoomed⟩
  · exact hv
  · exact hzoomed.panning hv

theorem onMouseMove_pan (hv : v.Panning) (pos : Point) :
    v.onMouseMove env dragZoom pos = ({ v with draggingCur := pos } : ImageView B).redraw := by
  unfold onMouseMove
  rw [if_pos hv.1]
  have hpan : ¬ v.dragType = .ZOOMDRAG := by
    rw [hv.2]
    decide
  exact congrArg redraw (if_neg hpan)

/-- **A step of a pan drag.** -/
theorem handle_panning {msg : ViewMsg} (hmsg : msg.keepsPan = true)
    (h : v.handle env dragZoom msg = some v') (hv : v.Panning) : v'.Panning := by
  cases msg with
  | paint =>
    rcases onPaint_cases h with ⟨-, hsame⟩ | ⟨img, -, -, hpainted⟩
    · exact hsame.panning hv
    · exact hpainted.state.panning hv
  | eraseBkgnd => cases h; exact hv
  | size => cases h; exact hv
  | keyDown key shift ctrl alt =>
    simp only [handle] at h
    cases hkey : keyAction key shift ctrl alt with
    | navigate cmd => rw [hkey] at h; cases h; exact hv
    | exit => rw [hkey] at h; cases h; exact hv
    | zoom inout => rw [hkey] at h; exact zoom_panning h hv
    | pass => rw [hkey] at h; cases h; exact hv
  | mouseWheel delta => cases h; exact hv
  | lButtonDown pos ctrl =>
    obtain rfl : ctrl = false := by simpa [ViewMsg.keepsPan] using hmsg
    cases h
    exact ⟨rfl, rfl⟩
  | lButtonUp => cases hmsg
  | rButtonDown pos => cases hmsg
  | rButtonUp => cases hmsg
  | mouseMove pos =>
    cases h
    rw [onMouseMove_pan hv]
    exact hv
  | setFocus => cases h; exact hv
  | other => cases h; exact hv
  | fileOpened cmdid =>
    rcases onFileOpened_cases h with rfl | hopened
    · exact hv
    · exact hopened.panning hv
  | frameUpdate => cases h; exact (redrawn_onFrameUpdate v env).panning hv
  | updateStatus => cases h; exact (redrawn_updateStatus v env).panning hv
  | zoom inout test => exact zoom_panning h hv
  | setZoomMode cmdId =>
    rcases setZoomMode_cases h with rfl | ⟨zt, hmode⟩
    · exact hv
    · exact hmode.panning hv

theorem run_panning {msgs : ViewRun B} (hmsgs : ∀ m ∈ msgs, m.1.keepsPan = true) :
    ∀ {v : ImageView B}, v.Panning → v.run dragZoom msgs = some v' → v'.Panning := by
  induction msgs with
  | nil =>
    intro v hv h
    cases h
    exact hv
  | cons m msgs ih =>
    intro v hv h
    rw [run_cons] at h
    obtain ⟨v₁, hstep, hrest⟩ := Option.bind_eq_some_iff.mp h
    exact ih (fun m' hm' => hmsgs m' (List.mem_cons_of_mem m hm'))
      (handle_panning (hmsgs m List.mem_cons_self) hstep hv) hrest

theorem onLButtonUp_pan (hv : v.Panning) :
    v.onLButtonUp =
      ({ (({ v with isdragging := false } : ImageView B).send .releaseCapture) with
        viewOffset := v.dragOffset } : ImageView B).redraw := by
  have hoffset : v.dragOffset =
      { cx := v.viewOffset.cx - (v.draggingCur.x - v.draggingOrigin.x)
        cy := v.viewOffset.cy - (v.draggingCur.y - v.draggingOrigin.y) } := if_pos hv
  unfold onLButtonUp
  rw [if_pos hv.1, hoffset]
  exact congrArg redraw (if_pos hv.2)

/-- The drag is in the offset of a view that is dragged, and added to it at its end. -/
theorem onLButtonUp_settings (hv : v.Panning) : v.onLButtonUp.settings = v.settings := by
  rw [onLButtonUp_pan hv]
  unfold settings
  congr 1

theorem onRButtonUp_drag (hv : v.isdragging = true) :
    v.onRButtonUp = (({ v with isdragging := false } : ImageView B).send .releaseCapture).redraw :=
  if_pos hv

/-- `WM_RBUTTONUP` does not look at the kind of the drag. -/
theorem onRButtonUp_settings (hv : v.isdragging = true) :
    v.onRButtonUp.settings = { v.settings with offset := v.viewOffset } := by
  rw [onRButtonUp_drag hv]
  rfl

theorem onRButtonUp_stale (hv : v.isdragging = true) (env : ViewEnv B) :
    v.onRButtonUp.stale env = true := by
  rw [onRButtonUp_drag hv]
  rfl

theorem onLButtonUp_stale (hv : v.Panning) (env : ViewEnv B) : v.onLButtonUp.stale env = true := by
  rw [onLButtonUp_pan hv]
  rfl

/-- **The crop, the pan offset and the end of a drag.** For every image, client area, zoom level,
pan offset and drag of a view that pans, `OnPaint` computes a crop that is on the image and as large
as it can be, and keeps the offset that it applied when nothing is dragged. And for every pan drag,
whatever comes in between, the paint after the left button is released has the scale and the crop of
the paint before; where the right one is released instead, it has them only if the view without the
drag has. -/
theorem pan_view (dragZoom : DragZoom) (v : ImageView B) (env : ViewEnv B) {img : OpenImage B}
    (himage : env.image = some img) :
    (v.settings.Pans → v.stale env = true →
      ∃ v', v.onPaint env = some v' ∧ CropOn env.client v'.scaleSize v'.viewCrop ∧
        (v.isdragging = false → ∀ a, Applied env.client v' a)) ∧
    ∀ (pos : Point) (first : ViewEnv B) (msgs : ViewRun B) (dragged preview : ImageView B),
      v.run dragZoom ((.lButtonDown pos false, first) :: msgs) = some dragged →
      (∀ m ∈ msgs, m.1.keepsPan = true) →
      dragged.stale env = true → dragged.onPaint env = some preview →
      ∀ (env' : ViewEnv B) (img' : OpenImage B), env'.image = some img' → img'.dim = img.dim →
        env'.client = env.client →
        (∃ released, preview.onLButtonUp.onPaint env' = some released ∧
          released.scaleSize = preview.scaleSize ∧ released.viewCrop = preview.viewCrop) ∧
        ∀ dropped, preview.onRButtonUp.onPaint env' = some dropped →
          ((dropped.scaleSize = preview.scaleSize ∧ dropped.viewCrop = preview.viewCrop) ↔
            ({ preview.settings with offset := preview.viewOffset } : ViewSettings).view
              env.client img.dim = preview.settings.view env.client img.dim) := by
  refine ⟨?_, ?_⟩
  · intro hpans hstale
    have hview := ViewSettings.view_pans hpans env.client img.dim
    obtain ⟨v', hpaint, hpainted, -⟩ := onPaint_painted himage hstale hview
    exact ⟨v', hpaint, hpainted.cropOn hpans, hpainted.applied hpans⟩
  · intro pos first msgs dragged preview hrun hmsgs hstale hpaint env' img' himage' hdim hclient
    rw [run_cons] at hrun
    have hdown : Panning (({ v.startDrag pos with dragType := .PAN } : ImageView B).send .setCapture) :=
      ⟨rfl, rfl⟩
    have hpanning : dragged.Panning := run_panning hmsgs hdown hrun
    have hpainted := onPaint_stale himage hstale hpaint
    have hpreview : preview.Panning := hpainted.state.panning hpanning
    refine ⟨?_, ?_⟩
    · have hview := hpainted.again
      rw [← onLButtonUp_settings hpreview, ← hclient, ← hdim] at hview
      obtain ⟨released, hreleased, -, hscale, hcrop⟩ :=
        onPaint_painted himage' (onLButtonUp_stale hpreview env') hview
      exact ⟨released, hreleased, hscale, hcrop⟩
    · intro dropped hdropped
      have hview := (onPaint_stale himage' (onRButtonUp_stale hpreview.1 env') hdropped).view
      rw [onRButtonUp_settings hpreview.1, hclient, hdim] at hview
      rw [hview, hpainted.again, Option.some.injEq, Prod.mk.injEq]

/-- An image of 1000x800 at 100% in a client area of 300x200. -/
def largeImage : OpenImage Unit where
  dim := ⟨1000, 800⟩
  getBBitmap _ _ := some ()
  cx_pos := by decide
  cy_pos := by decide

def largeEnv : ViewEnv Unit := plainEnv (some largeImage) 300 200

/-- It is dragged by 40 to the right and up, and the button released. -/
theorem pan_view_large :
    ∃ dragged preview released : ImageView Unit,
      ({ zoomtype := .NOFIT } : ImageView Unit).run (fun start _ => start)
        [(.lButtonDown ⟨100, 100⟩ false, largeEnv), (.mouseMove ⟨140, 60⟩, largeEnv)] =
          some dragged ∧
      dragged.onPaint largeEnv = some preview ∧ CropOn ⟨300, 200⟩ ⟨1000, 800⟩ preview.viewCrop ∧
      preview.onLButtonUp.onPaint largeEnv = some released ∧
      released.viewCrop = preview.viewCrop := by
  obtain ⟨dragged, hrun⟩ : ∃ dragged, ({ zoomtype := .NOFIT } : ImageView Unit).run
      (fun start _ => start)
      [(.lButtonDown ⟨100, 100⟩ false, largeEnv), (.mouseMove ⟨140, 60⟩, largeEnv)] =
        some dragged := ⟨_, rfl⟩
  have hpans : dragged.settings.Pans ∧ dragged.stale largeEnv = true := by
    cases hrun
    exact ⟨.inr (.inr rfl), rfl⟩
  obtain ⟨preview, hpaint, hcrop, -⟩ :=
    (pan_view (fun start _ => start) dragged largeEnv rfl).1 hpans.1 hpans.2
  obtain ⟨⟨released, hreleased, -, hsame⟩, -⟩ :=
    (pan_view (fun start _ => start) { zoomtype := .NOFIT } largeEnv rfl).2 _ _ _ dragged
      preview hrun (by decide) hpans.2 hpaint largeEnv largeImage rfl rfl rfl
  have hscale : preview.scaleSize = ⟨1000, 800⟩ := by
    cases hrun
    cases hpaint
    rfl
  exact ⟨dragged, preview, released, hrun, hpaint, hscale ▸ hcrop, hreleased, hsame⟩

/-- The same drag while the right button is held down, which goes up before the left one. -/
theorem pan_dropped :
    ∃ dragged preview up released : ImageView Unit,
      ({ zoomtype := .NOFIT } : ImageView Unit).run (fun start _ => start)
        [(.paint, largeEnv), (.rButtonDown ⟨100, 100⟩, largeEnv),
          (.lButtonDown ⟨100, 100⟩ false, largeEnv), (.mouseMove ⟨140, 60⟩, largeEnv)] =
          some dragged ∧
      dragged.onPaint largeEnv = some preview ∧
      preview.run (fun start _ => start) [(.rButtonUp, largeEnv), (.lButtonUp, largeEnv)] =
        some up ∧
      up.onPaint largeEnv = some released ∧
      preview.viewCrop = ⟨310, 340, 610, 540⟩ ∧ released.viewCrop = ⟨350, 300, 650, 500⟩ :=
  ⟨_, _, _, _, rfl, rfl, rfl, rfl, by decide, by decide⟩

end ImageView

end ObZrv
