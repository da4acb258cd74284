import ObZrv.View.Current
import ObZrv.View.ZoomLevel

/-!
# View.Steps

What the handlers of `ImageView` change, each as one equation. The state after a handler is the
state before it with some fields set, but for the bitmap and what was done outside the view.

* `Redrawn`      : the same but for these.
* `zoom_cases`   : `zoom` does nothing, or goes to the next level and takes the pan offset there.
* `onPaint_cases`: `OnPaint` draws what is there, or computes the view and the pan offset.
-/

namespace ObZrv

/-! ## Axes -/

inductive Axis where
  | x
  | y
deriving DecidableEq, Repr

def Size.along (s : Size) : Axis → Int
  | .x => s.cx
  | .y => s.cy

def Point.along (p : Point) : Axis → Int
  | .x => p.x
  | .y => p.y

/-- Where a rectangle begins on an axis. -/
def Rect.lo (r : Rect) : Axis → Int
  | .x => r.left
  | .y => r.top

/-- Where a rectangle ends on an axis. -/
def Rect.hi (r : Rect) : Axis → Int
  | .x => r.right
  | .y => r.bottom

theorem OpenImage.dim_pos {B : Type} (img : OpenImage B) (a : Axis) : 1 ≤ img.dim.along a := by
  cases a with
  | x => exact img.cx_pos
  | y => exact img.cy_pos

theorem ViewEnv.client_nonneg {B : Type} (env : ViewEnv B) (a : Axis) : 0 ≤ env.client.along a := by
  cases a with
  | x => exact Int.natCast_nonneg _
  | y => exact Int.natCast_nonneg _

namespace ViewSettings

theorem panAxis_zero (client scale : Int) :
    (ImageView.panAxis (ImageView.centreAxis client scale).1 (ImageView.centreAxis client scale).2
      scale 0).1 = 0 := by
  have hb := centreAxis_bounds client scale
  unfold ImageView.panAxis
  split
  · rename_i hlt
    obtain ⟨hlo, hhi⟩ := hb hlt
    simp only
    omega
  · rfl

theorem applied_zero {st : ViewSettings} (h : st.offset = ⟨0, 0⟩) (size dim : Size) :
    st.applied size dim = ⟨0, 0⟩ := by
  unfold applied
  simp only [h, panAxis_zero]

end ViewSettings

namespace ImageView

variable {B : Type} {v v' : ImageView B} {env : ViewEnv B}

/-! ## What is outside the state -/

/-- The same state but for the bitmap and what was done outside the view. -/
def Redrawn (v v' : ImageView B) : Prop :=
  ∃ bitmap timecost effects,
    v' = { v with viewBitmap := bitmap, timecost := timecost, effects := effects }

theorem Redrawn.refl (v : ImageView B) : Redrawn v v := ⟨_, _, _, rfl⟩

theorem Redrawn.trans {v'' : ImageView B} (h : Redrawn v v') (h' : Redrawn v' v'') :
    Redrawn v v'' := by
  obtain ⟨bitmap, timecost, effects, rfl⟩ := h
  obtain ⟨bitmap', timecost', effects', rfl⟩ := h'
  exact ⟨_, _, _, rfl⟩

theorem redrawn_send (v : ImageView B) (e : ViewEffect B) : Redrawn v (v.send e) :=
  ⟨_, _, _, rfl⟩

theorem redrawn_redraw (v : ImageView B) : Redrawn v v.redraw := ⟨_, _, _, rfl⟩

theorem redrawn_updateStatus (v : ImageView B) (env : ViewEnv B) :
    Redrawn v (v.updateStatus env) := by
  unfold updateStatus
  split
  · exact redrawn_send v _
  · exact .refl v

theorem redrawn_drawView (v : ImageView B) (env : ViewEnv B) : Redrawn v (v.drawView env) := by
  unfold drawView
  split
  · exact redrawn_send v _
  · exact ⟨_, _, _, rfl⟩

theorem redrawn_onFrameUpdate (v : ImageView B) (env : ViewEnv B) :
    Redrawn v (v.onFrameUpdate env) := by
  unfold onFrameUpdate
  exact Redrawn.trans ⟨_, _, _, rfl⟩ (redrawn_updateStatus _ env)

theorem redrawn_makeBitmap (v : ImageView B) (env : ViewEnv B) (img : OpenImage B)
    (oldCrop : Rect) :
    Redrawn { v with viewWndDim := env.client } (v.makeBitmap env img oldCrop) := by
  rw [makeBitmap_eq]
  split
  · exact ⟨_, _, _, rfl⟩
  · exact .refl _

theorem redrawn_placeWindow (v : ImageView B) (env : ViewEnv B) (win : MainPlace) (work : Rect)
    (most wanted : Size) (mousepos : Point) :
    Redrawn v (v.placeWindow env win work most wanted mousepos) := by
  unfold placeWindow
  simp only
  split
  · split
    · exact (redrawn_send v _).trans (redrawn_send _ _)
    · exact redrawn_send v _
  · exact .refl v

theorem redrawn_fitWindow2Image {dim : Size} {mousepos : Point}
    (h : v.fitWindow2Image env dim mousepos = some v') : Redrawn v v' := by
  unfold fitWindow2Image at h
  split at h
  · cases h
    exact redrawn_redraw v
  · split at h
    · cases h
      exact redrawn_redraw v
    · obtain ⟨wanted, -, rfl⟩ := Option.map_eq_some_iff.mp h
      exact (redrawn_placeWindow v env _ _ _ wanted mousepos).trans (redrawn_redraw _)

theorem redrawn_showZoomed {dim : Size} {mousepos : Point}
    (h : v.showZoomed env dim mousepos = some v') : Redrawn v v' := by
  unfold showZoomed at h
  split at h
  · exact redrawn_fitWindow2Image h
  · cases h
    exact redrawn_redraw v

theorem redrawn_showLevel {dim : Size} {inout : Int} (h : v.showLevel env dim inout = some v') :
    ∃ wnd, Redrawn { v with viewWndDim := wnd } v' := by
  unfold showLevel at h
  split at h
  · exact ⟨v.viewWndDim, redrawn_fitWindow2Image h⟩
  · cases h
    exact ⟨_, redrawn_redraw _⟩

/-! ## `zoom` -/

/-- The level that the pan offset is taken from. -/
def orilevel (v : ImageView B) : Int := if v.zoomlevel ≠ 0 then v.zoomlevel else 100

/-- At another level, with the pan offset taken there. -/
def zoomed (v : ImageView B) (newlevel : Int) : ImageView B :=
  { v with
    zoomlevel := newlevel
    viewOffset :=
      { cx := (v.viewOffset.cx * newlevel).tdiv v.orilevel
        cy := (v.viewOffset.cy * newlevel).tdiv v.orilevel } }

theorem orilevel_ne_zero (v : ImageView B) : v.orilevel ≠ 0 := by
  unfold orilevel
  split
  · assumption
  · decide

theorem zoomTo_eq {dim : Size} {newlevel inout : Int}
    (h : v.zoomTo env dim newlevel inout = some v') :
    ∃ wnd, Redrawn { v.zoomed newlevel with viewWndDim := wnd } v' := by
  unfold zoomTo at h
  simp only [Option.bind_eq_bind, Option.bind_eq_some_iff] at h
  obtain ⟨cx, hcx, cy, hcy, shown, hshow, hres⟩ := h
  change divInt _ v.orilevel = some cx at hcx
  change divInt _ v.orilevel = some cy at hcy
  rw [divInt_of_ne v.orilevel_ne_zero, Option.some.injEq] at hcx hcy
  obtain ⟨wnd, hshown⟩ := redrawn_showLevel hshow
  cases hres
  subst hcx hcy
  exact ⟨wnd, hshown.trans (redrawn_updateStatus _ _)⟩

/-- The level that a zoom step in a direction leads to. -/
def nextLevel (v : ImageView B) (inout : Int) : Int :=
  if inout > 0 then levelAbove v.level else levelBelow v.level

/-- **`zoom`.** It leaves the view as it is, or takes it to the next level; out of 1% and in from
10000% there is none. -/
theorem zoom_cases {inout : Int} {test : Bool}
    (h : (v.zoom env inout test).map (·.2) = some v') :
    v' = v ∨ test = false ∧ env.image.isSome ∧
      (inout > 0 ∧ v.level < 10000 ∨ inout < 0 ∧ 1 < v.level) ∧
      ∃ wnd, Redrawn { v.zoomed (v.nextLevel inout) with viewWndDim := wnd } v' := by
  have hsame {code : Int} (h : (some (code, v)).map (·.2) = some v') : v' = v := by
    cases h
    rfl
  have hto {dim : Size} {level : Int}
      (h : ((v.zoomTo env dim level inout).map ((0 : Int), ·)).map (·.2) = some v') :
      ∃ wnd, Redrawn { v.zoomed level with viewWndDim := wnd } v' := by
    rw [Option.map_map] at h
    obtain ⟨v₁, hzoom, rfl⟩ := Option.map_eq_some_iff.mp h
    exact zoomTo_eq hzoom
  unfold zoom at h
  split at h
  · exact .inl (hsame h)
  · rename_i img himage
    have hopen : env.image.isSome := by rw [himage]; rfl
    split at h
    · exact .inl (hsame h)
    · rename_i hinout
      split at h
      · rename_i hin
        split at h
        · exact .inl (hsame h)
        · rename_i hlevel
          split at h
          · exact .inl (hsame h)
          · rename_i htest
            refine .inr ⟨Bool.not_eq_true _ ▸ htest, hopen, .inl ⟨hin, by omega⟩, ?_⟩
            rw [nextLevel, if_pos hin]
            exact hto h
      · rename_i hout
        split at h
        · exact .inl (hsame h)
        · rename_i hlevel
          split at h
          · exact .inl (hsame h)
          · split at h
            · exact .inl (hsame h)
            · rename_i htest
              refine .inr ⟨Bool.not_eq_true _ ▸ htest, hopen, .inr ⟨by omega, by omega⟩, ?_⟩
              rw [nextLevel, if_neg hout]
              exact hto h

/-! ## `OnPaint` -/

/-- The pan offset after the view is computed. -/
def paintedOffset (v : ImageView B) (size dim : Size) : Size :=
  if v.settings.Pans then if v.isdragging then v.viewOffset else v.settings.applied size dim
  else ⟨0, 0⟩

theorem cropView_offset {size dim : Size} (hpans : v.settings.Pans)
    (hscale : v.zoomlevel = 0 → v.scaleSize = dim) :
    v.cropView size dim =
      { v with
        scaleSize := (v.cropView size dim).scaleSize
        viewCrop := (v.cropView size dim).viewCrop
        viewOffset := v.paintedOffset size dim } := by
  unfold cropView paintedOffset
  simp only [cropView_scale hscale, if_pos hpans]
  split
  · rfl
  · rename_i hstill
    have hzero : v.settings.offset = ⟨0, 0⟩ := v.dragOffset_zero hstill
    have hoffset : v.viewOffset = ⟨0, 0⟩ := Decidable.not_not.mp (not_or.mp hstill).1
    rw [ViewSettings.applied_zero hzero, hoffset, ite_self]

/-- The level a mode chooses by itself. -/
def autoLevel (zt : ZoomType) (size dim : Size) : Int :=
  match zt with
  | .W2I | .NOFIT => 100
  | .I2W =>
    if dim.cx = 0 ∨ dim.cy = 0 then 100 else ((fitAspect size dim).map (·.1)).getD 0
  | .W2I_ZOOMOUT | .I2W_ZOOMOUT =>
    if size.cx ≥ dim.cx ∧ size.cy ≥ dim.cy then 100 else ((fitAspect size dim).map (·.1)).getD 0

/-- `fitlevel` after the view is computed. -/
def paintedLevel (v : ImageView B) (size dim : Size) : Int :=
  if v.zoomlevel = 0 then autoLevel v.zoomtype size dim else v.fitlevel

theorem fitAspect_nonneg {size dim : Size} (hsize : ∀ a, 0 ≤ size.along a)
    (hdim : ∀ a, 1 ≤ dim.along a) : 0 ≤ ((fitAspect size dim).map (·.1)).getD 0 := by
  have hx : dim.cx ≠ 0 := by have := hdim .x; simp only [Size.along] at this; omega
  have hy : dim.cy ≠ 0 := by have := hdim .y; simp only [Size.along] at this; omega
  have hdiv (a b : Axis) : 0 ≤ (size.along a * 100).tdiv (dim.along b) := by
    have ha := hsize a
    have hb := hdim b
    exact Int.tdiv_nonneg (by omega) (by omega)
  unfold fitAspect scaledAxis
  split
  · rw [divInt_of_ne hy]
    exact hdiv .y .y
  · rw [divInt_of_ne hx]
    exact hdiv .x .x

theorem autoLevel_nonneg (zt : ZoomType) {size dim : Size} (hsize : ∀ a, 0 ≤ size.along a)
    (hdim : ∀ a, 1 ≤ dim.along a) : 0 ≤ autoLevel zt size dim := by
  have haspect := fitAspect_nonneg hsize hdim
  unfold autoLevel
  split
  · decide
  · decide
  · split
    · decide
    · exact haspect
  · split
    · decide
    · exact haspect
  · split
    · decide
    · exact haspect

theorem autoLevel_pans (hpans : v.settings.Pans) (hzero : v.zoomlevel = 0) (size dim : Size) :
    autoLevel v.zoomtype size dim = 100 := by
  unfold autoLevel
  rcases hpans with h | h | h
  · exact absurd hzero h
  · rw [show v.zoomtype = .W2I from h]
  · rw [show v.zoomtype = .NOFIT from h]

/-- A mode that shows the whole image. -/
theorem autoFit_whole (hfits : ¬ v.settings.Pans) {size dim : Size} {f : ImageView B}
    (h : v.autoFit size dim = some f) :
    ∃ scale, f = v.fitWhole (autoLevel v.zoomtype size dim) scale := by
  have hfit (h : ((fitAspect size dim).map fun p => v.fitWhole p.1 p.2) = some f) :
      ∃ scale, f = v.fitWhole (((fitAspect size dim).map (·.1)).getD 0) scale := by
    obtain ⟨⟨level, scale⟩, haspect, rfl⟩ := Option.map_eq_some_iff.mp h
    rw [haspect]
    exact ⟨scale, rfl⟩
  have hfull {scale : Size} (h : some (v.fitWhole 100 scale) = some f) :
      ∃ scale, f = v.fitWhole 100 scale := by
    cases h
    exact ⟨scale, rfl⟩
  have hzoomout (h : (if size.cx ≥ dim.cx ∧ size.cy ≥ dim.cy then some (v.fitWhole 100 dim)
      else (fitAspect size dim).map fun p => v.fitWhole p.1 p.2) = some f) :
      ∃ scale, f = v.fitWhole (if size.cx ≥ dim.cx ∧ size.cy ≥ dim.cy then 100
        else ((fitAspect size dim).map (·.1)).getD 0) scale := by
    by_cases hin : size.cx ≥ dim.cx ∧ size.cy ≥ dim.cy
    · rw [if_pos hin] at h ⊢
      exact hfull h
    · rw [if_neg hin] at h ⊢
      exact hfit h
  unfold autoFit at h
  unfold autoLevel
  cases htype : v.zoomtype with
  | W2I => exact absurd (.inr (.inl htype)) hfits
  | NOFIT => exact absurd (.inr (.inr htype)) hfits
  | I2W =>
    rw [htype] at h
    simp only at h ⊢
    by_cases hdim : dim.cx = 0 ∨ dim.cy = 0
    · rw [if_pos hdim] at h ⊢
      exact hfull h
    · rw [if_neg hdim] at h ⊢
      exact hfit h
  | W2I_ZOOMOUT =>
    rw [htype] at h
    exact hzoomout h
  | I2W_ZOOMOUT =>
    rw [htype] at h
    exact hzoomout h

theorem viewAt_eq {size dim : Size} {f : ImageView B} (h : v.viewAt size dim = some f) :
    f = { v with
      fitlevel := v.paintedLevel size dim
      scaleSize := f.scaleSize
      viewCrop := f.viewCrop
      viewOffset := v.paintedOffset size dim } := by
  unfold viewAt at h
  obtain ⟨g, hfitted, hres⟩ := Option.map_eq_some_iff.mp h
  by_cases hpans : v.settings.Pans
  · by_cases hzero : v.zoomlevel = 0
    · rw [if_pos hzero, autoFit_pans hpans hzero, Option.some.injEq] at hfitted
      subst hfitted
      have hcrop := (if_pos (show v.settings.Pans from hpans)).symm.trans hres
      rw [paintedLevel, if_pos hzero, autoLevel_pans hpans hzero, ← hcrop]
      exact cropView_offset (v := { v with fitlevel := 100, scaleSize := dim }) hpans fun _ => rfl
    · rw [if_neg hzero, Option.some.injEq] at hfitted
      subst hfitted
      have hcrop := (if_pos (show v.settings.Pans from hpans)).symm.trans hres
      rw [paintedLevel, if_neg hzero, ← hcrop]
      exact cropView_offset hpans fun h => absurd h hzero
  · have hzero : v.zoomlevel = 0 := Decidable.not_not.mp fun h => hpans (.inl h)
    rw [if_pos hzero] at hfitted
    obtain ⟨scale, rfl⟩ := autoFit_whole hpans hfitted
    have hwhole := (if_neg (show ¬ v.settings.Pans from hpans)).symm.trans hres
    rw [paintedLevel, if_pos hzero, ← hwhole, paintedOffset, if_neg hpans]
    rfl

/-- What `OnPaint` computes in `v`, but for the bitmap and what was done outside the view. -/
structure Painted (size dim : Size) (v v' : ImageView B) : Prop where
  view : v.settings.view size dim = some (v'.scaleSize, v'.viewCrop)
  again : v'.settings.view size dim = some (v'.scaleSize, v'.viewCrop)
  state :
    Redrawn
      { v with
        fitlevel := v.paintedLevel size dim
        scaleSize := v'.scaleSize
        viewCrop := v'.viewCrop
        viewOffset := v.paintedOffset size dim
        viewWndDim := size } v'

theorem Painted.redrawn {size dim : Size} (h : Painted size dim v v') {v'' : ImageView B}
    (hr : Redrawn v' v'') : Painted size dim v v'' := by
  have hstate := h.state
  obtain ⟨bitmap, timecost, effects, rfl⟩ := hr
  exact ⟨h.view, h.again, hstate.trans ⟨_, _, _, rfl⟩⟩

theorem recompute_painted {img : OpenImage B} (h : v.recompute env img = some v') :
    Painted env.client img.dim v v' := by
  rw [recompute_eq] at h
  obtain ⟨f, hf, rfl⟩ := Option.map_eq_some_iff.mp h
  have heq := viewAt_eq hf
  have hc : Computed env.client img.dim v f := by
    rcases viewAt_view v env.client img.dim with ⟨hnone, -⟩ | ⟨g, hg, hc⟩
    · rw [hnone] at hf
      cases hf
    · obtain rfl : g = f := Option.some.inj (hg.symm.trans hf)
      exact hc
  obtain ⟨bitmap, timecost, effects, hr⟩ :=
    (redrawn_makeBitmap f env img v.viewCrop).trans (redrawn_updateStatus _ env)
  rw [hr]
  refine ⟨hc.view, hc.again, bitmap, timecost, effects, ?_⟩
  rw [heq]

/-- **`OnPaint`.** It draws what is there, or computes the view. -/
theorem onPaint_cases (h : v.onPaint env = some v') :
    ((env.image = none ∨ v.stale env = false) ∧ Redrawn v v') ∨
      ∃ img, env.image = some img ∧ v.stale env = true ∧ Painted env.client img.dim v v' := by
  unfold onPaint at h
  split at h
  · rename_i himage
    cases h
    exact .inl ⟨.inl himage, redrawn_send v _⟩
  · rename_i img himage
    obtain ⟨f, hf, rfl⟩ := Option.map_eq_some_iff.mp h
    by_cases hstale : v.stale env = true
    · rw [if_pos hstale] at hf
      exact .inr ⟨img, himage, hstale, (recompute_painted hf).redrawn (redrawn_drawView f env)⟩
    · rw [if_neg hstale] at hf
      cases hf
      exact .inl ⟨.inr (Bool.not_eq_true _ ▸ hstale), redrawn_drawView v env⟩

/-- A paint of a view that is stale. -/
theorem onPaint_stale {img : OpenImage B} (himage : env.image = some img)
    (hstale : v.stale env = true) (h : v.onPaint env = some v') :
    Painted env.client img.dim v v' := by
  rcases onPaint_cases h with ⟨hnone | hfresh, -⟩ | ⟨img', himage', -, hpainted⟩
  · cases himage.symm.trans hnone
  · cases hstale.symm.trans hfresh
  · obtain rfl : img = img' := Option.some.inj (himage.symm.trans himage')
    exact hpainted

/-- A paint that computes the view, where no divisor is zero. -/
theorem onPaint_painted {img : OpenImage B} (himage : env.image = some img)
    (hstale : v.stale env = true) {scale : Size} {crop : Rect}
    (hview : v.settings.view env.client img.dim = some (scale, crop)) :
    ∃ v', v.onPaint env = some v' ∧ Painted env.client img.dim v v' ∧
      v'.scaleSize = scale ∧ v'.viewCrop = crop := by
  rcases recompute_view v env img with ⟨-, hnone⟩ | ⟨r, hr, -⟩
  · rw [hnone] at hview
    cases hview
  · have hpainted := (recompute_painted hr).redrawn (redrawn_drawView r env)
    obtain ⟨hscale, hcrop⟩ := Prod.mk.inj (Option.some.inj (hpainted.view.symm.trans hview))
    refine ⟨r.drawView env, ?_, hpainted, hscale, hcrop⟩
    unfold onPaint
    rw [himage]
    simp only [hstale, if_true, hr, Option.map_some]

/-! ## A file opened and a zoom mode -/

/-- The view as it is before its image is painted. -/
def unzoomed (v : ImageView B) : ImageView B :=
  { v with
    zoomlevel := 0
    fitlevel := 0
    scaleSize := ⟨-1, -1⟩
    viewCrop := ⟨-1, -1, -1, -1⟩
    viewOffset := ⟨0, 0⟩ }

theorem onFileOpened_cases {cmdid : Int} (h : v.onFileOpened env cmdid = some v') :
    v' = v ∨ Redrawn v.unzoomed v' := by
  unfold onFileOpened at h
  split at h
  · cases h
    exact .inl rfl
  · exact .inr (redrawn_showZoomed h)

theorem setZoomMode_cases {cmdId : Int} (h : v.setZoomMode env cmdId = some v') :
    v' = v ∨ ∃ zt, Redrawn { v.unzoomed with zoomtype := zt, viewWndDim := ⟨-1, -1⟩ } v' := by
  unfold setZoomMode at h
  split at h
  · cases h
    exact .inl rfl
  · rename_i zt hmode
    split at h
    · cases h
      exact .inr ⟨zt, .refl _⟩
    · exact .inr ⟨zt, redrawn_showZoomed h⟩

end ImageView

end ObZrv
