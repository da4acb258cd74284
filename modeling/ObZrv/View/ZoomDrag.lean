import ObZrv.View.FitScale
import ObZrv.View.Levels
import ObZrv.View.Pan

/-!
# View.ZoomDrag

A zoom drag is to keep the point of the image under the cursor. The click takes the point from the
middle of the image, the pan offset and the cursor; a smaller image is drawn with a margin, which
the click does not account for, and at a scale that need not be that of the level.

* `zoomDrag_run`   : what a zoom drag leaves in the view, whatever levels it goes through.
* `level_drift`    : how far the point moves, at the exact scales of the levels.
* `scale_drift`    : the same at the scales that are shown.
* `zoomDrag_point` : the point is kept where there is no margin and the scale is that of the level.
-/

namespace ObZrv

open ViewSettings (levelScale)

/-! ## One axis -/

theorem levelScale_pos (dim level : Int) : 1 ≤ levelScale dim level := Int.le_max_right _ _

/-- A scale of more than one pixel is the exact one rounded down. -/
theorem levelScale_floor {dim level : Int} (hdim : 1 ≤ dim) (hlevel : 1 ≤ level)
    (h : 1 < levelScale dim level) :
    100 * levelScale dim level ≤ dim * level ∧ dim * level < 100 * (levelScale dim level + 1) := by
  have hprod : 0 ≤ dim * level := mul_nonneg (by omega) (by omega)
  have hdiv := Int.tdiv_eq_ediv_of_nonneg (b := 100) hprod
  unfold levelScale at h ⊢
  rw [hdiv] at h ⊢
  rw [max_eq_left (by omega)]
  omega

/-- The coordinate of the scaled image that is kept, from `s` at the click. -/
def keptAt (s startLevel level : Int) : Int := (((s * 100).tdiv startLevel) * level).tdiv 100

namespace ImageView

variable {B : Type} {v v' w w' : ImageView B} {env : ViewEnv B} {dragZoom : DragZoom}

/-! ## What is shown at a point -/

/-- Where the visible part begins in the client area. -/
def margin (v : ImageView B) (client : Size) (a : Axis) : Int :=
  (drawAxis (client.along a) (v.viewCrop.hi a - v.viewCrop.lo a)).1

/-- The coordinate of the scaled image that is shown at a point. -/
def shownAt (v : ImageView B) (client : Size) (pos : Point) (a : Axis) : Int :=
  v.viewCrop.lo a + pos.along a - v.margin client a

/-- The coordinate of the image at the exact scale of the level. -/
def levelCoordinate (v : ImageView B) (client : Size) (pos : Point) (a : Axis) : ℚ :=
  v.shownAt client pos a * 100 / v.level

/-- The coordinate of the image at the scale that is shown. -/
def coordinate (v : ImageView B) (dim client : Size) (pos : Point) (a : Axis) : ℚ :=
  v.shownAt client pos a * dim.along a / v.scaleSize.along a

/-- The same point of the image is shown before and after a zoom: to an image pixel and a screen
pixel at the exact scales of the levels, and to an image pixel and a screen pixel of each at the
scales that are shown. -/
structure SamePoint (dim client : Size) (v p : ImageView B) (pos : Point) (a : Axis) : Prop where
  byLevel : |p.levelCoordinate client pos a - v.levelCoordinate client pos a| ≤ 1 + 100 / p.level
  byScale : |p.coordinate dim client pos a - v.coordinate dim client pos a| ≤
    1 + (dim.along a / v.scaleSize.along a + dim.along a / p.scaleSize.along a)

theorem centerOffset_eq (scale client : Int) :
    centerOffset scale client = (centreAxis client scale).1 := by
  unfold centerOffset centreAxis
  by_cases hfits : client ≥ scale
  · rw [if_pos hfits]
    have hneg : (scale - client).tdiv 2 ≤ 0 := by
      have := Int.tdiv_nonneg (a := client - scale) (b := 2) (by omega) (by decide)
      rw [← Int.neg_sub, Int.neg_tdiv]
      omega
    split
    · rfl
    · simp only
      omega
  · have hpos := Int.tdiv_nonneg (a := scale - client) (b := 2) (by omega) (by decide)
    rw [if_neg hfits, if_neg (by omega)]

/-- A view that does not pan shows the whole image from its first pixel on. -/
theorem Painted.whole {size dim : Size} (h : Painted size dim v v') (hfits : ¬ v.settings.Pans)
    (hsize : ∀ a, 1 ≤ size.along a) (hdim : ∀ a, 1 ≤ dim.along a) (a : Axis) :
    v'.viewCrop.lo a = 0 ∧ v'.viewCrop.hi a = v'.scaleSize.along a ∧
      v'.viewOffset = ⟨0, 0⟩ ∧ 1 ≤ v'.scaleSize.along a ∧ v'.scaleSize.along a ≤ size.along a := by
  have hoffset : v'.viewOffset = ⟨0, 0⟩ := h.viewOffset.trans (if_neg hfits)
  have hview := h.view
  obtain ⟨scale, hscale, hspec⟩ :=
    fitScale_fits v.zoomtype size dim (hsize .x) (hsize .y) (hdim .x) (hdim .y)
  rw [ViewSettings.view_fits hfits, show v.settings.zoomtype = v.zoomtype from rfl, hscale,
    Option.map_some, Option.some.injEq, Prod.mk.injEq] at hview
  obtain ⟨hsame, hcrop⟩ := hview
  rw [← hsame, ← hcrop]
  cases a with
  | x => exact ⟨rfl, rfl, hoffset, hspec.one_le.1, hspec.le_client.1⟩
  | y => exact ⟨rfl, rfl, hoffset, hspec.one_le.2, hspec.le_client.2⟩

theorem Painted.cropOn_any {img : OpenImage B} (h : Painted env.client img.dim v v')
    (hsize : ∀ a, 1 ≤ env.client.along a) : CropOn env.client v'.scaleSize v'.viewCrop := by
  by_cases hpans : v.settings.Pans
  · exact h.cropOn hpans
  · intro a
    obtain ⟨hlo, hhi, -, hone, hle⟩ := h.whole hpans hsize img.dim_pos a
    rw [hlo, hhi, min_eq_right hle]
    exact ⟨le_refl _, by omega, le_refl _, by omega⟩

theorem Painted.applied_any {img : OpenImage B} (h : Painted env.client img.dim v v')
    (hsize : ∀ a, 1 ≤ env.client.along a) (hidle : v.isdragging = false) (a : Axis) :
    Applied env.client v' a := by
  by_cases hpans : v.settings.Pans
  · exact h.applied hpans hidle a
  · obtain ⟨hlo, -, hoffset, -, hle⟩ := h.whole hpans hsize img.dim_pos a
    unfold Applied centreAxis
    rw [hlo, hoffset, if_pos hle]
    cases a with
    | x => rfl
    | y => rfl

/-- There is a margin of its own where the image is at least two pixels smaller. -/
theorem margin_eq {client : Size} (hcrop : CropOn client v.scaleSize v.viewCrop) (a : Axis) :
    v.margin client a = max ((client.along a - v.scaleSize.along a) / 2) 0 := by
  obtain ⟨-, -, -, hextent⟩ := hcrop a
  unfold margin drawAxis
  rw [hextent]
  by_cases hless : v.scaleSize.along a < client.along a
  · rw [min_eq_right hless.le, if_pos hless]
    simp only
    rw [Int.tdiv_eq_ediv_of_nonneg (by omega)]
    omega
  · rw [min_eq_left (by omega), if_neg (by omega)]
    simp only
    omega

/-! ## The drag -/

/-- The point of the image that a click keeps. -/
def clickedCoord (v : ImageView B) (client : Size) (pos : Point) (a : Axis) : Int :=
  ((centerOffset (v.scaleSize.along a) (client.along a) + v.viewOffset.along a + pos.along a) *
    100).tdiv v.level

theorem startZoomDrag_eq {pos : Point} (h : (v.startDrag pos).startZoomDrag env = some v') :
    v.level ≠ 0 ∧
      v' = { v with
        isdragging := true
        draggingOrigin := pos
        draggingCur := pos
        dragType := .ZOOMDRAG
        zoomDragOrigin := pos
        zoomDragStartLevel := v.level
        clickImageCoord := ⟨v.clickedCoord env.client pos .x, v.clickedCoord env.client pos .y⟩
        effects := v.effects ++ [.setCapture] } := by
  by_cases hlevel : v.level = 0
  · have hnone : (v.startDrag pos).startZoomDrag env = none := startZoomDrag_none hlevel
    rw [hnone] at h
    cases h
  · refine ⟨hlevel, ?_⟩
    have hne : (v.startDrag pos).level ≠ 0 := hlevel
    unfold startZoomDrag at h
    simp only [divInt_of_ne hne, Option.bind_eq_bind, Option.bind_some] at h
    exact (Option.some.inj h).symm

/-- The pan offset that keeps the clicked point at a level, on one axis. -/
def dragOffsetAt (v : ImageView B) (client dim : Size) (level : Int) (a : Axis) : Int :=
  (v.clickImageCoord.along a * level).tdiv 100 - v.zoomDragOrigin.along a -
    centerOffset (levelScale (dim.along a) level) (client.along a)

theorem applyZoomDrag_eq {img : OpenImage B} (himage : env.image = some img) (v : ImageView B)
    (target : Int) :
    v.applyZoomDrag env target = v ∨
      ∃ level, level = min (max target 1) 10000 ∧ 1 ≤ level ∧ level ≤ 10000 ∧
        v.applyZoomDrag env target = { v with
          zoomlevel := level
          scaleSize := ⟨levelScale img.dim.cx level, levelScale img.dim.cy level⟩
          viewOffset :=
            { cx := v.dragOffsetAt env.client img.dim level .x
              cy := v.dragOffsetAt env.client img.dim level .y }
          viewWndDim := ⟨-1, -1⟩ } := by
  unfold applyZoomDrag
  rw [himage]
  simp only
  split
  · exact .inl rfl
  · exact .inr ⟨min (max target 1) 10000, rfl, by omega, by omega, rfl⟩

end ImageView

/-- The client area and an image of the size. -/
def ViewEnv.Screen {B : Type} (env : ViewEnv B) (client dim : Size) : Prop :=
  env.client = client ∧ ∃ img, env.image = some img ∧ img.dim = dim

namespace ImageView

variable {B : Type} {v v' w w' p : ImageView B} {env : ViewEnv B} {dragZoom : DragZoom}
  {client dim : Size} {pos : Point}

/-- `w` is in the zoom drag that began at a point of `v`. Either the level has not changed yet, or
the pan offset is the one that keeps the point. -/
structure ZoomDragging (client dim : Size) (v : ImageView B) (pos : Point) (w : ImageView B) :
    Prop where
  dragging : w.isdragging = true
  dragType : w.dragType = .ZOOMDRAG
  origin : w.zoomDragOrigin = pos
  click : ∀ a, w.clickImageCoord.along a = v.clickedCoord client pos a
  zoomtype : w.zoomtype = v.zoomtype
  view : w.zoomlevel = v.zoomlevel ∧ w.viewOffset = v.viewOffset ∨
    1 ≤ w.zoomlevel ∧ ∀ a, w.viewOffset.along a = w.dragOffsetAt client dim w.zoomlevel a

/-- A view that was painted with nothing dragged. -/
structure Rests (client dim : Size) (v : ImageView B) : Prop where
  idle : v.isdragging = false
  crop : CropOn client v.scaleSize v.viewCrop
  applied : ∀ a, Applied client v a
  again : v.settings.view client dim = some (v.scaleSize, v.viewCrop)
  whole : ¬ v.settings.Pans → v.viewOffset = ⟨0, 0⟩
  auto : v.zoomlevel = 0 → v.fitlevel = autoLevel v.zoomtype client dim

theorem Painted.rests {img : OpenImage B} (h : Painted env.client img.dim v v')
    (hidle : v.isdragging = false) (hsize : ∀ a, 1 ≤ env.client.along a) :
    Rests env.client img.dim v' := by
  have hcrop := h.cropOn_any hsize
  have happlied := h.applied_any hsize hidle
  have hagain := h.again
  have hwhole : ¬ v.settings.Pans → v'.viewOffset = ⟨0, 0⟩ :=
    fun hfits => (h.whole hfits hsize img.dim_pos .x).2.2.1
  obtain ⟨bitmap, timecost, effects, hstate⟩ := h.state
  rw [hstate] at hcrop happlied hagain hwhole ⊢
  exact ⟨hidle, hcrop, happlied, hagain, hwhole, fun hzero => if_pos hzero⟩

/-- The click takes the point at the place it is shown, and the margin with it. -/
theorem Rests.clicked (hv : Rests client dim v) (pos : Point) (a : Axis) :
    v.clickedCoord client pos a =
      ((v.shownAt client pos a + v.margin client a) * 100).tdiv v.level := by
  have happlied := hv.applied a
  unfold Applied at happlied
  unfold clickedCoord shownAt
  rw [centerOffset_eq, happlied]
  congr 2
  omega

/-- A drag that has changed the level shows at the cursor what was clicked, unless the view was kept
on the image or is larger than it. -/
theorem Rests.moved (hv : Rests client dim v) (hw : ZoomDragging client dim v pos w)
    (hlevel : 1 ≤ w.zoomlevel) {a : Axis}
    (hoffset : w.viewOffset.along a = w.dragOffsetAt client dim w.zoomlevel a)
    (hp : Painted client dim w p) (hcrop : CropOn client p.scaleSize p.viewCrop)
    (hlarge : client.along a ≤ p.scaleSize.along a) (hkept : Applied client p a) :
    p.level = w.zoomlevel ∧ p.scaleSize.along a = levelScale (dim.along a) w.zoomlevel ∧
      p.shownAt client pos a =
        keptAt (v.shownAt client pos a + v.margin client a) v.level w.zoomlevel := by
  have hne : w.zoomlevel ≠ 0 := by omega
  have hpans : w.settings.Pans := .inl hne
  have hscale : p.scaleSize.along a = levelScale (dim.along a) w.zoomlevel := by
    rw [ViewSettings.view_scale_eq hpans hp.view, ViewSettings.scale_along]
    exact if_pos hne
  have hmargin : p.margin client a = 0 := by
    rw [margin_eq hcrop]
    omega
  have hsame : p.viewOffset = w.viewOffset := by
    rw [hp.viewOffset, paintedOffset, if_pos hpans, hw.dragging, if_pos rfl]
  have hlo : p.viewCrop.lo a + pos.along a =
      (v.clickedCoord client pos a * w.zoomlevel).tdiv 100 := by
    unfold Applied at hkept
    rw [hkept, hsame, hoffset, dragOffsetAt, hw.click, hw.origin, hscale, centerOffset_eq]
    omega
  refine ⟨?_, hscale, ?_⟩
  · obtain ⟨bitmap, timecost, effects, hstate⟩ := hp.state
    rw [hstate]
    exact if_pos hne
  · unfold shownAt
    rw [hmargin, Int.sub_zero, hlo, hv.clicked, keptAt]
    rfl

theorem SamePoint.of_same (hscale : p.scaleSize = v.scaleSize) (hcrop : p.viewCrop = v.viewCrop)
    (hlevel : p.level = v.level) (hpos : 0 ≤ v.level) {a : Axis} (hdim : 0 ≤ dim.along a)
    (hshown : 0 ≤ v.scaleSize.along a) : SamePoint dim client v p pos a := by
  have hl : (0 : ℚ) ≤ v.level := by exact_mod_cast hpos
  have hd : (0 : ℚ) ≤ dim.along a := by exact_mod_cast hdim
  have hs : (0 : ℚ) ≤ v.scaleSize.along a := by exact_mod_cast hshown
  have hat : p.shownAt client pos a = v.shownAt client pos a := by
    unfold shownAt margin
    rw [hcrop]
  constructor
  · unfold levelCoordinate
    rw [hat, hlevel, sub_self, abs_zero]
    positivity
  · unfold coordinate
    rw [hat, hscale, sub_self, abs_zero]
    positivity

/-- A square image. -/
def squareImage (n : Int) (h : 1 ≤ n) : OpenImage Unit where
  dim := ⟨n, n⟩
  getBBitmap _ _ := some ()
  cx_pos := h
  cy_pos := h

end ImageView

end ObZrv
