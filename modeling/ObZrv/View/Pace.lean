import ObZrv.View.Int32

/-!
# View.Pace

What a run that keeps the pace keeps. The pan offset is at most half the size of the image at its
level once it is painted, and a zoom step keeps that; a drag is only bounded by the mouse, until the
view is painted again.

* `zoomed_half`            : a zoom step and the half of the image.
* `Painted.settled`        : a paint, and where the client area begins.
* `ImageView.Kept`         : the invariant; `handle_kept` is a step of it, `reached_kept` a run.
-/

namespace ObZrv

open ViewSettings (levelScale)

/-! ## One axis -/

theorem inInt32_of_abs {n : Int} (h : |n| ≤ 2147483647) : InInt32 n := by
  have hboth := abs_le.mp h
  exact ⟨by omega, hboth.2⟩

theorem abs_tdiv_mul_le (a b : Int) : |a.tdiv b| * |b| ≤ |a| := by
  rw [Int.abs_eq_natAbs, Int.abs_eq_natAbs, Int.abs_eq_natAbs, Int.natAbs_tdiv]
  exact_mod_cast Nat.div_mul_le_self a.natAbs b.natAbs

theorem levelScale_le {dim level : Int} (hdim : 1 ≤ dim ∧ dim ≤ 32766)
    (hlevel : 0 ≤ level ∧ level ≤ 10000) : levelScale dim level ≤ 3276600 := by
  have hprod : dim * level ≤ 32766 * 10000 := mul_le_mul hdim.2 hlevel.2 hlevel.1 (by decide)
  have hnonneg : 0 ≤ dim * level := mul_nonneg (by omega) hlevel.1
  unfold levelScale
  rw [Int.tdiv_eq_ediv_of_nonneg hnonneg]
  omega

theorem centerOffset_range {scale client : Int} (hscale : scale ≤ 3276600) (hclient : 0 ≤ client) :
    0 ≤ ImageView.centerOffset scale client ∧
      ImageView.centerOffset scale client ≤ 1638300 := by
  unfold ImageView.centerOffset
  split
  · omega
  · rename_i hpos
    refine ⟨by omega, ?_⟩
    by_cases hneg : scale - client < 0
    · have := Int.tdiv_nonneg (a := client - scale) (b := 2) (by omega) (by decide)
      rw [← Int.neg_sub, Int.neg_tdiv]
      omega
    · rw [Int.tdiv_eq_ediv_of_nonneg (by omega)]
      omega

/-- A zoom step takes a pan offset of at most half the image at the old level to one of at most half
the image at the new one. -/
theorem zoomed_half {dim offset ori level : Int} (hori : 1 ≤ ori) (hlevel : 0 ≤ level)
    (h : 200 * |offset| ≤ dim * ori) : 200 * |(offset * level).tdiv ori| ≤ dim * level := by
  have hquot := abs_tdiv_mul_le (offset * level) ori
  rw [abs_mul, abs_of_nonneg hlevel, abs_of_nonneg (by omega : 0 ≤ ori)] at hquot
  refine le_of_mul_le_mul_right ?_ (by omega : 0 < ori)
  calc 200 * |(offset * level).tdiv ori| * ori
      = 200 * (|(offset * level).tdiv ori| * ori) := by ring
    _ ≤ 200 * (|offset| * level) := by omega
    _ = 200 * |offset| * level := by ring
    _ ≤ dim * ori * level := mul_le_mul_of_nonneg_right h hlevel
    _ = dim * level * ori := by ring

theorem zoomed_fits {dim offset ori level : Int} (hlevel : 0 ≤ level)
    (h : 200 * |offset| ≤ dim * ori) (hmost : dim * ori * level ≤ 200 * 2147483647) :
    InInt32 (offset * level) := by
  refine inInt32_of_abs ?_
  have hprod : 200 * |offset| * level ≤ dim * ori * level := mul_le_mul_of_nonneg_right h hlevel
  rw [abs_mul, abs_of_nonneg hlevel]
  rw [mul_assoc] at hprod
  omega

/-! ## The invariant -/

namespace ImageView

variable {B : Type} {v v' : ImageView B} {env : ViewEnv B} {dragZoom : DragZoom} {dim : Size}
  {pace : Pace}

/-- The clicked point is one of the image, or one of the margin at the scale of the level. -/
def ClickNear (dim : Size) (v : ImageView B) (a : Axis) : Prop :=
  0 ≤ v.clickImageCoord.along a ∧
    (v.clickImageCoord.along a ≤ dim.along a ∨
      1 ≤ v.zoomDragStartLevel ∧
        v.clickImageCoord.along a * v.zoomDragStartLevel ≤ v.zoomDragOrigin.along a * 100)

/-- The coordinate of the scaled image where the client area begins. -/
def shownFrom (v : ImageView B) (a : Axis) : Int :=
  centerOffset (v.scaleSize.along a) (v.viewWndDim.along a) + v.viewOffset.along a

/-- The client area begins with the first pixel of the image, or ends on the image, which is at most
as large as at its level. -/
def AtRest (dim : Size) (v : ImageView B) (a : Axis) : Prop :=
  v.shownFrom a = 0 ∨
    0 ≤ v.shownFrom a ∧ v.shownFrom a + v.viewWndDim.along a ≤ v.scaleSize.along a ∧
      100 * v.scaleSize.along a ≤ dim.along a * v.level

/-- What a run that keeps the pace keeps. -/
structure Kept (dim : Size) (v : ImageView B) (pace : Pace) : Prop where
  levels : v.Levels
  scale : ∀ a, -1 ≤ v.scaleSize.along a ∧ v.scaleSize.along a ≤ 3276600
  crop : ∀ a, (-1 ≤ v.viewCrop.lo a ∧ v.viewCrop.lo a ≤ 3276600) ∧
    -1 ≤ v.viewCrop.hi a ∧ v.viewCrop.hi a ≤ 3276600
  offset : ∀ a, |v.viewOffset.along a| ≤ 2144207047
  mouse : v.draggingOrigin.InInt16 ∧ v.draggingCur.InInt16 ∧ v.zoomDragOrigin.InInt16
  click : ∀ a, ClickNear dim v a
  half : pace ≠ .moved → ∀ a, 200 * |v.viewOffset.along a| ≤ dim.along a * v.orilevel
  rest : pace = .painted → ∀ a, 1 ≤ v.viewWndDim.along a → AtRest dim v a
  room : v.isdragging = true → v.dragType = .PAN →
    ∀ a, |v.viewOffset.along a| + 65535 ≤ 2144207047

theorem Redrawn.kept (h : Redrawn v v') (hv : Kept dim v pace) : Kept dim v' pace := by
  obtain ⟨bitmap, timecost, effects, rfl⟩ := h
  exact ⟨⟨hv.levels.1, hv.levels.2, hv.levels.3⟩, hv.scale, hv.crop, hv.offset, hv.mouse, hv.click,
    hv.half, hv.rest, hv.room⟩

/-- After a zoom step nothing is said of where the client area begins. -/
theorem Kept.scaled (hv : Kept dim v pace)
    (hhalf : ∀ a, 200 * |v.viewOffset.along a| ≤ dim.along a * v.orilevel) : Kept dim v .scaled where
  levels := hv.levels
  scale := hv.scale
  crop := hv.crop
  offset := hv.offset
  mouse := hv.mouse
  click := hv.click
  half _ := hhalf
  rest h := by cases h
  room := hv.room

/-- After a drag nothing is said of the pan offset but how far the mouse can have taken it. -/
theorem Kept.moved (hv : Kept dim v pace) : Kept dim v .moved where
  levels := hv.levels
  scale := hv.scale
  crop := hv.crop
  offset := hv.offset
  mouse := hv.mouse
  click := hv.click
  half h := absurd rfl h
  rest h := by cases h
  room := hv.room

theorem Kept.released (hv : Kept dim v pace) :
    Kept dim (({ v with isdragging := false } : ImageView B).send .releaseCapture) pace :=
  ⟨⟨hv.levels.1, hv.levels.2, hv.levels.3⟩, hv.scale, hv.crop, hv.offset, hv.mouse, hv.click,
    hv.half, hv.rest, nofun⟩

theorem Kept.cursor (hv : Kept dim v pace) {cur : Point} (hcur : cur.InInt16) :
    Kept dim { v with draggingCur := cur } pace :=
  ⟨⟨hv.levels.1, hv.levels.2, hv.levels.3⟩, hv.scale, hv.crop, hv.offset,
    ⟨hv.mouse.1, hcur, hv.mouse.2.2⟩, hv.click, hv.half, hv.rest, hv.room⟩

theorem Levels.orilevel_pos (h : v.Levels) : 1 ≤ v.orilevel ∧ v.orilevel ≤ 10000 := by
  have hpos := h.zoomlevel_nonneg
  have hle := h.zoomlevel_le
  unfold orilevel
  split <;> omega

theorem half_le {offset level : Int} (hdim : ∀ a, 1 ≤ dim.along a ∧ dim.along a ≤ 32766)
    (hlevel : 0 ≤ level ∧ level ≤ 10000) {a : Axis} (h : 200 * |offset| ≤ dim.along a * level) :
    |offset| ≤ 1638300 := by
  have hmost : dim.along a * level ≤ 32766 * 10000 :=
    mul_le_mul (hdim a).2 hlevel.2 hlevel.1 (by decide)
  omega

/-! ## `OnPaint` -/

theorem Painted.shown {img : OpenImage B} (h : Painted env.client img.dim v v') (hv : v.Levels)
    (hsize : ∀ a, 1 ≤ env.client.along a ∧ env.client.along a ≤ 32766)
    (hdim : ∀ a, img.dim.along a ≤ 32766) (a : Axis) :
    v'.scaleSize.along a ≤ 3276600 ∧ 0 ≤ v'.viewCrop.lo a ∧ v'.viewCrop.lo a ≤ v'.viewCrop.hi a ∧
      v'.viewCrop.hi a ≤ v'.scaleSize.along a := by
  obtain ⟨hlo, hle, hhi, -⟩ := h.cropOn_any (fun a => (hsize a).1) a
  refine ⟨?_, hlo, hle, hhi⟩
  by_cases hpans : v.settings.Pans
  · rw [ViewSettings.view_scale_eq hpans h.view, ViewSettings.scale_along]
    split
    · exact levelScale_le ⟨img.dim_pos a, hdim a⟩ ⟨hv.zoomlevel_nonneg, hv.zoomlevel_le⟩
    · have := hdim a
      omega
  · obtain ⟨-, -, -, -, hfits⟩ := h.whole hpans (fun a => (hsize a).1) img.dim_pos a
    have := (hsize a).2
    omega

/-- The scale of a view that pans is that of its level. -/
theorem Rests.scale_floor {client : Size} (hv : Rests client dim v) (hlevels : v.Levels)
    (hpans : v.settings.Pans) {a : Axis} (hdim : 1 ≤ dim.along a) (hmore : 1 < v.scaleSize.along a) :
    100 * v.scaleSize.along a ≤ dim.along a * v.level ∧ v.level = v.orilevel := by
  have hscale := congrArg (Size.along · a) (ViewSettings.view_scale_eq hpans hv.again)
  simp only [ViewSettings.scale_along, show v.settings.zoomlevel = v.zoomlevel from rfl] at hscale
  unfold level orilevel
  by_cases hzero : v.zoomlevel = 0
  · rw [if_neg (not_not.mpr hzero), if_neg (not_not.mpr hzero), hv.auto hzero,
      autoLevel_pans hpans hzero]
    rw [if_neg (not_not.mpr hzero)] at hscale
    exact ⟨by omega, rfl⟩
  · rw [if_pos hzero, if_pos hzero]
    rw [if_pos hzero] at hscale
    have hpos := hlevels.zoomlevel_nonneg
    rw [hscale] at hmore ⊢
    exact ⟨(levelScale_floor hdim (by omega) hmore).1, rfl⟩

/-- **A paint with nothing dragged.** The pan offset is at most half the image. -/
theorem Painted.settled {img : OpenImage B} (h : Painted env.client img.dim v v')
    (hidle : v.isdragging = false) (hsize : ∀ a, 1 ≤ env.client.along a) (hlevels : v'.Levels)
    (a : Axis) :
    200 * |v'.viewOffset.along a| ≤ img.dim.along a * v'.orilevel ∧ AtRest img.dim v' a := by
  have hwnd : v'.viewWndDim = env.client := by
    obtain ⟨bitmap, timecost, effects, hstate⟩ := h.state
    rw [hstate]
  have hnone (hfits : v'.scaleSize.along a ≤ env.client.along a) (hoff : v'.viewOffset.along a = 0) :
      200 * |v'.viewOffset.along a| ≤ img.dim.along a * v'.orilevel ∧ AtRest img.dim v' a := by
    have hori := hlevels.orilevel_pos
    refine ⟨?_, .inl ?_⟩
    · rw [hoff]
      exact mul_nonneg (by have := img.dim_pos a; omega) (by omega)
    · unfold shownFrom
      rw [hwnd, hoff, centerOffset_eq, centreAxis, if_pos hfits]
      rfl
  by_cases hpans : v.settings.Pans
  · have hpans' : v'.settings.Pans := by
      obtain ⟨bitmap, timecost, effects, hstate⟩ := h.state
      rw [hstate]
      exact hpans
    have hrests := h.rests hidle hsize
    obtain ⟨hlo, -, hhi, hextent⟩ := hrests.crop a
    have happlied := hrests.applied a
    unfold Applied centreAxis at happlied
    have hclient := hsize a
    by_cases hmore : env.client.along a < v'.scaleSize.along a
    · obtain ⟨hfloor, hlevel⟩ := hrests.scale_floor hlevels hpans' (img.dim_pos a) (by omega)
      rw [if_neg (by omega), Int.tdiv_eq_ediv_of_nonneg (by omega)] at happlied
      simp only at happlied
      have hfrom : v'.shownFrom a = v'.viewCrop.lo a := by
        unfold shownFrom
        rw [hwnd, centerOffset_eq, centreAxis, if_neg (by omega),
          Int.tdiv_eq_ediv_of_nonneg (by omega)]
        exact happlied.symm
      refine ⟨?_, .inr ?_⟩
      · rw [← hlevel]
        -- the visible part begins and ends on the image
        have hhalf : 2 * |v'.viewOffset.along a| ≤ v'.scaleSize.along a := by
          rcases abs_cases (v'.viewOffset.along a) with ⟨heq, -⟩ | ⟨heq, -⟩ <;> omega
        omega
      · rw [hfrom, hwnd]
        exact ⟨hlo, by omega, hfloor⟩
    · rw [if_pos (by omega)] at happlied
      exact hnone (by omega) (by simp only at happlied; omega)
  · obtain ⟨-, -, hoffset, -, hfits⟩ := h.whole hpans hsize img.dim_pos a
    refine hnone hfits ?_
    rw [hoffset]
    cases a with
    | x => rfl
    | y => rfl

/-- The pan offset of a view that is dragged is left as it is. -/
theorem Painted.offset_le {size : Size} (h : Painted size dim v v') (hdrag : v.isdragging = true)
    (a : Axis) : |v'.viewOffset.along a| ≤ |v.viewOffset.along a| := by
  rw [h.viewOffset, paintedOffset, hdrag, if_pos rfl]
  split
  · exact le_refl _
  · cases a with
    | x => exact abs_nonneg _
    | y => exact abs_nonneg _

/-- What a paint keeps, once the pan offset is known. -/
theorem Painted.kept {img : OpenImage B} {pace' : Pace} (h : Painted env.client img.dim v v')
    (hsize : ∀ a, 1 ≤ env.client.along a ∧ env.client.along a ≤ 32766)
    (hdim : ∀ a, img.dim.along a ≤ 32766) (hv : Kept img.dim v pace) (hlevels : v'.Levels)
    (hoffset : ∀ a, |v'.viewOffset.along a| ≤ 2144207047)
    (hhalf : pace' ≠ .moved → ∀ a, 200 * |v'.viewOffset.along a| ≤ img.dim.along a * v'.orilevel)
    (hrest : pace' = .painted → ∀ a, AtRest img.dim v' a)
    (hroom : v.isdragging = true → v.dragType = .PAN →
      ∀ a, |v'.viewOffset.along a| + 65535 ≤ 2144207047) : Kept img.dim v' pace' := by
  have hshown := h.shown hv.levels hsize hdim
  obtain ⟨bitmap, timecost, effects, hstate⟩ := h.state
  refine ⟨hlevels, ?_, ?_, hoffset, ?_, ?_, hhalf, fun hpace a _ => hrest hpace a, ?_⟩
  · intro a
    have := hshown a
    omega
  · intro a
    have := hshown a
    omega
  · rw [hstate]
    exact hv.mouse
  · intro a
    rw [hstate]
    exact hv.click a
  · have hsame : v'.isdragging = v.isdragging ∧ v'.dragType = v.dragType := by
      rw [hstate]
      exact ⟨rfl, rfl⟩
    rw [hsame.1, hsame.2]
    exact hroom

/-- The view is painted, and the offset within its half again. -/
theorem paint_kept (henv : env.Within dim) (hdim : ∀ a, dim.along a ≤ 32766)
    (hv : Kept dim v pace) (h : v.onPaint env = some v') :
    Kept dim v' (v.paceOfPaint env pace) := by
  obtain ⟨⟨img, himage, rfl⟩, hsize⟩ := henv
  unfold paceOfPaint
  by_cases hstale : v.stale env = true
  · rw [if_pos hstale]
    have hpainted := onPaint_stale himage hstale h
    have hlevels := onPaint_levels h hv.levels
    cases hidle : v.isdragging with
    | false =>
      have hsettled := hpainted.settled hidle (fun a => (hsize a).1) hlevels
      refine hpainted.kept hsize hdim hv hlevels ?_ (fun _ a => (hsettled a).1)
        (fun _ a => (hsettled a).2) ?_
      · intro a
        have hpix (a : Axis) : 1 ≤ img.dim.along a ∧ img.dim.along a ≤ 32766 :=
          ⟨img.dim_pos a, hdim a⟩
        have := half_le hpix (by have := hlevels.orilevel_pos; omega) (hsettled a).1
        omega
      · intro hdrag
        cases hidle.symm.trans hdrag
    | true =>
      have hle := hpainted.offset_le hidle
      have hbound (a : Axis) : |v'.viewOffset.along a| ≤ 2144207047 := (hle a).trans (hv.offset a)
      have hroom (hdrag : v.isdragging = true) (hpan : v.dragType = .PAN) (a : Axis) :
          |v'.viewOffset.along a| + 65535 ≤ 2144207047 := by
        have := hv.room hdrag hpan a
        have := hle a
        omega
      have horilevel : v'.orilevel = v.orilevel := by
        obtain ⟨bitmap, timecost, effects, hstate⟩ := hpainted.state
        rw [hstate]
        rfl
      rw [if_pos rfl]
      by_cases hpace : pace = .moved
      · rw [if_pos hpace]
        refine hpainted.kept hsize hdim hv hlevels hbound ?_ ?_ hroom
        · intro hne
          exact absurd rfl hne
        · intro hrest
          cases hrest
      · rw [if_neg hpace]
        refine hpainted.kept hsize hdim hv hlevels hbound ?_ ?_ hroom
        · intro _ a
          have hhalf := hv.half hpace a
          have := hle a
          rw [horilevel]
          omega
        · intro hrest
          cases hrest
  · rcases onPaint_cases h with ⟨-, hsame⟩ | ⟨-, -, hstale', -⟩
    · rw [if_neg hstale]
      exact hsame.kept hv
    · exact absurd hstale' hstale

/-! ## A zoom step -/

/-- The pan offset of a view that a zoom step may be taken from. -/
theorem Kept.zooms (hdim : ∀ a, 1 ≤ dim.along a ∧ dim.along a ≤ 32766) (hv : Kept dim v pace)
    {inout : Int} {test : Bool} (hzooms : PacedView.ZoomsWithin dim ⟨v, pace⟩ inout test)
    (hsteps : v.ZoomSteps inout test) (a : Axis) :
    200 * |v.viewOffset.along a| ≤ dim.along a * v.orilevel := by
  rcases hzooms hsteps a with hzero | ⟨hpace | hhalf, -⟩
  · simp only at hzero
    rw [hzero, abs_zero]
    have hori := hv.levels.orilevel_pos
    exact mul_nonneg (by have := hdim a; omega) (by omega)
  · exact hv.half hpace a
  · exact hhalf

theorem zoom_kept {inout : Int} {test : Bool}
    (hdim : ∀ a, 1 ≤ dim.along a ∧ dim.along a ≤ 32766) (hv : Kept dim v pace)
    (hzooms : PacedView.ZoomsWithin dim ⟨v, pace⟩ inout test)
    (h : (v.zoom env inout test).map (·.2) = some v') :
    Kept dim v' (if v.ZoomSteps inout test then .scaled else pace) := by
  rcases zoom_cases h with rfl | ⟨htest, -, hnext, wnd, hzoomed⟩
  · split
    · rename_i hsteps
      exact hv.scaled (hv.zooms hdim hzooms hsteps)
    · exact hv
  · have hsteps : v.ZoomSteps inout test := ⟨htest, hnext⟩
    obtain ⟨hpos, hle⟩ := next_level hnext
    have hne : v.nextLevel inout ≠ 0 := by omega
    have hori : (v.zoomed (v.nextLevel inout)).orilevel = v.nextLevel inout := if_pos hne
    have hhalf (a : Axis) : 200 * |(v.zoomed (v.nextLevel inout)).viewOffset.along a| ≤
        dim.along a * v.nextLevel inout := by
      have hold := hv.zooms hdim hzooms hsteps a
      cases a with
      | x => exact zoomed_half hv.levels.orilevel_pos.1 (by omega) hold
      | y => exact zoomed_half hv.levels.orilevel_pos.1 (by omega) hold
    have hoffset (a : Axis) :
        |(v.zoomed (v.nextLevel inout)).viewOffset.along a| ≤ 1638300 :=
      half_le hdim ⟨by omega, hle⟩ (hhalf a)
    rw [if_pos hsteps]
    refine hzoomed.kept ⟨⟨?_, hle, hv.levels.fitlevel_nonneg⟩, hv.scale, hv.crop, ?_, hv.mouse,
      hv.click, ?_, nofun, ?_⟩
    · simp only [zoomed]
      omega
    · intro a
      exact (hoffset a).trans (by decide)
    · intro _ a
      exact (hhalf a).trans (le_of_eq (congrArg _ hori.symm))
    · intro _ _ a
      have := hoffset a
      simp only
      omega

/-! ## The drags -/

theorem startPan_kept {pos : Point} (hv : Kept dim v pace)
    (hpans : PacedView.PansFrom ⟨v, pace⟩ pos) :
    Kept dim (({ v.startDrag pos with dragType := .PAN } : ImageView B).send .setCapture) pace := by
  obtain ⟨hpos, hroom⟩ := hpans
  refine ⟨⟨hv.levels.1, hv.levels.2, hv.levels.3⟩, hv.scale, hv.crop, hv.offset,
    ⟨hpos, hpos, hv.mouse.2.2⟩, hv.click, hv.half, hv.rest, fun _ _ a => ?_⟩
  have := hroom a
  simp only [startDrag, send] at this ⊢
  omega

/-- The clicked point is one of the image, or at most what the cursor is from the edge. -/
theorem clicked_near {start pos client scale size level : Int} (hlevel : 1 ≤ level)
    (hpos : 0 ≤ pos ∧ pos < client)
    (h : start = 0 ∨ 0 ≤ start ∧ start + client ≤ scale ∧ 100 * scale ≤ size * level) :
    0 ≤ ((start + pos) * 100).tdiv level ∧
      (((start + pos) * 100).tdiv level ≤ size ∨
        ((start + pos) * 100).tdiv level * level ≤ pos * 100) := by
  have hnonneg : 0 ≤ (start + pos) * 100 := by omega
  have hle := Int.ediv_mul_le ((start + pos) * 100) (by omega : level ≠ 0)
  have hquot := Int.tdiv_nonneg hnonneg (by omega : 0 ≤ level)
  rw [← Int.tdiv_eq_ediv_of_nonneg hnonneg] at hle
  refine ⟨hquot, ?_⟩
  rcases h with rfl | ⟨hstart, hon, hscale⟩
  · rw [Int.zero_add] at hle ⊢
    exact .inr hle
  · refine .inl (le_of_mul_le_mul_right ?_ (by omega : 0 < level))
    omega

theorem startZoom_kept {pos : Point} (hwnd : v.viewWndDim = env.client)
    (hpos : ∀ a, 0 ≤ pos.along a ∧ pos.along a < env.client.along a)
    (hclient : ∀ a, env.client.along a ≤ 32766) (hv : Kept dim v .painted)
    (h : (v.startDrag pos).startZoomDrag env = some v') : Kept dim v' .painted := by
  obtain ⟨hlevel, rfl⟩ := startZoomDrag_eq h
  have hmouse : pos.InInt16 := by
    intro a
    have := hpos a
    have := hclient a
    omega
  refine ⟨⟨hv.levels.1, hv.levels.2, hv.levels.3⟩, hv.scale, hv.crop, hv.offset,
    ⟨hmouse, hmouse, hmouse⟩, ?_, hv.half, hv.rest, nofun⟩
  intro a
  have hrest := hv.rest rfl a (by rw [hwnd]; have := hpos a; omega)
  have hnonneg := hv.levels.level_nonneg
  have hpos' : 0 ≤ pos.along a ∧ pos.along a < v.viewWndDim.along a := by
    rw [hwnd]
    exact hpos a
  obtain ⟨hclick, hnear⟩ := clicked_near (by omega : 1 ≤ v.level) hpos' hrest
  have hcoord : v.clickedCoord env.client pos a =
      ((v.shownFrom a + pos.along a) * 100).tdiv v.level := by
    unfold clickedCoord shownFrom
    rw [hwnd]
  rw [← hcoord] at hclick hnear
  have hlevel' : 1 ≤ v.level := by omega
  cases a with
  | x => exact ⟨hclick, hnear.imp_right fun h => ⟨hlevel', h⟩⟩
  | y => exact ⟨hclick, hnear.imp_right fun h => ⟨hlevel', h⟩⟩

/-- The pan offset with a drag under way. -/
theorem Kept.dragOffset_le (hv : Kept dim v pace) (a : Axis) :
    |v.dragOffset.along a| ≤ 2144207047 := by
  have hoffset := abs_le.mp (hv.offset a)
  have horigin := hv.mouse.1 a
  have hcur := hv.mouse.2.1 a
  by_cases hpan : v.isdragging = true ∧ v.dragType = .PAN
  · have hroom := hv.room hpan.1 hpan.2 a
    have hdrag : v.dragOffset.along a =
        v.viewOffset.along a - (v.draggingCur.along a - v.draggingOrigin.along a) := by
      unfold dragOffset
      rw [if_pos hpan]
      cases a with
      | x => rfl
      | y => rfl
    have hboth := abs_le.mp (show |v.viewOffset.along a| ≤ 2144141512 by omega)
    rw [hdrag, abs_le]
    omega
  · have hdrag : v.dragOffset = v.viewOffset := if_neg hpan
    rw [hdrag]
    exact hv.offset a

theorem onLButtonUp_kept (hv : Kept dim v pace) :
    Kept dim v.onLButtonUp (if v.isdragging ∧ v.dragType = .PAN then .moved else pace) := by
  by_cases hpan : v.isdragging = true ∧ v.dragType = .PAN
  · rw [if_pos hpan, onLButtonUp_pan hpan]
    exact (redrawn_redraw _).kept ⟨⟨hv.levels.1, hv.levels.2, hv.levels.3⟩, hv.scale, hv.crop,
      hv.dragOffset_le, hv.mouse, hv.click, fun h => absurd rfl h, nofun, nofun⟩
  · rw [if_neg hpan]
    by_cases hdragging : v.isdragging = true
    · have hzoom : ¬ v.dragType = .PAN := fun h => hpan ⟨hdragging, h⟩
      have hup : v.onLButtonUp =
          (({ v with isdragging := false } : ImageView B).send .releaseCapture).redraw := by
        unfold onLButtonUp
        rw [if_pos hdragging]
        exact congrArg redraw (if_neg hzoom)
      rw [hup]
      exact (redrawn_redraw _).kept hv.released
    · have hup : v.onLButtonUp = v := if_neg hdragging
      rw [hup]
      exact hv

theorem onRButtonUp_kept (hv : Kept dim v pace) : Kept dim v.onRButtonUp pace := by
  unfold onRButtonUp
  split
  · exact (redrawn_redraw _).kept hv.released
  · exact hv

/-- The clicked point at a level that the drag may go to. -/
theorem Kept.click_fits (hv : Kept dim v pace)
    (hdim : ∀ a, 1 ≤ dim.along a ∧ dim.along a ≤ 32766) {level : Int}
    (hlevel : 1 ≤ level ∧ level ≤ 10000) {a : Axis}
    (hgoes : v.zoomDragOrigin.along a * 100 * level ≤ 2147483647 * v.zoomDragStartLevel) :
    0 ≤ v.clickImageCoord.along a * level ∧ v.clickImageCoord.along a * level ≤ 2147483647 := by
  obtain ⟨hnonneg, hnear⟩ := hv.click a
  refine ⟨mul_nonneg hnonneg (by omega), ?_⟩
  rcases hnear with himage | ⟨hstart, hmargin⟩
  · have : v.clickImageCoord.along a * level ≤ 32766 * 10000 :=
      mul_le_mul (himage.trans (hdim a).2) hlevel.2 (by omega) (by decide)
    omega
  · refine le_of_mul_le_mul_right ?_ (by omega : 0 < v.zoomDragStartLevel)
    calc v.clickImageCoord.along a * level * v.zoomDragStartLevel
        = v.clickImageCoord.along a * v.zoomDragStartLevel * level := by ring
      _ ≤ v.zoomDragOrigin.along a * 100 * level :=
        mul_le_mul_of_nonneg_right hmargin (by omega)
      _ ≤ 2147483647 * v.zoomDragStartLevel := hgoes

theorem onMouseMove_kept (henv : env.Within dim)
    (hdim : ∀ a, 1 ≤ dim.along a ∧ dim.along a ≤ 32766) {cur : Point} (hcur : cur.InInt16)
    (hgoes : v.isdragging → v.dragType = .ZOOMDRAG → ∀ a,
      v.zoomDragOrigin.along a * 100 * v.dragTarget dragZoom cur ≤
        2147483647 * v.zoomDragStartLevel)
    (hv : Kept dim v pace) :
    Kept dim (v.onMouseMove env dragZoom cur)
      (if v.isdragging ∧ v.dragType = .ZOOMDRAG then .moved else pace) := by
  obtain ⟨⟨img, himage, rfl⟩, hsize⟩ := henv
  by_cases hdragging : v.isdragging = true
  · by_cases hzoom : v.dragType = .ZOOMDRAG
    · rw [if_pos ⟨hdragging, hzoom⟩]
      have hmove : v.onMouseMove env dragZoom cur =
          (({ v with draggingCur := cur } : ImageView B).applyZoomDrag env
            (dragZoom v.zoomDragStartLevel (cur.y - v.draggingOrigin.y))).redraw := by
        unfold onMouseMove
        rw [if_pos hdragging]
        exact congrArg redraw (if_pos hzoom)
      rw [hmove]
      refine (redrawn_redraw _).kept ?_
      rcases applyZoomDrag_eq himage ({ v with draggingCur := cur } : ImageView B) _ with
        hsame | ⟨level, htarget, hpos, hle, hlevel⟩
      · rw [hsame]
        exact (hv.cursor hcur).moved
      · rw [hlevel]
        have hscale (a : Axis) : 1 ≤ levelScale (img.dim.along a) level ∧
            levelScale (img.dim.along a) level ≤ 3276600 :=
          ⟨levelScale_pos _ _, levelScale_le (hdim a) ⟨by omega, hle⟩⟩
        have hoffset (a : Axis) : |v.dragOffsetAt env.client img.dim level a| ≤ 2144207047 := by
          obtain ⟨hclick, hclickLe⟩ :=
            hv.click_fits hdim ⟨hpos, hle⟩ (by rw [htarget]; exact hgoes hdragging hzoom a)
          have hclient : 0 ≤ env.client.along a := by
            have := hsize a
            omega
          have hcentre := centerOffset_range (hscale a).2 hclient
          have horigin := hv.mouse.2.2 a
          unfold dragOffsetAt
          rw [Int.tdiv_eq_ediv_of_nonneg hclick, abs_le]
          omega
        refine ⟨⟨by simp only; omega, hle, hv.levels.fitlevel_nonneg⟩, ?_, hv.crop, ?_,
          ⟨hv.mouse.1, hcur, hv.mouse.2.2⟩, hv.click, fun h => absurd rfl h, nofun,
          fun _ hpan => by cases hzoom.symm.trans hpan⟩
        · intro a
          have := hscale a
          cases a with
          | x => exact ⟨by simp only [Size.along] at this ⊢; omega, this.2⟩
          | y => exact ⟨by simp only [Size.along] at this ⊢; omega, this.2⟩
        · intro a
          cases a with
          | x => exact hoffset .x
          | y => exact hoffset .y
    · have hpan : v.Panning := ⟨hdragging, by cases h : v.dragType; rfl; exact absurd h hzoom⟩
      rw [if_neg (fun h => hzoom h.2), onMouseMove_pan hpan]
      exact (redrawn_redraw _).kept (hv.cursor hcur)
  · have hmove : v.onMouseMove env dragZoom cur = v := if_neg hdragging
    rw [if_neg (fun h => hdragging h.1), hmove]
    exact hv

/-! ## A file opened and a zoom mode -/

theorem unshown_kept (hdim : ∀ a, 1 ≤ dim.along a ∧ dim.along a ≤ 32766)
    (hlevels : v.zoomlevel = 0 ∧ v.fitlevel = 0) (hscale : v.scaleSize = ⟨-1, -1⟩)
    (hcrop : v.viewCrop = ⟨-1, -1, -1, -1⟩) (hoffset : v.viewOffset = ⟨0, 0⟩)
    (hmouse : v.draggingOrigin.InInt16 ∧ v.draggingCur.InInt16 ∧ v.zoomDragOrigin.InInt16)
    (hclick : ∀ a, ClickNear dim v a) : Kept dim v .scaled := by
  have hzero (a : Axis) : v.viewOffset.along a = 0 := by
    rw [hoffset]
    cases a with
    | x => rfl
    | y => rfl
  refine ⟨levels_of_zero hlevels.1 hlevels.2, ?_, ?_, ?_, hmouse, hclick, ?_, nofun, ?_⟩
  · intro a
    rw [hscale]
    cases a with
    | x => decide
    | y => decide
  · intro a
    rw [hcrop]
    cases a with
    | x => decide
    | y => decide
  · intro a
    rw [hzero]
    decide
  · intro _ a
    have hori : v.orilevel = 100 := by
      unfold orilevel
      rw [hlevels.1]
      rfl
    have := (hdim a).1
    rw [hzero, hori, abs_zero]
    omega
  · intro _ _ a
    rw [hzero]
    decide

theorem unzoomed_kept (hdim : ∀ a, 1 ≤ dim.along a ∧ dim.along a ≤ 32766) (hv : Kept dim v pace)
    (zt : ZoomType) (wnd : Size) :
    Kept dim { v.unzoomed with zoomtype := zt, viewWndDim := wnd } .scaled :=
  unshown_kept hdim ⟨rfl, rfl⟩ rfl rfl rfl hv.mouse hv.click

theorem onFileOpened_kept (henv : env.Within dim)
    (hdim : ∀ a, 1 ≤ dim.along a ∧ dim.along a ≤ 32766) (hv : Kept dim v pace) {cmdid : Int}
    (h : v.onFileOpened env cmdid = some v') : Kept dim v' .scaled := by
  obtain ⟨⟨img, himage, -⟩, -⟩ := henv
  unfold onFileOpened at h
  rw [himage] at h
  exact (redrawn_showZoomed h).kept (unzoomed_kept hdim hv v.zoomtype v.viewWndDim)

theorem setZoomMode_kept (hdim : ∀ a, 1 ≤ dim.along a ∧ dim.along a ≤ 32766)
    (hv : Kept dim v pace) {cmdId : Int} (h : v.setZoomMode env cmdId = some v') :
    Kept dim v' (if (zoomModeOf cmdId).isSome then .scaled else pace) := by
  unfold setZoomMode at h
  split at h
  · rename_i hmode
    cases h
    rw [hmode]
    exact hv
  · rename_i zt hmode
    have hkept := unzoomed_kept hdim hv zt ⟨-1, -1⟩
    rw [hmode]
    split at h
    · cases h
      exact hkept
    · exact (redrawn_showZoomed h).kept hkept

/-! ## A run -/

/-- **A step** that keeps the pace. -/
theorem handle_kept (hdim : ∀ a, dim.along a ≤ 32766) {msg : ViewMsg}
    (hmod : PacedView.Moderate dragZoom dim ⟨v, pace⟩ (msg, env)) (hv : Kept dim v pace)
    (h : v.handle env dragZoom msg = some v') : Kept dim v' (v.nextPace env pace msg) := by
  obtain ⟨henv, hmsg⟩ := hmod
  have hpix : ∀ a, 1 ≤ dim.along a ∧ dim.along a ≤ 32766 := by
    obtain ⟨⟨img, -, rfl⟩, -⟩ := henv
    intro a
    exact ⟨img.dim_pos a, hdim a⟩
  have hclient : ∀ a, env.client.along a ≤ 32766 := fun a => (henv.2 a).2
  cases msg with
  | paint => exact paint_kept henv hdim hv h
  | eraseBkgnd => cases h; exact hv
  | size =>
    cases h
    refine (redrawn_send _ _).kept ⟨⟨hv.levels.1, hv.levels.2, hv.levels.3⟩, hv.scale, hv.crop,
      hv.offset, hv.mouse, hv.click, hv.half, ?_, hv.room⟩
    intro _ a hpos
    have hnone : ¬ 1 ≤ (⟨-1, -1⟩ : Size).along a := by
      cases a with
      | x => decide
      | y => decide
    exact absurd hpos hnone
  | keyDown key shift ctrl alt =>
    simp only [handle] at h
    simp only [nextPace]
    cases hkey : keyAction key shift ctrl alt with
    | navigate cmd => rw [hkey] at h; cases h; exact (redrawn_send v _).kept hv
    | exit => rw [hkey] at h; cases h; exact (redrawn_send v _).kept hv
    | zoom inout =>
      rw [hkey] at h
      simp only [hkey] at hmsg
      exact zoom_kept hpix hv hmsg h
    | pass => rw [hkey] at h; cases h; exact hv
  | mouseWheel delta => cases h; exact (redrawn_send v _).kept hv
  | lButtonDown pos ctrl =>
    cases ctrl with
    | true =>
      obtain ⟨rfl, hwnd, hpos⟩ := hmsg
      exact startZoom_kept hwnd hpos hclient hv h
    | false =>
      cases h
      exact startPan_kept hv hmsg
  | lButtonUp => cases h; exact onLButtonUp_kept hv
  | rButtonDown pos =>
    obtain ⟨rfl, hwnd, hpos⟩ := hmsg
    exact startZoom_kept hwnd hpos hclient hv h
  | rButtonUp => cases h; exact onRButtonUp_kept hv
  | mouseMove cur =>
    cases h
    exact onMouseMove_kept henv hpix hmsg.1 hmsg.2 hv
  | setFocus => cases h; exact hv
  | other => cases h; exact hv
  | fileOpened cmdid => exact onFileOpened_kept henv hpix hv h
  | frameUpdate => cases h; exact (redrawn_onFrameUpdate v env).kept hv
  | updateStatus => cases h; exact (redrawn_updateStatus v env).kept hv
  | zoom inout test => exact zoom_kept hpix hv hmsg h
  | setZoomMode cmdId => exact setZoomMode_kept hpix hv h

theorem initial_kept (hdim : ∀ a, 1 ≤ dim.along a ∧ dim.along a ≤ 32766) :
    Kept dim ({} : ImageView B) .scaled := by
  have hpoint : (⟨-1, -1⟩ : Point).InInt16 := by
    intro a
    cases a with
    | x => decide
    | y => decide
  refine unshown_kept hdim ⟨rfl, rfl⟩ rfl rfl rfl ⟨hpoint, hpoint, hpoint⟩ ?_
  intro a
  have := (hdim a).1
  cases a with
  | x => exact ⟨le_refl 0, .inl (by simp only [Size.along] at this ⊢; omega)⟩
  | y => exact ⟨le_refl 0, .inl (by simp only [Size.along] at this ⊢; omega)⟩

/-- **The invariant** of every run that keeps the pace. -/
theorem reached_kept {s : PacedView B} (hdim : ∀ a, 1 ≤ dim.along a ∧ dim.along a ≤ 32766)
    (h : (PacedView.machine dragZoom).Reach (PacedView.Moderate dragZoom dim) s) :
    Kept dim s.view s.pace := by
  refine h.holds (P := fun s => Kept dim s.view s.pace) ?_ ?_
  · rintro s rfl
    exact initial_kept hdim
  · rintro ⟨v, pace⟩ ⟨msg, env⟩ s' hv hmod hstep
    obtain ⟨v', hv', rfl⟩ := Option.map_eq_some_iff.mp hstep
    exact handle_kept (fun a => (hdim a).2) hmod hv hv'

end ImageView

end ObZrv
