import ObZrv.View.Pace

/-!
# View.Overflow

The products and sums of `zoom`, the drags and `OnPaint` fit in 32 bits in every run that keeps the
pace.

* `PacedView.fits_int32` : in every run that keeps the pace nothing overflows.
* `PacedView.overflows`  : where it is not kept it does.
-/

namespace ObZrv

open ViewSettings (levelScale)

/-! ## One axis -/

theorem centreTerms_fit {client scale : Int} (hclient : 0 ≤ client ∧ client ≤ 32766)
    (hscale : scale ≤ 3276600) : AllFit (centreTerms client scale) := by
  unfold centreTerms
  split
  · exact allFit_nil
  · have hhalf := Int.tdiv_eq_ediv_of_nonneg (a := scale - client) (b := 2) (by omega)
    simp only [allFit_cons, allFit_nil, InInt32, hhalf, and_true]
    omega

theorem panTerms_fit {lo hi scale offset : Int} (hlo : 0 ≤ lo ∧ lo ≤ 3276600)
    (hhi : 0 ≤ hi ∧ hi ≤ 3276600) (hscale : 0 ≤ scale ∧ scale ≤ 3276600)
    (hoffset : |offset| ≤ 2144207047) : AllFit (panTerms lo hi scale offset) := by
  have hboth := abs_le.mp hoffset
  unfold panTerms
  simp only [allFit_cons, allFit_nil, InInt32, and_true]
  omega

theorem drawTerms_fit {client lo hi : Int} (hclient : 0 ≤ client ∧ client ≤ 32766)
    (hlo : -1 ≤ lo ∧ lo ≤ 3276600) (hhi : -1 ≤ hi ∧ hi ≤ 3276600) :
    AllFit (drawTerms client lo hi) := by
  unfold drawTerms
  split
  · have hhalf := Int.tdiv_eq_ediv_of_nonneg (a := client - (hi - lo)) (b := 2) (by omega)
    simp only [allFit_cons, allFit_nil, InInt32, hhalf, and_true]
    omega
  · simp only [allFit_cons, allFit_nil, InInt32, and_true]
    omega

theorem fitTerms_fit {size dim : Size} (hsize : ∀ a, 0 ≤ size.along a ∧ size.along a ≤ 32766) :
    AllFit (fitTerms size dim) := by
  have hx := hsize .x
  have hy := hsize .y
  simp only [Size.along] at hx hy
  unfold fitTerms
  split
  · simp only [allFit_cons, allFit_nil, InInt32, and_true]
    omega
  · simp only [allFit_cons, allFit_nil, InInt32, and_true]
    omega

namespace ImageView

variable {B : Type} {v v' : ImageView B} {env : ViewEnv B} {dragZoom : DragZoom} {dim : Size}
  {pace : Pace}

/-! ## `OnPaint` -/

theorem centreAxis_range {client scale : Int} (hclient : 0 ≤ client)
    (hscale : 0 ≤ scale ∧ scale ≤ 3276600) :
    (0 ≤ (centreAxis client scale).1 ∧ (centreAxis client scale).1 ≤ 3276600) ∧
      0 ≤ (centreAxis client scale).2 ∧ (centreAxis client scale).2 ≤ 3276600 := by
  unfold centreAxis
  split
  · simp only
    omega
  · have hhalf := Int.tdiv_eq_ediv_of_nonneg (a := scale - client) (b := 2) (by omega)
    simp only [hhalf]
    omega

theorem dragTerms_fit (hv : Kept dim v pace) (a : Axis) : AllFit (v.dragTerms a) := by
  have hoffset := abs_le.mp (hv.offset a)
  have horigin := hv.mouse.1 a
  have hcur := hv.mouse.2.1 a
  unfold dragTerms
  split
  · simp only [allFit_cons, allFit_nil, InInt32, and_true]
    omega
  · exact allFit_nil

theorem autoTerms_fit (v : ImageView B) {size : Size}
    (hsize : ∀ a, 0 ≤ size.along a ∧ size.along a ≤ 32766) (dim : Size) :
    AllFit (v.autoTerms size dim) := by
  unfold autoTerms
  split
  · exact allFit_nil
  · exact allFit_nil
  · split
    · exact allFit_nil
    · exact fitTerms_fit hsize
  · split
    · exact allFit_nil
    · exact fitTerms_fit hsize
  · split
    · exact allFit_nil
    · exact fitTerms_fit hsize

theorem Levels.scale_range (hv : v.Levels) (hdim : ∀ a, 1 ≤ dim.along a ∧ dim.along a ≤ 32766)
    (a : Axis) :
    1 ≤ (v.settings.scale dim).along a ∧ (v.settings.scale dim).along a ≤ 3276600 := by
  refine ⟨ViewSettings.one_le_scale (fun a => (hdim a).1) a, ?_⟩
  rw [ViewSettings.scale_along]
  split
  · exact levelScale_le (hdim a) ⟨hv.zoomlevel_nonneg, hv.zoomlevel_le⟩
  · have := (hdim a).2
    omega

theorem level_product {level : Int} (hdim : ∀ a, 1 ≤ dim.along a ∧ dim.along a ≤ 32766)
    (hlevel : 0 ≤ level ∧ level ≤ 10000) (a : Axis) : InInt32 (dim.along a * level) := by
  have hnonneg : 0 ≤ dim.along a * level := mul_nonneg (by have := hdim a; omega) hlevel.1
  have hmost : dim.along a * level ≤ 32766 * 10000 :=
    mul_le_mul (hdim a).2 hlevel.2 hlevel.1 (by decide)
  exact ⟨by omega, by omega⟩

theorem cropTerms_fit (hdim : ∀ a, 1 ≤ dim.along a ∧ dim.along a ≤ 32766) {size : Size}
    (hsize : ∀ a, 0 ≤ size.along a ∧ size.along a ≤ 32766) (hv : Kept dim v pace) (a : Axis) :
    AllFit (v.cropTerms size dim a) := by
  obtain ⟨hpos, hle⟩ := hv.levels.scale_range hdim a
  unfold cropTerms
  simp only [allFit_append]
  refine ⟨⟨?_, centreTerms_fit (hsize a) hle⟩, ?_⟩
  · split
    · simp only [allFit_cons, allFit_nil, and_true]
      exact level_product hdim ⟨hv.levels.zoomlevel_nonneg, hv.levels.zoomlevel_le⟩ a
    · exact allFit_nil
  · split
    · obtain ⟨hlo, hhi⟩ := centreAxis_range (hsize a).1 ⟨by omega, hle⟩
      exact allFit_append.mpr ⟨dragTerms_fit hv a,
        panTerms_fit hlo hhi ⟨by omega, hle⟩ (hv.dragOffset_le a)⟩
    · exact allFit_nil

theorem paintTerms_fit (henv : env.Within dim)
    (hdim : ∀ a, 1 ≤ dim.along a ∧ dim.along a ≤ 32766) (hv : Kept dim v pace) :
    AllFit (v.paintTerms env) := by
  have hsize (a : Axis) : 0 ≤ env.client.along a ∧ env.client.along a ≤ 32766 := by
    have := henv.2 a
    omega
  have hkept {p : ImageView B} (hpaint : v.onPaint env = some p) :=
    paint_kept henv (fun a => (hdim a).2) hv hpaint
  obtain ⟨⟨img, himage, rfl⟩, -⟩ := henv
  unfold paintTerms
  rw [himage]
  simp only
  refine allFit_append.mpr ⟨?_, ?_⟩
  · split
    · refine allFit_append.mpr ⟨?_, ?_⟩
      · split
        · exact autoTerms_fit v hsize img.dim
        · exact allFit_nil
      · split
        · exact allFit_append.mpr ⟨cropTerms_fit hdim hsize hv .x, cropTerms_fit hdim hsize hv .y⟩
        · exact allFit_nil
    · exact allFit_nil
  · cases hpaint : v.onPaint env with
    | none => exact allFit_nil
    | some p =>
      have hp := hkept hpaint
      simp only
      split
      · exact allFit_nil
      · exact allFit_append.mpr ⟨drawTerms_fit (hsize .x) (hp.crop .x).1 (hp.crop .x).2,
          drawTerms_fit (hsize .y) (hp.crop .y).1 (hp.crop .y).2⟩

/-! ## A zoom step and the drags -/

theorem zoomTerms_fit (henv : env.Within dim)
    (hdim : ∀ a, 1 ≤ dim.along a ∧ dim.along a ≤ 32766) (hv : Kept dim v pace) {inout : Int}
    {test : Bool} (hsteps : PacedView.ZoomsWithin dim ⟨v, pace⟩ inout test) :
    AllFit (v.zoomTerms env inout test) := by
  obtain ⟨⟨img, himage, rfl⟩, -⟩ := henv
  have hoffsets (hzoom : v.ZoomSteps inout test) :
      AllFit [v.viewOffset.cx * v.nextLevel inout, v.viewOffset.cy * v.nextLevel inout] := by
    have hnext := (next_level hzoom.2).1
    have hfits (a : Axis) : InInt32 (v.viewOffset.along a * v.nextLevel inout) := by
      rcases hsteps hzoom a with hzero | ⟨-, hmost⟩
      · simp only at hzero
        rw [hzero, Int.zero_mul]
        decide
      · exact zoomed_fits (by omega) (hv.zooms hdim hsteps hzoom a) hmost
    exact allFit_cons.mpr ⟨hfits .x, allFit_cons.mpr ⟨hfits .y, allFit_nil⟩⟩
  unfold zoomTerms
  rw [himage]
  simp only
  split
  · rename_i hin
    split
    · exact allFit_nil
    · rename_i hgoes
      obtain ⟨hlevel, htest⟩ := not_or.mp hgoes
      have hnext : v.nextLevel inout = levelAbove v.level := if_pos hin
      rw [← hnext]
      exact hoffsets ⟨Bool.not_eq_true _ ▸ htest, .inl ⟨hin, by omega⟩⟩
  · split
    · rename_i hin hout
      have hnext : v.nextLevel inout = levelBelow v.level := if_neg hin
      have hrange := next_level (.inr hout)
      have hproduct : InInt32 (max img.dim.cx img.dim.cy * v.nextLevel inout) := by
        have hlevel : 0 ≤ v.nextLevel inout ∧ v.nextLevel inout ≤ 10000 := by omega
        rcases max_choice img.dim.cx img.dim.cy with h | h
        · rw [h]
          exact level_product hdim hlevel .x
        · rw [h]
          exact level_product hdim hlevel .y
      rw [← hnext]
      split
      · exact allFit_cons.mpr ⟨hproduct, allFit_nil⟩
      · rename_i hgoes
        have htest := (not_or.mp hgoes).2
        exact allFit_cons.mpr ⟨hproduct, hoffsets ⟨Bool.not_eq_true _ ▸ htest, .inr hout⟩⟩
    · exact allFit_nil

theorem startTerms_fit {pos : Point} (henv : env.Within dim) (hv : Kept dim v pace)
    (hdrags : PacedView.DragsFrom ⟨v, pace⟩ env pos) (a : Axis) :
    AllFit (v.startTerms env pos a) := by
  obtain ⟨hpace, hwnd, hpos⟩ := hdrags
  have hclient := (henv.2 a).2
  have hscale := hv.scale a
  have hpos' := hpos a
  have hrest := hv.rest hpace a (by simp only at hwnd; rw [hwnd]; omega)
  unfold AtRest shownFrom at hrest
  simp only at hwnd
  rw [hwnd] at hrest
  unfold startTerms
  simp only [allFit_cons, allFit_nil, InInt32, and_true]
  omega

theorem moveTerms_fit (hclient : ∀ a, 1 ≤ env.client.along a ∧ env.client.along a ≤ 32766)
    (hdim : ∀ a, 1 ≤ dim.along a ∧ dim.along a ≤ 32766) (hv : Kept dim v pace) {level : Int}
    (hlevel : 1 ≤ level ∧ level ≤ 10000) {a : Axis}
    (hgoes : v.zoomDragOrigin.along a * 100 * level ≤ 2147483647 * v.zoomDragStartLevel) :
    AllFit (v.moveTerms env dim level a) := by
  obtain ⟨hclick, hclickLe⟩ := hv.click_fits hdim hlevel hgoes
  have hlevel' : 0 ≤ level ∧ level ≤ 10000 := by omega
  have hscale := levelScale_le (hdim a) hlevel'
  have hscalePos := levelScale_pos (dim.along a) level
  have hsize := hclient a
  have hcentre := centerOffset_range hscale (by omega : 0 ≤ env.client.along a)
  have horigin := hv.mouse.2.2 a
  have hkept := Int.tdiv_eq_ediv_of_nonneg (b := 100) hclick
  unfold moveTerms
  simp only [allFit_cons, allFit_nil, and_true]
  refine ⟨level_product hdim hlevel' a, ?_, ⟨by omega, hclickLe⟩, ?_, ?_⟩
  · exact ⟨by omega, by omega⟩
  · rw [hkept]
    exact ⟨by omega, by omega⟩
  · rw [hkept]
    exact ⟨by omega, by omega⟩

theorem mouseMoveTerms_fit (henv : env.Within dim)
    (hdim : ∀ a, 1 ≤ dim.along a ∧ dim.along a ≤ 32766) {cur : Point} (hcur : cur.InInt16)
    (hgoes : v.isdragging → v.dragType = .ZOOMDRAG → ∀ a,
      v.zoomDragOrigin.along a * 100 * v.dragTarget dragZoom cur ≤
        2147483647 * v.zoomDragStartLevel)
    (hv : Kept dim v pace) : AllFit (v.mouseMoveTerms env dragZoom cur) := by
  obtain ⟨⟨img, himage, rfl⟩, hsize⟩ := henv
  have horigin := hv.mouse.1 .y
  have hcur' := hcur .y
  simp only [Point.along] at horigin hcur'
  unfold mouseMoveTerms
  split
  · rename_i hzoom
    refine allFit_append.mpr ⟨?_, ?_⟩
    · simp only [allFit_cons, allFit_nil, InInt32, and_true]
      omega
    · rw [himage]
      simp only
      split
      · exact allFit_nil
      · have hlevel : 1 ≤ v.dragTarget dragZoom cur ∧ v.dragTarget dragZoom cur ≤ 10000 := by
          unfold dragTarget
          omega
        exact allFit_append.mpr ⟨moveTerms_fit hsize hdim hv hlevel (hgoes hzoom.1 hzoom.2 .x),
          moveTerms_fit hsize hdim hv hlevel (hgoes hzoom.1 hzoom.2 .y)⟩
  · exact allFit_nil

end ImageView

namespace PacedView

variable {B : Type} {dragZoom : DragZoom} {dim : Size}

open ImageView

/-- **Nothing overflows** in a run that keeps the pace: for every image of at most 32766 pixels on an
axis and client areas of at most as many, in every state that is reached and with every message that
keeps the pace there, each product and sum of `zoom`, the drags and `OnPaint` fits in 32 bits. -/
theorem fits_int32 (hdim : ∀ a, dim.along a ≤ 32766) {s : PacedView B}
    (h : (machine dragZoom).Reach (Moderate dragZoom dim) s) {msg : ViewMsg} {env : ViewEnv B}
    (hmod : s.Moderate dragZoom dim (msg, env)) : AllFit (s.view.terms env dragZoom msg) := by
  obtain ⟨henv, hmsg⟩ := hmod
  have hpix : ∀ a, 1 ≤ dim.along a ∧ dim.along a ≤ 32766 := by
    obtain ⟨⟨img, -, rfl⟩, -⟩ := henv
    intro a
    exact ⟨img.dim_pos a, hdim a⟩
  have hv := reached_kept hpix h
  have hstart {pos : Point} (hdrags : s.DragsFrom env pos) :
      AllFit (s.view.startTerms env pos .x ++ s.view.startTerms env pos .y) :=
    allFit_append.mpr ⟨startTerms_fit henv hv hdrags .x, startTerms_fit henv hv hdrags .y⟩
  cases msg with
  | paint => exact paintTerms_fit henv hpix hv
  | zoom inout test => exact zoomTerms_fit henv hpix hv hmsg
  | keyDown key shift ctrl alt =>
    simp only [terms]
    cases hkey : keyAction key shift ctrl alt with
    | zoom inout =>
      simp only [hkey] at hmsg
      exact zoomTerms_fit henv hpix hv hmsg
    | _ => exact allFit_nil
  | lButtonDown pos ctrl =>
    cases ctrl with
    | true => exact hstart hmsg
    | false => exact allFit_nil
  | rButtonDown pos => exact hstart hmsg
  | lButtonUp => exact allFit_append.mpr ⟨dragTerms_fit hv .x, dragTerms_fit hv .y⟩
  | mouseMove cur => exact mouseMoveTerms_fit henv hpix hmsg.1 hmsg.2 hv
  | _ => exact allFit_nil

/-- The level of a drag in exact arithmetic. -/
def exactZoom (start dy : Int) : Int :=
  let up : Int := ((101 ^ (-dy).toNat * 100 ^ dy.toNat : Nat) : Int)
  let down : Int := ((100 ^ (-dy).toNat * 101 ^ dy.toNat : Nat) : Int)
  (2 * start * up + down).tdiv (2 * down)

/-- An image of 1000x800 in a client area of 500x400 is painted, and a zoom drag takes it from 50%
to 199%. -/
theorem fits_int32_large :
    ∃ s : PacedView Unit, (machine exactZoom).Reach (Moderate exactZoom largeImage.dim) s ∧
      s.pace = .painted ∧ s.view.dragTarget exactZoom ⟨100, 161⟩ = 199 ∧
      AllFit (s.view.terms (plainEnv (some largeImage) 500 400) exactZoom
        (.mouseMove ⟨100, 161⟩)) := by
  have henv : (plainEnv (some largeImage) 500 400).Within largeImage.dim := by
    refine ⟨⟨largeImage, rfl, rfl⟩, ?_⟩
    intro a
    cases a with
    | x => decide
    | y => decide
  have hdim : ∀ a, largeImage.dim.along a ≤ 32766 := by
    intro a
    cases a with
    | x => decide
    | y => decide
  have hinit : (machine exactZoom).init ({} : PacedView Unit) := rfl
  obtain ⟨s₁, h₁⟩ : ∃ s₁, step exactZoom {} (.fileOpened (-1), plainEnv (some largeImage) 500 400) =
    some s₁ := ⟨_, rfl⟩
  obtain ⟨s₂, h₂⟩ : ∃ s₂, step exactZoom s₁ (.paint, plainEnv (some largeImage) 500 400) =
      some s₂ := by
    cases h₁
    exact ⟨_, rfl⟩
  obtain ⟨s, h₃⟩ : ∃ s, step exactZoom s₂
      (.rButtonDown ⟨100, 300⟩, plainEnv (some largeImage) 500 400) = some s := by
    cases h₁
    cases h₂
    exact ⟨_, rfl⟩
  have hdrags : s₂.DragsFrom (plainEnv (some largeImage) 500 400) ⟨100, 300⟩ := by
    cases h₁
    cases h₂
    refine ⟨rfl, rfl, ?_⟩
    intro a
    cases a with
    | x => decide
    | y => decide
  have hreach : (machine exactZoom).Reach (Moderate exactZoom largeImage.dim) s :=
    (((Lib.Machine.Reach.of_init hinit).step ⟨henv, trivial⟩ h₁).step ⟨henv, trivial⟩ h₂).step
      ⟨henv, hdrags⟩ h₃
  have hgoes : s.pace = .painted ∧ s.view.dragTarget exactZoom ⟨100, 161⟩ = 199 ∧
      s.view.zoomDragOrigin = ⟨100, 300⟩ ∧ s.view.zoomDragStartLevel = 50 := by
    cases h₁
    cases h₂
    cases h₃
    decide
  have hmod : s.Moderate exactZoom largeImage.dim
      (.mouseMove ⟨100, 161⟩, plainEnv (some largeImage) 500 400) := by
    obtain ⟨-, htarget, horigin, hstart⟩ := hgoes
    refine ⟨henv, ?_, ?_⟩
    · intro a
      cases a with
      | x => decide
      | y => decide
    · intro _ _ a
      rw [htarget, horigin, hstart]
      cases a with
      | x => decide
      | y => decide
  exact ⟨s, hreach, hgoes.1, hgoes.2.1, fits_int32 hdim hreach hmod⟩

/-- What a run leads to, and that the next message overflows there. -/
theorem run_overflows {msgs : ViewRun Unit} {env : ViewEnv Unit} {msg : ViewMsg}
    {read : ImageView Unit → Int} {value level : Int}
    (h : (({} : ImageView Unit).run exactZoom msgs).map (fun v =>
      (read v, v.level, decide (AllFit (v.terms env exactZoom msg)))) =
        some (value, level, false)) :
    ∃ v, ({} : ImageView Unit).run exactZoom msgs = some v ∧ read v = value ∧ v.level = level ∧
      ¬ AllFit (v.terms env exactZoom msg) := by
  obtain ⟨v, hrun, hres⟩ := Option.map_eq_some_iff.mp h
  obtain ⟨hvalue, hrest⟩ := Prod.mk.inj hres
  obtain ⟨hlevel, hfits⟩ := Prod.mk.inj hrest
  exact ⟨v, hrun, hvalue, hlevel, of_decide_eq_false hfits⟩

/-- **Overflows.** An image of 20000x20000 in a client area of 1000x1000 is dragged from 5% to 6997%
and painted; in the next zoom step the pan offset is multiplied by 7000. An image of 100x100 in a
client area of 2560x1440 is dragged to 1% and painted; a drag from beside it takes a point that is
multiplied by 10000. -/
theorem overflows :
    (∃ v : ImageView Unit,
      ({} : ImageView Unit).run exactZoom
        ([.fileOpened (-1), .paint, .rButtonDown ⟨100, 900⟩, .mouseMove ⟨100, 172⟩, .rButtonUp,
          .paint].map (·, plainEnv (some (squareImage 20000 (by decide))) 1000 1000)) = some v ∧
      v.viewOffset.cx = -559360 ∧ v.level = 6997 ∧
      ¬ AllFit (v.terms (plainEnv (some (squareImage 20000 (by decide))) 1000 1000) exactZoom
        (.zoom 1 false))) ∧
    (∃ v : ImageView Unit,
      ({} : ImageView Unit).run exactZoom
        ([.fileOpened (-1), .paint, .rButtonDown ⟨1280, 200⟩, .mouseMove ⟨1280, 663⟩, .rButtonUp,
          .paint, .rButtonDown ⟨2500, 1000⟩].map
          (·, plainEnv (some (squareImage 100 (by decide))) 2560 1440)) = some v ∧
      v.clickImageCoord.cx = 250000 ∧ v.level = 1 ∧
      ¬ AllFit (v.terms (plainEnv (some (squareImage 100 (by decide))) 2560 1440) exactZoom
        (.mouseMove ⟨2500, 74⟩))) := by
  refine ⟨run_overflows ?_, run_overflows ?_⟩
  · decide +kernel
  · decide +kernel

end PacedView

end ObZrv
