import ObZrv.View.Paint

/-!
# View.Settings

The scale and the crop that `OnPaint` computes, as a function of the zoom type, the zoom level and
the pan offset, of the client size and of the size of the image.

* `viewAt_view`   : `OnPaint` computes the view of the settings, and leaves settings that have it.
* `view_scale`    : whatever the client sizes and offsets, one crop has one scale.
-/

namespace ObZrv

/-- What the scale and the crop depend on. The offset is that of a drag under way, if there is
one. -/
structure ViewSettings where
  zoomtype : ZoomType
  zoomlevel : Int
  offset : Size
deriving DecidableEq, Repr

namespace ViewSettings

/-- A part of the image is shown, at a fixed zoom level or at 100%. -/
def Pans (st : ViewSettings) : Prop :=
  st.zoomlevel ≠ 0 ∨ st.zoomtype = .W2I ∨ st.zoomtype = .NOFIT

instance (st : ViewSettings) : Decidable st.Pans := inferInstanceAs (Decidable (_ ∨ _))

/-- The scale of a view that pans. -/
def scale (st : ViewSettings) (dim : Size) : Size :=
  if st.zoomlevel ≠ 0 then
    ⟨max ((dim.cx * st.zoomlevel).tdiv 100) 1, max ((dim.cy * st.zoomlevel).tdiv 100) 1⟩
  else dim

/-- The scale of a view that shows the whole image. -/
def fitScale (zt : ZoomType) (size dim : Size) : Option Size :=
  if zt = .I2W then
    if dim.cx = 0 ∨ dim.cy = 0 then some ⟨1, 1⟩
    else (ImageView.fitAspect size dim).map (·.2)
  else if size.cx ≥ dim.cx ∧ size.cy ≥ dim.cy then some dim
  else (ImageView.fitAspect size dim).map (·.2)

/-- One axis of the crop of a view that pans. -/
def cropAxis (client scale offset : Int) : Int × Int :=
  let centred := ImageView.centreAxis client scale
  (ImageView.panAxis centred.1 centred.2 scale offset).2

/-- Scale and crop; `none` is a division by zero. -/
def view (st : ViewSettings) (size dim : Size) : Option (Size × Rect) :=
  if st.Pans then
    let scale := st.scale dim
    let x := cropAxis size.cx scale.cx st.offset.cx
    let y := cropAxis size.cy scale.cy st.offset.cy
    some (scale, ⟨x.1, y.1, x.2, y.2⟩)
  else (fitScale st.zoomtype size dim).map fun scale => (scale, ⟨0, 0, scale.cx, scale.cy⟩)

theorem view_pans {st : ViewSettings} (h : st.Pans) (size dim : Size) :
    st.view size dim = some (st.scale dim,
      ⟨(cropAxis size.cx (st.scale dim).cx st.offset.cx).1,
        (cropAxis size.cy (st.scale dim).cy st.offset.cy).1,
        (cropAxis size.cx (st.scale dim).cx st.offset.cx).2,
        (cropAxis size.cy (st.scale dim).cy st.offset.cy).2⟩) :=
  if_pos h

theorem view_fits {st : ViewSettings} (h : ¬ st.Pans) (size dim : Size) :
    st.view size dim =
      (fitScale st.zoomtype size dim).map fun scale => (scale, ⟨0, 0, scale.cx, scale.cy⟩) :=
  if_neg h

theorem view_scale {st st' : ViewSettings} (htype : st.zoomtype = st'.zoomtype)
    (hlevel : st.zoomlevel = st'.zoomlevel) {size size' dim s s' : Size} {crop : Rect}
    (h : st.view size dim = some (s, crop)) (h' : st'.view size' dim = some (s', crop)) :
    s = s' := by
  have hpans : st.Pans ↔ st'.Pans := by unfold Pans; rw [htype, hlevel]
  by_cases hp : st.Pans
  · have hscale : st.scale dim = st'.scale dim := by unfold scale; rw [hlevel]
    rw [view_pans hp, Option.some.injEq, Prod.mk.injEq] at h
    rw [view_pans (hpans.mp hp), Option.some.injEq, Prod.mk.injEq] at h'
    rw [← h.1, ← h'.1, hscale]
  · rw [view_fits hp, Option.map_eq_some_iff] at h
    rw [view_fits (fun hp' => hp (hpans.mpr hp')), Option.map_eq_some_iff] at h'
    obtain ⟨t, -, ht⟩ := h
    obtain ⟨t', -, ht'⟩ := h'
    -- the crop of the whole image is its size
    obtain ⟨rfl, hcrop⟩ := Prod.mk.inj ht
    obtain ⟨rfl, hcrop'⟩ := Prod.mk.inj ht'
    injection hcrop.trans hcrop'.symm with _ _ hcx hcy
    cases t
    cases t'
    exact congrArg₂ Size.mk hcx hcy

/-! ## The pan offset -/

open ImageView

theorem centreAxis_bounds (client scale : Int) :
    (centreAxis client scale).2 - (centreAxis client scale).1 < scale →
      0 ≤ (centreAxis client scale).1 ∧ (centreAxis client scale).2 ≤ scale := by
  intro hlt
  unfold centreAxis at hlt ⊢
  split at hlt
  · omega
  · rename_i hless
    rw [if_neg hless]
    have hdiv := Int.tdiv_eq_ediv_of_nonneg (a := scale - client) (b := 2) (by omega)
    simp only [hdiv]
    omega

theorem cropAxis_zero (client scale : Int) :
    cropAxis client scale 0 = centreAxis client scale := by
  have hb := centreAxis_bounds client scale
  unfold cropAxis panAxis
  simp only
  split
  · rename_i hlt
    obtain ⟨hlo, hhi⟩ := hb hlt
    rw [if_neg (by omega), if_neg (by omega), Int.add_zero, Int.add_zero]
  · rfl

theorem cropAxis_applied (client scale offset : Int) :
    cropAxis client scale
        (panAxis (centreAxis client scale).1 (centreAxis client scale).2 scale offset).1 =
      cropAxis client scale offset := by
  have hb := centreAxis_bounds client scale
  unfold cropAxis panAxis
  simp only
  split
  · rename_i hlt
    obtain ⟨hlo, hhi⟩ := hb hlt
    simp only [Prod.mk.injEq]
    omega
  · rfl

/-- The pan offset as the image allows it. -/
def applied (st : ViewSettings) (size dim : Size) : Size :=
  let x := centreAxis size.cx (st.scale dim).cx
  let y := centreAxis size.cy (st.scale dim).cy
  { cx := (panAxis x.1 x.2 (st.scale dim).cx st.offset.cx).1
    cy := (panAxis y.1 y.2 (st.scale dim).cy st.offset.cy).1 }

theorem view_applied {st : ViewSettings} (h : st.Pans) (size dim : Size) :
    ({ st with offset := st.applied size dim } : ViewSettings).view size dim =
      st.view size dim := by
  have hp : ({ st with offset := st.applied size dim } : ViewSettings).Pans := h
  rw [view_pans h, view_pans hp]
  simp only [applied, scale, cropAxis_applied]

end ViewSettings

namespace ImageView

variable {B : Type} (v : ImageView B)

def settings : ViewSettings where
  zoomtype := v.zoomtype
  zoomlevel := v.zoomlevel
  offset := v.dragOffset

/-- `OnPaint` up to the bitmap. -/
def viewAt (size dim : Size) : Option (ImageView B) :=
  (if v.zoomlevel = 0 then v.autoFit size dim else some v).map fun f =>
    if f.zoomlevel ≠ 0 ∨ f.zoomtype = .W2I ∨ f.zoomtype = .NOFIT then f.cropView size dim else f

theorem recompute_eq (env : ViewEnv B) (img : OpenImage B) :
    v.recompute env img = (v.viewAt env.client img.dim).map fun f =>
      (f.makeBitmap env img v.viewCrop).updateStatus env := by
  unfold recompute viewAt
  rw [Option.map_map]
  rfl

theorem dragOffset_zero (h : ¬ (v.viewOffset ≠ ⟨0, 0⟩ ∨
    (v.isdragging ∧ v.draggingOrigin ≠ v.draggingCur))) : v.dragOffset = ⟨0, 0⟩ := by
  obtain ⟨hoffset, hdrag⟩ := not_or.mp h
  rw [Decidable.not_not] at hoffset
  unfold dragOffset
  rw [hoffset]
  split
  · rename_i hpan
    have hsame : v.draggingOrigin = v.draggingCur :=
      Decidable.not_not.mp fun hne => hdrag ⟨hpan.1, hne⟩
    simp only [hsame, Int.sub_self]
  · rfl

/-- `f` is `v` with the view of its settings, and it has settings of the same view. -/
structure Computed (size dim : Size) (v f : ImageView B) : Prop where
  view : v.settings.view size dim = some (f.scaleSize, f.viewCrop)
  again : f.settings.view size dim = some (f.scaleSize, f.viewCrop)
  viewBitmap : f.viewBitmap = v.viewBitmap
  effects : f.effects = v.effects

variable {v}

theorem dragOffset_applied (scale applied : Size) (crop : Rect) :
    ({ v with
      scaleSize := scale
      viewCrop := crop
      viewOffset := if v.isdragging then v.viewOffset else applied } : ImageView B).dragOffset =
      if v.isdragging then v.dragOffset else applied := by
  unfold dragOffset
  by_cases hdrag : v.isdragging = true
  · simp only [hdrag, if_true]
  · simp only [hdrag, false_and, if_false, Bool.false_eq_true]

/-- The scale that `cropView` goes by. -/
theorem cropView_scale {dim : Size} (hscale : v.zoomlevel = 0 → v.scaleSize = dim) :
    (if v.zoomlevel ≠ 0 then
      (⟨max ((dim.cx * v.zoomlevel).tdiv 100) 1, max ((dim.cy * v.zoomlevel).tdiv 100) 1⟩ : Size)
    else v.scaleSize) = v.settings.scale dim := by
  by_cases hzero : v.zoomlevel = 0
  · rw [if_neg (not_not.mpr hzero), hscale hzero]
    exact (if_neg (not_not.mpr hzero)).symm
  · rw [if_pos hzero]
    exact (if_pos hzero).symm

theorem cropView_computed {size dim : Size} (hpans : v.settings.Pans)
    (hscale : v.zoomlevel = 0 → v.scaleSize = dim) : Computed size dim v (v.cropView size dim) := by
  unfold cropView
  simp only [cropView_scale hscale]
  have hview := ViewSettings.view_pans hpans size dim
  split
  · refine ⟨hview, ?_, rfl, rfl⟩
    unfold settings
    rw [dragOffset_applied]
    split
    · exact hview
    · exact (ViewSettings.view_applied hpans size dim).trans hview
  · rename_i hstill
    have hzero := v.dragOffset_zero hstill
    have hcentre : v.settings.offset = ⟨0, 0⟩ := hzero
    rw [hcentre, ViewSettings.cropAxis_zero, ViewSettings.cropAxis_zero] at hview
    exact ⟨hview, hview, rfl, rfl⟩

theorem autoFit_pans (hpans : v.settings.Pans) (hzero : v.zoomlevel = 0) (size dim : Size) :
    v.autoFit size dim = some { v with fitlevel := 100, scaleSize := dim } := by
  rcases hpans with h | h | h
  · exact absurd hzero h
  · unfold autoFit
    rw [show v.zoomtype = .W2I from h]
  · unfold autoFit
    rw [show v.zoomtype = .NOFIT from h]

theorem autoFit_fits (hfits : ¬ v.settings.Pans) (size dim : Size) :
    ∃ fit : Option (Int × Size), fit.map (·.2) = ViewSettings.fitScale v.zoomtype size dim ∧
      v.autoFit size dim = fit.map fun p => v.fitWhole p.1 p.2 := by
  have hwhole : ∃ fit : Option (Int × Size),
      fit.map (·.2) = (if size.cx ≥ dim.cx ∧ size.cy ≥ dim.cy then some dim
        else (fitAspect size dim).map (·.2)) ∧
      (if size.cx ≥ dim.cx ∧ size.cy ≥ dim.cy then some (v.fitWhole 100 dim)
        else (fitAspect size dim).map fun p => v.fitWhole p.1 p.2) =
        fit.map fun p => v.fitWhole p.1 p.2 := by
    split
    · exact ⟨some (100, dim), rfl, rfl⟩
    · exact ⟨fitAspect size dim, rfl, rfl⟩
  unfold autoFit ViewSettings.fitScale
  cases htype : v.zoomtype with
  | W2I => exact absurd (.inr (.inl htype)) hfits
  | NOFIT => exact absurd (.inr (.inr htype)) hfits
  | I2W =>
    simp only [if_true]
    split
    · exact ⟨some (100, ⟨1, 1⟩), rfl, rfl⟩
    · exact ⟨fitAspect size dim, rfl, rfl⟩
  | W2I_ZOOMOUT => exact hwhole
  | I2W_ZOOMOUT => exact hwhole

/-- **The view of the settings.** `OnPaint` computes it, and divides by zero where there is none. -/
theorem viewAt_view (v : ImageView B) (size dim : Size) :
    (v.viewAt size dim = none ∧ v.settings.view size dim = none) ∨
      ∃ f, v.viewAt size dim = some f ∧ Computed size dim v f := by
  by_cases hpans : v.settings.Pans
  · right
    by_cases hzero : v.zoomlevel = 0
    · have hc : Computed size dim { v with fitlevel := 100, scaleSize := dim } _ :=
        cropView_computed hpans fun _ => rfl
      refine ⟨_, ?_, hc.view, hc.again, hc.viewBitmap, hc.effects⟩
      unfold viewAt
      rw [if_pos hzero, autoFit_pans hpans hzero, Option.map_some]
      exact congrArg some (if_pos hpans)
    · refine ⟨_, ?_, cropView_computed hpans fun h => absurd h hzero⟩
      unfold viewAt
      rw [if_neg hzero, Option.map_some, if_pos (.inl hzero)]
  · have hzero : v.zoomlevel = 0 := Decidable.not_not.mp fun h => hpans (.inl h)
    obtain ⟨fit, hscale, hauto⟩ := autoFit_fits hpans size dim
    have hview := ViewSettings.view_fits hpans size dim
    rw [show v.settings.zoomtype = v.zoomtype from rfl, ← hscale, Option.map_map] at hview
    unfold viewAt
    rw [if_pos hzero, hauto, Option.map_map]
    cases fit with
    | none => exact .inl ⟨rfl, hview⟩
    | some p =>
      have hwhole : ¬ (v.fitWhole p.1 p.2).settings.Pans := hpans
      have hagain := ViewSettings.view_fits hwhole size dim
      rw [show (v.fitWhole p.1 p.2).settings.zoomtype = v.zoomtype from rfl, ← hscale,
        Option.map_map] at hagain
      refine .inr ⟨v.fitWhole p.1 p.2, ?_, hview, hagain, rfl, rfl⟩
      exact congrArg some (if_neg hpans)

end ImageView

end ObZrv
