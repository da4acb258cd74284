import ObZrv.View.ImageView
import ObZrv.View.Settings

/-!
# View.Current

What is painted is the current view. `OnPaint` keeps the bitmap, the scale and the crop from one
paint to the next; a handler that changes what they depend on drops the bitmap or the client size
they were computed for. Two things break this. `onFrameUpdate` makes a bitmap from the scale and the
crop that are there, also where they are to be computed anew. A button that goes down in a drag
under way gives up the offset of that drag and keeps the bitmap.

* `Screen.step`            : the view and the image that the document has open.
* `Screen.Coherent`        : a bitmap that is there shows the view of the settings.
* `Screen.paints_current`  : it holds, and every paint is right, as long as no frame is made of an
  outdated view and no button goes down in a drag that has moved.
-/

namespace ObZrv

/-- A message of the view, or what the document does: a file is opened or closed, or the next frame
shown. A frame has the size of its image. -/
inductive ScreenEvent (B : Type) where
  | msg (m : ViewMsg)
  | opened (cmdid : Int) (img : OpenImage B)
  | closed
  | nextFrame (getBBitmap : Size → Rect → Option B)

namespace ScreenEvent

variable {B : Type}

/-- The call of the view that comes with it. -/
def viewMsg : ScreenEvent B → ViewMsg
  | .msg m => m
  | .opened cmdid _ => .fileOpened cmdid
  | .closed => .other
  | .nextFrame _ => .frameUpdate

/-- The image that is open during the call. -/
def image (open' : Option (OpenImage B)) : ScreenEvent B → Option (OpenImage B)
  | .msg _ => open'
  | .opened _ img => some img
  | .closed => none
  | .nextFrame getBBitmap => open'.map fun img => { img with getBBitmap := getBBitmap }

end ScreenEvent

/-- What a handler reads with an image open. -/
def ViewEnv.showing {B : Type} (env : ViewEnv B) (image : Option (OpenImage B)) : ViewEnv B :=
  { env with image := image }

/-- The view, and the image that `Doc::getImage` gives. -/
structure Screen (B : Type) where
  view : ImageView B := {}
  image : Option (OpenImage B) := none

def ViewEffect.bitmap {B : Type} : ViewEffect B → Option B
  | .setDIBitsToDevice bitmap _ _ _ _ => some bitmap
  | _ => none

namespace ImageView

variable {B : Type}

def drawn (v : ImageView B) : List B := v.effects.filterMap ViewEffect.bitmap

/-- The scale and the crop are what a paint computes: at the client size they were computed for,
and, where the crop stays the same, at any other. -/
structure UpToDate (v : ImageView B) (dim : Size) : Prop where
  kept : ∀ w h : Nat, v.viewWndDim = ⟨w, h⟩ →
    v.settings.view ⟨w, h⟩ dim = some (v.scaleSize, v.viewCrop)
  scale : ∀ (w h : Nat) (s : Size), v.settings.view ⟨w, h⟩ dim = some (s, v.viewCrop) →
    s = v.scaleSize

/-- A bitmap that is there is the current frame of the image in the view of the settings. -/
def Shows (v : ImageView B) (img : OpenImage B) : Prop :=
  ∀ b, v.viewBitmap = some b →
    img.getBBitmap v.scaleSize v.viewCrop = some b ∧ v.UpToDate img.dim

/-- No frame is made of an outdated view where there was no bitmap, and no button goes down in a
drag whose end would outdate the view. -/
def ProperMsg (v : ImageView B) (image : Option (OpenImage B)) : ViewMsg → Prop
  | .frameUpdate => ∀ img, image = some img → v.viewBitmap = none →
      (img.getBBitmap v.scaleSize v.viewCrop).isSome → v.UpToDate img.dim
  | .lButtonDown _ _ | .rButtonDown _ => ∀ img, image = some img → v.viewBitmap.isSome →
      v.isdragging → ({ v with isdragging := false } : ImageView B).UpToDate img.dim
  | _ => True

end ImageView

namespace Screen

variable {B : Type} (dragZoom : DragZoom)

def step (s : Screen B) (l : ScreenEvent B × ViewEnv B) : Option (Screen B) :=
  (s.view.handle (l.2.showing (l.1.image s.image)) dragZoom l.1.viewMsg).map fun v =>
    { view := v, image := l.1.image s.image }

def machine : Lib.Machine (Screen B) (ScreenEvent B × ViewEnv B) :=
  .ofExec (· = {}) (step dragZoom)

/-- A paint draws the current frame at the scale and the crop that `OnPaint` computes when there is
no bitmap. -/
def PaintsCurrent (s : Screen B) : Prop :=
  ∀ (env : ViewEnv B) (img : OpenImage B) (s' : Screen B), s.image = some img →
    s.step dragZoom (.msg .paint, env) = some s' →
    ∃ r, s.view.releaseBitmap.recompute (env.showing (some img)) img = some r ∧
      s'.view.scaleSize = r.scaleSize ∧ s'.view.viewCrop = r.viewCrop ∧
      s'.view.drawn = s.view.drawn ++ (img.getBBitmap r.scaleSize r.viewCrop).toList

def Proper (s : Screen B) (l : ScreenEvent B × ViewEnv B) : Prop :=
  s.view.ProperMsg (l.1.image s.image) l.1.viewMsg

def Coherent (s : Screen B) : Prop := ∀ img, s.image = some img → s.view.Shows img

end Screen

/-! ## The handlers -/

namespace ImageView

variable {B : Type} {v v' : ImageView B} {env : ViewEnv B}

/-- What the view is computed from and what was computed stay the same. -/
structure SameView (v v' : ImageView B) : Prop where
  settings : v'.settings = v.settings
  scaleSize : v'.scaleSize = v.scaleSize
  viewCrop : v'.viewCrop = v.viewCrop
  viewWndDim : v'.viewWndDim = v.viewWndDim

theorem SameView.upToDate (h : SameView v v') {dim : Size} (hv : v.UpToDate dim) :
    v'.UpToDate dim where
  kept := by
    intro w ht hwnd
    rw [h.settings, h.scaleSize, h.viewCrop]
    exact hv.kept w ht (h.viewWndDim ▸ hwnd)
  scale := by
    intro w ht s hs
    rw [h.settings, h.viewCrop] at hs
    rw [h.scaleSize]
    exact hv.scale w ht s hs

theorem SameView.symm (h : SameView v v') : SameView v' v :=
  ⟨h.settings.symm, h.scaleSize.symm, h.viewCrop.symm, h.viewWndDim.symm⟩

theorem UpToDate.dropped {dim : Size} (hv : v.UpToDate dim) :
    ({ v with viewWndDim := ⟨-1, -1⟩ } : ImageView B).UpToDate dim where
  kept := by
    intro w ht hwnd
    injection hwnd with hw
    omega
  scale := hv.scale

theorem updateStatus_bitmap (v : ImageView B) (env : ViewEnv B) :
    (v.updateStatus env).viewBitmap = v.viewBitmap := by
  unfold updateStatus
  split
  · rfl
  · rfl

theorem updateStatus_same (v : ImageView B) (env : ViewEnv B) : SameView v (v.updateStatus env) := by
  unfold updateStatus
  split
  · exact ⟨rfl, rfl, rfl, rfl⟩
  · exact ⟨rfl, rfl, rfl, rfl⟩

/-- What a handler may do to a bitmap and the view it shows. -/
def DropsOrKeeps (v v' : ImageView B) : Prop :=
  v'.viewBitmap = none ∨ v'.viewBitmap = v.viewBitmap ∧
    (SameView v v' ∨ SameView { v with viewWndDim := ⟨-1, -1⟩ } v')

theorem DropsOrKeeps.shows (h : DropsOrKeeps v v') {img : OpenImage B} (hv : v.Shows img) :
    v'.Shows img := by
  intro b hb
  rcases h with hnone | ⟨hbitmap, hsame⟩
  · rw [hnone] at hb
    cases hb
  · obtain ⟨hmade, hup⟩ := hv b (hbitmap ▸ hb)
    rcases hsame with hsame | hdropped
    · rw [hsame.scaleSize, hsame.viewCrop]
      exact ⟨hmade, hsame.upToDate hup⟩
    · rw [hdropped.scaleSize, hdropped.viewCrop]
      exact ⟨hmade, hdropped.upToDate hup.dropped⟩

theorem shows_of_none (h : v.viewBitmap = none) (img : OpenImage B) : v.Shows img := by
  intro b hb
  rw [h] at hb
  cases hb

theorem DropsOrKeeps.refl (v : ImageView B) : DropsOrKeeps v v :=
  .inr ⟨rfl, .inl ⟨rfl, rfl, rfl, rfl⟩⟩

theorem DropsOrKeeps.send (v : ImageView B) (e : ViewEffect B) : DropsOrKeeps v (v.send e) :=
  .inr ⟨rfl, .inl ⟨rfl, rfl, rfl, rfl⟩⟩

theorem fitWindow2Image_drops {dim : Size} {mousepos : Point}
    (h : v.fitWindow2Image env dim mousepos = some v') : v'.viewBitmap = none := by
  unfold fitWindow2Image at h
  split at h
  · cases h
    rfl
  · split at h
    · cases h
      rfl
    · obtain ⟨wanted, -, rfl⟩ := Option.map_eq_some_iff.mp h
      rfl

theorem showZoomed_drops {dim : Size} {mousepos : Point}
    (h : v.showZoomed env dim mousepos = some v') : v'.viewBitmap = none := by
  unfold showZoomed at h
  split at h
  · exact fitWindow2Image_drops h
  · cases h
    rfl

theorem showLevel_drops {dim : Size} {inout : Int}
    (h : v.showLevel env dim inout = some v') : v'.viewBitmap = none := by
  unfold showLevel at h
  split at h
  · exact fitWindow2Image_drops h
  · cases h
    rfl

theorem zoomTo_drops {dim : Size} {newlevel inout : Int}
    (h : v.zoomTo env dim newlevel inout = some v') : v'.viewBitmap = none := by
  unfold zoomTo at h
  simp only [Option.bind_eq_bind, Option.bind_eq_some_iff] at h
  obtain ⟨cx, -, cy, -, shown, hshow, hres⟩ := h
  cases hres
  rw [updateStatus_bitmap]
  exact showLevel_drops hshow

theorem zoom_drops_or_keeps {inout : Int} {test : Bool}
    (h : (v.zoom env inout test).map (·.2) = some v') : DropsOrKeeps v v' := by
  have hto {dim : Size} {level : Int}
      (h : ((v.zoomTo env dim level inout).map ((0 : Int), ·)).map (·.2) = some v') :
      DropsOrKeeps v v' := by
    rw [Option.map_map] at h
    obtain ⟨v₁, hzoom, rfl⟩ := Option.map_eq_some_iff.mp h
    exact .inl (zoomTo_drops hzoom)
  have hsame {code : Int} (h : (some (code, v)).map (·.2) = some v') : DropsOrKeeps v v' := by
    cases h
    exact .refl v
  unfold zoom at h
  split at h
  · exact hsame h
  · split at h
    · exact hsame h
    · split at h
      · split at h
        · exact hsame h
        · split at h
          · exact hsame h
          · exact hto h
      · split at h
        · exact hsame h
        · split at h
          · exact hsame h
          · split at h
            · exact hsame h
            · exact hto h

theorem onFileOpened_drops {img : OpenImage B} (himage : env.image = some img) {cmdid : Int}
    (h : v.onFileOpened env cmdid = some v') : v'.viewBitmap = none := by
  unfold onFileOpened at h
  rw [himage] at h
  exact showZoomed_drops h

theorem setZoomMode_drops_or_keeps {img : OpenImage B} (himage : env.image = some img)
    {cmdId : Int} (h : v.setZoomMode env cmdId = some v') : DropsOrKeeps v v' := by
  unfold setZoomMode at h
  split at h
  · cases h
    exact .refl v
  · rw [himage] at h
    exact .inl (showZoomed_drops h)

theorem onLButtonUp_drops_or_keeps (v : ImageView B) : DropsOrKeeps v v.onLButtonUp := by
  unfold onLButtonUp
  split
  · exact .inl rfl
  · exact .refl v

theorem onRButtonUp_drops_or_keeps (v : ImageView B) : DropsOrKeeps v v.onRButtonUp := by
  unfold onRButtonUp
  split
  · exact .inl rfl
  · exact .refl v

theorem onMouseMove_drops_or_keeps (v : ImageView B) (env : ViewEnv B) (dragZoom : DragZoom)
    (pos : Point) : DropsOrKeeps v (v.onMouseMove env dragZoom pos) := by
  unfold onMouseMove
  split
  · exact .inl rfl
  · exact .refl v

end ImageView

/-- The messages whose handlers drop the bitmap or leave the view as it is. -/
def ViewMsg.keepsView : ViewMsg → Bool
  | .paint | .frameUpdate | .lButtonDown _ _ | .rButtonDown _ => false
  | _ => true

namespace ImageView

variable {B : Type} {v v' : ImageView B} {env : ViewEnv B}

theorem handle_drops_or_keeps {img : OpenImage B} (himage : env.image = some img)
    {dragZoom : DragZoom} {msg : ViewMsg} (hmsg : msg.keepsView = true)
    (h : v.handle env dragZoom msg = some v') : DropsOrKeeps v v' := by
  cases msg with
  | paint => cases hmsg
  | frameUpdate => cases hmsg
  | lButtonDown pos ctrl => cases hmsg
  | rButtonDown pos => cases hmsg
  | size =>
    cases h
    exact .inr ⟨rfl, .inr ⟨rfl, rfl, rfl, rfl⟩⟩
  | keyDown key shift ctrl alt =>
    simp only [handle] at h
    cases hkey : keyAction key shift ctrl alt with
    | navigate cmd =>
      rw [hkey] at h
      cases h
      exact .send v _
    | exit =>
      rw [hkey] at h
      cases h
      exact .send v _
    | zoom inout =>
      rw [hkey] at h
      exact zoom_drops_or_keeps h
    | pass =>
      rw [hkey] at h
      cases h
      exact .refl v
  | mouseWheel delta =>
    cases h
    exact .send v _
  | lButtonUp =>
    cases h
    exact onLButtonUp_drops_or_keeps v
  | rButtonUp =>
    cases h
    exact onRButtonUp_drops_or_keeps v
  | mouseMove pos =>
    cases h
    exact onMouseMove_drops_or_keeps v env dragZoom pos
  | eraseBkgnd =>
    cases h
    exact .refl v
  | setFocus =>
    cases h
    exact .refl v
  | other =>
    cases h
    exact .refl v
  | fileOpened cmdid => exact .inl (onFileOpened_drops himage h)
  | updateStatus =>
    cases h
    exact .inr ⟨updateStatus_bitmap v env, .inl (updateStatus_same v env)⟩
  | zoom inout test => exact zoom_drops_or_keeps h
  | setZoomMode cmdId => exact setZoomMode_drops_or_keeps himage h

theorem dragOffset_startDrag (v : ImageView B) (pos : Point) (dragType : DragType) :
    ({ v.startDrag pos with dragType := dragType } : ImageView B).dragOffset = v.viewOffset := by
  unfold dragOffset startDrag
  simp only [Int.sub_self, Int.sub_zero, ite_self]

theorem startZoomDrag_same {pos : Point} (h : (v.startDrag pos).startZoomDrag env = some v') :
    v'.viewBitmap = v.viewBitmap ∧ SameView { v with isdragging := false } v' := by
  unfold startZoomDrag at h
  simp only [Option.bind_eq_bind, Option.bind_eq_some_iff] at h
  obtain ⟨cx, -, cy, -, hres⟩ := h
  cases hres
  refine ⟨rfl, ?_, rfl, rfl, rfl⟩
  exact congrArg (ViewSettings.mk v.zoomtype v.zoomlevel) (dragOffset_startDrag v pos .ZOOMDRAG)

/-- A button that goes down ends the drag under way, and the bitmap stays. -/
theorem onLButtonDown_same {pos : Point} {ctrl : Bool} (h : v.onLButtonDown env pos ctrl = some v') :
    v'.viewBitmap = v.viewBitmap ∧ SameView { v with isdragging := false } v' := by
  unfold onLButtonDown at h
  split at h
  · exact startZoomDrag_same h
  · cases h
    refine ⟨rfl, ?_, rfl, rfl, rfl⟩
    exact congrArg (ViewSettings.mk v.zoomtype v.zoomlevel) (dragOffset_startDrag v pos .PAN)

theorem sameView_idle (h : ¬ v.isdragging) : SameView v { v with isdragging := false } where
  settings := by
    have hidle : v.isdragging = false := Bool.not_eq_true _ ▸ h
    unfold settings dragOffset
    simp only [hidle]
  scaleSize := rfl
  viewCrop := rfl
  viewWndDim := rfl

/-! ## The paint -/

/-- `r` is what `OnPaint` computes in `v`. -/
structure Recomputed (env : ViewEnv B) (img : OpenImage B) (v r : ImageView B) : Prop where
  view : v.settings.view env.client img.dim = some (r.scaleSize, r.viewCrop)
  again : r.settings.view env.client img.dim = some (r.scaleSize, r.viewCrop)
  viewWndDim : r.viewWndDim = env.client
  viewBitmap : r.viewBitmap =
    if r.viewCrop ≠ v.viewCrop ∨ v.viewBitmap.isNone then img.getBBitmap r.scaleSize r.viewCrop
    else v.viewBitmap
  drawn : r.drawn = v.drawn

theorem drawn_send (v : ImageView B) {e : ViewEffect B} (he : e.bitmap = none) :
    (v.send e).drawn = v.drawn := by
  unfold send drawn
  rw [List.filterMap_append, List.filterMap_cons_none he, List.filterMap_nil, List.append_nil]

theorem drawn_updateStatus (v : ImageView B) (env : ViewEnv B) :
    (v.updateStatus env).drawn = v.drawn := by
  unfold updateStatus
  split
  · exact drawn_send v rfl
  · rfl

theorem makeBitmap_eq (v : ImageView B) (env : ViewEnv B) (img : OpenImage B) (oldCrop : Rect) :
    v.makeBitmap env img oldCrop =
      if v.viewCrop ≠ oldCrop ∨ v.viewBitmap.isNone then
        { v with
          viewWndDim := env.client
          viewBitmap := img.getBBitmap v.scaleSize v.viewCrop
          timecost := env.timecost }
      else { v with viewWndDim := env.client } := by
  unfold makeBitmap releaseBitmap
  by_cases hcrop : v.viewCrop = oldCrop
  · simp only [hcrop, ne_eq, not_true_eq_false, if_false, false_or]
  · simp only [hcrop, ne_eq, not_false_eq_true, if_true, true_or, Option.isNone_none]

theorem makeBitmap_recomputed {f : ImageView B} {img : OpenImage B}
    (hc : Computed env.client img.dim v f) :
    Recomputed env img v (f.makeBitmap env img v.viewCrop) := by
  have hdrawn : f.drawn = v.drawn := congrArg (List.filterMap _) hc.effects
  rw [makeBitmap_eq, hc.viewBitmap]
  split
  · rename_i hnew
    exact ⟨hc.view, hc.again, rfl, (if_pos hnew).symm, hdrawn⟩
  · rename_i hold
    exact ⟨hc.view, hc.again, rfl, (if_neg hold).symm, hdrawn⟩

theorem Recomputed.updateStatus {img : OpenImage B} {r : ImageView B} (h : Recomputed env img v r) :
    Recomputed env img v (r.updateStatus env) := by
  have hdrawn := (drawn_updateStatus r env).trans h.drawn
  unfold ImageView.updateStatus at hdrawn ⊢
  split
  · rename_i himage
    rw [if_pos himage] at hdrawn
    exact ⟨h.view, h.again, h.viewWndDim, h.viewBitmap, hdrawn⟩
  · exact h

theorem recompute_view (v : ImageView B) (env : ViewEnv B) (img : OpenImage B) :
    (v.recompute env img = none ∧ v.settings.view env.client img.dim = none) ∨
      ∃ r, v.recompute env img = some r ∧ Recomputed env img v r := by
  rw [recompute_eq]
  rcases viewAt_view v env.client img.dim with ⟨hnone, hview⟩ | ⟨f, hf, hc⟩
  · rw [hnone]
    exact .inl ⟨rfl, hview⟩
  · rw [hf]
    exact .inr ⟨_, rfl, (makeBitmap_recomputed hc).updateStatus⟩

/-- What was computed is up to date at any client size that keeps the crop. -/
theorem Recomputed.upToDate {img : OpenImage B} {r : ImageView B} (h : Recomputed env img v r) :
    r.UpToDate img.dim where
  kept := by
    intro w ht hwnd
    rw [h.viewWndDim] at hwnd
    rw [← hwnd]
    exact h.again
  scale := by
    intro w ht s hs
    exact ViewSettings.view_scale rfl rfl hs h.again

/-- The bitmap that is kept is the one that would be made. -/
theorem Recomputed.current {img : OpenImage B} {r : ImageView B} (h : Recomputed env img v r)
    (hv : v.Shows img) : r.viewBitmap = img.getBBitmap r.scaleSize r.viewCrop := by
  rw [h.viewBitmap]
  split
  · rfl
  · rename_i hold
    obtain ⟨hcrop, hsome⟩ := not_or.mp hold
    rw [Decidable.not_not] at hcrop
    rw [Option.isNone_iff_eq_none] at hsome
    obtain ⟨b, hb⟩ := Option.ne_none_iff_exists'.mp hsome
    obtain ⟨hbitmap, hup⟩ := hv b hb
    have hscale : r.scaleSize = v.scaleSize := hup.scale env.width env.height _ (hcrop ▸ h.view)
    rw [hb, hscale, hcrop, hbitmap]

theorem paint_current {img : OpenImage B} (hv : v.Shows img)
    (h : (if v.stale env then v.recompute env img else some v) = some v') :
    v'.UpToDate img.dim ∧ v'.viewBitmap = img.getBBitmap v'.scaleSize v'.viewCrop ∧
      v'.drawn = v.drawn ∧
      ∃ r, v.releaseBitmap.recompute env img = some r ∧ v'.scaleSize = r.scaleSize ∧
        v'.viewCrop = r.viewCrop := by
  -- the view that a bitmap would be made for
  have hview : v'.UpToDate img.dim ∧ v'.viewBitmap = img.getBBitmap v'.scaleSize v'.viewCrop ∧
      v'.drawn = v.drawn ∧
      v.settings.view env.client img.dim = some (v'.scaleSize, v'.viewCrop) := by
    split at h
    · rcases recompute_view v env img with ⟨hnone, -⟩ | ⟨r, hr, hre⟩
      · rw [hnone] at h
        cases h
      · obtain rfl : r = v' := Option.some.inj (hr.symm.trans h)
        exact ⟨hre.upToDate, hre.current hv, hre.drawn, hre.view⟩
    · rename_i hfresh
      obtain rfl : v = v' := Option.some.inj h
      have hfresh : v.viewBitmap ≠ none ∧ env.client = v.viewWndDim := by
        simpa [stale] using hfresh
      obtain ⟨b, hb⟩ := Option.ne_none_iff_exists'.mp hfresh.1
      obtain ⟨hbitmap, hup⟩ := hv b hb
      exact ⟨hup, hb.trans hbitmap.symm, rfl, hup.kept _ _ hfresh.2.symm⟩
  obtain ⟨hup, hbitmap, hdrawn, hview⟩ := hview
  refine ⟨hup, hbitmap, hdrawn, ?_⟩
  rcases recompute_view v.releaseBitmap env img with ⟨-, hnone⟩ | ⟨r, hr, hre⟩
  · exact absurd (hview.symm.trans hnone) (Option.some_ne_none _)
  · have hsame := Option.some.inj (hview.symm.trans hre.view)
    exact ⟨r, hr, congrArg Prod.fst hsame, congrArg Prod.snd hsame⟩

theorem drawn_draw (v : ImageView B) (env : ViewEnv B) (bitmap : B) :
    (v.draw env bitmap).drawn = v.drawn ++ [bitmap] := by
  have hfill (cond : Bool) (x y w h : Int) :
      (if cond then [.fillRect x y w h] else []).filterMap (ViewEffect.bitmap (B := B)) = [] := by
    cases cond with
    | false => rfl
    | true => rfl
  unfold draw drawn
  simp only [List.filterMap_append, hfill, List.append_nil]
  rfl

theorem drawView_drawn (v : ImageView B) (env : ViewEnv B) :
    (v.drawView env).drawn = v.drawn ++ v.viewBitmap.toList := by
  unfold drawView
  split
  · rename_i hnone
    rw [hnone]
    exact (drawn_send v rfl).trans (List.append_nil _).symm
  · rename_i bitmap hsome
    rw [hsome, drawn_draw]
    rfl

theorem drawView_same (v : ImageView B) (env : ViewEnv B) :
    (v.drawView env).viewBitmap = v.viewBitmap ∧ SameView v (v.drawView env) := by
  unfold drawView
  split
  · exact ⟨rfl, rfl, rfl, rfl, rfl⟩
  · exact ⟨rfl, rfl, rfl, rfl, rfl⟩

theorem onPaint_current {img : OpenImage B} (himage : env.image = some img) (hv : v.Shows img)
    (h : v.onPaint env = some v') :
    v'.Shows img ∧ ∃ r, v.releaseBitmap.recompute env img = some r ∧
      v'.scaleSize = r.scaleSize ∧ v'.viewCrop = r.viewCrop ∧
      v'.drawn = v.drawn ++ (img.getBBitmap r.scaleSize r.viewCrop).toList := by
  unfold onPaint at h
  rw [himage] at h
  obtain ⟨f, hf, rfl⟩ := Option.map_eq_some_iff.mp h
  obtain ⟨hup, hbitmap, hdrawn, r, hr, hscale, hcrop⟩ := paint_current hv hf
  obtain ⟨hkept, hsame⟩ := drawView_same f env
  constructor
  · intro b hb
    rw [hsame.scaleSize, hsame.viewCrop, ← hbitmap, ← hkept]
    exact ⟨hb, hsame.upToDate hup⟩
  · refine ⟨r, hr, hsame.scaleSize.trans hscale, hsame.viewCrop.trans hcrop, ?_⟩
    rw [drawView_drawn, hdrawn, hbitmap, hscale, hcrop]

/-! ## The frame update and the buttons -/

theorem onFrameUpdate_same (v : ImageView B) (env : ViewEnv B) : SameView v (v.onFrameUpdate env) := by
  have hsame := updateStatus_same
    (({ v with viewBitmap := env.image.bind fun img => img.getBBitmap v.scaleSize v.viewCrop } :
      ImageView B).send .invalidateRect) env
  exact ⟨hsame.settings, hsame.scaleSize, hsame.viewCrop, hsame.viewWndDim⟩

theorem onFrameUpdate_bitmap {img : OpenImage B} (himage : env.image = some img) :
    (v.onFrameUpdate env).viewBitmap = img.getBBitmap v.scaleSize v.viewCrop := by
  unfold onFrameUpdate
  rw [updateStatus_bitmap, himage]
  rfl

/-- A frame of the image that is shown; where there is no bitmap the view has to be up to date. -/
theorem onFrameUpdate_shows {img img' : OpenImage B} (himage : env.image = some img')
    (hdim : img'.dim = img.dim) (hv : v.Shows img) (hproper : v.ProperMsg env.image .frameUpdate) :
    (v.onFrameUpdate env).Shows img' := by
  intro b hb
  have hsame := onFrameUpdate_same v env
  rw [onFrameUpdate_bitmap himage] at hb
  have hup : v.UpToDate img'.dim := by
    cases hbitmap : v.viewBitmap with
    | none => exact hproper img' himage hbitmap (hb ▸ rfl)
    | some b' => exact hdim ▸ (hv b' hbitmap).2
  rw [hsame.scaleSize, hsame.viewCrop]
  exact ⟨hb, hsame.upToDate hup⟩

/-- A button goes down; in a drag under way the view has to be that of its end. -/
theorem buttonDown_shows {img : OpenImage B} (hv : v.Shows img)
    (hproper : v.viewBitmap.isSome → v.isdragging →
      ({ v with isdragging := false } : ImageView B).UpToDate img.dim)
    (h : v'.viewBitmap = v.viewBitmap ∧ SameView { v with isdragging := false } v') :
    v'.Shows img := by
  intro b hb
  obtain ⟨hbitmap, hsame⟩ := h
  rw [hbitmap] at hb
  obtain ⟨hrendered, hup⟩ := hv b hb
  have hidle : ({ v with isdragging := false } : ImageView B).UpToDate img.dim := by
    by_cases hdrag : v.isdragging
    · exact hproper (hb ▸ rfl) hdrag
    · exact (sameView_idle hdrag).upToDate hup
  rw [hsame.scaleSize, hsame.viewCrop]
  exact ⟨hrendered, hsame.upToDate hidle⟩

theorem handle_shows {img : OpenImage B} (himage : env.image = some img) (hv : v.Shows img)
    {dragZoom : DragZoom} {msg : ViewMsg} (hproper : v.ProperMsg env.image msg)
    (h : v.handle env dragZoom msg = some v') : v'.Shows img := by
  cases hmsg : msg.keepsView with
  | true => exact (handle_drops_or_keeps himage hmsg h).shows hv
  | false =>
    cases msg with
    | paint => exact (onPaint_current himage hv h).1
    | frameUpdate =>
      cases h
      exact onFrameUpdate_shows himage rfl hv hproper
    | lButtonDown pos ctrl => exact buttonDown_shows hv (hproper img himage) (onLButtonDown_same h)
    | rButtonDown pos => exact buttonDown_shows hv (hproper img himage) (startZoomDrag_same h)
    | _ => cases hmsg

end ImageView

/-! ## Runs -/

namespace Screen

variable {B : Type} {dragZoom : DragZoom} {s s' : Screen B}

/-- **A step.** What is done by the document and to the view leaves the view showing the image that
is open. -/
theorem Coherent.step (hs : s.Coherent) {l : ScreenEvent B × ViewEnv B} (hl : s.Proper l)
    (h : s.step dragZoom l = some s') : s'.Coherent := by
  obtain ⟨event, env⟩ := l
  obtain ⟨v, hhandle, rfl⟩ := Option.map_eq_some_iff.mp h
  intro img himage
  cases event with
  | msg m =>
    have hopen : (env.showing s.image).image = some img := himage
    exact ImageView.handle_shows hopen (hs img himage) hl hhandle
  | opened cmdid opened =>
    have hopen : (env.showing (some opened)).image = some opened := rfl
    exact ImageView.shows_of_none (ImageView.onFileOpened_drops hopen hhandle) img
  | closed => cases himage
  | nextFrame getBBitmap =>
    obtain ⟨shown, hshown, hframe⟩ := Option.map_eq_some_iff.mp himage
    have hopen : (env.showing (s.image.map fun img => { img with getBBitmap := getBBitmap })).image =
      some img := himage
    have hdim : img.dim = shown.dim := hframe ▸ rfl
    cases hhandle
    exact ImageView.onFrameUpdate_shows hopen hdim (hs shown hshown) hl

theorem coherent_init : ({} : Screen B).Coherent := by
  intro img himage
  cases himage

theorem reach_coherent (h : (machine dragZoom).Reach Proper s) : s.Coherent :=
  h.holds (fun hinit => hinit ▸ coherent_init) fun hs hl hstep => hs.step hl hstep

/-! ## The guard is needed -/

/-- `getBBitmap` gives different bitmaps at different scales. -/
def TellsApart (img : OpenImage B) : Prop :=
  ∀ s s' r r', (img.getBBitmap s r).isSome → img.getBBitmap s r = img.getBBitmap s' r' → s = s'

def clientOf (B : Type) (w h : Nat) : ViewEnv B :=
  { image := none, width := w, height := h, window := none, mouseOn := fun _ => ⟨-1, -1⟩,
    timecost := 0 }

theorem step_paint {v f : ImageView B} {img : OpenImage B} {env : ViewEnv B}
    (h : (if v.stale (env.showing (some img)) then v.recompute (env.showing (some img)) img
      else some v) = some f) :
    ({ view := v, image := some img } : Screen B).step dragZoom (.msg .paint, env) =
      some { view := f.drawView (env.showing (some img)), image := some img } := by
  have hpaint : v.onPaint (env.showing (some img)) = some (f.drawView (env.showing (some img))) := by
    show (if v.stale (env.showing (some img)) then v.recompute (env.showing (some img)) img
      else some v).map _ = _
    rw [h]
    rfl
  show (v.onPaint (env.showing (some img))).map _ = _
  rw [hpaint]
  rfl

/-- The bitmap of an outdated view is painted. -/
theorem outdated_paint {v : ImageView B} {img : OpenImage B} (himg : TellsApart img) {b : B}
    (hbitmap : v.viewBitmap = some b) (hmade : img.getBBitmap v.scaleSize v.viewCrop = some b)
    (hout : ¬ v.UpToDate img.dim) :
    ¬ ({ view := v, image := some img } : Screen B).PaintsCurrent dragZoom := by
  intro hcurrent
  have hkept : ∀ w h : Nat, v.viewWndDim = ⟨w, h⟩ →
      v.settings.view ⟨w, h⟩ img.dim = some (v.scaleSize, v.viewCrop) := by
    -- the bitmap is painted as it is
    intro w h hwnd
    have hfresh : v.stale ((clientOf B w h).showing (some img)) = false := by
      unfold ImageView.stale
      rw [hbitmap, hwnd]
      exact Bool.or_eq_false_iff.mpr ⟨rfl, bne_self_eq_false _⟩
    obtain ⟨r, hr, hscale, hcrop, -⟩ :=
      hcurrent _ img _ rfl (step_paint (by rw [hfresh]; rfl))
    have hsame := (ImageView.drawView_same v ((clientOf B w h).showing (some img))).2
    rcases ImageView.recompute_view v.releaseBitmap _ img with ⟨hnone, -⟩ | ⟨r', hr', hre⟩
    · rw [hnone] at hr
      cases hr
    · obtain rfl : r' = r := Option.some.inj (hr'.symm.trans hr)
      rw [← hsame.scaleSize, ← hsame.viewCrop]
      exact hre.view.trans (by rw [← hscale, ← hcrop])
  refine hout ⟨hkept, ?_⟩
  intro w h scale hview
  by_cases hwnd : v.viewWndDim = ⟨w, h⟩
  · have hsame := Option.some.inj (hview.symm.trans (hkept w h hwnd))
    exact congrArg Prod.fst hsame
  · -- the scale is computed anew and the bitmap kept
    have hstale : v.stale ((clientOf B w h).showing (some img)) = true := by
      unfold ImageView.stale
      rw [Bool.or_eq_true, bne_iff_ne]
      exact .inr (Ne.symm hwnd)
    rcases ImageView.recompute_view v ((clientOf B w h).showing (some img)) img with
      ⟨-, hnone⟩ | ⟨f, hf, hre⟩
    · exact absurd (hview.symm.trans hnone) (Option.some_ne_none _)
    · obtain ⟨r, -, hscale, hcrop, hdrawn⟩ :=
        hcurrent _ img _ rfl (step_paint (by rw [hstale]; exact hf))
      obtain ⟨hscale', hcrop'⟩ := Prod.mk.inj (Option.some.inj (hview.symm.trans hre.view))
      have hold : f.viewBitmap = some b := by
        rw [hre.viewBitmap, ← hcrop', hbitmap]
        exact if_neg (not_or.mpr ⟨not_not.mpr rfl, Bool.false_ne_true⟩)
      have hrendered : img.getBBitmap r.scaleSize r.viewCrop = some b := by
        rw [ImageView.drawView_drawn, hre.drawn, hold] at hdrawn
        exact Option.toList_eq_singleton_iff.mp (List.append_cancel_left hdrawn).symm
      have hview' := (ImageView.drawView_same f ((clientOf B w h).showing (some img))).2
      calc scale = f.scaleSize := hscale'
        _ = r.scaleSize := hview'.scaleSize.symm.trans hscale
        _ = v.scaleSize := himg _ _ _ _ (hrendered ▸ rfl) (hrendered.trans hmade.symm)

theorem frame_outdates {v : ImageView B} {env : ViewEnv B}
    (hl : ¬ v.ProperMsg env.image .frameUpdate)
    (himage : ∀ img, env.image = some img → TellsApart img) :
    ¬ ({ view := v.onFrameUpdate env, image := env.image } : Screen B).PaintsCurrent dragZoom := by
  simp only [ImageView.ProperMsg, Classical.not_forall] at hl
  obtain ⟨img, hopen, -, hmade, hout⟩ := hl
  obtain ⟨b, hb⟩ := Option.isSome_iff_exists.mp hmade
  have hsame := ImageView.onFrameUpdate_same v env
  have hbitmap := (ImageView.onFrameUpdate_bitmap hopen).trans hb
  rw [hopen]
  refine outdated_paint (himage img hopen) hbitmap ?_ fun hup => hout (hsame.symm.upToDate hup)
  rw [hsame.scaleSize, hsame.viewCrop]
  exact hb

theorem button_outdates {v : ImageView B} (hs : s.Coherent)
    (hl : ¬ ∀ img, s.image = some img → s.view.viewBitmap.isSome → s.view.isdragging →
      ({ s.view with isdragging := false } : ImageView B).UpToDate img.dim)
    (himage : ∀ img, s.image = some img → TellsApart img)
    (h : v.viewBitmap = s.view.viewBitmap ∧
      ImageView.SameView { s.view with isdragging := false } v) :
    ¬ ({ view := v, image := s.image } : Screen B).PaintsCurrent dragZoom := by
  simp only [Classical.not_forall] at hl
  obtain ⟨img, hopen, hsome, -, hout⟩ := hl
  obtain ⟨b, hb⟩ := Option.isSome_iff_exists.mp hsome
  obtain ⟨hbitmap, hsame⟩ := h
  rw [hopen]
  refine outdated_paint (himage img hopen) (hbitmap.trans hb) ?_
    fun hup => hout (hsame.symm.upToDate hup)
  rw [hsame.scaleSize, hsame.viewCrop]
  exact (hs img hopen b hb).1

/-- **A step that the guard excludes outdates a paint.** -/
theorem improper_outdates (hs : s.Coherent) {l : ScreenEvent B × ViewEnv B} (hl : ¬ s.Proper l)
    (himage : ∀ img, l.1.image s.image = some img → TellsApart img)
    (h : s.step dragZoom l = some s') : ¬ s'.PaintsCurrent dragZoom := by
  obtain ⟨event, env⟩ := l
  obtain ⟨v, hhandle, rfl⟩ := Option.map_eq_some_iff.mp h
  cases event with
  | nextFrame getBBitmap =>
    cases hhandle
    exact frame_outdates hl himage
  | opened cmdid opened => exact absurd trivial hl
  | closed => exact absurd trivial hl
  | msg m =>
    cases m with
    | frameUpdate =>
      cases hhandle
      exact frame_outdates hl himage
    | lButtonDown pos ctrl => exact button_outdates hs hl himage (ImageView.onLButtonDown_same hhandle)
    | rButtonDown pos => exact button_outdates hs hl himage (ImageView.startZoomDrag_same hhandle)
    | _ => exact absurd trivial hl

end Screen

/-! ## What is painted -/

/-- A frame of 100x100 pixels, with bitmaps that tell the frame, the scale and the crop. -/
def gifFrame (n : Nat) : OpenImage (Nat × Size × Rect) where
  dim := ⟨100, 100⟩
  getBBitmap scaleSize cropRect := some (n, scaleSize, cropRect)
  cx_pos := by decide
  cy_pos := by decide

/-- A client area of 50x50 pixels in a maximized window. -/
def smallClient : ViewEnv (Nat × Size × Rect) := Screen.clientOf _ 50 50

def nextGifFrame : ScreenEvent (Nat × Size × Rect) := .nextFrame (gifFrame 1).getBBitmap

/-- A drag leaves the level at which it started. -/
def levelDrag : DragZoom := fun start _ => start

/-- The file is opened and painted, and painted again at 70%. -/
def zoomedIn : List (ScreenEvent (Nat × Size × Rect)) :=
  [.opened (-1) (gifFrame 0), .msg .paint, .msg (.zoom 1 false), .msg .paint]

/-- The left button goes down and the mouse moves to the left. -/
def dragged : List (ScreenEvent (Nat × Size × Rect)) :=
  zoomedIn ++ [.msg (.lButtonDown ⟨5, 5⟩ false), .msg (.mouseMove ⟨0, 5⟩)]

def inSmallClient (events : List (ScreenEvent (Nat × Size × Rect))) :
    List (ScreenEvent (Nat × Size × Rect) × ViewEnv (Nat × Size × Rect)) :=
  events.map fun event => (event, smallClient)

namespace Screen

variable {B : Type} {dragZoom : DragZoom} {s : Screen B}

/-- **What is painted is the current view.** In every run in which no frame is made of an outdated
view and no button goes down in a drag that has moved, a paint draws the current frame of the image
that is open at the scale and the crop that `OnPaint` computes. -/
theorem paints_current (h : (machine dragZoom).Reach Proper s) : s.PaintsCurrent dragZoom := by
  intro env img s' himage hpaint
  obtain ⟨v, hpainted, rfl⟩ := Option.map_eq_some_iff.mp hpaint
  have hshown : s.view.Shows img := reach_coherent h img himage
  have hopen : (env.showing (some img)).image = some img := rfl
  simp only [ScreenEvent.image, himage] at hpainted
  exact (ImageView.onPaint_current hopen hshown hpainted).2

end Screen

/-- A frame of an image that was painted at the level it is shown at. -/
theorem paints_current_zoomed :
    ∃ s, (Screen.machine levelDrag).Run Screen.Proper {} (inSmallClient (zoomedIn ++ [nextGifFrame])) s ∧
      s.PaintsCurrent levelDrag := by
  have hrun : ∃ s, (Screen.machine levelDrag).Run Screen.Proper {}
      (inSmallClient (zoomedIn ++ [nextGifFrame])) s := by
    refine ⟨_, .cons trivial rfl (.cons trivial rfl (.cons trivial rfl (.cons trivial rfl
      (.cons ?_ rfl .nil))))⟩
    intro img _ hnone
    exact absurd hnone (by decide)
  obtain ⟨s, hrun⟩ := hrun
  exact ⟨s, hrun, Screen.paints_current ⟨{}, _, rfl, hrun⟩⟩

/-- The part of the image that a paint shows after a run, and the part that `OnPaint` computes
where there is no bitmap. -/
def cropsAfter (events : List (ScreenEvent (Nat × Size × Rect))) : Option (Rect × Rect) := do
  let s ← Lib.Machine.execAll (Screen.step levelDrag) Lib.Machine.always {} (inSmallClient events)
  let img ← s.image
  let painted ← s.step levelDrag (.msg .paint, smallClient)
  let r ← s.view.releaseBitmap.recompute (smallClient.showing (some img)) img
  return (painted.view.viewCrop, r.viewCrop)

/-- Two different crops are a paint that is not the current view. -/
theorem outdated_of_crops {events : List (ScreenEvent (Nat × Size × Rect))} {c d : Rect}
    (h : cropsAfter events = some (c, d)) (hne : c ≠ d) :
    ∃ s, (Screen.machine levelDrag).Run Lib.Machine.always {} (inSmallClient events) s ∧
      ¬ s.PaintsCurrent levelDrag := by
  unfold cropsAfter at h
  simp only [Option.bind_eq_bind, Option.bind_eq_some_iff] at h
  obtain ⟨s, hrun, img, himage, painted, hpaint, r, hr, hcrops⟩ := h
  cases hcrops
  refine ⟨s, Lib.Machine.run_of_execAll hrun, ?_⟩
  intro hcurrent
  obtain ⟨r', hr', -, hcrop, -⟩ := hcurrent _ img painted himage hpaint
  obtain rfl : r' = r := Option.some.inj (hr'.symm.trans hr)
  exact hne hcrop

/-- **Outdated views.** A frame update between a zoom and the paint, one between the end of a drag
and the paint, and the right button going down in a drag that was painted, each leave a view that is
not the current one. -/
theorem outdated_views :
    (∃ s, (Screen.machine levelDrag).Run Lib.Machine.always {}
        (inSmallClient (zoomedIn ++ [.msg (.zoom 1 false), nextGifFrame])) s ∧
      ¬ s.PaintsCurrent levelDrag) ∧
    (∃ s, (Screen.machine levelDrag).Run Lib.Machine.always {}
        (inSmallClient (dragged ++ [.msg .lButtonUp, nextGifFrame])) s ∧
      ¬ s.PaintsCurrent levelDrag) ∧
    (∃ s, (Screen.machine levelDrag).Run Lib.Machine.always {}
        (inSmallClient (dragged ++ [.msg .paint, .msg (.rButtonDown ⟨5, 5⟩)])) s ∧
      ¬ s.PaintsCurrent levelDrag) := by
  refine ⟨?_, ?_, ?_⟩
  · exact outdated_of_crops (c := ⟨10, 10, 60, 60⟩) (d := ⟨25, 25, 75, 75⟩) (by decide) (by decide)
  · exact outdated_of_crops (c := ⟨10, 10, 60, 60⟩) (d := ⟨15, 10, 65, 60⟩) (by decide) (by decide)
  · exact outdated_of_crops (c := ⟨15, 10, 65, 60⟩) (d := ⟨10, 10, 60, 60⟩) (by decide) (by decide)

end ObZrv
