import ObZrv.View.ImageView

/-!
# View.ZoomLevel

The divisors of `ImageView`. Image dimensions and the old zoom level of `zoom` are never zero; the
level a zoom drag starts from is zero until some message has given the view a level.

* `handle_level`             : what every message does to the level.
* `view_divides_by_nonzero`  : a run has no zero divisor exactly when every zoom drag in it starts
  with a level given.
-/

namespace ObZrv

/-- The messages that start a zoom drag. -/
def ViewMsg.startsZoomDrag : ViewMsg → Bool
  | .lButtonDown _ ctrl => ctrl
  | .rButtonDown _ => true
  | _ => false

namespace ImageView

variable {B : Type}

/-- Filling the client area on one axis takes at least 1%. -/
def fillsOnePercent (size dim : Size) : Bool :=
  if size.cx * dim.cy > size.cy * dim.cx then dim.cy ≤ size.cy * 100 else dim.cx ≤ size.cx * 100

/-- Whether the level that a mode chooses by itself is at least 1%. -/
def autoOnePercent (zt : ZoomType) (size dim : Size) : Bool :=
  match zt with
  | .W2I | .NOFIT => true
  | .I2W => fillsOnePercent size dim
  | .W2I_ZOOMOUT | .I2W_ZOOMOUT =>
    (size.cx ≥ dim.cx && size.cy ≥ dim.cy) || fillsOnePercent size dim

/-- A zoom in gives a level, and zoom out never takes one away. -/
def zoomGives (env : ViewEnv B) (inout : Int) (test : Bool) : Option Bool :=
  if env.image.isSome ∧ 0 < inout ∧ test = false then some true else none

/-- Whether a message gives the view a level (`some true`), takes it away (`some false`) or does
neither. An opened file and a zoom mode take it away; a zoom in and a move of a zoom drag give one;
a paint that has to choose a level gives one if it is at least 1%. -/
def givesLevel (v : ImageView B) (env : ViewEnv B) : ViewMsg → Option Bool
  | .setZoomMode cmdId => if (zoomModeOf cmdId).isSome then some false else none
  | .fileOpened _ => if env.image.isSome then some false else none
  | .zoom inout test => zoomGives env inout test
  | .keyDown key shift ctrl alt =>
    match keyAction key shift ctrl alt with
    | .zoom inout => zoomGives env inout false
    | _ => none
  | .mouseMove _ =>
    if env.image.isSome ∧ v.isdragging = true ∧ v.dragType = .ZOOMDRAG then some true else none
  | .paint => env.image.bind fun img =>
    if v.zoomlevel = 0 ∧ v.stale env = true then
      some (autoOnePercent v.zoomtype env.client img.dim)
    else none
  | _ => none

/-- Every zoom drag of a run starts with a level given. `given` is whether there is one at first. -/
def LevelledDrags (dragZoom : DragZoom) : ImageView B → Bool → ViewRun B → Prop
  | _, _, [] => True
  | v, given, (msg, env) :: msgs =>
    (msg.startsZoomDrag = true → given = true) ∧
      ∀ v', v.handle env dragZoom msg = some v' →
        LevelledDrags dragZoom v' ((v.givesLevel env msg).getD given) msgs

/-- Whether there is a level after a message. -/
def LevelAfter (v : ImageView B) (env : ViewEnv B) (msg : ViewMsg) : Prop :=
  match v.givesLevel env msg with
  | some given => given = true
  | none => v.level ≠ 0

/-- A handler that ends, with a level other than 0 just when `p`. -/
def Ends (p : Prop) (result : Option (ImageView B)) : Prop :=
  ∃ v, result = some v ∧ (v.level ≠ 0 ↔ p)

variable {v : ImageView B} {env : ViewEnv B}

theorem Ends.of_level {result : Option (ImageView B)} {v' : ImageView B} (h : result = some v')
    (hlevel : v'.level = v.level) : Ends (v.level ≠ 0) result :=
  ⟨v', h, by rw [hlevel]⟩

theorem Ends.gives {msg : ViewMsg} {given : Bool} (hgives : v.givesLevel env msg = some given)
    {result : Option (ImageView B)} (h : Ends (given = true) result) :
    Ends (LevelAfter v env msg) result := by
  unfold LevelAfter
  rw [hgives]
  exact h

theorem Ends.keeps {msg : ViewMsg} (hgives : v.givesLevel env msg = none)
    {result : Option (ImageView B)} (h : Ends (v.level ≠ 0) result) :
    Ends (LevelAfter v env msg) result := by
  unfold LevelAfter
  rw [hgives]
  exact h

theorem Ends.given {result : Option (ImageView B)} {v' : ImageView B} (h : result = some v')
    (hlevel : v'.level ≠ 0) : Ends (true = true) result :=
  ⟨v', h, iff_of_true hlevel rfl⟩

theorem Ends.reset {result : Option (ImageView B)} {v' : ImageView B} (h : result = some v')
    (hlevel : v'.level = 0) : Ends (false = true) result :=
  ⟨v', h, iff_of_false (fun hne => hne hlevel) Bool.false_ne_true⟩

theorem level_ne_zero_iff : v.level ≠ 0 ↔ v.zoomlevel ≠ 0 ∨ v.fitlevel ≠ 0 := by
  unfold level
  split
  · rename_i h
    exact iff_of_true h (.inl h)
  · rename_i h
    simp [Decidable.not_not.mp h]

@[simp] theorem level_redraw : v.redraw.level = v.level := rfl

@[simp] theorem level_updateStatus : (v.updateStatus env).level = v.level := by
  unfold updateStatus
  split
  · rfl
  · rfl

theorem divInt_of_ne {a b : Int} (h : b ≠ 0) : divInt a b = some (a.tdiv b) := if_neg h

/-! ## The window and the fixed levels -/

theorem wantedSize_isSome {dim : Size} (hcx : 1 ≤ dim.cx) (hcy : 1 ≤ dim.cy) (most : Size) :
    (v.wantedSize dim most).isSome := by
  unfold wantedSize
  split
  · rfl
  · split
    · rw [divInt_of_ne (by omega)]
      rfl
    · split
      · rw [divInt_of_ne (by omega)]
        rfl
      · rfl

theorem placeWindow_level (win : MainPlace) (work : Rect) (most wanted : Size)
    (mousepos : Point) : (v.placeWindow env win work most wanted mousepos).level = v.level := by
  unfold placeWindow
  simp only
  split
  · split
    · rfl
    · rfl
  · rfl

theorem fitWindow2Image_level (v : ImageView B) (env : ViewEnv B) (img : OpenImage B)
    (mousepos : Point) :
    ∃ v', v.fitWindow2Image env img.dim mousepos = some v' ∧ v'.level = v.level := by
  unfold fitWindow2Image
  split
  · exact ⟨_, rfl, rfl⟩
  · split
    · exact ⟨_, rfl, rfl⟩
    · simp only
      obtain ⟨wanted, hwanted⟩ := Option.isSome_iff_exists.mp
        (wantedSize_isSome (v := v) img.cx_pos img.cy_pos _)
      rw [hwanted]
      exact ⟨_, rfl, placeWindow_level _ _ _ _ _⟩

theorem showZoomed_level (v : ImageView B) (env : ViewEnv B) (img : OpenImage B)
    (mousepos : Point) :
    ∃ v', v.showZoomed env img.dim mousepos = some v' ∧ v'.level = v.level := by
  unfold showZoomed
  split
  · exact fitWindow2Image_level v env img mousepos
  · exact ⟨_, rfl, rfl⟩

theorem showLevel_level (v : ImageView B) (env : ViewEnv B) (img : OpenImage B) (inout : Int) :
    ∃ v', v.showLevel env img.dim inout = some v' ∧ v'.level = v.level := by
  unfold showLevel
  split
  · exact fitWindow2Image_level v env img _
  · exact ⟨_, rfl, rfl⟩

theorem levelAbove_mem {level : Int} (h : level < 10000) : levelAbove level ∈ zoomLevels := by
  unfold levelAbove
  cases hfind : zoomLevels.find? (level < ·) with
  | none =>
    have hlast := List.find?_eq_none.mp hfind 10000 (by decide)
    simp only [decide_eq_true_eq] at hlast
    omega
  | some next => exact List.mem_of_find?_eq_some hfind

theorem levelBelow_mem {level : Int} (h : 1 < level) : levelBelow level ∈ zoomLevels := by
  unfold levelBelow
  have hne : zoomLevels.takeWhile (· < level) ≠ [] := by
    unfold zoomLevels
    rw [List.takeWhile_cons_of_pos (by simpa using h)]
    exact List.cons_ne_nil _ _
  rw [List.getLastD_eq_getLast?, List.getLast?_eq_some_getLast hne, Option.getD_some]
  exact (List.takeWhile_sublist _).subset (List.getLast_mem hne)

theorem zoomLevels_range {level : Int} (h : level ∈ zoomLevels) : 1 ≤ level ∧ level ≤ 10000 := by
  have hall : ∀ l ∈ zoomLevels, 1 ≤ l ∧ l ≤ 10000 := by decide
  exact hall level h

/-- The divisor of `zoom` is the old zoom level, or 100. -/
theorem zoomTo_level (v : ImageView B) (env : ViewEnv B) (img : OpenImage B) {newlevel : Int}
    (hnew : 1 ≤ newlevel) (inout : Int) :
    ∃ v', v.zoomTo env img.dim newlevel inout = some v' ∧ v'.level ≠ 0 := by
  have hori : (if v.zoomlevel ≠ 0 then v.zoomlevel else 100) ≠ 0 := by
    split
    · assumption
    · decide
  unfold zoomTo
  simp only [divInt_of_ne hori, Option.bind_eq_bind, Option.bind_some]
  obtain ⟨v', hshow, hlevel⟩ := showLevel_level { v with
    zoomlevel := newlevel
    viewOffset :=
      { cx := (v.viewOffset.cx * newlevel).tdiv (if v.zoomlevel ≠ 0 then v.zoomlevel else 100)
        cy := (v.viewOffset.cy * newlevel).tdiv (if v.zoomlevel ≠ 0 then v.zoomlevel else 100) } }
    env img inout
  rw [hshow]
  refine ⟨_, rfl, ?_⟩
  rw [level_updateStatus, hlevel, level_ne_zero_iff]
  exact .inl (by simp only; omega)

theorem zoom_in_level {img : OpenImage B} (himage : env.image = some img) {inout : Int}
    (hin : 0 < inout) :
    ∃ v', (v.zoom env inout false).map (·.2) = some v' ∧ v'.level ≠ 0 := by
  unfold zoom
  rw [himage]
  simp only
  rw [if_neg (by omega), if_pos hin]
  split
  · exact ⟨v, rfl, by omega⟩
  · rename_i hmost
    rw [if_neg Bool.false_ne_true]
    obtain ⟨v', hto, hlevel⟩ := zoomTo_level v env img
      (zoomLevels_range (levelAbove_mem (by omega : v.level < 10000))).1 inout
    rw [hto]
    exact ⟨v', rfl, hlevel⟩

theorem zoom_keeps_level {inout : Int} {test : Bool}
    (h : env.image = none ∨ inout ≤ 0 ∨ test = true) :
    Ends (v.level ≠ 0) ((v.zoom env inout test).map (·.2)) := by
  unfold zoom
  split
  · exact .of_level rfl rfl
  · rename_i img himage
    split
    · exact .of_level rfl rfl
    · split
      · rename_i hin
        have htest : test = true := by
          rcases h with h | h | h
          · rw [h] at himage
            cases himage
          · omega
          · exact h
        rw [if_pos htest]
        split
        · exact .of_level rfl rfl
        · exact .of_level rfl rfl
      · split
        · exact .of_level rfl rfl
        · rename_i hleast
          split
          · exact .of_level rfl rfl
          · split
            · exact .of_level rfl rfl
            · obtain ⟨v', hto, hlevel⟩ := zoomTo_level v env img
                (zoomLevels_range (levelBelow_mem (by omega : 1 < v.level))).1 inout
              rw [hto]
              exact ⟨v', rfl, iff_of_true hlevel (by omega)⟩

/-! ## The level of a paint -/

theorem tdiv_ne_zero_iff {a b : Int} (ha : 0 ≤ a) (hb : 1 ≤ b) : a.tdiv b ≠ 0 ↔ b ≤ a := by
  have hle : 1 ≤ a / b ↔ 1 * b ≤ a := Int.le_ediv_iff_mul_le (by omega)
  have hnn : 0 ≤ a / b := Int.ediv_nonneg ha (by omega)
  rw [Int.tdiv_eq_ediv_of_nonneg ha]
  omega

theorem fitAspect_spec (img : OpenImage B) (env : ViewEnv B) :
    ∃ level scale, fitAspect env.client img.dim = some (level, scale) ∧
      (level ≠ 0 ↔ fillsOnePercent env.client img.dim = true) := by
  have hcx := img.cx_pos
  have hcy := img.cy_pos
  have hwidth : 0 ≤ env.client.cx * 100 := by simp only [ViewEnv.client]; omega
  have hheight : 0 ≤ env.client.cy * 100 := by simp only [ViewEnv.client]; omega
  unfold fitAspect fillsOnePercent scaledAxis
  split
  · simp only [divInt_of_ne (by omega : img.dim.cy ≠ 0), if_neg (by omega : ¬ img.dim.cy = 0)]
    exact ⟨_, _, rfl, by rw [decide_eq_true_iff]; exact tdiv_ne_zero_iff hheight hcy⟩
  · simp only [divInt_of_ne (by omega : img.dim.cx ≠ 0), if_neg (by omega : ¬ img.dim.cx = 0)]
    exact ⟨_, _, rfl, by rw [decide_eq_true_iff]; exact tdiv_ne_zero_iff hwidth hcx⟩

/-- The level a mode chooses by itself. -/
theorem autoFit_spec (v : ImageView B) (env : ViewEnv B) (img : OpenImage B) :
    ∃ v', v.autoFit env.client img.dim = some v' ∧ v'.zoomlevel = v.zoomlevel ∧
      (v'.fitlevel ≠ 0 ↔ autoOnePercent v.zoomtype env.client img.dim = true) := by
  obtain ⟨level, scale, hfit, hlevel⟩ := fitAspect_spec img env
  have hcx := img.cx_pos
  have hcy := img.cy_pos
  have hwhole : ∃ v', (if env.client.cx ≥ img.dim.cx ∧ env.client.cy ≥ img.dim.cy then
        some (v.fitWhole 100 img.dim)
      else (fitAspect env.client img.dim).map fun p => v.fitWhole p.1 p.2) = some v' ∧
      v'.zoomlevel = v.zoomlevel ∧
      (v'.fitlevel ≠ 0 ↔ (decide (env.client.cx ≥ img.dim.cx) &&
        decide (env.client.cy ≥ img.dim.cy) || fillsOnePercent env.client img.dim) = true) := by
    split
    · rename_i hfits
      refine ⟨_, rfl, rfl, iff_of_true (by decide : (100 : Int) ≠ 0) ?_⟩
      simp [hfits.1, hfits.2]
    · rename_i hfits
      rw [hfit]
      refine ⟨_, rfl, rfl, hlevel.trans ?_⟩
      simp only [Bool.or_eq_true, Bool.and_eq_true, decide_eq_true_eq, hfits, false_or]
  unfold autoFit autoOnePercent
  cases v.zoomtype with
  | W2I => exact ⟨_, rfl, rfl, iff_of_true (by decide : (100 : Int) ≠ 0) rfl⟩
  | NOFIT => exact ⟨_, rfl, rfl, iff_of_true (by decide : (100 : Int) ≠ 0) rfl⟩
  | I2W =>
    simp only
    rw [if_neg (by omega), hfit]
    exact ⟨_, rfl, rfl, hlevel⟩
  | W2I_ZOOMOUT => exact hwhole
  | I2W_ZOOMOUT => exact hwhole

theorem cropView_level (size dim : Size) : (v.cropView size dim).level = v.level := by
  unfold cropView
  simp only
  split
  · rfl
  · rfl

theorem makeBitmap_level (img : OpenImage B) (oldCrop : Rect) :
    (v.makeBitmap env img oldCrop).level = v.level := by
  unfold makeBitmap
  simp only
  split
  · split
    · rfl
    · rfl
  · split
    · rfl
    · rfl

theorem recompute_level (v : ImageView B) (env : ViewEnv B) (img : OpenImage B) {v' : ImageView B}
    (h : (if v.zoomlevel = 0 then v.autoFit env.client img.dim else some v) = some v') :
    ∃ v'', v.recompute env img = some v'' ∧ v''.level = v'.level := by
  unfold recompute
  simp only [h, Option.map_some, Option.some.injEq, exists_eq_left', level_updateStatus,
    makeBitmap_level]
  split
  · exact cropView_level _ _
  · rfl

theorem drawView_level : (v.drawView env).level = v.level := by
  unfold drawView
  split
  · rfl
  · rfl

theorem onPaint_level (v : ImageView B) (env : ViewEnv B) :
    Ends (LevelAfter v env .paint) (v.onPaint env) := by
  unfold onPaint
  cases himage : env.image with
  | none => exact .keeps (by simp only [givesLevel, himage, Option.bind_none]) (.of_level rfl rfl)
  | some img =>
    simp only
    by_cases hstale : v.stale env = true
    · rw [if_pos hstale]
      by_cases hzero : v.zoomlevel = 0
      · -- the mode chooses the level
        obtain ⟨f, hfit, hzoom, hauto⟩ := autoFit_spec v env img
        obtain ⟨v', hre, hlevel⟩ := recompute_level v env img (by rw [if_pos hzero]; exact hfit)
        have hgives : v.givesLevel env .paint =
            some (autoOnePercent v.zoomtype env.client img.dim) := by
          simp only [givesLevel, himage, hzero, hstale, and_self, if_true, Option.bind_some]
        refine .gives hgives ⟨v'.drawView env, by rw [hre]; rfl, ?_⟩
        rw [drawView_level, hlevel, level_ne_zero_iff, hzoom, ← hauto]
        simp only [hzero, ne_eq, not_true_eq_false, false_or]
      · obtain ⟨v', hre, hlevel⟩ := recompute_level v env img (if_neg hzero)
        have hgives : v.givesLevel env .paint = none := by
          simp only [givesLevel, himage, hzero, false_and, if_false, Option.bind_some]
        exact .keeps hgives (.of_level (by rw [hre]; rfl) (drawView_level.trans hlevel))
    · have hgives : v.givesLevel env .paint = none := by
        simp only [givesLevel, himage, hstale, Bool.false_eq_true, and_false, if_false,
          Option.bind_some]
      rw [if_neg hstale]
      exact .keeps hgives (.of_level rfl drawView_level)

/-! ## Every message -/

theorem startZoomDrag_level (h : v.level ≠ 0) : Ends (v.level ≠ 0) (v.startZoomDrag env) := by
  unfold startZoomDrag
  simp only [divInt_of_ne h, Option.bind_eq_bind, Option.bind_some]
  exact .of_level rfl rfl

theorem startZoomDrag_none (h : v.level = 0) : v.startZoomDrag env = none := by
  unfold startZoomDrag
  simp only [h, divInt, if_true, Option.bind_eq_bind, Option.bind_none]

theorem onLButtonUp_level : v.onLButtonUp.level = v.level := by
  unfold onLButtonUp
  split
  · simp only
    split
    · rfl
    · rfl
  · rfl

theorem onRButtonUp_level : v.onRButtonUp.level = v.level := by
  unfold onRButtonUp
  split
  · rfl
  · rfl

theorem applyZoomDrag_level {img : OpenImage B} (himage : env.image = some img) (target : Int) :
    (v.applyZoomDrag env target).level ≠ 0 := by
  unfold applyZoomDrag
  rw [himage]
  simp only
  have hpos : 1 ≤ min (max target 1) 10000 := by omega
  split
  · omega
  · rw [level_ne_zero_iff]
    exact .inl (by simp only [adjustViewOffsetForZoom]; omega)

theorem onMouseMove_level (v : ImageView B) (env : ViewEnv B) (dragZoom : DragZoom) (pos : Point) :
    Ends (LevelAfter v env (.mouseMove pos)) (some (v.onMouseMove env dragZoom pos)) := by
  by_cases hmove : env.image.isSome ∧ v.isdragging = true ∧ v.dragType = .ZOOMDRAG
  · obtain ⟨himage, hdragging, hzoom⟩ := hmove
    obtain ⟨img, himage⟩ := Option.isSome_iff_exists.mp himage
    have hgives : v.givesLevel env (.mouseMove pos) = some true := by
      simp only [givesLevel, himage, hdragging, hzoom, Option.isSome_some, and_self, if_true]
    refine .gives hgives (.given rfl ?_)
    simp only [onMouseMove, hdragging, hzoom, if_true, level_redraw]
    exact applyZoomDrag_level himage _
  · refine .keeps (by simp only [givesLevel, hmove, if_false]) (.of_level rfl ?_)
    unfold onMouseMove
    split
    · rename_i hdragging
      simp only
      split
      · rename_i hzoom
        have himage : env.image = none := by
          cases himage : env.image with
          | none => rfl
          | some img => exact absurd ⟨by rw [himage]; rfl, hdragging, hzoom⟩ hmove
        simp only [applyZoomDrag, himage]
        rfl
      · rfl
    · rfl

theorem onFileOpened_level (v : ImageView B) (env : ViewEnv B) (cmdid : Int) :
    Ends (LevelAfter v env (.fileOpened cmdid)) (v.onFileOpened env cmdid) := by
  unfold onFileOpened
  cases himage : env.image with
  | none =>
    exact .keeps (by simp only [givesLevel, himage, Option.isSome_none, Bool.false_eq_true, if_false])
      (.of_level rfl rfl)
  | some img =>
    obtain ⟨v', hshow, hlevel⟩ := showZoomed_level _ env img _
    exact .gives (by simp only [givesLevel, himage, Option.isSome_some, if_true])
      (.reset hshow hlevel)

theorem setZoomMode_level (v : ImageView B) (env : ViewEnv B) (cmdId : Int) :
    Ends (LevelAfter v env (.setZoomMode cmdId)) (v.setZoomMode env cmdId) := by
  unfold setZoomMode
  cases hmode : zoomModeOf cmdId with
  | none =>
    exact .keeps (by simp only [givesLevel, hmode, Option.isSome_none, Bool.false_eq_true, if_false])
      (.of_level rfl rfl)
  | some zt =>
    have hgives : v.givesLevel env (.setZoomMode cmdId) = some false := by
      simp only [givesLevel, hmode, Option.isSome_some, if_true]
    refine .gives hgives ?_
    cases himage : env.image with
    | none => exact .reset rfl rfl
    | some img =>
      obtain ⟨v', hshow, hlevel⟩ := showZoomed_level _ env img _
      exact .reset hshow hlevel

theorem zoom_level {msg : ViewMsg} {inout : Int} {test : Bool}
    (hmsg : v.givesLevel env msg = zoomGives env inout test) :
    Ends (LevelAfter v env msg) ((v.zoom env inout test).map (·.2)) := by
  by_cases hin : env.image.isSome ∧ 0 < inout ∧ test = false
  · rw [zoomGives, if_pos hin] at hmsg
    obtain ⟨himage, hpos, rfl⟩ := hin
    obtain ⟨img, himage⟩ := Option.isSome_iff_exists.mp himage
    obtain ⟨v', hzoom, hlevel⟩ := zoom_in_level (v := v) himage hpos
    exact .gives hmsg (.given hzoom hlevel)
  · rw [zoomGives, if_neg hin] at hmsg
    refine .keeps hmsg (zoom_keeps_level ?_)
    cases himage : env.image with
    | none => exact .inl rfl
    | some img =>
      refine .inr ?_
      by_cases hpos : 0 < inout
      · exact .inr (Bool.not_eq_false _ ▸ fun h => hin ⟨by rw [himage]; rfl, hpos, h⟩)
      · exact .inl (by omega)

/-- **What a message does to the level.** A message that does not start a zoom drag without a level
is handled, and afterwards there is a level if the message gave one, or if there was one and it was
not taken away. -/
theorem handle_level (v : ImageView B) (env : ViewEnv B) (dragZoom : DragZoom) {msg : ViewMsg}
    (h : msg.startsZoomDrag = true → v.level ≠ 0) :
    Ends (LevelAfter v env msg) (v.handle env dragZoom msg) := by
  cases msg with
  | paint => exact onPaint_level v env
  | eraseBkgnd => exact .keeps rfl (.of_level rfl rfl)
  | size => exact .keeps rfl (.of_level rfl rfl)
  | keyDown key shift ctrl alt =>
    simp only [handle]
    cases hkey : keyAction key shift ctrl alt with
    | navigate cmd => exact .keeps (by simp only [givesLevel, hkey]) (.of_level rfl rfl)
    | exit => exact .keeps (by simp only [givesLevel, hkey]) (.of_level rfl rfl)
    | zoom inout => exact zoom_level (by simp only [givesLevel, hkey])
    | pass => exact .keeps (by simp only [givesLevel, hkey]) (.of_level rfl rfl)
  | mouseWheel delta => exact .keeps rfl (.of_level rfl rfl)
  | lButtonDown pos ctrl =>
    cases ctrl with
    | true => exact .keeps rfl (startZoomDrag_level (v := v.startDrag pos) (h rfl))
    | false => exact .keeps rfl (.of_level rfl rfl)
  | lButtonUp => exact .keeps rfl (.of_level rfl onLButtonUp_level)
  | rButtonDown pos => exact .keeps rfl (startZoomDrag_level (v := v.startDrag pos) (h rfl))
  | rButtonUp => exact .keeps rfl (.of_level rfl onRButtonUp_level)
  | mouseMove pos => exact onMouseMove_level v env dragZoom pos
  | setFocus => exact .keeps rfl (.of_level rfl rfl)
  | other => exact .keeps rfl (.of_level rfl rfl)
  | fileOpened cmdid => exact onFileOpened_level v env cmdid
  | frameUpdate => exact .keeps rfl (.of_level rfl level_updateStatus)
  | updateStatus => exact .keeps rfl (.of_level rfl level_updateStatus)
  | zoom inout test => exact zoom_level rfl
  | setZoomMode cmdId => exact setZoomMode_level v env cmdId

theorem handle_none (v : ImageView B) (env : ViewEnv B) (dragZoom : DragZoom) {msg : ViewMsg}
    (hmsg : msg.startsZoomDrag = true) (h : v.level = 0) : v.handle env dragZoom msg = none := by
  cases msg with
  | rButtonDown pos => exact startZoomDrag_none (v := v.startDrag pos) h
  | lButtonDown pos ctrl =>
    obtain rfl : ctrl = true := hmsg
    exact startZoomDrag_none (v := v.startDrag pos) h
  | _ => cases hmsg

/-! ## Runs -/

theorem run_cons (dragZoom : DragZoom) (v : ImageView B) (msg : ViewMsg) (env : ViewEnv B)
    (msgs : ViewRun B) :
    v.run dragZoom ((msg, env) :: msgs) = (v.handle env dragZoom msg).bind (·.run dragZoom msgs) := by
  simp only [run, Lib.Machine.execAll, Lib.Machine.always]
  cases v.handle env dragZoom msg with
  | none => rfl
  | some v' => rfl

theorem levelAfter_iff {given : Bool} (h : v.level ≠ 0 ↔ given = true) (msg : ViewMsg) :
    LevelAfter v env msg ↔ (v.givesLevel env msg).getD given = true := by
  unfold LevelAfter
  split
  · rename_i hgives
    rw [hgives, Option.getD_some]
  · rename_i hgives
    rw [hgives, Option.getD_none, h]

theorem run_isSome_iff (dragZoom : DragZoom) (msgs : ViewRun B) :
    ∀ {v : ImageView B} {given : Bool}, (v.level ≠ 0 ↔ given = true) →
      ((v.run dragZoom msgs).isSome ↔ LevelledDrags dragZoom v given msgs) := by
  induction msgs with
  | nil =>
    intro v given _
    exact iff_of_true rfl trivial
  | cons m msgs ih =>
    intro v given hgiven
    obtain ⟨msg, env⟩ := m
    rw [run_cons, LevelledDrags, ← hgiven]
    by_cases hdrag : msg.startsZoomDrag = true → v.level ≠ 0
    · obtain ⟨v', hhandle, hlevel⟩ := handle_level v env dragZoom hdrag
      have hnext := ih (hlevel.trans (levelAfter_iff hgiven msg))
      simp only [hhandle, Option.bind_some, Option.some.injEq, forall_eq', hnext]
      exact (and_iff_right hdrag).symm
    · obtain ⟨hmsg, hzero⟩ := Classical.not_imp.mp hdrag
      rw [handle_none v env dragZoom hmsg (Decidable.not_not.mp hzero)]
      exact iff_of_false Bool.false_ne_true fun h => hdrag h.1

/-- **The divisors of the image view.** For every sequence of messages from the initial state, with
any images and client sizes, every divisor evaluated is other than zero exactly when every zoom drag
in it starts with a level given. -/
theorem view_divides_by_nonzero (dragZoom : DragZoom) (msgs : ViewRun B) :
    (({} : ImageView B).run dragZoom msgs).isSome ↔
      LevelledDrags dragZoom ({} : ImageView B) false msgs :=
  run_isSome_iff dragZoom msgs (iff_of_false (fun h => h rfl) Bool.false_ne_true)

end ImageView

/-- A client area with an image or none, in a window that stays as it is. -/
def plainEnv (image : Option (OpenImage Unit)) (width height : Nat) : ViewEnv Unit where
  image := image
  width := width
  height := height
  window := none
  mouseOn _ := ⟨-1, -1⟩
  timecost := 0

def tallImage : OpenImage Unit where
  dim := ⟨10, 2000⟩
  getBBitmap _ _ := some ()
  cx_pos := by decide
  cy_pos := by decide

/-- **Zero divisors.** The right button goes down before a file is open; after one was opened and
before it is painted; and on a tall image that a low client area shows at less than 1%. In a client
area that shows it at 25% the drag starts. -/
theorem zoom_drag_divides_by_zero :
    let press : ViewMsg := .rButtonDown ⟨5, 5⟩
    let low := plainEnv (some tallImage) 100 10
    let high := plainEnv (some tallImage) 100 500
    let run (msgs : ViewRun Unit) := ({} : ImageView Unit).run (fun start _ => start) msgs
    (run [(press, plainEnv none 100 100)]).isSome = false ∧
      (run [(.fileOpened (-1), high), (press, high)]).isSome = false ∧
      (run [(.fileOpened (-1), low), (.paint, low), (press, low)]).isSome = false ∧
      (run [(.fileOpened (-1), high), (.paint, high), (press, high)]).isSome = true := by
  decide

end ObZrv
