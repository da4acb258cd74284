import ObZrv.Lib.Machine
import ObZrv.View.Window

/-!
# View.MainView

`MainView` of `MainView.cpp`: the file list, the splitter and the image view side by side, and the
mouse on the splitter. Windows keeps the capture and the places of the two children; it may take the
capture away at any time, which the code does not notice.

* `laid_step`, `reach_laid` : the children stand where the state says.
* `bounded_step`            : how far the splitter can be dragged.
* `splitter_keeps_layout`   : both of them over whole runs, and what a drag depends on.
-/

namespace ObZrv

open Lib

/-- `Dpi::Scale` at a resolution. -/
def scaleDpi (dpi px : Int) : Int := (px * dpi + 48).tdiv 96

/-- The file list panel, as Windows has it. -/
structure PanelWnd where
  visible : Bool
  rect : Rect
deriving DecidableEq, Repr

structure MainView where
  dpi : Int
  client : Size
  showFileList : Bool := true
  splitX : Int
  dragging : Bool := false
  dragStartX : Int := 0
  dragStartSplitX : Int := 0
  splitHover : Bool := false
  trackingLeave : Bool := false
  captured : Bool := false
  fileList : PanelWnd
  imageView : Rect
deriving DecidableEq, Repr

namespace MainView

variable (v : MainView)

def splitW : Int := scaleDpi v.dpi 6
def splitMin : Int := scaleDpi v.dpi 80
def splitMax : Int := scaleDpi v.dpi 600

/-- Where the image view begins. -/
def contentX : Int := if v.showFileList then v.splitX + v.splitW else 0

def updateLayout : MainView :=
  let w := v.client.cx
  let h := v.client.cy
  let contentW := if w - v.contentX < 0 then 0 else w - v.contentX
  { v with
    fileList := if v.showFileList then { v.fileList with rect := ⟨0, 0, v.splitX, h⟩ } else v.fileList
    imageView := ⟨v.contentX, 0, v.contentX + contentW, h⟩ }

/-- `Create`; the window has no size yet. -/
def create (dpi : Int) : MainView where
  dpi
  client := ⟨0, 0⟩
  splitX := scaleDpi dpi 150
  fileList := ⟨true, ⟨0, 0, 0, 0⟩⟩
  imageView := ⟨0, 0, 0, 0⟩

/-- `WM_SIZE`, and the part of `Layout` that it leads to. -/
def onSize (client : Size) : MainView := { v with client }.updateLayout

def setShowFileList (shown : Bool) : MainView :=
  { v with showFileList := shown, fileList := { v.fileList with visible := shown } }.updateLayout

def isOnSplitter (x : Int) : Bool := v.showFileList && v.splitX ≤ x && x < v.splitX + v.splitW

def onLButtonDown (x : Int) : MainView :=
  if v.isOnSplitter x then
    { v with dragging := true, dragStartX := x, dragStartSplitX := v.splitX, captured := true }
  else v

/-- Where a drag to `x` puts the splitter. -/
def dragTarget (x : Int) : Int :=
  let newSplit := v.dragStartSplitX + (x - v.dragStartX)
  let maxSplit := if v.showFileList then v.client.cx - v.splitW - 50 else v.splitMax
  let maxSplit := if maxSplit > v.splitMax then v.splitMax else maxSplit
  let newSplit := if newSplit < v.splitMin then v.splitMin else newSplit
  if newSplit > maxSplit then maxSplit else newSplit

def onMouseMove (x : Int) : MainView :=
  let v := { v with splitHover := v.isOnSplitter x, trackingLeave := true }
  if ¬ v.dragging then v
  else if v.dragTarget x ≠ v.splitX then { v with splitX := v.dragTarget x }.updateLayout
  else v

def onMouseLeave : MainView := { v with trackingLeave := false, splitHover := false }

/-- The button comes up with the cursor at `pt`. -/
def onLButtonUp (pt : Point) : MainView :=
  if ¬ v.dragging then v
  else
    let inside := 0 ≤ pt.x ∧ pt.x < v.client.cx ∧ 0 ≤ pt.y ∧ pt.y < v.client.cy
    { v with
      dragging := false
      captured := false
      splitHover := v.isOnSplitter pt.x
      trackingLeave := v.trackingLeave || decide inside }

inductive Msg where
  | size (client : Size)
  | showFileList (shown : Bool)
  | lButtonDown (x : Int)
  | mouseMove (x : Int)
  | mouseLeave
  | lButtonUp (pt : Point)
  | captureLost
deriving DecidableEq, Repr

def handle : Msg → MainView
  | .size client => v.onSize client
  | .showFileList shown => v.setShowFileList shown
  | .lButtonDown x => v.onLButtonDown x
  | .mouseMove x => v.onMouseMove x
  | .mouseLeave => v.onMouseLeave
  | .lButtonUp pt => v.onLButtonUp pt
  | .captureLost => { v with captured := false }

/-- The main view at a fixed resolution, from `Create` and the first `WM_SIZE` on. -/
def machine (dpi : Int) : Machine MainView Msg where
  init v := ∃ client, v = (create dpi).onSize client
  step v m v' := v' = v.handle m

/-! ## The layout -/

/-- The children stand where the state says. -/
structure Laid : Prop where
  visible : v.fileList.visible = v.showFileList
  list : v.showFileList = true → v.fileList.rect = ⟨0, 0, v.splitX, v.client.cy⟩
  image : v.imageView = ⟨v.contentX, 0, max v.client.cx v.contentX, v.client.cy⟩
  captured : v.captured = true → v.dragging = true

variable {v}

theorem laid_updateLayout (hvis : v.fileList.visible = v.showFileList)
    (hcap : v.captured = true → v.dragging = true) : v.updateLayout.Laid := by
  refine ⟨?_, ?_, ?_, hcap⟩
  · unfold updateLayout
    cases hs : v.showFileList with
    | false => simpa [hs] using hvis
    | true => simpa [hs] using hvis
  · intro hs
    have hs : v.showFileList = true := hs
    simp [updateLayout, hs]
  · have hmax : v.contentX + (if v.client.cx - v.contentX < 0 then 0 else v.client.cx - v.contentX) =
        max v.client.cx v.contentX := by
      split <;> omega
    have hcont : v.updateLayout.contentX = v.contentX := rfl
    rw [hcont, updateLayout]
    simp only [hmax]

/-- A handler that moves nothing. -/
theorem Laid.keep (h : v.Laid) {v' : MainView} (hl : v'.fileList = v.fileList)
    (hi : v'.imageView = v.imageView) (hc : v'.client = v.client) (hx : v'.splitX = v.splitX)
    (hs : v'.showFileList = v.showFileList) (hd : v'.dpi = v.dpi)
    (hcap : v'.captured = true → v'.dragging = true) : v'.Laid := by
  have hcont : v'.contentX = v.contentX := by
    simp only [contentX, splitW, hx, hs, hd]
  refine ⟨?_, ?_, ?_, hcap⟩
  · rw [hl, hs]
    exact h.visible
  · intro hshow
    rw [hl, hx, hc]
    exact h.list (by rwa [hs] at hshow)
  · rw [hi, hc, hcont]
    exact h.image

theorem laid_onMouseMove (h : v.Laid) (x : Int) : (v.onMouseMove x).Laid := by
  unfold onMouseMove
  simp only
  split
  · exact h.keep rfl rfl rfl rfl rfl rfl h.captured
  split
  · exact laid_updateLayout h.visible h.captured
  · exact h.keep rfl rfl rfl rfl rfl rfl h.captured

theorem laid_onLButtonUp (h : v.Laid) (pt : Point) : (v.onLButtonUp pt).Laid := by
  unfold onLButtonUp
  split
  · exact h
  · exact h.keep rfl rfl rfl rfl rfl rfl (fun hc => by cases hc)

theorem laid_step (h : v.Laid) (m : Msg) : (v.handle m).Laid := by
  cases m with
  | size client => exact laid_updateLayout h.visible h.captured
  | showFileList shown => exact laid_updateLayout rfl h.captured
  | lButtonDown x =>
    simp only [handle, onLButtonDown]
    split
    · exact h.keep rfl rfl rfl rfl rfl rfl fun _ => rfl
    · exact h
  | mouseMove x => exact laid_onMouseMove h x
  | mouseLeave => exact h.keep rfl rfl rfl rfl rfl rfl h.captured
  | lButtonUp pt => exact laid_onLButtonUp h pt
  | captureLost => exact h.keep rfl rfl rfl rfl rfl rfl fun hc => by cases hc

/-! ## The range of the splitter -/

theorem scaleDpi_mono {dpi a b : Int} (hd : 0 < dpi) (ha : 0 ≤ a) (hab : a ≤ b) :
    scaleDpi dpi a ≤ scaleDpi dpi b := by
  have hle : a * dpi ≤ b * dpi := Int.mul_le_mul_of_nonneg_right hab (Int.le_of_lt hd)
  have hpos : 0 ≤ a * dpi := Int.mul_nonneg ha (Int.le_of_lt hd)
  unfold scaleDpi
  rw [Int.tdiv_eq_ediv_of_nonneg (by omega), Int.tdiv_eq_ediv_of_nonneg (by omega)]
  omega

/-- The splitter is within its bounds. -/
structure Bounded (v : MainView) : Prop where
  min_le : v.splitMin ≤ v.splitX
  le_max : v.splitX ≤ v.splitMax

/-- The window is wide enough for the smallest list when a drag moves. -/
def Wide (v : MainView) : Msg → Prop
  | .mouseMove _ => v.dragging = true → v.splitMin + v.splitW + 50 ≤ v.client.cx
  | _ => True

instance (v : MainView) : (m : Msg) → Decidable (Wide v m)
  | .mouseMove _ => inferInstanceAs (Decidable (_ → _))
  | .size _ | .showFileList _ | .lButtonDown _ | .mouseLeave | .lButtonUp _ | .captureLost =>
    .isTrue trivial

theorem dragTarget_bounds (hd : 0 < v.dpi) (hw : v.splitMin + v.splitW + 50 ≤ v.client.cx)
    (x : Int) : v.splitMin ≤ v.dragTarget x ∧ v.dragTarget x ≤ v.splitMax := by
  have hle : v.splitMin ≤ v.splitMax := scaleDpi_mono hd (by omega) (by omega)
  unfold dragTarget
  simp only
  split <;> split <;> split <;> split <;> omega

theorem handle_dpi (v : MainView) (m : Msg) : (v.handle m).dpi = v.dpi := by
  cases m with
  | size client => rfl
  | showFileList shown => rfl
  | lButtonDown x =>
    simp only [handle, onLButtonDown]
    split <;> rfl
  | mouseMove x =>
    simp only [handle, onMouseMove]
    split
    · rfl
    split <;> rfl
  | mouseLeave => rfl
  | lButtonUp pt =>
    simp only [handle, onLButtonUp]
    split <;> rfl
  | captureLost => rfl

/-- Only a drag moves the splitter. -/
theorem handle_splitX (v : MainView) (m : Msg) : (v.handle m).splitX = v.splitX ∨
    ∃ x, m = .mouseMove x ∧ v.dragging = true ∧ (v.handle m).splitX = v.dragTarget x := by
  cases m with
  | size client => exact .inl rfl
  | showFileList shown => exact .inl rfl
  | lButtonDown x =>
    refine .inl ?_
    simp only [handle, onLButtonDown]
    split <;> rfl
  | mouseMove x =>
    simp only [handle, onMouseMove]
    split
    · exact .inl rfl
    · rename_i hdrag
      split
      · exact .inr ⟨x, rfl, by simpa using hdrag, rfl⟩
      · exact .inl rfl
  | mouseLeave => exact .inl rfl
  | lButtonUp pt =>
    refine .inl ?_
    simp only [handle, onLButtonUp]
    split <;> rfl
  | captureLost => exact .inl rfl

theorem bounded_step (hd : 0 < v.dpi) (h : v.Bounded) {m : Msg} (hw : Wide v m) :
    (v.handle m).Bounded := by
  have hmin : (v.handle m).splitMin = v.splitMin := by rw [splitMin, handle_dpi]; rfl
  have hmax : (v.handle m).splitMax = v.splitMax := by rw [splitMax, handle_dpi]; rfl
  rcases handle_splitX v m with hx | ⟨x, rfl, hdrag, hx⟩
  · exact ⟨by rw [hmin, hx]; exact h.min_le, by rw [hmax, hx]; exact h.le_max⟩
  · obtain ⟨hlo, hhi⟩ := dragTarget_bounds hd (hw hdrag) x
    exact ⟨by rw [hmin, hx]; exact hlo, by rw [hmax, hx]; exact hhi⟩

/-! ## Runs -/

theorem reach_laid {dpi : Int} {ok : MainView → Msg → Prop} (h : (machine dpi).Reach ok v) :
    v.Laid ∧ v.dpi = dpi := by
  refine h.holds (P := fun v => v.Laid ∧ v.dpi = dpi) ?_ ?_
  · rintro v ⟨client, rfl⟩
    exact ⟨laid_updateLayout rfl (fun hc => by cases hc), rfl⟩
  · rintro v m v' ⟨h, hdpi⟩ - rfl
    exact ⟨laid_step h m, by rw [handle_dpi, hdpi]⟩

theorem reach_bounded {dpi : Int} (hd : 0 < dpi) (h : (machine dpi).Reach Wide v) :
    v.Bounded := by
  have hboth : v.Bounded ∧ v.dpi = dpi := by
    refine h.holds (P := fun v => v.Bounded ∧ v.dpi = dpi) ?_ ?_
    · rintro v ⟨client, rfl⟩
      refine ⟨⟨?_, ?_⟩, rfl⟩
      · exact scaleDpi_mono hd (by omega) (by omega)
      · exact scaleDpi_mono hd (by omega) (by omega)
    · rintro v m v' ⟨h, hdpi⟩ hok rfl
      exact ⟨bounded_step (by rw [hdpi]; exact hd) h hok, by rw [handle_dpi, hdpi]⟩
  exact hboth.1

/-- The moves of the mouse one after the other. -/
def moves (xs : List Int) (v : MainView) : MainView := xs.foldl onMouseMove v

/-- What a drag reads. -/
structure SameDrag (v v' : MainView) : Prop where
  dpi : v'.dpi = v.dpi
  client : v'.client = v.client
  showFileList : v'.showFileList = v.showFileList
  dragging : v'.dragging = v.dragging
  dragStartX : v'.dragStartX = v.dragStartX
  dragStartSplitX : v'.dragStartSplitX = v.dragStartSplitX

theorem sameDrag_onMouseMove (v : MainView) (x : Int) : SameDrag v (v.onMouseMove x) := by
  unfold onMouseMove
  simp only
  split
  · exact ⟨rfl, rfl, rfl, rfl, rfl, rfl⟩
  split <;> exact ⟨rfl, rfl, rfl, rfl, rfl, rfl⟩

theorem sameDrag_moves (xs : List Int) (v : MainView) : SameDrag v (v.moves xs) := by
  induction xs generalizing v with
  | nil => exact ⟨rfl, rfl, rfl, rfl, rfl, rfl⟩
  | cons x xs ih =>
    obtain ⟨h₁, h₂, h₃, h₄, h₅, h₆⟩ := sameDrag_onMouseMove v x
    obtain ⟨k₁, k₂, k₃, k₄, k₅, k₆⟩ := ih (v.onMouseMove x)
    exact ⟨k₁.trans h₁, k₂.trans h₂, k₃.trans h₃, k₄.trans h₄, k₅.trans h₅, k₆.trans h₆⟩

theorem SameDrag.dragTarget {v v' : MainView} (h : SameDrag v v') (x : Int) :
    v'.dragTarget x = v.dragTarget x := by
  unfold MainView.dragTarget splitW splitMin splitMax
  rw [h.dpi, h.client, h.showFileList, h.dragStartX, h.dragStartSplitX]

theorem onMouseMove_splitX (hdrag : v.dragging = true) (x : Int) :
    (v.onMouseMove x).splitX = v.dragTarget x := by
  unfold onMouseMove
  simp only [hdrag, not_true_eq_false, if_false]
  split
  · rfl
  · rename_i h
    exact (not_not.mp h).symm

/-- **The splitter and the layout.** In every run of the main view the two children stand where the
state puts them: the list from the left edge to the splitter, the image view from behind the
splitter to the right edge; the capture is held only in a drag. As long as the window is wide enough
whenever a drag moves, the splitter stays between its two bounds. Where a drag puts it depends on
where the cursor is, not on how it got there. -/
theorem splitter_keeps_layout {dpi : Int} (hd : 0 < dpi) :
    (∀ v, (machine dpi).Reach Machine.always v → v.Laid) ∧
      (∀ v, (machine dpi).Reach Wide v →
        scaleDpi dpi 80 ≤ v.splitX ∧ v.splitX ≤ scaleDpi dpi 600) ∧
      ∀ v, (machine dpi).Reach Machine.always v → v.dragging = true → ∀ xs x,
        ((v.moves xs).onMouseMove x).splitX = (v.onMouseMove x).splitX ∧
          ((v.moves xs).onMouseMove x).imageView = (v.onMouseMove x).imageView := by
  refine ⟨fun v h => (reach_laid h).1, fun v h => ?_, fun v h hdrag xs x => ?_⟩
  · have hb := reach_bounded hd h
    have hdpi := (reach_laid h).2
    have hmin := hb.min_le
    have hmax := hb.le_max
    rw [splitMin, hdpi] at hmin
    rw [splitMax, hdpi] at hmax
    exact ⟨hmin, hmax⟩
  · have hsame := sameDrag_moves xs v
    have hdrag' : (v.moves xs).dragging = true := by rw [hsame.dragging, hdrag]
    have hx : ((v.moves xs).onMouseMove x).splitX = (v.onMouseMove x).splitX := by
      rw [onMouseMove_splitX hdrag', onMouseMove_splitX hdrag, hsame.dragTarget]
    have hlaid : ∀ (xs : List Int) (v : MainView), v.Laid → (v.moves xs).Laid := by
      intro xs
      induction xs with
      | nil => exact fun _ h => h
      | cons y ys ih => exact fun v h => ih _ (laid_onMouseMove h y)
    refine ⟨hx, ?_⟩
    have h₁ := laid_onMouseMove (hlaid xs v (reach_laid h).1) x
    have h₂ := laid_onMouseMove (reach_laid h).1 x
    have hs₁ := sameDrag_onMouseMove (v.moves xs) x
    have hs₂ := sameDrag_onMouseMove v x
    rw [h₁.image, h₂.image]
    have hcont : ((v.moves xs).onMouseMove x).contentX = (v.onMouseMove x).contentX := by
      simp only [contentX, splitW, hx, hs₁.showFileList, hs₂.showFileList, hs₁.dpi, hs₂.dpi,
        hsame.showFileList, hsame.dpi]
    rw [hcont, hs₁.client, hs₂.client, hsame.client]

/-- The splitter of a view 800 wide is dragged to the left edge and back. -/
theorem splitter_keeps_layout_back :
    let v := ((create 96).onSize ⟨800, 600⟩).onLButtonDown 152
    (v.moves [-100, 20, 4000]).onMouseMove 252 = { (v.onMouseMove 252) with splitX := 250 } ∧
      ((v.moves [-100, 20, 4000]).onMouseMove 252).splitX = (v.onMouseMove 252).splitX := by
  have hinit : (machine 96).init ((create 96).onSize ⟨800, 600⟩) := ⟨⟨800, 600⟩, rfl⟩
  have hreach : (machine 96).Reach Machine.always
      (((create 96).onSize ⟨800, 600⟩).onLButtonDown 152) :=
    (Machine.Reach.of_init hinit).step (l := .lButtonDown 152) trivial rfl
  have h := (splitter_keeps_layout (by decide : (0 : Int) < 96)).2.2 _ hreach rfl [-100, 20, 4000] 252
  exact ⟨by decide, h.1⟩

end MainView
end ObZrv
