import ObZrv.Doc.SlideRounds
import ObZrv.View.MainView

/-!
# Doc.FullScreen

The frame window of `MainWnd.cpp` around its slide show: full screen and back, the bands and the
main view, the file list command and the exit. What Windows keeps of the frame window is a `TopWnd`;
the sizes that come in on the way from one look to the other are overwritten by the last `OnSize`
and left out.

* `startSlideShow_main`, `handle_main` : the show of the frame is the show of `Doc.SlideShow`.
* `framed_step`                        : what a message keeps.
* `slideShow_leaves_window`            : out of full screen the window is as the user left it.
-/

namespace ObZrv

open Lib

/-- What Windows keeps of the frame window. `P` is a `WINDOWPLACEMENT`. -/
structure TopWnd (P : Type) where
  style : BitVec 32
  exStyle : BitVec 32
  placement : P
  menu : Bool := true
  toolbar : Bool := true
  statusBar : Bool := true

def WS_OVERLAPPEDWINDOW : BitVec 32 := 0x00CF0000

/-- What the frame asks Windows, and the heights of its bands. -/
structure FrameEnv (W F I P : Type) extends SlideEnv W F I where
  clientSize : TopWnd P → Size
  /-- The placement of a window put on its whole monitor. -/
  cover : TopWnd P → P
  bandHeight : Int
  statusHeight : Int

inductive StartMode where
  | START_CANCEL
  | START_FULLSCREEN
  | START_WINDOWED
deriving DecidableEq, Repr

structure Frame (W I P : Type) where
  main : MainWnd W I
  top : TopWnd P
  view : MainView
  /-- Where the main view is in the client area. -/
  viewRect : Rect
  fileListVisible : Bool := true
  menuChecked : Bool := true
  viewZoomMode : Int
  fullscreen : Bool := false
  savedPlacement : Option P := none
  savedStyle : BitVec 32 := 0
  savedExStyle : BitVec 32 := 0
  savedToolbarVisible : Bool := true
  savedStatusBarVisible : Bool := true
  savedFileListVisible : Bool := true
  /-- The placement written to the INI file on exit. -/
  written : Option P := none

namespace Frame

variable {W F I P : Type} (env : FrameEnv W F I P) (f : Frame W I P)

/-- Where `OnSize` puts the main view. -/
def viewPlace (fullscreen : Bool) (client : Size) : Rect :=
  if fullscreen then ⟨0, 0, client.cx, client.cy⟩
  else
    let viewH := client.cy - env.bandHeight - env.statusHeight
    let viewH := if viewH < 0 then 0 else viewH
    ⟨0, env.bandHeight, client.cx, env.bandHeight + viewH⟩

/-- `OnSize` with the client area as it is. -/
def onSize : Frame W I P :=
  let place := viewPlace env f.fullscreen (env.clientSize f.top)
  { f with viewRect := place, view := f.view.onSize ⟨place.width, place.height⟩ }

def enterSlideShowFullscreen : Frame W I P :=
  if f.fullscreen then f
  else
    onSize env { f with
      savedPlacement := some f.top.placement
      savedStyle := f.top.style
      savedExStyle := f.top.exStyle
      savedToolbarVisible := f.top.toolbar
      savedStatusBarVisible := f.top.statusBar
      savedFileListVisible := f.fileListVisible
      view := f.view.setShowFileList false
      top :=
        { style := f.top.style &&& ~~~WS_OVERLAPPEDWINDOW
          exStyle := f.top.exStyle
          placement := env.cover f.top
          menu := false
          toolbar := false
          statusBar := false }
      fullscreen := true }

def leaveSlideShowFullscreen : Frame W I P :=
  if ¬ f.fullscreen then f
  else
    onSize env { f with
      top :=
        { style := f.savedStyle
          exStyle := f.savedExStyle
          placement := f.savedPlacement.getD f.top.placement
          menu := true
          toolbar := f.savedToolbarVisible
          statusBar := f.savedStatusBarVisible }
      view := f.view.setShowFileList f.savedFileListVisible
      fullscreen := false }

def stopSlideShow : Frame W I P :=
  let f := f.leaveSlideShowFullscreen env
  onSize env { f with main := f.main.stopSlideShow }

/-- Where the rounds are over the step stops the show. -/
def stepSlideShowIndex : Bool × Frame W I P :=
  match f.main.stepSlideShowIndex env.toSlideEnv with
  | (true, main) => (true, { f with main })
  | (false, main) => (false, stopSlideShow env { f with main })

def advanceLoop : Nat → Frame W I P → Frame W I P
  | 0, f => f.stopSlideShow env
  | attempts + 1, f =>
    match f.stepSlideShowIndex env with
    | (false, f) => f
    | (true, f) =>
      match f.main.openSlideShowCurrent env.toSlideEnv with
      | (true, main) => { f with main := main.resetSlideShowTimer }
      | (false, main) => advanceLoop attempts { f with main }

def advanceSlideShow : Frame W I P :=
  if ¬ f.main.slideShow.active ∨ f.main.slideShow.files = [] then f
  else advanceLoop env f.main.slideShow.files.length f

def startSlideShow (options : SlideShowOptions) (start : StartMode) (zoomMode : Int) :
    Frame W I P :=
  let f := f.stopSlideShow env
  let f := { f with main := f.main.prepareSlideShow env.toSlideEnv options }
  if f.main.slideShow.files = [] then f
  else
    let f := { f with viewZoomMode := zoomMode }
    let f := if start = .START_FULLSCREEN then f.enterSlideShowFullscreen env else f
    match f.main.openSlideShowCurrent env.toSlideEnv with
    | (true, main) => { f with main := main.resetSlideShowTimer }
    | (false, main) => advanceSlideShow env { f with main }

/-- `WM_TIMER` of the slide show. -/
def onTimer : Frame W I P :=
  if f.main.slideShow.timer.isSome then f.advanceSlideShow env else f

/-- `ID_VIEW_FILELIST`. -/
def viewFileList : Frame W I P :=
  let shown := !f.fileListVisible
  { f with fileListVisible := shown, menuChecked := shown, view := f.view.setShowFileList shown }

def onDestroy : Frame W I P :=
  let f := f.stopSlideShow env
  { f with written := some f.top.placement }

inductive Event (W I P : Type) where
  | start (o : SlideShowOptions) (start : StartMode) (zoomMode : Int)
  | tick
  | stop
  | resetTimer
  | exit
  | destroy
  | viewFileList
  | zoomMode (id : Int)
  /-- The user moves, sizes, maximizes or restores the window. -/
  | place (style exStyle : BitVec 32) (placement : P)
  | mouse (m : MainView.Msg)
  | document (sys : Sys W I)

/-- The messages of the mouse. -/
def isMouse : MainView.Msg → Bool
  | .size _ | .showFileList _ => false
  | .lButtonDown _ | .mouseMove _ | .mouseLeave | .lButtonUp _ | .captureLost => true

/-- One message; `none` where it cannot come. The file list command comes from the menu or the
toolbar, and nothing comes after the window is destroyed. -/
def exec (f : Frame W I P) (e : Event W I P) : Option (Frame W I P) :=
  if f.written.isSome then none
  else
    match e with
    | .start o start zoomMode => some (f.startSlideShow env o start zoomMode)
    | .tick => some (f.onTimer env)
    | .stop => some (f.stopSlideShow env)
    | .resetTimer => some { f with main := f.main.onResetTimer }
    | .exit =>
      if f.main.slideShow.active ∨ f.fullscreen then some (f.stopSlideShow env)
      else some (f.onDestroy env)
    | .destroy => some (f.onDestroy env)
    | .viewFileList => if f.top.menu ∨ f.top.toolbar then some f.viewFileList else none
    | .zoomMode id => some { f with viewZoomMode := id }
    | .place style exStyle placement =>
      some (onSize env { f with top := { f.top with style, exStyle, placement } })
    | .mouse m => if isMouse m then some { f with view := f.view.handle m } else none
    | .document sys => some { f with main := { f.main with sys } }

/-! ## The show of the frame -/

/-- What a message is to the show alone. -/
def Event.toShow : Event W I P → Option (ShowEvent W I)
  | .start o _ _ => some (.start o)
  | .tick => some .tick
  | .stop | .exit | .destroy => some .stop
  | .resetTimer => some .resetTimer
  | .document sys => some (.other sys)
  | .viewFileList | .zoomMode _ | .place _ _ _ | .mouse _ => none

variable {env} {f}

@[simp] theorem onSize_main (f : Frame W I P) : (f.onSize env).main = f.main := rfl

@[simp] theorem enter_main (f : Frame W I P) : (f.enterSlideShowFullscreen env).main = f.main := by
  unfold enterSlideShowFullscreen
  split <;> rfl

@[simp] theorem leave_main (f : Frame W I P) : (f.leaveSlideShowFullscreen env).main = f.main := by
  unfold leaveSlideShowFullscreen
  split <;> rfl

theorem stopSlideShow_main (f : Frame W I P) :
    (f.stopSlideShow env).main = f.main.stopSlideShow := by
  simp only [stopSlideShow, onSize_main, leave_main]

/-- A show that has stopped is not changed by stopping it. -/
theorem stopSlideShow_of_stopped {m : MainWnd W I} (h : MainWnd.Stopped m) :
    m.stopSlideShow = m := by
  obtain ⟨sys, ⟨active, timer, options, files, index, round⟩, opened⟩ := m
  obtain ⟨rfl, rfl, rfl⟩ := h
  rfl

theorem stepSlideShowIndex_main (f : Frame W I P) :
    ((f.stepSlideShowIndex env).1, (f.stepSlideShowIndex env).2.main) =
      f.main.stepSlideShowIndex env.toSlideEnv := by
  unfold stepSlideShowIndex
  cases hstep : f.main.stepSlideShowIndex env.toSlideEnv with
  | mk go main =>
    cases go with
    | true => rfl
    | false =>
      have hstop := MainWnd.stepSlideShowIndex_stopped hstep
      simp only [stopSlideShow_main, stopSlideShow_of_stopped hstop]

theorem advanceLoop_main (attempts : Nat) (f : Frame W I P) :
    (advanceLoop env attempts f).main = MainWnd.advanceLoop env.toSlideEnv attempts f.main := by
  induction attempts generalizing f with
  | zero => exact stopSlideShow_main f
  | succ attempts ih =>
    have hmain : ((f.stepSlideShowIndex env).1, (f.stepSlideShowIndex env).2.main) =
        f.main.stepSlideShowIndex env.toSlideEnv := stepSlideShowIndex_main f
    cases hstep : f.stepSlideShowIndex env with
    | mk go f₁ =>
      rw [hstep] at hmain
      simp only [advanceLoop, MainWnd.advanceLoop, hstep, ← hmain]
      cases go with
      | false => rfl
      | true =>
        simp only
        cases hopen : f₁.main.openSlideShowCurrent env.toSlideEnv with
        | mk ok main =>
          cases ok with
          | true => rfl
          | false => exact ih { f₁ with main }

theorem advanceSlideShow_main (f : Frame W I P) :
    (f.advanceSlideShow env).main = f.main.advanceSlideShow env.toSlideEnv := by
  unfold advanceSlideShow MainWnd.advanceSlideShow
  split
  · rfl
  · exact advanceLoop_main _ f

theorem startSlideShow_main (f : Frame W I P) (o : SlideShowOptions) (start : StartMode)
    (zoomMode : Int) :
    (f.startSlideShow env o start zoomMode).main = f.main.startSlideShow env.toSlideEnv o := by
  have hprep : (f.stopSlideShow env).main.prepareSlideShow env.toSlideEnv o =
      f.main.prepareSlideShow env.toSlideEnv o := by
    rw [stopSlideShow_main]
    rfl
  unfold startSlideShow MainWnd.startSlideShow
  simp only [hprep]
  split
  · rfl
  · generalize hg : (if start = .START_FULLSCREEN then _ else _ : Frame W I P) = g
    have hmain : g.main = f.main.prepareSlideShow env.toSlideEnv o := by
      rw [← hg]
      split
      · exact enter_main _
      · rfl
    rw [hmain]
    cases hopen : (f.main.prepareSlideShow env.toSlideEnv o).openSlideShowCurrent env.toSlideEnv with
    | mk ok main =>
      cases ok with
      | true => rfl
      | false => exact advanceSlideShow_main _

/-- A message that is taken in does to the show what it does to the show alone. -/
theorem exec_main {f' : Frame W I P} {e : Event W I P} (h : exec env f e = some f') :
    f'.main = (e.toShow.map (f.main.handle env.toSlideEnv)).getD f.main := by
  simp only [exec] at h
  split at h
  · cases h
  cases e with
  | start o start zoomMode =>
    cases h
    exact startSlideShow_main f o start zoomMode
  | tick =>
    cases h
    simp only [onTimer, Event.toShow, Option.map_some, Option.getD_some, MainWnd.handle,
      MainWnd.onTimer]
    split
    · exact advanceSlideShow_main f
    · rfl
  | stop =>
    cases h
    exact stopSlideShow_main f
  | resetTimer =>
    cases h
    rfl
  | exit =>
    simp only at h
    split at h
    · cases h
      exact stopSlideShow_main f
    · cases h
      exact stopSlideShow_main f
  | destroy =>
    cases h
    exact stopSlideShow_main f
  | viewFileList =>
    simp only at h
    split at h <;> cases h
    rfl
  | zoomMode id =>
    cases h
    rfl
  | place style exStyle placement =>
    cases h
    rfl
  | mouse m =>
    simp only at h
    split at h <;> cases h
    rfl
  | document sys =>
    cases h
    rfl

/-! ## The window around the show -/

/-- What holds of the frame whatever the show is at; `window` is the window as the user left it. -/
structure Shell (env : FrameEnv W F I P) (window : TopWnd P) (f : Frame W I P) : Prop where
  laid : f.view.Laid
  place : f.viewRect = viewPlace env f.fullscreen (env.clientSize f.top)
  client : f.view.client = ⟨f.viewRect.width, f.viewRect.height⟩
  checked : f.menuChecked = f.fileListVisible
  menu : window.menu = true
  windowed : f.fullscreen = false → f.top = window ∧ f.view.showFileList = f.fileListVisible
  bare : f.fullscreen = true → f.top.menu = false ∧ f.top.toolbar = false ∧
    f.top.statusBar = false ∧ f.view.showFileList = false
  saved : f.fullscreen = true → f.savedFileListVisible = f.fileListVisible ∧
    f.savedPlacement = some window.placement ∧ f.savedStyle = window.style ∧
    f.savedExStyle = window.exStyle ∧ f.savedToolbarVisible = window.toolbar ∧
    f.savedStatusBarVisible = window.statusBar
  written : ∀ p, f.written = some p → p = window.placement

section Shell

variable {window : TopWnd P}

/-- What the show does to its own state is nothing to the window. -/
theorem Shell.withMain (h : Shell env window f) (main : MainWnd W I) :
    Shell env window { f with main } :=
  ⟨h.laid, h.place, h.client, h.checked, h.menu, h.windowed, h.bare, h.saved, h.written⟩

theorem Shell.onSize (laid : f.view.Laid) (checked : f.menuChecked = f.fileListVisible)
    (menu : window.menu = true)
    (windowed : f.fullscreen = false → f.top = window ∧ f.view.showFileList = f.fileListVisible)
    (bare : f.fullscreen = true → f.top.menu = false ∧ f.top.toolbar = false ∧
      f.top.statusBar = false ∧ f.view.showFileList = false)
    (saved : f.fullscreen = true → f.savedFileListVisible = f.fileListVisible ∧
      f.savedPlacement = some window.placement ∧ f.savedStyle = window.style ∧
      f.savedExStyle = window.exStyle ∧ f.savedToolbarVisible = window.toolbar ∧
      f.savedStatusBarVisible = window.statusBar)
    (written : ∀ p, f.written = some p → p = window.placement) : Shell env window (f.onSize env) :=
  ⟨MainView.laid_step laid (.size _), rfl, rfl, checked, menu, windowed, bare, saved, written⟩

theorem Shell.leave (h : Shell env window f) :
    Shell env window (f.leaveSlideShowFullscreen env) ∧
      (f.leaveSlideShowFullscreen env).fullscreen = false := by
  unfold leaveSlideShowFullscreen
  cases hfull : f.fullscreen with
  | false => exact ⟨h, hfull⟩
  | true =>
    obtain ⟨hlist, hplace, hstyle, hex, htool, hstatus⟩ := h.saved hfull
    refine ⟨Shell.onSize (MainView.laid_step h.laid (.showFileList _)) h.checked h.menu ?_ ?_ ?_
      h.written, rfl⟩
    · -- everything is put back
      intro _
      refine ⟨?_, hlist⟩
      have hmenu := h.menu
      obtain ⟨style, exStyle, placement, menu, toolbar, statusBar⟩ := window
      simp only at hmenu
      simp [hplace, hstyle, hex, htool, hstatus, hmenu]
    · exact fun hc => by cases hc
    · exact fun hc => by cases hc

theorem Shell.stop (h : Shell env window f) :
    Shell env window (f.stopSlideShow env) ∧ (f.stopSlideShow env).fullscreen = false := by
  obtain ⟨hl, hfull⟩ := h.leave
  exact ⟨Shell.onSize hl.laid hl.checked hl.menu hl.windowed hl.bare hl.saved hl.written, hfull⟩

theorem Shell.enter (h : Shell env window f) : Shell env window (f.enterSlideShowFullscreen env) := by
  unfold enterSlideShowFullscreen
  cases hfull : f.fullscreen with
  | true => exact h
  | false =>
    obtain ⟨htop, hlist⟩ := h.windowed hfull
    refine Shell.onSize (MainView.laid_step h.laid (.showFileList _)) h.checked h.menu ?_ ?_ ?_
      h.written
    · exact fun hc => by cases hc
    · exact fun _ => ⟨rfl, rfl, rfl, rfl⟩
    · intro _
      simp [htop]

/-- The loop of attempts ends with a show that plays, or with the window put back. -/
theorem Shell.advanceLoop (attempts : Nat) (h : Shell env window f) (hr : MainWnd.Ready f.main) :
    Shell env window (advanceLoop env attempts f) ∧
      ((Frame.advanceLoop env attempts f).fullscreen = true →
        (Frame.advanceLoop env attempts f).main.slideShow.active = true) := by
  induction attempts generalizing f with
  | zero =>
    obtain ⟨hs, hfull⟩ := h.stop
    refine ⟨hs, fun hc => ?_⟩
    rw [Frame.advanceLoop, hfull] at hc
    cases hc
  | succ attempts ih =>
    cases hstep : f.main.stepSlideShowIndex env.toSlideEnv with
    | mk go main =>
      cases go with
      | false =>
        obtain ⟨hs, hfull⟩ := (h.withMain main).stop
        simp only [Frame.advanceLoop, stepSlideShowIndex, hstep]
        refine ⟨hs, fun hc => ?_⟩
        rw [hfull] at hc
        cases hc
      | true =>
        have hready := hr.step hstep
        simp only [Frame.advanceLoop, stepSlideShowIndex, hstep]
        rcases MainWnd.openSlideShowCurrent_cases env.toSlideEnv hready with
          ⟨m, hopen, hmoved⟩ | ⟨m, hopen, hm, -⟩
        · simp only [hopen]
          exact ⟨(h.withMain main).withMain _, fun _ => hmoved.active⟩
        · simp only [hopen]
          exact ih ((h.withMain main).withMain m) hm

theorem Shell.advance (h : Shell env window f) (hm : MainWnd.Playing f.main ∨
    MainWnd.Stopped f.main) (hfull : f.fullscreen = true → f.main.slideShow.active = true) :
    Shell env window (f.advanceSlideShow env) ∧ ((f.advanceSlideShow env).fullscreen = true →
      (f.advanceSlideShow env).main.slideShow.active = true) := by
  unfold advanceSlideShow
  split
  · exact ⟨h, hfull⟩
  · rename_i hactive
    rcases hm with hm | hm
    · exact h.advanceLoop _ hm.toReady
    · simp [hm.active] at hactive

theorem Shell.start (h : Shell env window f) (o : SlideShowOptions) (start : StartMode)
    (zoomMode : Int) :
    Shell env window (f.startSlideShow env o start zoomMode) ∧
      ((f.startSlideShow env o start zoomMode).fullscreen = true →
        (f.startSlideShow env o start zoomMode).main.slideShow.active = true) := by
  obtain ⟨hs, hfull⟩ := h.stop
  have hprep : (f.stopSlideShow env).main.prepareSlideShow env.toSlideEnv o =
      f.main.prepareSlideShow env.toSlideEnv o := by
    rw [stopSlideShow_main]
    rfl
  unfold startSlideShow
  simp only [hprep]
  rcases MainWnd.prepareSlideShow_cases env.toSlideEnv f.main o with
    ⟨-, hstop, -, -⟩ | ⟨files, w, -, hne, -, hready⟩
  · rw [if_pos hstop.files]
    refine ⟨hs.withMain _, fun hc => ?_⟩
    rw [hfull] at hc
    cases hc
  · generalize f.main.prepareSlideShow env.toSlideEnv o = m₀ at hready
    have hfiles : m₀.slideShow.files ≠ [] := by rw [hready]; exact hne
    have hr : MainWnd.Ready m₀ := by
      have hpos := List.length_pos_iff.mpr hfiles
      have hindex : m₀.slideShow.index = 0 := by rw [hready]
      exact ⟨⟨by omega, by omega⟩, by rw [hready]⟩
    rw [if_neg hfiles]
    generalize hg : (if start = .START_FULLSCREEN then _ else _ : Frame W I P) = g
    have hbase : Shell env window
        { f.stopSlideShow env with main := m₀, viewZoomMode := zoomMode } :=
      ⟨hs.laid, hs.place, hs.client, hs.checked, hs.menu, hs.windowed, hs.bare, hs.saved, hs.written⟩
    have hshell : Shell env window g := by
      rw [← hg]
      split
      · exact hbase.enter
      · exact hbase
    have hmain : g.main = m₀ := by
      rw [← hg]
      split
      · exact enter_main _
      · rfl
    rw [hmain]
    rcases MainWnd.openSlideShowCurrent_cases env.toSlideEnv hr with
      ⟨m, hopen, hmoved⟩ | ⟨m, hopen, hm, -⟩
    · simp only [hopen]
      exact ⟨hshell.withMain _, fun _ => hmoved.active⟩
    · simp only [hopen]
      have hactive : ¬ (¬ m.slideShow.active = true ∨ m.slideShow.files = []) := by
        rintro (hc | hc)
        · exact hc hm.active
        · exact hm.files_ne_nil hc
      rw [advanceSlideShow, if_neg hactive]
      exact (hshell.withMain m).advanceLoop _ hm

end Shell

/-! ## Runs -/

/-- The window as the user left it: what is done to it in full screen does not count. -/
def placed (f : Frame W I P) (window : TopWnd P) : Event W I P → TopWnd P
  | .place style exStyle placement =>
    if f.fullscreen then window else { window with style, exStyle, placement }
  | _ => window

variable (env) in
/-- The frame window from `OnCreate` on, with the window as the user left it beside it. -/
def machine : Machine (Frame W I P × TopWnd P) (Event W I P) where
  init s := ∃ sys top dpi zoomMode, top.menu = true ∧
    s = (onSize env
      { main := { sys }, top, view := MainView.create dpi, viewRect := ⟨0, 0, 0, 0⟩
        viewZoomMode := zoomMode }, top)
  step s e s' := exec env s.1 e = some s'.1 ∧ s'.2 = placed s.1 s.2 e

structure Framed (env : FrameEnv W F I P) (window : TopWnd P) (f : Frame W I P) : Prop where
  shell : Shell env window f
  show_reach : (MainWnd.showMachine env.toSlideEnv).Reach Machine.always f.main
  active : f.fullscreen = true → f.main.slideShow.active = true

section Steps

variable {window : TopWnd P}

theorem Shell.destroy (h : Shell env window f) :
    Shell env window (f.onDestroy env) ∧ (f.onDestroy env).fullscreen = false := by
  obtain ⟨hs, hfull⟩ := h.stop
  refine ⟨⟨hs.laid, hs.place, hs.client, hs.checked, hs.menu, hs.windowed, hs.bare, hs.saved, ?_⟩,
    hfull⟩
  intro p hp
  cases hp
  rw [(hs.windowed hfull).1]

theorem Shell.viewFileList (h : Shell env window f) (hbar : f.top.menu = true ∨ f.top.toolbar = true) :
    Shell env window f.viewFileList ∧ f.viewFileList.fullscreen = false := by
  have hfull : f.fullscreen = false := by
    cases hfull : f.fullscreen with
    | false => rfl
    | true =>
      obtain ⟨hmenu, htool, -, -⟩ := h.bare hfull
      simp [hmenu, htool] at hbar
  refine ⟨⟨MainView.laid_step h.laid (.showFileList _), h.place, h.client, rfl, h.menu, ?_, ?_, ?_,
    h.written⟩, hfull⟩
  · exact fun _ => ⟨(h.windowed hfull).1, rfl⟩
  · exact fun hc => absurd (hfull.symm.trans hc) (by decide)
  · exact fun hc => absurd (hfull.symm.trans hc) (by decide)

/-- The place of a window in full screen is not the user's. -/
theorem Shell.moved (h : Shell env window f) (style exStyle : BitVec 32) (placement : P)
    (hopen : f.written = none) :
    Shell env (placed f window (.place style exStyle placement))
      (Frame.onSize env { f with top := { f.top with style, exStyle, placement } }) := by
  unfold placed
  cases hfull : f.fullscreen with
  | true =>
    simp only [if_true]
    refine Shell.onSize h.laid h.checked h.menu ?_ (fun _ => h.bare hfull) (fun _ => h.saved hfull)
      h.written
    exact fun hc => by cases hc
  | false =>
    simp only [Bool.false_eq_true, if_false]
    obtain ⟨htop, hlist⟩ := h.windowed hfull
    refine Shell.onSize h.laid h.checked h.menu ?_ ?_ ?_ ?_
    · exact fun _ => ⟨by rw [htop], hlist⟩
    · exact fun hc => by cases hc
    · exact fun hc => by cases hc
    · intro p hp
      rw [hopen] at hp
      cases hp

theorem Shell.mouse (h : Shell env window f) {m : MainView.Msg} (hm : isMouse m = true) :
    Shell env window { f with view := f.view.handle m } := by
  have hkeep : (f.view.handle m).client = f.view.client ∧
      (f.view.handle m).showFileList = f.view.showFileList := by
    cases m with
    | size client => cases hm
    | showFileList shown => cases hm
    | lButtonDown x =>
      simp only [MainView.handle, MainView.onLButtonDown]
      split <;> exact ⟨rfl, rfl⟩
    | mouseMove x =>
      have hsame := MainView.sameDrag_onMouseMove f.view x
      exact ⟨hsame.client, hsame.showFileList⟩
    | mouseLeave => exact ⟨rfl, rfl⟩
    | lButtonUp pt =>
      simp only [MainView.handle, MainView.onLButtonUp]
      split <;> exact ⟨rfl, rfl⟩
    | captureLost => exact ⟨rfl, rfl⟩
  obtain ⟨hclient, hlist⟩ := hkeep
  refine ⟨MainView.laid_step h.laid m, h.place, ?_, h.checked, h.menu, ?_, ?_, h.saved, h.written⟩
  · simp only [hclient]
    exact h.client
  · simp only [hlist]
    exact h.windowed
  · simp only [hlist]
    exact h.bare

theorem framed_step {f' : Frame W I P} {e : Event W I P} (h : Framed env window f)
    (hs : exec env f e = some f') : Framed env (placed f window e) f' := by
  have hreach : (MainWnd.showMachine env.toSlideEnv).Reach Machine.always f'.main := by
    rw [exec_main hs]
    cases e.toShow with
    | none => exact h.show_reach
    | some e' => exact h.show_reach.step (l := e') trivial rfl
  have hcon := MainWnd.reach_consistent h.show_reach
  -- out of full screen nothing is said about the show
  have hout : ∀ {g : Frame W I P}, g.fullscreen = false →
      g.fullscreen = true → g.main.slideShow.active = true := by
    intro g hf hc
    rw [hf] at hc
    cases hc
  simp only [exec] at hs
  split at hs
  · cases hs
  rename_i hopen
  have hopen : f.written = none := by simpa using hopen
  cases e with
  | start o start zoomMode =>
    cases hs
    obtain ⟨hs, hactive⟩ := h.shell.start o start zoomMode
    exact ⟨hs, hreach, hactive⟩
  | tick =>
    cases hs
    obtain ⟨hs, hactive⟩ : Shell env window (f.onTimer env) ∧ ((f.onTimer env).fullscreen = true →
        (f.onTimer env).main.slideShow.active = true) := by
      unfold onTimer
      split
      · exact h.shell.advance hcon h.active
      · exact ⟨h.shell, h.active⟩
    exact ⟨hs, hreach, hactive⟩
  | stop =>
    cases hs
    exact ⟨h.shell.stop.1, hreach, hout h.shell.stop.2⟩
  | resetTimer =>
    cases hs
    refine ⟨h.shell.withMain _, hreach, fun hc => ?_⟩
    -- a show in full screen plays on
    have hactive := h.active hc
    simp only [MainWnd.onResetTimer, hactive, if_true]
    rcases hcon with hp | hp
    · exact (hp.syncSlideShowIndexToCurrent.toReady.resetSlideShowTimer).active
    · rw [hp.active] at hactive
      cases hactive
  | exit =>
    simp only at hs
    split at hs
    · cases hs
      exact ⟨h.shell.stop.1, hreach, hout h.shell.stop.2⟩
    · cases hs
      exact ⟨h.shell.destroy.1, hreach, hout h.shell.destroy.2⟩
  | destroy =>
    cases hs
    exact ⟨h.shell.destroy.1, hreach, hout h.shell.destroy.2⟩
  | viewFileList =>
    simp only at hs
    split at hs
    · rename_i hbar
      cases hs
      obtain ⟨hv, hfull⟩ := h.shell.viewFileList hbar
      exact ⟨hv, hreach, hout hfull⟩
    · cases hs
  | zoomMode id =>
    cases hs
    exact ⟨⟨h.shell.laid, h.shell.place, h.shell.client, h.shell.checked, h.shell.menu,
      h.shell.windowed, h.shell.bare, h.shell.saved, h.shell.written⟩, hreach, h.active⟩
  | place style exStyle placement =>
    cases hs
    exact ⟨h.shell.moved style exStyle placement hopen, hreach, h.active⟩
  | mouse m =>
    simp only at hs
    split at hs
    · rename_i hm
      cases hs
      exact ⟨h.shell.mouse hm, hreach, h.active⟩
    · cases hs
  | document sys =>
    cases hs
    exact ⟨h.shell.withMain _, hreach, h.active⟩

end Steps

theorem reach_framed {s : Frame W I P × TopWnd P} (h : (machine env).Reach Machine.always s) :
    Framed env s.2 s.1 := by
  refine h.holds (P := fun s => Framed env s.2 s.1) ?_ ?_
  · rintro s ⟨sys, top, dpi, zoomMode, hmenu, rfl⟩
    have hlaid : ∀ client, ((MainView.create dpi).onSize client).Laid := by
      intro client
      refine MainView.laid_updateLayout rfl fun hc => ?_
      cases hc
    refine ⟨⟨hlaid _, rfl, rfl, rfl, hmenu, ?_, ?_, ?_, ?_⟩, .of_init ⟨sys, rfl⟩, ?_⟩
    · exact fun _ => ⟨rfl, rfl⟩
    · exact fun hc => by cases hc
    · exact fun hc => by cases hc
    · exact fun p hp => by cases hp
    · exact fun hc => by cases hc
  · rintro ⟨f, window⟩ e ⟨f', window'⟩ hf - ⟨hs, rfl⟩
    exact framed_step hf hs

/-- **A slide show leaves the window as it was.** In every run of the frame window: out of full screen
its style, placement, menu and bands are as the user left them when it was last out of full screen,
and the file list is shown when the menu says so. In full screen a show plays, the menu and the
bands are gone, and the main view and in it the image view take the whole client area. The
placement written on exit is the user's, even if the window is destroyed in full screen. -/
theorem slideShow_leaves_window (env : FrameEnv W F I P) {s : Frame W I P × TopWnd P}
    (h : (machine env).Reach Machine.always s) :
    s.1.menuChecked = s.1.fileListVisible ∧
      (s.1.fullscreen = false →
        s.1.top = s.2 ∧ s.1.view.showFileList = s.1.fileListVisible ∧ s.1.view.Laid) ∧
      (s.1.fullscreen = true → MainWnd.Playing s.1.main ∧
        (s.1.top.menu = false ∧ s.1.top.toolbar = false ∧ s.1.top.statusBar = false) ∧
        let client := env.clientSize s.1.top
        s.1.viewRect = ⟨0, 0, client.cx, client.cy⟩ ∧
          s.1.view.imageView = ⟨0, 0, max client.cx 0, client.cy⟩) ∧
      ∀ p, s.1.written = some p → p = s.2.placement := by
  have hf := reach_framed h
  refine ⟨hf.shell.checked, fun hfull => ?_, fun hfull => ?_, hf.shell.written⟩
  · obtain ⟨htop, hlist⟩ := hf.shell.windowed hfull
    exact ⟨htop, hlist, hf.shell.laid⟩
  · obtain ⟨hmenu, htool, hstatus, hlist⟩ := hf.shell.bare hfull
    have hplace := hf.shell.place
    rw [hfull, viewPlace, if_pos rfl] at hplace
    refine ⟨?_, ⟨hmenu, htool, hstatus⟩, hplace, ?_⟩
    · rcases MainWnd.reach_consistent hf.show_reach with hp | hp
      · exact hp
      · have hactive := hf.active hfull
        rw [hp.active] at hactive
        cases hactive
    · have hclient := hf.shell.client
      rw [hplace] at hclient
      have hcont : s.1.view.contentX = 0 := by simp [MainView.contentX, hlist]
      rw [hf.shell.laid.image, hcont, hclient]
      simp [Rect.width, Rect.height]

end Frame

/-- The folder of `albumShow` in a frame with placement 0; the whole monitor is placement 1. -/
def albumFrame : FrameEnv Unit Bool Unit Nat where
  toSlideEnv := albumShow
  clientSize top := if top.menu then ⟨640, 480⟩ else ⟨800, 600⟩
  cover _ := 1
  bandHeight := 32
  statusHeight := 20

def openedFrame : Frame Unit Unit Nat :=
  Frame.onSize albumFrame
    { main := closedWindow, top := ⟨WS_OVERLAPPEDWINDOW, 0, 0, true, true, true⟩
      view := .create 96, viewRect := ⟨0, 0, 0, 0⟩, viewZoomMode := 0 }

def playingFrame : Frame Unit Unit Nat :=
  openedFrame.startSlideShow albumFrame twoRounds .START_FULLSCREEN 0

theorem slideShow_leaves_window_album :
    (playingFrame.viewRect = ⟨0, 0, 800, 600⟩ ∧ playingFrame.view.imageView = ⟨0, 0, 800, 600⟩) ∧
      (playingFrame.stopSlideShow albumFrame).top = openedFrame.top ∧
      (playingFrame.onDestroy albumFrame).written = some 0 := by
  have hinit : (Frame.machine albumFrame).Reach Machine.always (openedFrame, openedFrame.top) :=
    .of_init ⟨_, _, 96, 0, rfl, rfl⟩
  have hplay : (Frame.machine albumFrame).Reach Machine.always (playingFrame, openedFrame.top) :=
    hinit.step (l := .start twoRounds .START_FULLSCREEN 0) trivial ⟨rfl, rfl⟩
  have hstop : (Frame.machine albumFrame).Reach Machine.always
      (playingFrame.stopSlideShow albumFrame, openedFrame.top) :=
    hplay.step (l := .stop) trivial ⟨rfl, rfl⟩
  have hgone : (Frame.machine albumFrame).Reach Machine.always
      (playingFrame.onDestroy albumFrame, openedFrame.top) :=
    hplay.step (l := .destroy) trivial ⟨rfl, rfl⟩
  obtain ⟨-, -, hfull, -⟩ := Frame.slideShow_leaves_window albumFrame hplay
  obtain ⟨-, -, hrect, hview⟩ := hfull (by decide)
  obtain ⟨-, hleft, -, -⟩ := Frame.slideShow_leaves_window albumFrame hstop
  obtain ⟨-, -, -, hwritten⟩ := Frame.slideShow_leaves_window albumFrame hgone
  refine ⟨⟨hrect, hview⟩, (hleft rfl).1, ?_⟩
  exact congrArg some (hwritten _ rfl)

end ObZrv
