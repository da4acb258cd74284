import Mathlib.Data.List.Rotate
import ObZrv.Doc.Document
import ObZrv.Lib.Machine

/-!
# Doc.SlideShow

The slide show of `MainWnd`: the list it builds, the timer that steps through it and the calls of
`Doc::open` it makes. Full screen, zoom mode and the layout of the window are left out, and so are
the messages that come in while a message box is open.

* `buildSlideShowFiles_eq`, `shuffleSlideShowFiles_perm` : the list that is built.
* `advanceSlideShow_tried` : what one timer tick opens.
* `reach_consistent` : between two messages the show plays or is stopped.
-/

namespace ObZrv

inductive SourceMode where
  | SOURCE_CURRENT_FOLDER
  | SOURCE_CUSTOM
deriving DecidableEq, Repr

inductive OrderMode where
  | ORDER_NORMAL
  | ORDER_REVERSE
  | ORDER_RANDOM
deriving DecidableEq, Repr

inductive RepeatMode where
  | REPEAT_FOREVER
  | REPEAT_COUNT
deriving DecidableEq, Repr

/-- `SlideShowDlg::Options`; of the custom items the paths. -/
structure SlideShowOptions where
  source : SourceMode := .SOURCE_CURRENT_FOLDER
  order : OrderMode := .ORDER_NORMAL
  «repeat» : RepeatMode := .REPEAT_FOREVER
  intervalSec : Int := 5
  rounds : Int := 1
  customItems : List Str := []

/-- The slide show fields of `MainWnd`; the timer with its period in milliseconds. -/
structure SlideShow where
  active : Bool := false
  timer : Option Nat := none
  options : SlideShowOptions := {}
  files : List Str := []
  index : Int := 0
  round : Int := 0

/-- The main window. `opened` keeps the files the show has tried to open and whether `Doc::open`
returned `IM_OK`; no code looks at it. -/
structure MainWnd (W I : Type) where
  sys : Sys W I
  slideShow : SlideShow := {}
  opened : List (Str × Bool) := []

/-- What the slide show calls besides: the random generator, and the identity of a new `LocalFs`. -/
structure SlideEnv (W F I : Type) extends Env W F I where
  rand : W → Nat × W
  newLocalFs : W → Nat × W

/-! ## The list -/

/-- `BuildSlideShowFiles`, from the document and the options. -/
def buildSlideShowFiles {I : Type} (d : Doc I) (o : SlideShowOptions) : List Str :=
  match o.source with
  | .SOURCE_CUSTOM => if o.order = .ORDER_REVERSE then o.customItems.reverse else o.customItems
  | .SOURCE_CURRENT_FOLDER =>
    let cnt := d.dirfiles.length
    if cnt = 0 ∨ d.diridx < 0 then []
    else
      let idx := d.diridx.toNat
      if o.order = .ORDER_REVERSE then
        ((List.range (idx + 1)).reverse ++ (List.range' (idx + 1) (cnt - 1 - idx)).reverse).map
          d.filePath
      else (List.range' idx (cnt - idx) ++ List.range idx).map d.filePath

/-- `std::swap(files[i], files[j])`. -/
def swapFiles (files : List Str) (i j : Nat) : List Str :=
  match files[i]?, files[j]? with
  | some a, some b => (files.set i b).set j a
  | _, _ => files

section Shuffle

variable {W F I : Type} (env : SlideEnv W F I)

/-- The loop of `ShuffleSlideShowFiles` from index `i` down to 1. -/
def shuffleLoop : Nat → List Str → W → List Str × W
  | 0, files, w => (files, w)
  | i + 1, files, w =>
    let (r, w) := env.rand w
    shuffleLoop i (swapFiles files (i + 1) (r % (i + 2))) w

def shuffleSlideShowFiles (files : List Str) (w : W) : List Str × W :=
  if files.length < 2 then (files, w) else shuffleLoop env (files.length - 1) files w

end Shuffle

/-! ## The show -/

namespace MainWnd

variable {W F I : Type} (env : SlideEnv W F I) (m : MainWnd W I)

def stopSlideShow : MainWnd W I :=
  { m with slideShow := { m.slideShow with timer := none, active := false, files := [] } }

def resetSlideShowTimer : MainWnd W I :=
  if ¬ m.slideShow.active then m
  else
    { m with slideShow :=
        { m.slideShow with timer := some (toUINT m.slideShow.options.intervalSec * 1000 % 2 ^ 32) } }

/-- The files shuffled anew if the order is random. -/
def reorder : MainWnd W I :=
  if m.slideShow.options.order = .ORDER_RANDOM then
    let (files, w) := shuffleSlideShowFiles env m.slideShow.files m.sys.world
    { m with sys := m.sys.setWorld w, slideShow := { m.slideShow with files } }
  else m

/-- The file system `OpenSlideShowCurrent` passes on: a new `LocalFs` for a custom list. -/
def slideShowFs : Option Nat × W :=
  if m.slideShow.options.source = .SOURCE_CUSTOM then
    let (id, w) := env.newLocalFs m.sys.world
    (some id, w)
  else (none, m.sys.world)

def openSlideShowCurrent : Bool × MainWnd W I :=
  let index := m.slideShow.index
  if index < 0 ∨ index ≥ m.slideShow.files.length then (false, m)
  else
    let file := m.slideShow.files.getD index.toNat []
    let (custom, w) := m.slideShowFs env
    let (res, s) := (m.sys.setWorld w).open env.toEnv (Sys.slideShowCall custom file)
    (res = .OK, { m with sys := s, opened := m.opened ++ [(file, decide (res = .OK))] })

def stepSlideShowIndex : Bool × MainWnd W I :=
  let m := { m with slideShow := { m.slideShow with index := m.slideShow.index + 1 } }
  if m.slideShow.index < m.slideShow.files.length then (true, m)
  else
    let m := { m with slideShow := { m.slideShow with round := m.slideShow.round + 1 } }
    if m.slideShow.options.repeat = .REPEAT_COUNT ∧
        m.slideShow.round ≥ m.slideShow.options.rounds then
      (false, m.stopSlideShow)
    else
      let m := { m with slideShow := { m.slideShow with index := 0 } }
      (true, m.reorder env)

/-- The loop of `AdvanceSlideShow` with the attempts left, and the stop after it. -/
def advanceLoop : Nat → MainWnd W I → MainWnd W I
  | 0, m => m.stopSlideShow
  | attempts + 1, m =>
    match m.stepSlideShowIndex env with
    | (false, m) => m
    | (true, m) =>
      match m.openSlideShowCurrent env with
      | (true, m) => m.resetSlideShowTimer
      | (false, m) => advanceLoop attempts m

def advanceSlideShow : MainWnd W I :=
  if ¬ m.slideShow.active ∨ m.slideShow.files = [] then m
  else advanceLoop env m.slideShow.files.length m

/-- The state `StartSlideShow` opens the first file in. -/
def prepareSlideShow (options : SlideShowOptions) : MainWnd W I :=
  let m := m.stopSlideShow
  let m := { m with slideShow :=
    { m.slideShow with options, files := buildSlideShowFiles m.sys.doc options } }
  if m.slideShow.files = [] then
    { m with sys := m.sys.messageBox "No images are available for the slide show." "Slide Show" }
  else
    let m := m.reorder env
    { m with slideShow := { m.slideShow with active := true, index := 0, round := 0 } }

def startSlideShow (options : SlideShowOptions) : MainWnd W I :=
  let m := m.prepareSlideShow env options
  if m.slideShow.files = [] then m
  else
    match m.openSlideShowCurrent env with
    | (true, m) => m.resetSlideShowTimer
    | (false, m) => m.advanceSlideShow env

/-- `WM_TIMER`, which comes while the timer is set. -/
def onTimer : MainWnd W I :=
  if m.slideShow.timer.isSome then m.advanceSlideShow env else m

def ticks : Nat → MainWnd W I → MainWnd W I
  | 0, m => m
  | k + 1, m => (ticks k m).onTimer env

def syncSlideShowIndexToCurrent : MainWnd W I :=
  if m.sys.doc.path = [] then m
  else
    match m.slideShow.files.findIdx? (· == m.sys.doc.path) with
    | some i => { m with slideShow := { m.slideShow with index := i } }
    | none => m

/-- `WM_APP_SLIDESHOW_RESET_TIMER`, posted when the user has moved to another file. -/
def onResetTimer : MainWnd W I :=
  if m.slideShow.active then m.syncSlideShowIndexToCurrent.resetSlideShowTimer else m

end MainWnd

/-! ## The list is a permutation of its source -/

section List

variable {W F I : Type}

/-- The files a show is built from. -/
def SlideShowOptions.sourceFiles (o : SlideShowOptions) (d : Doc I) : List Str :=
  match o.source with
  | .SOURCE_CUSTOM => o.customItems
  | .SOURCE_CURRENT_FOLDER => d.dirfiles.map (joinPath d.dir)

/-- The order in which a show that is not random goes through its files: from the current file on,
around the end of the folder, or through the custom list. -/
def SlideShowOptions.listed (o : SlideShowOptions) (d : Doc I) : List Str :=
  match o.source, o.order with
  | .SOURCE_CUSTOM, .ORDER_REVERSE => (o.sourceFiles d).reverse
  | .SOURCE_CUSTOM, _ => o.sourceFiles d
  | .SOURCE_CURRENT_FOLDER, .ORDER_REVERSE => ((o.sourceFiles d).rotate (d.diridx.toNat + 1)).reverse
  | .SOURCE_CURRENT_FOLDER, _ => (o.sourceFiles d).rotate d.diridx.toNat

/-- There is something to show: custom items, or a folder with a current file. -/
def SlideShowOptions.HasFiles (o : SlideShowOptions) (d : Doc I) : Prop :=
  match o.source with
  | .SOURCE_CUSTOM => o.customItems ≠ []
  | .SOURCE_CURRENT_FOLDER => 0 ≤ d.diridx ∧ d.diridx < d.dirfiles.length

theorem map_filePath_range' (d : Doc I) (i n : Nat) (h : i + n ≤ d.dirfiles.length) :
    (List.range' i n).map d.filePath = ((d.dirfiles.drop i).take n).map (joinPath d.dir) := by
  apply List.ext_getElem
  · simp
    omega
  · intro j h₁ h₂
    have hj : i + j < d.dirfiles.length := by
      simp at h₁
      omega
    simp [Doc.filePath, hj]

theorem buildSlideShowFiles_eq {d : Doc I} {o : SlideShowOptions} (h : o.HasFiles d) :
    buildSlideShowFiles d o = o.listed d := by
  unfold SlideShowOptions.HasFiles at h
  unfold buildSlideShowFiles SlideShowOptions.listed SlideShowOptions.sourceFiles
  cases hs : o.source with
  | SOURCE_CUSTOM =>
    cases o.order with
    | ORDER_NORMAL => simp
    | ORDER_REVERSE => simp
    | ORDER_RANDOM => simp
  | SOURCE_CURRENT_FOLDER =>
    rw [hs] at h
    obtain ⟨h0, hlt⟩ := h
    obtain ⟨i, hi⟩ : ∃ i : Nat, d.diridx = i := ⟨d.diridx.toNat, by omega⟩
    have hne : ¬ (d.dirfiles.length = 0 ∨ d.diridx < 0) := by omega
    have hi' : i < d.dirfiles.length := by omega
    have hto : d.diridx.toNat = i := by omega
    have hfirst := map_filePath_range' d 0 i (by omega)
    have hrest := map_filePath_range' d i (d.dirfiles.length - i) (by omega)
    have hhead := map_filePath_range' d 0 (i + 1) (by omega)
    have htail := map_filePath_range' d (i + 1) (d.dirfiles.length - 1 - i) (by omega)
    have hforward : (List.range' i (d.dirfiles.length - i) ++ List.range i).map d.filePath =
        (d.dirfiles.map (joinPath d.dir)).rotate i := by
      rw [List.rotate_eq_drop_append_take (by simp; omega), List.map_append, hrest,
        List.range_eq_range', hfirst]
      simp [← List.map_drop, ← List.map_take, List.take_of_length_le]
    have hback : ((List.range (i + 1)).reverse ++
          (List.range' (i + 1) (d.dirfiles.length - 1 - i)).reverse).map d.filePath =
        ((d.dirfiles.map (joinPath d.dir)).rotate (i + 1)).reverse := by
      rw [List.rotate_eq_drop_append_take (by simp; omega), ← List.reverse_append, List.map_reverse,
        List.map_append, htail, List.range_eq_range', hhead]
      have hall : d.dirfiles.length - 1 - i = (d.dirfiles.drop (i + 1)).length := by
        simp
        omega
      rw [hall, List.take_length]
      simp [← List.map_drop, ← List.map_take]
    simp only [hne, if_false, hto, hforward, hback]
    cases o.order with
    | ORDER_NORMAL => simp
    | ORDER_REVERSE => simp
    | ORDER_RANDOM => simp

theorem SlideShowOptions.listed_perm (o : SlideShowOptions) (d : Doc I) :
    (o.listed d).Perm (o.sourceFiles d) := by
  unfold SlideShowOptions.listed
  split
  · exact List.reverse_perm _
  · exact .refl _
  · exact (List.reverse_perm _).trans (List.rotate_perm _ _)
  · exact List.rotate_perm _ _

theorem SlideShowOptions.HasFiles.sourceFiles_ne_nil {o : SlideShowOptions} {d : Doc I}
    (h : o.HasFiles d) : o.sourceFiles d ≠ [] := by
  unfold SlideShowOptions.HasFiles at h
  unfold SlideShowOptions.sourceFiles
  cases hs : o.source with
  | SOURCE_CUSTOM =>
    rw [hs] at h
    exact h
  | SOURCE_CURRENT_FOLDER =>
    rw [hs] at h
    intro hnil
    have := List.map_eq_nil_iff.mp hnil
    simp [this] at h
    omega

theorem swapFiles_perm (files : List Str) (i j : Nat) : (swapFiles files i j).Perm files := by
  unfold swapFiles
  split
  · rename_i a b ha hb
    obtain ⟨hi, rfl⟩ := List.getElem?_eq_some_iff.mp ha
    obtain ⟨hj, rfl⟩ := List.getElem?_eq_some_iff.mp hb
    exact List.set_set_perm hi hj
  · exact .refl _

variable (env : SlideEnv W F I)

theorem shuffleLoop_perm (i : Nat) (files : List Str) (w : W) :
    (shuffleLoop env i files w).1.Perm files := by
  induction i generalizing files w with
  | zero => exact .refl _
  | succ i ih =>
    simp only [shuffleLoop]
    exact (ih _ _).trans (swapFiles_perm files _ _)

theorem shuffleSlideShowFiles_perm (files : List Str) (w : W) :
    (shuffleSlideShowFiles env files w).1.Perm files := by
  unfold shuffleSlideShowFiles
  split
  · exact .refl _
  · exact shuffleLoop_perm env _ files w

end List

/-! ## One step of the show -/

namespace MainWnd

variable {W F I : Type} {env : SlideEnv W F I} {m m' : MainWnd W I}

/-- The show at a file and in a round. -/
def moveTo (m : MainWnd W I) (index round : Int) : MainWnd W I :=
  { m with slideShow := { m.slideShow with index, round } }

/-- The show is off and its list cleared. -/
structure Stopped (m : MainWnd W I) : Prop where
  active : m.slideShow.active = false
  timer : m.slideShow.timer = none
  files : m.slideShow.files = []

/-- The index is in the list. -/
structure InRange (m : MainWnd W I) : Prop where
  nonneg : 0 ≤ m.slideShow.index
  lt : m.slideShow.index < m.slideShow.files.length

/-- The show is on. -/
structure Ready (m : MainWnd W I) : Prop extends InRange m where
  active : m.slideShow.active = true

/-- The show waits for the timer. -/
structure Playing (m : MainWnd W I) : Prop extends Ready m where
  timer : m.slideShow.timer.isSome = true

theorem stopSlideShow_stopped (m : MainWnd W I) : Stopped m.stopSlideShow := ⟨rfl, rfl, rfl⟩

theorem Ready.files_ne_nil (h : Ready m) : m.slideShow.files ≠ [] := by
  intro hnil
  have hlt := h.lt
  have h0 := h.nonneg
  simp [hnil] at hlt
  omega

theorem Ready.resetSlideShowTimer (h : Ready m) : Playing m.resetSlideShowTimer := by
  unfold MainWnd.resetSlideShowTimer
  rw [if_neg (not_not.mpr h.active)]
  exact ⟨⟨⟨h.nonneg, h.lt⟩, h.active⟩, rfl⟩

theorem resetSlideShowTimer_opened (m : MainWnd W I) : m.resetSlideShowTimer.opened = m.opened := by
  unfold resetSlideShowTimer
  split
  · rfl
  · rfl

theorem resetSlideShowTimer_sys (m : MainWnd W I) : m.resetSlideShowTimer.sys = m.sys := by
  unfold resetSlideShowTimer
  split
  · rfl
  · rfl

theorem resetSlideShowTimer_files (m : MainWnd W I) :
    m.resetSlideShowTimer.slideShow.files = m.slideShow.files := by
  unfold resetSlideShowTimer
  split
  · rfl
  · rfl

/-- Shuffling changes the order of the list and the state of the generator. -/
theorem reorder_spec (env : SlideEnv W F I) (m : MainWnd W I) :
    ∃ files w, files.Perm m.slideShow.files ∧
      (m.slideShow.options.order ≠ .ORDER_RANDOM → files = m.slideShow.files) ∧
      m.reorder env = { m with sys := m.sys.setWorld w, slideShow := { m.slideShow with files } } := by
  unfold reorder
  split
  · rename_i horder
    refine ⟨_, _, shuffleSlideShowFiles_perm env _ m.sys.world, ?_, rfl⟩
    intro hne
    exact absurd horder hne
  · refine ⟨m.slideShow.files, m.sys.world, .refl _, ?_, rfl⟩
    intro _
    rfl

/-- The index moves on, or the last round is over, or the next round begins. -/
theorem stepSlideShowIndex_cases (env : SlideEnv W F I) (m : MainWnd W I) :
    let i := m.slideShow.index + 1
    let r := m.slideShow.round + 1
    let last := m.slideShow.options.repeat = .REPEAT_COUNT ∧ r ≥ m.slideShow.options.rounds
    (i < m.slideShow.files.length ∧
        m.stepSlideShowIndex env = (true, m.moveTo i m.slideShow.round)) ∨
      (m.slideShow.files.length ≤ i ∧ last ∧
        m.stepSlideShowIndex env = (false, (m.moveTo i r).stopSlideShow)) ∨
      (m.slideShow.files.length ≤ i ∧ ¬ last ∧
        m.stepSlideShowIndex env = (true, (m.moveTo 0 r).reorder env)) := by
  intro i r last
  unfold stepSlideShowIndex
  by_cases hi : i < m.slideShow.files.length
  · left
    refine ⟨hi, ?_⟩
    simp only
    rw [if_pos hi]
    rfl
  · right
    have hle : (m.slideShow.files.length : Int) ≤ i := by omega
    simp only
    rw [if_neg hi]
    by_cases hlast : last
    · left
      refine ⟨hle, hlast, ?_⟩
      rw [if_pos hlast]
      rfl
    · right
      refine ⟨hle, hlast, ?_⟩
      rw [if_neg hlast]
      rfl

/-- The call of `open`: nothing else of the show changes. -/
theorem openSlideShowCurrent_inRange (env : SlideEnv W F I) (h : InRange m) :
    let file := m.slideShow.files.getD m.slideShow.index.toNat []
    ∃ custom w, let r := (m.sys.setWorld w).open env.toEnv (Sys.slideShowCall custom file)
      (custom, w) = m.slideShowFs env ∧
      m.openSlideShowCurrent env =
        (decide (r.1 = .OK),
          { m with sys := r.2, opened := m.opened ++ [(file, decide (r.1 = .OK))] }) := by
  intro file
  have hin : ¬ (m.slideShow.index < 0 ∨ m.slideShow.index ≥ m.slideShow.files.length) := by
    have h0 := h.nonneg
    have hlt := h.lt
    omega
  unfold openSlideShowCurrent
  simp only
  rw [if_neg hin]
  exact ⟨_, _, rfl, rfl⟩

theorem Ready.step (h : Ready m) (hstep : m.stepSlideShowIndex env = (true, m')) : Ready m' := by
  have h0 := h.nonneg
  have hlt := h.lt
  rcases stepSlideShowIndex_cases env m with ⟨hi, heq⟩ | ⟨-, -, heq⟩ | ⟨-, -, heq⟩
  · rw [heq] at hstep
    cases hstep
    exact ⟨⟨by simp only [MainWnd.moveTo]; omega, hi⟩, h.active⟩
  · rw [heq] at hstep
    cases hstep
  · obtain ⟨files, w, hperm, -, hre⟩ := reorder_spec env (m.moveTo 0 (m.slideShow.round + 1))
    rw [heq, hre] at hstep
    cases hstep
    refine ⟨⟨Int.le_refl 0, ?_⟩, h.active⟩
    have hlen : files.length = m.slideShow.files.length := hperm.length_eq
    simp only [hlen, MainWnd.moveTo]
    omega

theorem stepSlideShowIndex_opened (env : SlideEnv W F I) (m : MainWnd W I) :
    (m.stepSlideShowIndex env).2.opened = m.opened := by
  rcases stepSlideShowIndex_cases env m with ⟨-, heq⟩ | ⟨-, -, heq⟩ | ⟨-, -, heq⟩
  · rw [heq]
    rfl
  · rw [heq]
    rfl
  · obtain ⟨files, w, -, -, hre⟩ := reorder_spec env (m.moveTo 0 (m.slideShow.round + 1))
    rw [heq, hre]
    rfl

theorem stepSlideShowIndex_stopped (hstep : m.stepSlideShowIndex env = (false, m')) : Stopped m' := by
  rcases stepSlideShowIndex_cases env m with ⟨-, heq⟩ | ⟨-, -, heq⟩ | ⟨-, -, heq⟩
  · rw [heq] at hstep
    cases hstep
  · rw [heq] at hstep
    cases hstep
    exact stopSlideShow_stopped _
  · rw [heq] at hstep
    cases hstep

/-! ## One tick -/

/-- What a loop of attempts does: it opens files until one can be opened, at most as many as there
are attempts, and goes on playing or stops. -/
structure Tried (attempts : Nat) (m m' : MainWnd W I) : Prop where
  consistent : Playing m' ∨ Stopped m'
  opened : ∃ tried : List (Str × Bool), m'.opened = m.opened ++ tried ∧ tried.length ≤ attempts ∧
    ((∀ e ∈ tried, e.2 = false) → Stopped m')

theorem advanceLoop_tried (env : SlideEnv W F I) (attempts : Nat) (h : Ready m) :
    Tried attempts m (advanceLoop env attempts m) := by
  induction attempts generalizing m with
  | zero =>
    have hstop := stopSlideShow_stopped m
    exact ⟨.inr hstop, [], by simp [advanceLoop, stopSlideShow], by simp, fun _ => hstop⟩
  | succ attempts ih =>
    have hopened := stepSlideShowIndex_opened env m
    cases hstep : m.stepSlideShowIndex env with
    | mk go m₁ =>
      rw [hstep] at hopened
      cases go with
      | false =>
        have hstop := stepSlideShowIndex_stopped hstep
        simp only [advanceLoop, hstep]
        exact ⟨.inr hstop, [], by simpa using hopened, by simp, fun _ => hstop⟩
      | true =>
        have hready := h.step hstep
        obtain ⟨custom, w, -, hopen⟩ := openSlideShowCurrent_inRange env hready.toInRange
        simp only [advanceLoop, hstep, hopen]
        generalize (m₁.sys.setWorld w).open env.toEnv _ = r
        by_cases hok : r.1 = .OK
        · simp only [hok, decide_true]
          refine ⟨.inl (Ready.resetSlideShowTimer ⟨⟨hready.nonneg, hready.lt⟩, hready.active⟩), ?_⟩
          refine ⟨[(m₁.slideShow.files.getD m₁.slideShow.index.toNat [], true)], ?_, by simp, ?_⟩
          · rw [resetSlideShowTimer_opened]
            simp [← hopened]
          · intro hall
            simp at hall
        · simp only [hok, decide_false]
          obtain ⟨hcon, tried, htried, hlen, hstop⟩ := ih (m := { m₁ with
            sys := r.2
            opened := m₁.opened ++ [(m₁.slideShow.files.getD m₁.slideShow.index.toNat [], false)] })
            ⟨⟨hready.nonneg, hready.lt⟩, hready.active⟩
          refine ⟨hcon, (m₁.slideShow.files.getD m₁.slideShow.index.toNat [], false) :: tried, ?_, ?_, ?_⟩
          · rw [htried]
            simp [← hopened]
          · simp
            omega
          · intro hall
            exact hstop fun e he => hall e (List.mem_cons_of_mem _ he)

theorem advanceSlideShow_ready (env : SlideEnv W F I) (h : Ready m) :
    m.advanceSlideShow env = advanceLoop env m.slideShow.files.length m := by
  unfold advanceSlideShow
  rw [if_neg]
  simp [h.active, h.files_ne_nil]

theorem advanceSlideShow_stopped (env : SlideEnv W F I) (h : Stopped m) :
    m.advanceSlideShow env = m := by
  unfold advanceSlideShow
  rw [if_pos]
  simp [h.active]

/-- A tick of a show that plays or is stopped. -/
theorem advanceSlideShow_tried (env : SlideEnv W F I) (h : Playing m ∨ Stopped m) :
    Tried m.slideShow.files.length m (m.advanceSlideShow env) := by
  rcases h with h | h
  · rw [advanceSlideShow_ready env h.toReady]
    exact advanceLoop_tried env _ h.toReady
  · rw [advanceSlideShow_stopped env h]
    exact ⟨.inr h, [], by simp, by simp, fun _ => h⟩

/-! ## The start -/

/-- The list is built and the show made ready, or there is nothing to show. -/
theorem prepareSlideShow_cases (env : SlideEnv W F I) (m : MainWnd W I) (o : SlideShowOptions) :
    (buildSlideShowFiles m.sys.doc o = [] ∧ Stopped (m.prepareSlideShow env o) ∧
        (m.prepareSlideShow env o).opened = m.opened ∧
        (m.prepareSlideShow env o).sys.doc = m.sys.doc) ∨
      ∃ files w, files.Perm (buildSlideShowFiles m.sys.doc o) ∧ files ≠ [] ∧
        (o.order ≠ .ORDER_RANDOM → files = buildSlideShowFiles m.sys.doc o) ∧
        m.prepareSlideShow env o = { m with
          sys := m.sys.setWorld w
          slideShow := ⟨true, none, o, files, 0, 0⟩ } := by
  by_cases hb : buildSlideShowFiles m.sys.doc o = []
  · left
    have hprep : m.prepareSlideShow env o = { m with
        sys := m.sys.messageBox "No images are available for the slide show." "Slide Show"
        slideShow := ⟨false, none, o, [], m.slideShow.index, m.slideShow.round⟩ } := by
      simp [prepareSlideShow, stopSlideShow, hb]
    rw [hprep]
    exact ⟨hb, ⟨rfl, rfl, rfl⟩, rfl, rfl⟩
  · right
    obtain ⟨files, w, hperm, hkept, hre⟩ := reorder_spec env { m with slideShow :=
      ⟨false, none, o, buildSlideShowFiles m.sys.doc o, m.slideShow.index, m.slideShow.round⟩ }
    refine ⟨files, w, hperm, ?_, hkept, ?_⟩
    · intro hnil
      rw [hnil] at hperm
      exact hb (List.nil_perm.mp hperm)
    · simp only [prepareSlideShow, stopSlideShow, hb, if_false, hre]

/-- `Doc::open` has opened `file` for the show, and the document is what it has left. -/
def Opens (env : SlideEnv W F I) (file : Str) (s s' : Sys W I) : Prop :=
  ∃ custom w, (s.setWorld w).open env.toEnv (Sys.slideShowCall custom file) = (.OK, s')

/-- The show after a file it could open. -/
structure Moved (env : SlideEnv W F I) (m m' : MainWnd W I) : Prop extends Playing m' where
  options : m'.slideShow.options = m.slideShow.options
  files : m'.slideShow.files = m.slideShow.files
  index : m'.slideShow.index = m.slideShow.index
  round : m'.slideShow.round = m.slideShow.round
  opened : m'.opened = m.opened ++ [(m.slideShow.files.getD m.slideShow.index.toNat [], true)]
  sys : Opens env (m.slideShow.files.getD m.slideShow.index.toNat []) m.sys m'.sys

theorem openSlideShowCurrent_cases (env : SlideEnv W F I) (h : Ready m) :
    (∃ m', m.openSlideShowCurrent env = (true, m') ∧ Moved env m m'.resetSlideShowTimer) ∨
      ∃ m', m.openSlideShowCurrent env = (false, m') ∧ Ready m' ∧
        m'.opened = m.opened ++ [(m.slideShow.files.getD m.slideShow.index.toNat [], false)] := by
  obtain ⟨custom, w, -, hopen⟩ := openSlideShowCurrent_inRange env h.toInRange
  rw [hopen]
  have hsys : ∀ r, (m.sys.setWorld w).open env.toEnv
      (Sys.slideShowCall custom (m.slideShow.files.getD m.slideShow.index.toNat [])) = r → r.1 = .OK →
      Opens env (m.slideShow.files.getD m.slideShow.index.toNat []) m.sys r.2 :=
    fun r hr hok => ⟨custom, w, hr.trans (Prod.ext hok rfl)⟩
  generalize (m.sys.setWorld w).open env.toEnv _ = r at hsys
  by_cases hok : r.1 = .OK
  · left
    have hopens := hsys r rfl hok
    simp only [hok, decide_true]
    refine ⟨_, rfl, Ready.resetSlideShowTimer ⟨⟨h.nonneg, h.lt⟩, h.active⟩, ?_, ?_, ?_, ?_, ?_, ?_⟩
    all_goals
      unfold MainWnd.resetSlideShowTimer
      rw [if_neg (not_not.mpr h.active)]
    exact hopens
  · right
    simp only [hok, decide_false]
    exact ⟨_, rfl, ⟨⟨h.nonneg, h.lt⟩, h.active⟩, rfl⟩

theorem startSlideShow_tried (env : SlideEnv W F I) (m : MainWnd W I) (o : SlideShowOptions) :
    (Playing (m.startSlideShow env o) ∨ Stopped (m.startSlideShow env o)) ∧
      ∃ tried, (m.startSlideShow env o).opened = m.opened ++ tried := by
  unfold startSlideShow
  rcases prepareSlideShow_cases env m o with ⟨-, hstop, hopened, -⟩ | ⟨files, w, -, hne, -, hprep⟩
  · simp only [hstop.files, if_true]
    exact ⟨.inr hstop, [], by rw [hopened, List.append_nil]⟩
  · rw [hprep]
    simp only [hne, if_false]
    have hready : Ready { m with
        sys := m.sys.setWorld w, slideShow := ⟨true, none, o, files, 0, 0⟩ } := by
      refine ⟨⟨Int.le_refl 0, ?_⟩, rfl⟩
      have := List.length_pos_iff.mpr hne
      simp
      omega
    rcases openSlideShowCurrent_cases env hready with ⟨m', hopen, hmoved⟩ | ⟨m', hopen, hr, hopened⟩
    · rw [hopen]
      exact ⟨.inl hmoved.toPlaying, _, hmoved.opened⟩
    · rw [hopen]
      simp only
      rw [advanceSlideShow_ready env hr]
      obtain ⟨hcon, tried, htried, -, -⟩ := advanceLoop_tried env m'.slideShow.files.length hr
      exact ⟨hcon, _, by rw [htried, hopened, List.append_assoc]⟩

end MainWnd

/-! ## All the runs of the window -/

/-- The messages that touch the show; `other` is anything else the window does to the document. -/
inductive ShowEvent (W I : Type) where
  | start (o : SlideShowOptions)
  | tick
  | stop
  | resetTimer
  | other (sys : Sys W I)

namespace MainWnd

variable {W F I : Type}

def handle (env : SlideEnv W F I) (m : MainWnd W I) : ShowEvent W I → MainWnd W I
  | .start o => m.startSlideShow env o
  | .tick => m.onTimer env
  | .stop => m.stopSlideShow
  | .resetTimer => m.onResetTimer
  | .other sys => { m with sys }

def showMachine (env : SlideEnv W F I) : Lib.Machine (MainWnd W I) (ShowEvent W I) where
  init m := ∃ sys, m = { sys }
  step m e m' := m.handle env e = m'

variable {env : SlideEnv W F I} {m m' : MainWnd W I}

theorem Playing.syncSlideShowIndexToCurrent (h : Playing m) :
    Playing m.syncSlideShowIndexToCurrent := by
  unfold MainWnd.syncSlideShowIndexToCurrent
  split
  · exact h
  · split
    · rename_i i hfind
      obtain ⟨hi, -⟩ := List.findIdx?_eq_some_iff_getElem.mp hfind
      refine ⟨⟨⟨?_, ?_⟩, h.active⟩, h.timer⟩
      · simp
      · simpa using hi
    · exact h

/-- Between two messages the show plays or is stopped. -/
theorem reach_consistent (h : (showMachine env).Reach Lib.Machine.always m) :
    Playing m ∨ Stopped m := by
  refine h.holds (P := fun m => Playing m ∨ Stopped m) ?_ ?_
  · rintro m ⟨sys, rfl⟩
    exact .inr ⟨rfl, rfl, rfl⟩
  · intro m e m' hm _ hstep
    obtain rfl := hstep
    cases e with
    | start o => exact (startSlideShow_tried env m o).1
    | tick =>
      simp only [handle, onTimer]
      split
      · exact (advanceSlideShow_tried env hm).consistent
      · exact hm
    | stop => exact .inr (stopSlideShow_stopped m)
    | resetTimer =>
      simp only [handle, onResetTimer]
      split
      · rename_i hactive
        rcases hm with hm | hm
        · exact .inl (hm.syncSlideShowIndexToCurrent.toReady.resetSlideShowTimer)
        · rw [hm.active] at hactive
          cases hactive
      · exact hm
    | other sys =>
      rcases hm with hm | hm
      · exact .inl ⟨⟨⟨hm.nonneg, hm.lt⟩, hm.active⟩, hm.timer⟩
      · exact .inr ⟨hm.active, hm.timer, hm.files⟩

end MainWnd

end ObZrv
