import ObZrv.Doc.Failure
import ObZrv.Doc.SlideShow

/-!
# Doc.SlideRounds

A show with a number of rounds, timer tick by timer tick.

* `OpenedInTurn`     : files opened one after the other, and the document they leave.
* `Showing`, `Finished` : the show within a round and at its end.
* `ticks_show`       : as long as every file can be opened, tick by tick.
* `slideShow_covers` : the list, the rounds and the attempts of a tick.
-/

namespace ObZrv

namespace MainWnd

variable {W F I : Type}

/-- Every file tried since `m` could be opened. -/
def AllOpened (m m' : MainWnd W I) : Prop := ∀ e ∈ m'.opened.drop m.opened.length, e.2 = true

/-- A list as one round goes through it: the source in the order asked for, or in any. -/
structure RoundOf (d : Doc I) (o : SlideShowOptions) (files : List Str) : Prop where
  perm : files.Perm (o.sourceFiles d)
  inOrder : o.order ≠ .ORDER_RANDOM → files = o.listed d

/-- Attempts on files that all could be opened. -/
def succeeded (files : List Str) : List (Str × Bool) := files.map (·, true)

/-- The files were opened one after the other, each one on the document that the one before it has
left. -/
inductive OpenedInTurn (env : SlideEnv W F I) (s : Sys W I) : List Str → Sys W I → Prop where
  | nil : OpenedInTurn env s [] s
  | snoc {files : List Str} {file : Str} {s' s'' : Sys W I} :
      OpenedInTurn env s files s' → Opens env file s' s'' → OpenedInTurn env s (files ++ [file]) s''

/-- The files in the log since `m₀` are these, all of them opened, and the document is what they have
left. -/
def Through (env : SlideEnv W F I) (m₀ : MainWnd W I) (files : List Str) (m : MainWnd W I) : Prop :=
  m.opened = m₀.opened ++ succeeded files ∧ OpenedInTurn env m₀.sys files m.sys

/-- The show has been through `r` whole rounds and, in the list of this one, through the first
`i + 1` files. -/
structure Showing (env : SlideEnv W F I) (m₀ : MainWnd W I) (o : SlideShowOptions) (r i : Nat)
    (m : MainWnd W I) : Prop extends Playing m where
  options : m.slideShow.options = o
  index : m.slideShow.index = i
  round : m.slideShow.round = r
  files : RoundOf m₀.sys.doc o m.slideShow.files
  opened : ∃ done : List (List Str), done.length = r ∧ (∀ l ∈ done, RoundOf m₀.sys.doc o l) ∧
    Through env m₀ (done.flatten ++ m.slideShow.files.take (i + 1)) m

/-- The show has been through `R` rounds and is stopped. -/
structure Finished (env : SlideEnv W F I) (m₀ : MainWnd W I) (o : SlideShowOptions) (R : Nat)
    (m : MainWnd W I) : Prop extends Stopped m where
  opened : ∃ done : List (List Str), done.length = R ∧ (∀ l ∈ done, RoundOf m₀.sys.doc o l) ∧
    Through env m₀ done.flatten m

variable {env : SlideEnv W F I} {m₀ m m' : MainWnd W I} {o : SlideShowOptions}

theorem RoundOf.listed (h : o.HasFiles m₀.sys.doc) {files : List Str}
    (hperm : files.Perm (buildSlideShowFiles m₀.sys.doc o))
    (hkept : o.order ≠ .ORDER_RANDOM → files = buildSlideShowFiles m₀.sys.doc o) :
    RoundOf m₀.sys.doc o files := by
  rw [buildSlideShowFiles_eq h] at hperm hkept
  exact ⟨hperm.trans (o.listed_perm _), hkept⟩

theorem RoundOf.reordered {d : Doc I} {files files' : List Str} (h : RoundOf d o files)
    (hperm : files'.Perm files) (hkept : o.order ≠ .ORDER_RANDOM → files' = files) :
    RoundOf d o files' := by
  refine ⟨hperm.trans h.perm, ?_⟩
  intro horder
  rw [hkept horder]
  exact h.inOrder horder

/-- A failed attempt is not among the successful ones. -/
theorem not_allOpened {files : List Str} {file : Str} {rest : List (Str × Bool)}
    (h : m.opened = m₀.opened ++ succeeded files ++ [(file, false)] ++ rest) : ¬ AllOpened m₀ m := by
  intro hall
  have hmem : (file, false) ∈ m.opened.drop m₀.opened.length := by
    rw [h]
    simp [List.append_assoc]
  have := hall _ hmem
  cases this

/-- The attempts only grow, so a run of successes has only successes before. -/
theorem AllOpened.of_tick (h : AllOpened m₀ m') {tried : List (Str × Bool)}
    (htried : m'.opened = m.opened ++ tried) : AllOpened m₀ m := by
  intro e he
  apply h
  rw [htried]
  by_cases hlen : m₀.opened.length ≤ m.opened.length
  · rw [List.drop_append_of_le_length hlen]
    exact List.mem_append_left _ he
  · rw [List.drop_eq_nil_of_le (by omega)] at he
    cases he

theorem take_succ_getD (files : List Str) {i : Nat} (h : i < files.length) :
    files.take (i + 1) = files.take i ++ [files.getD i []] := by
  rw [List.take_succ_eq_append_getElem h, List.getElem_eq_getD]

/-- If all goes well in the end, whatever is done after a failure, the file at the index has been
opened. -/
theorem opened_of_allOpened (h : Ready m)
    (hopened : ∃ files, m.opened = m₀.opened ++ succeeded files)
    (hafter : ∀ m', m.openSlideShowCurrent env = (false, m') → Ready m' →
      ∃ m'' tried, AllOpened m₀ m'' ∧ m''.opened = m'.opened ++ tried) :
    ∃ m', m.openSlideShowCurrent env = (true, m') ∧ Moved env m m'.resetSlideShowTimer := by
  rcases openSlideShowCurrent_cases env h with hok | ⟨m', hopen, hr, hfail⟩
  · exact hok
  · obtain ⟨files, hopened⟩ := hopened
    obtain ⟨m'', tried, hall, htried⟩ := hafter m' hopen hr
    have hnew : m''.opened = m₀.opened ++ succeeded files ++
        [(m.slideShow.files.getD m.slideShow.index.toNat [], false)] ++ tried := by
      rw [htried, hfail, hopened]
    exact absurd hall (not_allOpened hnew)

/-- The same where the loop goes on after a failure. -/
theorem opened_of_loop {n : Nat} (h : Ready m)
    (hopened : ∃ files, m.opened = m₀.opened ++ succeeded files)
    (hall : ∀ m', m.openSlideShowCurrent env = (false, m') → AllOpened m₀ (advanceLoop env n m')) :
    ∃ m', m.openSlideShowCurrent env = (true, m') ∧ Moved env m m'.resetSlideShowTimer := by
  refine opened_of_allOpened h hopened ?_
  intro m' hopen hr
  obtain ⟨tried, htried, -⟩ := (advanceLoop_tried env n hr).opened
  exact ⟨_, tried, hall m' hopen, htried⟩

/-- The first file of a show. -/
theorem startSlideShow_showing (env : SlideEnv W F I) (h : o.HasFiles m₀.sys.doc)
    (hall : AllOpened m₀ (m₀.startSlideShow env o)) :
    Showing env m₀ o 0 0 (m₀.startSlideShow env o) := by
  have hbuilt : buildSlideShowFiles m₀.sys.doc o ≠ [] := by
    rw [buildSlideShowFiles_eq h]
    intro hnil
    have hperm := o.listed_perm m₀.sys.doc
    rw [hnil] at hperm
    exact h.sourceFiles_ne_nil (List.nil_perm.mp hperm)
  rcases prepareSlideShow_cases env m₀ o with ⟨hnil, -, -⟩ | ⟨files, w, hperm, hne, hkept, hprep⟩
  · exact absurd hnil hbuilt
  · have hlen := List.length_pos_iff.mpr hne
    have hready : Ready { m₀ with
        sys := m₀.sys.setWorld w, slideShow := ⟨true, none, o, files, 0, 0⟩ } := by
      refine ⟨⟨Int.le_refl 0, ?_⟩, rfl⟩
      simp
      omega
    unfold startSlideShow at hall ⊢
    rw [hprep] at hall ⊢
    simp only [hne, if_false] at hall ⊢
    obtain ⟨m', hopen, hmoved⟩ := opened_of_allOpened hready
      ⟨[], (List.append_nil m₀.opened).symm⟩ (by
        intro m' hopen hr
        rw [hopen] at hall
        simp only at hall
        rw [advanceSlideShow_ready env hr] at hall
        obtain ⟨tried, htried, -⟩ := (advanceLoop_tried env m'.slideShow.files.length hr).opened
        exact ⟨_, tried, hall, htried⟩)
    rw [hopen]
    refine ⟨hmoved.toPlaying, hmoved.options, hmoved.index, hmoved.round, ?_, [], rfl, ?_, ?_⟩
    · rw [hmoved.files]
      exact .listed h hperm hkept
    · intro l hl
      cases hl
    · obtain ⟨custom, w', hopens⟩ := hmoved.sys
      have hfirst : Through env m₀ ([] ++ [files.getD 0 []]) m'.resetSlideShowTimer := by
        refine ⟨hmoved.opened, .snoc .nil ⟨custom, w', ?_⟩⟩
        exact hopens
      rw [hmoved.files]
      simp only [take_succ_getD files hlen, List.take_zero, List.flatten_nil, List.nil_append]
      exact hfirst

/-- One more file. -/
theorem Through.snoc {files : List Str} (h : Through env m₀ files m) {file : Str}
    (hopened : m'.opened = m.opened ++ [(file, true)]) (hsys : Opens env file m.sys m'.sys) :
    Through env m₀ (files ++ [file]) m' := by
  refine ⟨?_, .snoc h.2 hsys⟩
  rw [hopened, h.1, List.append_assoc, succeeded, succeeded, List.map_append, List.map_cons,
    List.map_nil]

/-- The next file of a round has been opened. -/
theorem Showing.nextFile {r i : Nat} (h : Showing env m₀ o r i m) (hi : i + 1 < m.slideShow.files.length)
    (hmoved : Moved env (m.moveTo (m.slideShow.index + 1) m.slideShow.round) m') :
    Showing env m₀ o r (i + 1) m' := by
  obtain ⟨done, hdone, hrounds, hthrough⟩ := h.opened
  refine ⟨hmoved.toPlaying, ?_, ?_, ?_, ?_, done, hdone, hrounds, ?_⟩
  · exact hmoved.options.trans h.options
  · rw [hmoved.index]
    simp [moveTo, h.index]
  · exact hmoved.round.trans h.round
  · rw [hmoved.files]
    exact h.files
  · have hto : (m.slideShow.index + 1).toNat = i + 1 := by
      rw [h.index]
      omega
    have hopened := hmoved.opened
    have hsys := hmoved.sys
    simp only [moveTo, hto] at hopened hsys
    have hnext := hthrough.snoc hopened hsys
    rw [List.append_assoc, ← take_succ_getD m.slideShow.files hi] at hnext
    rw [hmoved.files]
    exact hnext

/-- The rounds that are over after the last file of one. -/
theorem Showing.roundOver {r i : Nat} (h : Showing env m₀ o r i m)
    (hlast : i + 1 = m.slideShow.files.length) :
    ∃ done : List (List Str), done.length = r + 1 ∧ (∀ l ∈ done, RoundOf m₀.sys.doc o l) ∧
      Through env m₀ done.flatten m := by
  obtain ⟨done, hdone, hrounds, hthrough⟩ := h.opened
  refine ⟨done ++ [m.slideShow.files], ?_, ?_, ?_⟩
  · simp [hdone]
  · intro l hl
    rcases List.mem_append.mp hl with hl | hl
    · exact hrounds l hl
    · rw [List.mem_singleton.mp hl]
      exact h.files
  · rw [hlast, List.take_length] at hthrough
    rw [List.flatten_append, List.flatten_singleton]
    exact hthrough

/-- The first file of the next round has been opened. -/
theorem Showing.nextRound {r i : Nat} (h : Showing env m₀ o r i m)
    (hlast : i + 1 = m.slideShow.files.length) {files : List Str} {w : W}
    (hround : RoundOf m₀.sys.doc o files) (hpos : 0 < files.length)
    (hmoved : Moved env
      { m.moveTo 0 (m.slideShow.round + 1) with
        sys := (m.moveTo 0 (m.slideShow.round + 1)).sys.setWorld w
        slideShow := { (m.moveTo 0 (m.slideShow.round + 1)).slideShow with files } } m') :
    Showing env m₀ o (r + 1) 0 m' := by
  obtain ⟨done, hdone, hrounds, hthrough⟩ := h.roundOver hlast
  refine ⟨hmoved.toPlaying, ?_, ?_, ?_, ?_, done, hdone, hrounds, ?_⟩
  · exact hmoved.options.trans h.options
  · exact hmoved.index
  · rw [hmoved.round]
    simp [moveTo, h.round]
  · rw [hmoved.files]
    exact hround
  · obtain ⟨custom, w', hopens⟩ := hmoved.sys
    have hnext := hthrough.snoc hmoved.opened ⟨custom, w', hopens⟩
    rw [hmoved.files, take_succ_getD files hpos]
    exact hnext

/-- The next file, in this round or at the start of the next, or the end. -/
theorem onTimer_showing {r i R : Nat} (h : Showing env m₀ o r i m) (hrep : o.repeat = .REPEAT_COUNT)
    (hrounds : o.rounds = R) (hall : AllOpened m₀ (m.onTimer env)) :
    (i + 1 < m.slideShow.files.length ∧ Showing env m₀ o r (i + 1) (m.onTimer env)) ∨
      (i + 1 = m.slideShow.files.length ∧ r + 1 < R ∧ Showing env m₀ o (r + 1) 0 (m.onTimer env)) ∨
      (i + 1 = m.slideShow.files.length ∧ R ≤ r + 1 ∧ Finished env m₀ o (r + 1) (m.onTimer env)) := by
  have hopened : ∃ files, m.opened = m₀.opened ++ succeeded files := by
    obtain ⟨done, -, -, hthrough⟩ := h.opened
    exact ⟨_, hthrough.1⟩
  have hlt := h.lt
  rw [h.index] at hlt
  have hloop : m.onTimer env = advanceLoop env (m.slideShow.files.length - 1 + 1) m := by
    have hsucc : m.slideShow.files.length - 1 + 1 = m.slideShow.files.length := by omega
    unfold onTimer
    rw [if_pos h.timer, advanceSlideShow_ready env h.toReady, hsucc]
  rw [hloop] at hall ⊢
  rcases stepSlideShowIndex_cases env m with ⟨hi, hstep⟩ | ⟨hi, hlast, hstep⟩ | ⟨hi, hlast, hstep⟩
  all_goals rw [h.index] at hi
  all_goals simp only [advanceLoop, hstep] at hall ⊢
  · -- the next file of this round
    left
    have hready : Ready (m.moveTo (m.slideShow.index + 1) m.slideShow.round) := h.toReady.step hstep
    obtain ⟨m', hopen, hmoved⟩ := opened_of_loop hready hopened (by
      intro m' hopen
      rw [hopen] at hall
      exact hall)
    rw [hopen]
    exact ⟨by omega, h.nextFile (by omega) hmoved⟩
  · -- the last round is over
    right; right
    have hlen : i + 1 = m.slideShow.files.length := by omega
    obtain ⟨-, hge⟩ := hlast
    rw [h.round, h.options, hrounds] at hge
    exact ⟨hlen, by omega, stopSlideShow_stopped _, h.roundOver hlen⟩
  · -- the next round begins
    right; left
    have hlen : i + 1 = m.slideShow.files.length := by omega
    rw [h.options, h.round, hrounds] at hlast
    have hmore : r + 1 < R := by
      by_contra hle
      exact hlast ⟨hrep, by omega⟩
    have hready := h.toReady.step hstep
    obtain ⟨files, w, hperm, hkept, hre⟩ := reorder_spec env (m.moveTo 0 (m.slideShow.round + 1))
    rw [hre] at hready hall ⊢
    have hpos : 0 < files.length := by
      have := hperm.length_eq
      simp only [moveTo] at this
      omega
    have hround : RoundOf m₀.sys.doc o files := by
      refine h.files.reordered hperm ?_
      intro horder
      refine hkept ?_
      rw [show (m.moveTo 0 (m.slideShow.round + 1)).slideShow.options = o from h.options]
      exact horder
    obtain ⟨m', hopen, hmoved⟩ := opened_of_loop hready hopened (by
      intro m' hopen
      rw [hopen] at hall
      exact hall)
    rw [hopen]
    exact ⟨hlen, hmore, h.nextRound hlen hround hpos hmoved⟩

/-- The show plays or is stopped after every tick, and the attempts only grow. -/
theorem onTimer_tried (env : SlideEnv W F I) (h : Playing m ∨ Stopped m) :
    (Playing (m.onTimer env) ∨ Stopped (m.onTimer env)) ∧
      ∃ tried, (m.onTimer env).opened = m.opened ++ tried := by
  unfold onTimer
  split
  · obtain ⟨hcon, tried, htried, -⟩ := advanceSlideShow_tried env h
    exact ⟨hcon, tried, htried⟩
  · exact ⟨h, [], by simp⟩

theorem ticks_consistent (env : SlideEnv W F I) (m₀ : MainWnd W I) (o : SlideShowOptions) (k : Nat) :
    Playing (ticks env k (m₀.startSlideShow env o)) ∨
      Stopped (ticks env k (m₀.startSlideShow env o)) := by
  induction k with
  | zero => exact (startSlideShow_tried env m₀ o).1
  | succ k ih => exact (onTimer_tried env ih).1

theorem Finished.onTimer {R : Nat} (h : Finished env m₀ o R m) : Finished env m₀ o R (m.onTimer env) := by
  unfold MainWnd.onTimer
  rw [if_neg (by simp [h.timer])]
  exact h

/-- After `k` ticks the show is at file `i` of round `r`, or has been through all its rounds. -/
theorem ticks_show {R : Nat} (h : o.HasFiles m₀.sys.doc) (hrep : o.repeat = .REPEAT_COUNT)
    (hrounds : o.rounds = R) (hR : 0 < R) (k : Nat)
    (hall : AllOpened m₀ (ticks env k (m₀.startSlideShow env o))) :
    (∃ r i, k = r * (o.sourceFiles m₀.sys.doc).length + i ∧
        i < (o.sourceFiles m₀.sys.doc).length ∧ r < R ∧
        Showing env m₀ o r i (ticks env k (m₀.startSlideShow env o))) ∨
      (R * (o.sourceFiles m₀.sys.doc).length ≤ k ∧
        Finished env m₀ o R (ticks env k (m₀.startSlideShow env o))) := by
  induction k with
  | zero =>
    left
    have hpos := List.length_pos_iff.mpr h.sourceFiles_ne_nil
    exact ⟨0, 0, by simp, hpos, hR, startSlideShow_showing env h hall⟩
  | succ k ih =>
    obtain ⟨-, tried, htried⟩ := onTimer_tried env (ticks_consistent env m₀ o k)
    rcases ih (hall.of_tick htried) with ⟨r, i, hk, hi, hr, hshow⟩ | ⟨hk, hfin⟩
    · have hlen := hshow.files.perm.length_eq
      rcases onTimer_showing hshow hrep hrounds hall with
        ⟨hi', hnext⟩ | ⟨hi', hr', hnext⟩ | ⟨hi', hr', hnext⟩
      · left
        exact ⟨r, i + 1, by omega, by omega, hr, hnext⟩
      · left
        refine ⟨r + 1, 0, ?_, by omega, hr', hnext⟩
        rw [Nat.succ_mul]
        omega
      · right
        obtain rfl : R = r + 1 := by omega
        refine ⟨?_, hnext⟩
        rw [Nat.succ_mul]
        omega
    · right
      exact ⟨by omega, hfin.onTimer⟩

/-- **Slide show coverage.** The list is the source from the current file on, or another order of
it; if every file can be opened, the show opens the list of each round in its order, round after
round, and stops after the last; and a tick makes no more attempts than there are files, and stops
the show if all of them fail. -/
theorem slideShow_covers (env : SlideEnv W F I) (m₀ : MainWnd W I) (o : SlideShowOptions)
    (h : o.HasFiles m₀.sys.doc) :
    buildSlideShowFiles m₀.sys.doc o = o.listed m₀.sys.doc ∧
      (o.listed m₀.sys.doc).Perm (o.sourceFiles m₀.sys.doc) ∧
      (∀ files w, (shuffleSlideShowFiles env files w).1.Perm files) ∧
      (∀ R : Nat, o.repeat = .REPEAT_COUNT → o.rounds = R → 0 < R → ∀ k,
        AllOpened m₀ (ticks env k (m₀.startSlideShow env o)) →
        let n := (o.sourceFiles m₀.sys.doc).length
        (k < R * n → Showing env m₀ o (k / n) (k % n) (ticks env k (m₀.startSlideShow env o))) ∧
          (R * n ≤ k → Finished env m₀ o R (ticks env k (m₀.startSlideShow env o)))) ∧
      ∀ m, (showMachine env).Reach Lib.Machine.always m →
        ∃ tried, (m.advanceSlideShow env).opened = m.opened ++ tried ∧
          tried.length ≤ m.slideShow.files.length ∧
          ((∀ e ∈ tried, e.2 = false) → Stopped (m.advanceSlideShow env)) := by
  refine ⟨buildSlideShowFiles_eq h, o.listed_perm _, shuffleSlideShowFiles_perm env, ?_, ?_⟩
  · intro R hrep hrounds hR k hall n
    have hshow := ticks_show h hrep hrounds hR k hall
    change (∃ r i, k = r * n + i ∧ i < n ∧ r < R ∧ _) ∨ (R * n ≤ k ∧ _) at hshow
    rcases hshow with ⟨r, i, hk, hi, hr, hshow⟩ | ⟨hk, hfin⟩
    · have hlt : r * n + i < R * n := by
        have := Nat.mul_le_mul_right n hr
        rw [Nat.succ_mul] at this
        omega
      have hdiv : k / n = r := by
        rw [hk, Nat.mul_comm, Nat.mul_add_div (by omega), Nat.div_eq_of_lt hi, Nat.add_zero]
      have hmod : k % n = i := by
        rw [hk, Nat.mul_comm, Nat.mul_add_mod, Nat.mod_eq_of_lt hi]
      refine ⟨?_, ?_⟩
      · intro _
        rw [hdiv, hmod]
        exact hshow
      · intro hle
        omega
    · refine ⟨?_, fun _ => hfin⟩
      intro hlt
      omega
  · intro m hm
    exact (advanceSlideShow_tried env (reach_consistent hm)).opened

end MainWnd

/-! ## A folder with two pictures -/

/-- A directory `/c` with the sound files `a.png` and `d.png`, and a generator that always gives
1. -/
def albumShow : SlideEnv Unit Bool Unit where
  toEnv := disk
    (fun _ path => if path = "/c/a.png".toList ∨ path = "/c/d.png".toList then some true else none)
    (fun _ _ => some [aPng, ⟨"d.png".toList, true, by decide⟩])
  rand w := (1, w)
  newLocalFs w := (0, w)

def closedWindow : MainWnd Unit Unit := { sys := .empty () }

def twoRounds : SlideShowOptions where
  source := .SOURCE_CUSTOM
  «repeat» := .REPEAT_COUNT
  rounds := 2
  customItems := ["/c/a.png".toList, "/c/d.png".toList]

theorem slideShow_covers_album :
    MainWnd.Finished albumShow closedWindow twoRounds 2
      (MainWnd.ticks albumShow 4 (closedWindow.startSlideShow albumShow twoRounds)) := by
  have h : twoRounds.HasFiles closedWindow.sys.doc := by simp [SlideShowOptions.HasFiles, twoRounds]
  obtain ⟨-, -, -, hrun, -⟩ := MainWnd.slideShow_covers albumShow closedWindow twoRounds h
  refine (hrun 2 rfl rfl (by decide) 4 ?_).2 (by decide)
  unfold MainWnd.AllOpened
  decide

end ObZrv
