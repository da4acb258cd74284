import ObZrv.Doc.CatchUp

/-!
# Doc.Schedule

An animated image with positive frame delays and no loop limit from `Doc::open` on, called back at
any times of a clock that does not go back. Each step is one callback; its label holds the two clock
readings the callback makes.

* `Reel.movie`              : a reel whose frames all come plays, for such delays.
* `GdiPlusImage.movie`, `WebpImage.movie` : so do the images of both codecs.
* `callback_keeps_schedule` : what every callback of every run leaves of the schedule.
-/

namespace ObZrv

open Lib

namespace Reel

variable {I : Type} {ops : ImageOps I} (r : Reel ops)

/-- Frame `k` is the one that was delivered last. -/
structure ShowsFrame (img : I) (k : Nat) : Prop where
  sound : r.Sound img
  pos : r.pos img = k + 1
  delay : ops.getFrameDelay img = r.delay k
  lt : k < r.count

variable {r} {img : I} {k : Nat}

theorem Opened.shows (h : r.Opened img) : r.ShowsFrame img 0 := ⟨h.sound, h.pos, h.delay, count_pos⟩

/-- A frame that was asked for and came is shown. -/
theorem shows_of_fetched {p : IM × I} (h : r.toFrameSeq.Fetched ops k p) (hpos : r.pos p.2 = k + 1)
    (hk : k < r.count) : r.ShowsFrame p.2 k := by
  refine ⟨h.sound, hpos, ?_, hk⟩
  rcases h.pos with ⟨-, hdelay⟩ | ⟨-, hstays, -⟩
  · exact hdelay
  · omega

theorem Steady.shows_next (hst : r.Steady) (h : r.ShowsFrame img k) (hk : k + 1 < r.count) :
    (ops.nextFrame img false).1 ≠ .NO_MORE_FRAMES ∧
      r.ShowsFrame (ops.nextFrame img false).2 (k + 1) := by
  have hlt : r.pos img < r.count := by rwa [h.pos]
  have hf := r.next h.sound hlt
  have hpos := hst.next h.sound hlt
  rw [h.pos] at hf hpos
  exact ⟨hf.more, shows_of_fetched hf hpos hk⟩

theorem Steady.shows_first (hst : r.Steady) (h : r.Sound img) :
    r.ShowsFrame (ops.nextFrame img true).2 0 :=
  shows_of_fetched (r.rewind h) (hst.rewind h) count_pos

/-- A reel without a loop limit plays, when its frames come and have positive delays. -/
def movie (r : Reel ops) (hst : r.Steady) (hloop : r.loopNum ≤ 0)
    (hpos : ∀ k, k < r.count → 0 < r.delay k) : Movie ops where
  Shows := r.ShowsFrame
  Ended := r.Sound
  count := r.count
  delay := r.delay
  two_le := r.two_le
  delay_pos := hpos
  shows_lt h := h.lt
  getFrameCount h := r.getFrameCount h.sound
  getFrameDelay h := h.delay
  getLoopNum h := (r.getLoopNum h.sound).trans_le hloop
  getLoopNum_ended h := (r.getLoopNum h).trans_le hloop
  next h hk := hst.shows_next h hk
  last h hk := by
    obtain ⟨hmore, hsound, -⟩ := r.finish h.sound (by rw [h.pos, hk])
    exact ⟨hmore, hsound⟩
  rewind h := ⟨(r.rewind h.sound).more, hst.shows_first h.sound⟩
  rewind_ended h := hst.shows_first h

end Reel

/-- A GDI+ image with positive delays plays, whatever GDI+ does with its frames. -/
def GdiPlusImage.movie {G Id : Type} (lib : GdiLib G Id) (delays : List Int) (loopnum : Int)
    (htwo : 2 ≤ delays.length) (hloop : loopnum ≤ 0) (hpos : ∀ d ∈ delays, 0 < d) :
    Movie (ops lib) :=
  (reel lib delays loopnum htwo fun d hd => Int.le_of_lt (hpos d hd)).movie
    (reel_steady _ _ _ _ _) hloop fun k hk => by
      simp only [reel, frameSeq] at hk ⊢
      rw [List.getD, List.getElem?_eq_getElem hk]
      exact hpos _ (List.getElem_mem hk)

theorem WebpImage.reel_delay_pos {D : Type} {lib : WebpLib D} (w : WebpSource lib) (loopnum : Int)
    (htwo : 2 ≤ w.count) (hpos : ∀ k, k < w.count → w.tm k < w.tm (k + 1)) :
    ∀ k, k < (reel w loopnum htwo).count → 0 < (reel w loopnum htwo).delay k := by
  intro k hk
  have hlt := hpos k hk
  simp only [reel, frameSeq]
  omega

/-- A webp image with positive delays plays, as long as its frames decode. -/
def WebpImage.movie {D : Type} {lib : WebpLib D} (w : WebpSource lib) (loopnum : Int)
    (htwo : 2 ≤ w.count) (hloop : loopnum ≤ 0) (hpos : ∀ k, k < w.count → w.tm k < w.tm (k + 1))
    (hcomes : ∀ {d}, w.Sound d → w.pos d < w.count → (lib.animDecoderGetNext d).1.isSome) :
    Movie (ops lib) :=
  (reel w loopnum htwo).movie (reel_steady w loopnum htwo hcomes) hloop
    (reel_delay_pos w loopnum htwo hpos)

/-! ## Runs of callbacks -/

section Runs

variable {I : Type} {ops : ImageOps I}

/-- A callback needs an armed timer, and the clock does not go back. -/
def Playback.Due (s : Playback I) (l : Reading) : Prop :=
  s.timer.isSome ∧ s.clock ≤ l.tmcur ∧ l.tmcur ≤ l.tmcurnew

/-- The playback machine. A step is a callback that comes back. -/
def playback (m : Movie ops) : Machine (Playback I) Reading where
  init s := ∃ img t, m.Shows img 0 ∧ s = Playback.opened ops img t
  step s l s' := s.Due l ∧ ∃ fuel r,
    onAnimate ops fuel s.image s.anim l.tmcur l.tmcurnew = some r ∧ s' = r.playback l

/-- The current frame is scheduled to have started by the last callback, up to 10 ms. -/
def Playback.Scheduled (ops : ImageOps I) (s : Playback I) : Prop :=
  s.anim.due - ops.getFrameDelay s.image ≤ s.tmcur + 10

variable {m : Movie ops}

theorem playback_plays {s : Playback I} (h : (playback m).Reach Machine.always s) :
    ∃ k, Plays m s.image s.anim k := by
  refine h.holds (P := fun s => ∃ k, Plays m s.image s.anim k) ?_ ?_
  · rintro s ⟨img, t, hshows, rfl⟩
    exact ⟨0, hshows, rfl, Int.le_refl 0⟩
  · rintro s l s' ⟨k, hp⟩ - ⟨hdue, fuel, r, hr, rfl⟩
    obtain ⟨k', hplayed⟩ := played_of_onAnimate hp hdue.2.2 hr
    exact ⟨k', hplayed.plays⟩

theorem playback_step {s s' : Playback I} {l : Reading} (h : (playback m).Reach Machine.always s)
    (hs : (playback m).step s l s') : ∃ r k', s' = r.playback l ∧ s.Due l ∧
      Played m s.image s.anim l.tmcur r k' ∧
      (s'.Scheduled ops ↔ OnSchedule ops s.image s.anim l.tmcur) := by
  obtain ⟨k, hp⟩ := playback_plays h
  obtain ⟨hdue, fuel, r, hr, rfl⟩ := hs
  obtain ⟨k', hplayed⟩ := played_of_onAnimate hp hdue.2.2 hr
  refine ⟨r, k', rfl, hdue, hplayed, ?_⟩
  rw [← hplayed.start_le_iff, ← m.getFrameDelay hplayed.plays.shows]
  rfl

end Runs

/-- **An animation recovers from a late callback** exactly as far as its callbacks are on schedule.
In every run of callbacks that are, the current frame is scheduled to have started by `tmcur + 10`.
In any run, every callback comes back and re-arms the timer; it leaves such a schedule if and only
if it was on schedule itself; a restart shows frame 0; and after a callback on schedule the next
one, if it comes in time, does not restart, and is at most 10 ms early if it comes no earlier than
the timer asked for. -/
theorem callback_keeps_schedule {I : Type} {ops : ImageOps I} (m : Movie ops) :
    (∀ s, (playback m).Reach (fun s l => OnSchedule ops s.image s.anim l.tmcur) s →
      s.Scheduled ops) ∧
    (∀ s l, (playback m).Reach Machine.always s → s.Due l →
      (∃ s', (playback m).step s l s') ∧
      ∀ s', (playback m).step s l s' →
        s'.timer.isSome ∧ (s'.Scheduled ops ↔ OnSchedule ops s.image s.anim l.tmcur) ∧
        (Restarts ops s.image s.anim l.tmcur → m.Shows s'.image 0) ∧
        (OnSchedule ops s.image s.anim l.tmcur →
          (∀ t, l.tmcur + 10 ≤ t → s'.anim.due ≤ t + 20 →
            t ≤ s'.anim.due + allowdiff ops s'.image → ¬ Restarts ops s'.image s'.anim t) ∧
          ∀ delay : Nat, s'.timer = some delay → 5 * ops.getFrameDelay s'.image < 2 ^ 32 →
            ∀ t, l.tmcur + delay ≤ t → s'.anim.due ≤ t + 10)) := by
  constructor
  · intro s h
    refine (h.holds (P := fun s => (playback m).Reach Machine.always s ∧ s.Scheduled ops) ?_ ?_).2
    · rintro s hinit
      refine ⟨.of_init hinit, ?_⟩
      obtain ⟨img, t, -, rfl⟩ := hinit
      simp only [Playback.Scheduled, Playback.opened, Anim.due]
      omega
    · rintro s l s' ⟨hreach, -⟩ hok hs
      obtain ⟨-, -, -, -, -, hiff⟩ := playback_step hreach hs
      exact ⟨hreach.step trivial hs, hiff.mpr hok⟩
  · intro s l h hdue
    refine ⟨?_, ?_⟩
    · obtain ⟨k, hp⟩ := playback_plays h
      obtain ⟨r, k', hr, -⟩ := onAnimate_plays l.tmcur hp hdue.2.2
        ((11 + allowdiff ops s.image - s.anim.totaldelay).toNat +
          (11 + allowdiff ops s.image).toNat + 1) (by omega) (by omega)
      exact ⟨_, hdue, _, r, hr, rfl⟩
    · intro s' hs
      obtain ⟨r, k', rfl, -, hp, hiff⟩ := playback_step h hs
      refine ⟨?_, hiff, ?_, ?_⟩
      · rcases hp.timer with ht | ht
        · exact Option.isSome_iff_exists.mpr ⟨_, ht⟩
        · exact Option.isSome_iff_exists.mpr ⟨_, ht⟩
      · intro hr
        have := hp.plays.shows
        rwa [hp.restart hr] at this
      · intro hs
        refine ⟨?_, ?_⟩
        · intro t ht hlo hhi
          refine not_restarts ?_ hlo hhi
          have := hiff.mpr hs
          simp only [Playback.Scheduled, Callback.playback] at this ⊢
          omega
        · intro delay htimer hshort t ht
          have hdelay := m.getFrameDelay hp.plays.shows
          simp only [Callback.playback] at htimer hshort ⊢
          rw [hdelay] at hshort
          exact hp.due_le_of_timer hs hshort htimer ht

/-! ## A gif after a stall -/

/-- The gif of `gdiFrames`: two frames of 100 ms, opened at time 0. -/
def gif : GdiPlusImage Int := (GdiPlusImage.openFromBuffer (gdiFrames 2) []).2

def gifMovie : Movie (GdiPlusImage.ops (gdiFrames 2)) :=
  GdiPlusImage.movie (gdiFrames 2) [100, 100] 0 (by decide) (by decide) (by decide)

def gifOpened : Playback (GdiPlusImage Int) := .opened (GdiPlusImage.ops (gdiFrames 2)) gif 0

theorem gif_shows : gifMovie.Shows gif 0 := ⟨⟨rfl, rfl, rfl, by decide⟩, rfl, rfl, by decide⟩

theorem gifOpened_reach : (playback gifMovie).Reach Machine.always gifOpened :=
  .of_init ⟨gif, 0, gif_shows, rfl⟩

theorem callback_keeps_schedule_gif : ∃ s : Playback (GdiPlusImage Int),
    s.anim = ⟨1, 0, 0, 200⟩ ∧ s.timer = some 100 ∧
      s.Scheduled (GdiPlusImage.ops (gdiFrames 2)) := by
  have hs : (playback gifMovie).step gifOpened ⟨100, 100⟩ _ :=
    ⟨⟨rfl, by decide, by decide⟩, 2, _, rfl, rfl⟩
  have hon : OnSchedule (GdiPlusImage.ops (gdiFrames 2)) gif gifOpened.anim 100 := by
    unfold OnSchedule
    decide
  have h := ((callback_keeps_schedule gifMovie).2 gifOpened ⟨100, 100⟩ gifOpened_reach
    ⟨rfl, by decide, by decide⟩).2 _ hs
  exact ⟨_, rfl, rfl, h.2.1.mpr hon⟩

/-- Five callbacks on time, then one at 1700 instead of 600. It restarts the gif and schedules the
end of frame 0 for 2400, as `_totaldelay` still counts the frames before. The timer it arms asks
for 500 ms, and the callback that comes then, on time, restarts again. -/
theorem restarts_again : ∃ s s' : Playback (GdiPlusImage Int),
    (playback gifMovie).Reach Machine.always s ∧ (playback gifMovie).step s ⟨1700, 1700⟩ s' ∧
      s'.timer = some 500 ∧ ¬ s'.Scheduled (GdiPlusImage.ops (gdiFrames 2)) ∧
      Restarts (GdiPlusImage.ops (gdiFrames 2)) s'.image s'.anim 2200 := by
  have h₁ := gifOpened_reach.step (l := ⟨100, 100⟩) trivial
    ⟨⟨rfl, by decide, by decide⟩, 2, _, rfl, rfl⟩
  have h₂ := h₁.step (l := ⟨200, 200⟩) trivial ⟨⟨rfl, by decide, by decide⟩, 2, _, rfl, rfl⟩
  have h₃ := h₂.step (l := ⟨300, 300⟩) trivial ⟨⟨rfl, by decide, by decide⟩, 2, _, rfl, rfl⟩
  have h₄ := h₃.step (l := ⟨400, 400⟩) trivial ⟨⟨rfl, by decide, by decide⟩, 2, _, rfl, rfl⟩
  have h₅ := h₄.step (l := ⟨500, 500⟩) trivial ⟨⟨rfl, by decide, by decide⟩, 2, _, rfl, rfl⟩
  refine ⟨_, _, h₅, ⟨⟨rfl, by decide, by decide⟩, 2, _, rfl, rfl⟩, rfl, ?_, ?_⟩
  · unfold Playback.Scheduled
    decide
  · decide

end ObZrv
