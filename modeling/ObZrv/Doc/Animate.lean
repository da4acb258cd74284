import Mathlib.Algebra.Group.Int.Defs
import Mathlib.Algebra.Group.Nat.Defs
import ObZrv.Codec.Image

/-!
# Doc.Animate

`Doc::onAnimate`, the timer callback of an animated image. The document's fields for it are
`Anim`; a clock reading is what `GetTickCount()` gave, as an integer. The do-while loop runs on
fuel, and `none` stands for a callback that has not come back.

* `animLoop_plays` : on an image that plays (`Movie`) the catch-up loop ends, on a frame that
  starts no later than 10 ms ahead of the clock or at the time the loop was entered for.
* `onAnimate_plays` : so every callback comes back, re-arms the timer, and leaves such a frame
  exactly when it was on schedule (`OnSchedule`).
-/

namespace ObZrv

/-- The animation state of `Doc`. -/
structure Anim where
  curframe : Int
  curloop : Int
  tmstart : Int
  totaldelay : Int
deriving DecidableEq, Repr

/-- When the next frame is due. -/
def Anim.due (a : Anim) : Int := a.tmstart + a.totaldelay

/-- What a callback leaves: image and state, whether it called `onFrameUpdate`, and the delay of
the timer it armed. -/
structure Callback (I : Type) where
  image : I
  anim : Anim
  frameUpdate : Bool
  timer : Option Nat

def toUINT (x : Int) : Nat := (x % 2 ^ 32).toNat

section

variable {I : Type} (ops : ImageOps I)

/-- The 0-delay test at the end of the loop body. The flag says that the body ended in `break`. -/
def countDelay (img : I) (a : Anim) : I × Anim × Bool :=
  if ops.getFrameDelay img = 0 then
    if a.curloop > 0 ∧ a.totaldelay = 0 then
      -- all frames 0-delay: stick on frame 0
      ((ops.nextFrame img true).2, { a with curframe := 0, curloop := -1 }, true)
    else (img, a, false)
  else (img, { a with totaldelay := a.totaldelay + ops.getFrameDelay img }, false)

/-- The body of the catch-up loop. -/
def animPass (reset : Bool) (img : I) (a : Anim) : I × Anim × Bool :=
  let (res, img) := ops.nextFrame img reset
  let a : Anim := { a with curframe := if reset then 0 else a.curframe + 1 }
  if res = .NO_MORE_FRAMES then
    let a : Anim := { a with curloop := a.curloop + 1 }
    if ops.getLoopNum img > 0 ∧ a.curloop ≥ ops.getLoopNum img then
      (img, { a with curframe := ops.getFrameCount img - 1 }, true)
    else if a.curframe ≤ 1 then
      -- only one effective frame
      (img, { a with curframe := 0, curloop := -1 }, true)
    else countDelay ops (ops.nextFrame img true).2 { a with curframe := 0 }
  else countDelay ops img a

/-- The catch-up loop. -/
def animLoop (reset : Bool) (tmcur : Int) : Nat → I → Anim → Option (I × Anim)
  | 0, _, _ => none
  | fuel + 1, img, a =>
    match animPass ops reset img a with
    | (img, a, true) => some (img, a)
    | (img, a, false) =>
      if a.due ≤ tmcur + 10 then animLoop reset tmcur fuel img a else some (img, a)

/-- The loop that takes a wrap of the clock off `_tmstart`; `start` is when the current frame
started. Each round takes off 2^32, so `start - tmcur` rounds are enough. -/
def wrapRounds (tmcur : Int) : Nat → Int → Int
  | 0, start => start
  | fuel + 1, start => if start > tmcur then wrapRounds tmcur fuel (start - 2 ^ 32) else start

def unwrapStart (start tmcur : Int) : Int := wrapRounds tmcur (start - tmcur).toNat start

/-- The state after the adjustment at the top of the callback. -/
def adjusted (img : I) (a : Anim) (tmcur : Int) : Anim :=
  let start := a.due - ops.getFrameDelay img
  { a with tmstart := a.tmstart + (unwrapStart start tmcur - start) }

/-- `long` arithmetic, so the product wraps. -/
def allowdiff (img : I) : Int := max ((ops.getFrameDelay img * 10).bmod (2 ^ 32)) 1000

/-- "Shifted too much": the callback restarts the animation. -/
def Restarts (img : I) (a : Anim) (tmcur : Int) : Prop :=
  (adjusted ops img a tmcur).due > tmcur + allowdiff ops img ∨
    (adjusted ops img a tmcur).due < tmcur - allowdiff ops img

instance (img : I) (a : Anim) (tmcur : Int) : Decidable (Restarts ops img a tmcur) :=
  inferInstanceAs (Decidable (_ ∨ _))

/-- The end of the callback: the timer for the next frame. `tmcurnew` is the second reading. -/
def rearm (img : I) (a : Anim) (tmcur tmcurnew : Int) : Callback I :=
  let stillRunning := (ops.getLoopNum img ≤ 0 ∧ a.curloop ≥ 0) ∨ a.curloop < ops.getLoopNum img
  if stillRunning then
    let a := if tmcurnew < tmcur then { a with tmstart := a.tmstart - 2 ^ 32 } else a
    let delay := if a.due > tmcur then toUINT (a.due - tmcur) else 1
    let delay := min delay (toUINT (ops.getFrameDelay img) * 5 % 2 ^ 32)
    { image := img, anim := a, frameUpdate := true, timer := some delay }
  else { image := img, anim := a, frameUpdate := true, timer := none }

/-- `onAnimate` with the clock readings it makes. View and image are there. -/
def onAnimate (fuel : Nat) (img : I) (a : Anim) (tmcur tmcurnew : Int) : Option (Callback I) :=
  if ops.getLoopNum img > 0 ∧ a.curloop ≥ ops.getLoopNum img then
    let a := { a with curframe := ops.getFrameCount img - 1 }
    some { image := img, anim := a, frameUpdate := true, timer := none }
  else
    let reset : Bool := Restarts ops img a tmcur
    let a := adjusted ops img a tmcur
    if ¬ reset ∧ a.due > tmcur + 20 then
      -- current frame not due yet
      some { image := img, anim := a, frameUpdate := false, timer := some (toUINT (a.due - tmcur)) }
    else
      let a :=
        if reset then { a with curframe := ops.getFrameCount img - 1, tmstart := tmcur } else a
      (animLoop ops reset tmcur fuel img a).map fun (img, a) => rearm ops img a tmcur tmcurnew

end

/-! ## Between two callbacks -/

/-- The animation of an open image between two callbacks. `tmcur` is the reading the last callback
went by, `clock` the last reading made. -/
structure Playback (I : Type) where
  image : I
  anim : Anim
  timer : Option Nat
  tmcur : Int
  clock : Int

structure Reading where
  tmcur : Int
  tmcurnew : Int

/-- What `Doc::open` leaves for an animated image that it opened at time `t`. -/
def Playback.opened {I : Type} (ops : ImageOps I) (img : I) (t : Int) : Playback I :=
  { image := img
    anim := ⟨0, 0, t, ops.getFrameDelay img⟩
    timer := some (toUINT (ops.getFrameDelay img))
    tmcur := t
    clock := t }

/-- The animation after a callback. -/
def Callback.playback {I : Type} (r : Callback I) (l : Reading) : Playback I :=
  ⟨r.image, r.anim, r.timer, l.tmcur, l.tmcurnew⟩

/-! ## Images that play

What `onAnimate` needs to know of an animated image with positive frame delays and no loop limit.
`Shows img k` says that frame `k` is the current one, `Ended img` that `nextFrame` has run past the
last. -/

structure Movie {I : Type} (ops : ImageOps I) where
  Shows : I → Nat → Prop
  Ended : I → Prop
  count : Nat
  delay : Nat → Int
  two_le : 2 ≤ count
  delay_pos : ∀ k, k < count → 0 < delay k
  shows_lt : ∀ {img k}, Shows img k → k < count
  getFrameCount : ∀ {img k}, Shows img k → ops.getFrameCount img = count
  getFrameDelay : ∀ {img k}, Shows img k → ops.getFrameDelay img = delay k
  getLoopNum : ∀ {img k}, Shows img k → ops.getLoopNum img ≤ 0
  getLoopNum_ended : ∀ {img}, Ended img → ops.getLoopNum img ≤ 0
  next : ∀ {img k}, Shows img k → k + 1 < count →
    (ops.nextFrame img false).1 ≠ .NO_MORE_FRAMES ∧ Shows (ops.nextFrame img false).2 (k + 1)
  last : ∀ {img k}, Shows img k → k + 1 = count →
    (ops.nextFrame img false).1 = .NO_MORE_FRAMES ∧ Ended (ops.nextFrame img false).2
  rewind : ∀ {img k}, Shows img k →
    (ops.nextFrame img true).1 ≠ .NO_MORE_FRAMES ∧ Shows (ops.nextFrame img true).2 0
  rewind_ended : ∀ {img}, Ended img → Shows (ops.nextFrame img true).2 0

/-! ## The clock adjustment -/

theorem wrapRounds_le {tmcur : Int} : ∀ (fuel : Nat) {start : Int},
    start ≤ tmcur + fuel → wrapRounds tmcur fuel start ≤ tmcur
  | 0, start, h => by
    rw [wrapRounds]
    omega
  | fuel + 1, start, h => by
    rw [wrapRounds]
    split
    · exact wrapRounds_le fuel (by omega)
    · omega

theorem unwrapStart_le (start tmcur : Int) : unwrapStart start tmcur ≤ tmcur :=
  wrapRounds_le _ (by omega)

theorem unwrapStart_eq {start tmcur : Int} (h : start ≤ tmcur) :
    unwrapStart start tmcur = start := by
  rw [unwrapStart, show (start - tmcur).toNat = 0 by omega, wrapRounds]

theorem allowdiff_ge {I : Type} (ops : ImageOps I) (img : I) : 1000 ≤ allowdiff ops img :=
  Int.le_max_right _ _

section Adjusted

variable {I : Type} {ops : ImageOps I} {img : I} {a : Anim} {tmcur : Int}

theorem adjusted_start_le (ops : ImageOps I) (img : I) (a : Anim) (tmcur : Int) :
    (adjusted ops img a tmcur).due - ops.getFrameDelay img ≤ tmcur := by
  have := unwrapStart_le (a.due - ops.getFrameDelay img) tmcur
  simp only [adjusted, Anim.due] at *
  omega

theorem adjusted_eq (h : a.due - ops.getFrameDelay img ≤ tmcur) : adjusted ops img a tmcur = a := by
  simp [adjusted, unwrapStart_eq h]

theorem not_restarts (hstart : a.due - ops.getFrameDelay img ≤ tmcur) (hlo : a.due ≤ tmcur + 20)
    (hhi : tmcur ≤ a.due + allowdiff ops img) : ¬ Restarts ops img a tmcur := by
  have := allowdiff_ge ops img
  rw [Restarts, adjusted_eq hstart]
  omega

end Adjusted

section Plays

variable {I : Type} {ops : ImageOps I} (m : Movie ops)

/-- The document is on the frame the image shows, and its loop count is not the "static" mark. -/
structure Plays (img : I) (a : Anim) (k : Nat) : Prop where
  shows : m.Shows img k
  curframe : a.curframe = k
  curloop : 0 ≤ a.curloop

variable {m} {img : I} {a : Anim} {k : Nat}

theorem countDelay_shows (h : m.Shows img k) (a : Anim) :
    countDelay ops img a = (img, { a with totaldelay := a.totaldelay + m.delay k }, false) := by
  have hpos := m.delay_pos k (m.shows_lt h)
  rw [countDelay, m.getFrameDelay h, if_neg (by omega)]

/-- One pass goes to the next frame, or to frame 0 on a restart, and adds its delay. -/
theorem animPass_plays {reset : Bool} (hshows : m.Shows img k) (hloop : 0 ≤ a.curloop)
    (hcur : reset = false → a.curframe = k) :
    ∃ img' a' k', animPass ops reset img a = (img', a', false) ∧ Plays m img' a' k' ∧
      a'.tmstart = a.tmstart ∧ a'.totaldelay = a.totaldelay + m.delay k' ∧
      (reset = true → k' = 0) := by
  unfold animPass
  cases reset with
  | true =>
    obtain ⟨hres, hshows⟩ := m.rewind hshows
    simp only [hres, if_false, if_true]
    rw [countDelay_shows hshows]
    exact ⟨_, _, 0, rfl, ⟨hshows, rfl, hloop⟩, rfl, rfl, fun _ => rfl⟩
  | false =>
    have hk := m.shows_lt hshows
    have hcur := hcur rfl
    by_cases hlast : k + 1 = m.count
    · -- the last frame: the image is rewound
      obtain ⟨hres, hended⟩ := m.last hshows hlast
      have hloopNum := m.getLoopNum_ended hended
      have hshows := m.rewind_ended hended
      have htwo := m.two_le
      simp only [hres, if_true, Bool.false_eq_true, if_false]
      rw [if_neg fun h => absurd h.1 (Int.not_lt.mpr hloopNum), if_neg (by omega),
        countDelay_shows hshows]
      exact ⟨_, _, 0, rfl, ⟨hshows, rfl, by simp only; omega⟩, rfl, rfl, nofun⟩
    · obtain ⟨hres, hshows⟩ := m.next hshows (by omega)
      simp only [hres, if_false, Bool.false_eq_true]
      rw [countDelay_shows hshows]
      refine ⟨_, _, k + 1, rfl, ⟨hshows, ?_, hloop⟩, rfl, rfl, nofun⟩
      simp only [hcur]
      omega

/-- The loop ends on a frame that is not due within 10 ms, and that starts when the loop was
entered for, or within 10 ms. -/
structure CaughtUp (m : Movie ops) (due tmcur : Int) (img' : I) (a' : Anim) (k' : Nat) : Prop where
  plays : Plays m img' a' k'
  ahead : tmcur + 10 < a'.due
  start_ge : due ≤ a'.due - m.delay k'
  start_le : a'.due - m.delay k' ≤ tmcur + 10 ∨ a'.due - m.delay k' = due

theorem animLoop_plays (reset : Bool) (a : Anim) (tmcur : Int) (fuel : Nat) (hshows : m.Shows img k)
    (hloop : 0 ≤ a.curloop) (hcur : reset = false → a.curframe = k)
    (hfuel : (tmcur + 11 - a.due).toNat < fuel) :
    ∃ img' a' k', animLoop ops reset tmcur fuel img a = some (img', a') ∧
      CaughtUp m a.due tmcur img' a' k' ∧ (reset = true → k' = 0) := by
  induction fuel generalizing img a k with
  | zero => omega
  | succ fuel ih =>
    obtain ⟨img₁, a₁, k₁, hpass, h₁, htm, htot, hreset⟩ := animPass_plays hshows hloop hcur
    have hpos := m.delay_pos k₁ (m.shows_lt h₁.shows)
    have hdue : a₁.due = a.due + m.delay k₁ := by
      rw [Anim.due, Anim.due, htm, htot]
      omega
    rw [animLoop, hpass]
    simp only
    by_cases hbehind : a₁.due ≤ tmcur + 10
    · rw [if_pos hbehind]
      obtain ⟨img', a', k', hres, hc, hk⟩ :=
        ih a₁ h₁.shows h₁.curloop (fun _ => h₁.curframe) (by omega)
      have hge := hc.start_ge
      refine ⟨img', a', k', hres, ⟨hc.plays, hc.ahead, by omega, ?_⟩, hk⟩
      rcases hc.start_le with h | h
      · exact .inl h
      · exact .inl (by omega)
    · rw [if_neg hbehind]
      exact ⟨img₁, a₁, k₁, rfl, ⟨h₁, by omega, by omega, .inr (by omega)⟩, hreset⟩

/-- The schedule after the loop, as a condition on the schedule before it. -/
theorem CaughtUp.start_le_iff {due tmcur : Int} {img' : I} {a' : Anim} {k' : Nat}
    (h : CaughtUp m due tmcur img' a' k') :
    a'.due - m.delay k' ≤ tmcur + 10 ↔ due ≤ tmcur + 10 := by
  have hge := h.start_ge
  constructor
  · omega
  · intro hle
    rcases h.start_le with h | h
    · exact h
    · omega

/-! ## The callback -/

/-- A callback on schedule: it does not restart once more than 10 ms of delays have been counted,
and it does not advance a frame more than 10 ms early. -/
def OnSchedule (ops : ImageOps I) (img : I) (a : Anim) (tmcur : Int) : Prop :=
  if Restarts ops img a tmcur then a.totaldelay ≤ 10
  else (adjusted ops img a tmcur).due ≤ tmcur + 20 → (adjusted ops img a tmcur).due ≤ tmcur + 10

/-- What a callback leaves of an image that plays. -/
structure Played (m : Movie ops) (img : I) (a : Anim) (tmcur : Int) (r : Callback I) (k' : Nat) :
    Prop where
  plays : Plays m r.image r.anim k'
  restart : Restarts ops img a tmcur → k' = 0
  start_le_iff : r.anim.due - m.delay k' ≤ tmcur + 10 ↔ OnSchedule ops img a tmcur
  timer : r.timer = some (toUINT (r.anim.due - tmcur)) ∨
    r.timer = some (min (toUINT (r.anim.due - tmcur)) (toUINT (m.delay k') * 5 % 2 ^ 32))
  ahead : tmcur + 10 < r.anim.due

theorem rearm_plays {due tmcur tmcurnew : Int} {img' : I} {a' : Anim} {k' : Nat}
    (h : CaughtUp m due tmcur img' a' k') (hnew : tmcur ≤ tmcurnew) :
    rearm ops img' a' tmcur tmcurnew =
      ⟨img', a', true,
        some (min (toUINT (a'.due - tmcur)) (toUINT (m.delay k') * 5 % 2 ^ 32))⟩ := by
  have hahead := h.ahead
  have hloop := m.getLoopNum h.plays.shows
  simp only [rearm, m.getFrameDelay h.plays.shows]
  rw [if_pos (.inl ⟨hloop, h.plays.curloop⟩), if_neg (Int.not_lt.mpr hnew), if_pos (by omega)]

/-- A callback with enough fuel comes back. -/
theorem onAnimate_plays (tmcur : Int) {tmcurnew : Int} (h : Plays m img a k) (hnew : tmcur ≤ tmcurnew)
    (fuel : Nat) (hfuel : (11 + allowdiff ops img - a.totaldelay).toNat < fuel)
    (hfuel' : (11 + allowdiff ops img).toNat < fuel) :
    ∃ r k', onAnimate ops fuel img a tmcur tmcurnew = some r ∧ Played m img a tmcur r k' := by
  have hloop := m.getLoopNum h.shows
  have hallow := allowdiff_ge ops img
  have hstart := adjusted_start_le ops img a tmcur
  have hdelay := m.getFrameDelay h.shows
  unfold onAnimate
  rw [if_neg fun h => absurd h.1 (Int.not_lt.mpr hloop)]
  by_cases hr : Restarts ops img a tmcur
  · -- restart: the loop is entered with `_tmstart` at the clock and `_totaldelay` as it was
    simp only [hr, decide_true, not_true_eq_false, false_and, if_false, if_true]
    obtain ⟨img', a', k', hres, hc, hk⟩ := animLoop_plays true
      { adjusted ops img a tmcur with
        curframe := ops.getFrameCount img - 1, tmstart := tmcur } tmcur
      fuel h.shows h.curloop nofun (by simp only [Anim.due, adjusted]; omega)
    rw [hres, Option.map_some, rearm_plays hc hnew]
    refine ⟨_, k', rfl, hc.plays, fun _ => hk rfl, ?_, .inr rfl, hc.ahead⟩
    rw [hc.start_le_iff, OnSchedule, if_pos hr]
    simp only [Anim.due, adjusted]
    omega
  · simp only [hr, decide_false, Bool.false_eq_true, not_false_eq_true, true_and, if_false]
    by_cases hearly : (adjusted ops img a tmcur).due > tmcur + 20
    · -- not due yet: nothing but the clock adjustment happens
      rw [if_pos hearly]
      refine ⟨_, k, rfl, ⟨h.shows, h.curframe, h.curloop⟩, fun hr' => absurd hr' hr, ?_, .inl rfl,
        by simp only; omega⟩
      rw [OnSchedule, if_neg hr]
      refine iff_of_true ?_ fun hle => absurd hle (by omega)
      simp only
      omega
    · rw [if_neg hearly]
      have hlate : tmcur - allowdiff ops img ≤ (adjusted ops img a tmcur).due := by
        rw [Restarts] at hr
        omega
      obtain ⟨img', a', k', hres, hc, -⟩ := animLoop_plays false
        (adjusted ops img a tmcur) tmcur fuel h.shows h.curloop (fun _ => h.curframe) (by omega)
      rw [hres, Option.map_some, rearm_plays hc hnew]
      refine ⟨_, k', rfl, hc.plays, fun hr' => absurd hr' hr, ?_, .inr rfl, hc.ahead⟩
      rw [hc.start_le_iff, OnSchedule, if_neg hr]
      exact ⟨fun h _ => h, fun h => h (by omega)⟩

theorem animLoop_mono {reset : Bool} {tmcur : Int} : ∀ {fuel fuel' : Nat} {img : I} {a : Anim}
    {r : I × Anim}, fuel ≤ fuel' → animLoop ops reset tmcur fuel img a = some r →
    animLoop ops reset tmcur fuel' img a = some r
  | 0, _, _, _, _, _, h => by cases h
  | fuel + 1, fuel', img, a, r, hle, h => by
    obtain ⟨fuel', rfl⟩ : ∃ n, fuel' = n + 1 := ⟨fuel' - 1, by omega⟩
    rw [animLoop] at h ⊢
    split at h
    · exact h
    · split at h
      · rename_i hbehind
        rw [if_pos hbehind]
        exact animLoop_mono (Nat.le_of_succ_le_succ hle) h
      · rename_i hbehind
        rw [if_neg hbehind]
        exact h

theorem onAnimate_mono {fuel fuel' : Nat} {tmcur tmcurnew : Int} {r : Callback I}
    (hle : fuel ≤ fuel') (h : onAnimate ops fuel img a tmcur tmcurnew = some r) :
    onAnimate ops fuel' img a tmcur tmcurnew = some r := by
  unfold onAnimate at h ⊢
  split at h
  · rename_i hend
    rw [if_pos hend]
    exact h
  · rename_i hend
    rw [if_neg hend]
    simp only at h ⊢
    split at h
    · rename_i hearly
      rw [if_pos hearly]
      exact h
    · rename_i hearly
      rw [if_neg hearly]
      obtain ⟨p, hp, hr⟩ := Option.map_eq_some_iff.mp h
      rw [animLoop_mono hle hp, Option.map_some, hr]

/-- Whatever fuel a callback came back with, it left what `onAnimate_plays` says. -/
theorem played_of_onAnimate {fuel : Nat} {tmcur tmcurnew : Int} {r : Callback I}
    (h : Plays m img a k) (hnew : tmcur ≤ tmcurnew)
    (hr : onAnimate ops fuel img a tmcur tmcurnew = some r) : ∃ k', Played m img a tmcur r k' := by
  obtain ⟨n, h₀, h₁, h₂⟩ : ∃ n : Nat, (11 + allowdiff ops img - a.totaldelay).toNat < n ∧
      (11 + allowdiff ops img).toNat < n ∧ fuel ≤ n :=
    ⟨(11 + allowdiff ops img - a.totaldelay).toNat + (11 + allowdiff ops img).toNat + fuel + 1,
      by omega, by omega, by omega⟩
  obtain ⟨r', k', hr', hp⟩ := onAnimate_plays _ h hnew n h₀ h₁
  have := (onAnimate_mono h₂ hr).symm.trans hr'
  cases this
  exact ⟨k', hp⟩

/-- When the timer that was armed goes off no earlier than asked, the next frame is not more than
10 ms early. -/
theorem Played.due_le_of_timer {tmcur : Int} {r : Callback I} {k' : Nat}
    (h : Played m img a tmcur r k') (hs : OnSchedule ops img a tmcur)
    (hshort : 5 * m.delay k' < 2 ^ 32) {delay : Nat} (ht : r.timer = some delay) {t : Int}
    (hge : tmcur + delay ≤ t) : r.anim.due ≤ t + 10 := by
  have hstart := h.start_le_iff.mpr hs
  have hahead := h.ahead
  have hpos := m.delay_pos k' (m.shows_lt h.plays.shows)
  have hwait : (toUINT (r.anim.due - tmcur) : Int) = r.anim.due - tmcur := by
    rw [toUINT, Int.toNat_of_nonneg (by omega), Int.emod_eq_of_lt (by omega) (by omega)]
  have hfive : ((toUINT (m.delay k') * 5 % 2 ^ 32 : Nat) : Int) = m.delay k' * 5 := by
    have : (toUINT (m.delay k') : Int) = m.delay k' := by
      rw [toUINT, Int.toNat_of_nonneg (by omega), Int.emod_eq_of_lt (by omega) (by omega)]
    omega
  rcases h.timer with hd | hd
  · obtain rfl := Option.some.inj (ht.symm.trans hd)
    omega
  · obtain rfl := Option.some.inj (ht.symm.trans hd)
    rcases Std.min_eq_or (a := toUINT (r.anim.due - tmcur))
      (b := toUINT (m.delay k') * 5 % 2 ^ 32) with hmin | hmin
    · rw [hmin, hwait] at hge
      omega
    · rw [hmin, hfive] at hge
      clear hmin hfive hwait
      omega

end Plays

end ObZrv
