import ObZrv.Doc.OnTime

/-!
# Doc.Loops

When an animation stops.

* `AtFrame`         : `n` frames after opening, the frame shown, the loops and the delays counted
  are those of frame `n` of the endless sequence.
* `Played`, `Ended` : what callbacks on time leave of an animation with a loop limit, and how it
  ends; each frame takes one callback at most (`PlayedLeft`).
* `animation_stops` : the three ways to go on or stop, the first one for frames of 20 ms or more and
  the last one only for a negative limit.
* `fast_gif_unplayed` : a gif with shorter frames.
-/

namespace ObZrv

open Lib

namespace Reel

variable {I : Type} {ops : ImageOps I} (r : Reel ops)

/-- Frame `n`, counted on over the loops, is shown. -/
structure AtFrame (img : I) (a : Anim) (n : Nat) : Prop where
  pos : r.pos img = n % r.count + 1
  delay : ops.getFrameDelay img = r.delay (n % r.count)
  curframe : a.curframe = (n % r.count : Nat)
  curloop : a.curloop = (n / r.count : Nat)
  totaldelay : a.totaldelay = cycle r.delay r.count 0 (n + 1)

/-- The animation plays frame `n`, on its schedule. -/
structure Played (s : Playback I) (n : Nat) : Prop where
  timed : r.Timed s
  frame : r.AtFrame s.image s.anim n
  armed : s.timer.isSome

/-- All loops have been played: each of their delays is counted once, the last frame is shown, and
there is no timer. -/
structure Ended (s : Playback I) : Prop where
  finished : r.Finished s.image s.anim
  curloop : s.anim.curloop = r.loopNum
  totaldelay : s.anim.totaldelay = r.loopNum * r.total
  timer : s.timer = none

variable {r} {img : I} {a : Anim} {n : Nat} {tmcur tmcurnew : Int} {fuel : Nat} {s : Playback I}
  {l : Reading}

/-! ## The frames of a loop -/

theorem AtFrame.slot (h : r.AtFrame img a n) : r.slot false img = (n + 1) % r.count := by
  rw [Reel.slot, if_neg Bool.false_ne_true, h.pos, Nat.mod_add_mod]

/-- The next frame of the sequence is the next in its loop, or the first of the next loop. -/
theorem next_frame (c n : Nat) (hc : 0 < c) :
    (n % c + 1 < c ∧ (n + 1) % c = n % c + 1 ∧ (n + 1) / c = n / c) ∨
      (n % c + 1 = c ∧ (n + 1) % c = 0 ∧ (n + 1) / c = n / c + 1) := by
  have hlt := Nat.mod_lt n hc
  have hn := Nat.div_add_mod n c
  by_cases hnext : n % c + 1 < c
  · have hsum : n + 1 = n % c + 1 + c * (n / c) := by omega
    refine .inl ⟨hnext, ?_, ?_⟩
    · rw [hsum, Nat.add_mul_mod_self_left, Nat.mod_eq_of_lt hnext]
    · rw [hsum, Nat.add_mul_div_left _ _ hc, Nat.div_eq_of_lt hnext, Nat.zero_add]
  · have hlast : n % c + 1 = c := by omega
    have hsum : n + 1 = c * (n / c + 1) := by
      rw [Nat.mul_succ]
      omega
    refine .inr ⟨hlast, ?_, ?_⟩
    · rw [hsum, Nat.mul_mod_right]
    · rw [hsum, Nat.mul_div_cancel_left _ hc]

/-- A pass goes to the next frame. -/
theorem AtFrame.rolled (hst : r.Steady) (hroll : r.Rolling img a) (h : r.AtFrame img a n) :
    r.AtFrame (r.fetch false img) (r.rolled false img a) (n + 1) := by
  have hpos := hst.fetch_pos false hroll.sound hroll.pos_le
  have hdelay := (hst.fetch false hroll.sound hroll.pos_le).2.2
  have hshown := h.pos
  rw [h.slot] at hpos hdelay
  have htotal : (Reel.rolled r false img a).totaldelay = cycle r.delay r.count 0 (n + 1 + 1) := by
    rw [cycle_succ, Nat.zero_add, ← hdelay, ← h.totaldelay]
    rfl
  rcases next_frame r.count n count_pos with ⟨hlt, hmod, hdiv⟩ | ⟨heq, hmod, hdiv⟩
  · have hlt' : r.pos img < r.count := by omega
    refine ⟨hpos, hdelay, ?_, ?_, htotal⟩
    · simp only [Reel.rolled, Bool.false_eq_true, if_false, hlt', if_true, h.curframe, hmod]
      omega
    · simp only [Reel.rolled, wraps, hlt', or_true, if_true, h.curloop, hdiv, Int.add_zero]
  · have hge : ¬ r.pos img < r.count := by omega
    refine ⟨hpos, hdelay, ?_, ?_, htotal⟩
    · simp only [Reel.rolled, Bool.false_eq_true, if_false, hge, hmod]
      rfl
    · simp only [Reel.rolled, wraps, hge, or_false, Bool.false_eq_true, if_false, h.curloop, hdiv]
      omega

/-- The pass that ends the last loop comes after its last frame. -/
theorem AtFrame.finishes (hroll : r.Rolling img a) (h : r.AtFrame img a n)
    (hfin : r.Finishes false img a) :
    a.curloop + 1 = r.loopNum ∧ a.totaldelay = r.loopNum * r.total := by
  obtain ⟨-, hpos, hlimit, hle⟩ := hfin
  have hrun := hroll.running hlimit
  have hshown := h.pos
  have hloop := h.curloop
  have hmod := Nat.mod_lt n (count_pos (r := r))
  have hn := Nat.div_add_mod n r.count
  have hlast : n + 1 = r.count * (n / r.count + 1) := by
    rw [Nat.mul_succ]
    omega
  refine ⟨by omega, ?_⟩
  rw [h.totaldelay, hlast, cycle_rounds, nsmul_eq_mul]
  change ((n / r.count + 1 : Nat) : Int) * r.total = r.loopNum * r.total
  congr 1
  omega

/-- The loop goes on to a later frame, or ends the last loop. -/
theorem animLoop_atFrame {p : I × Anim} (hst : r.Steady) (htotal : 0 < r.total)
    (hroll : r.Rolling img a) (h : r.AtFrame img a n)
    (hp : animLoop ops false tmcur fuel img a = some p) :
    (∃ n', n < n' ∧ r.Rolling p.1 p.2 ∧ r.AtFrame p.1 p.2 n') ∨
      (r.Finished p.1 p.2 ∧ p.2.curloop = r.loopNum ∧ p.2.totaldelay = r.loopNum * r.total) := by
  rw [animLoop_eq] at hp
  refine doWhile_inv
    (P := fun s : I × Anim => ∃ n', n ≤ n' ∧ r.Rolling s.1 s.2 ∧ r.AtFrame s.1 s.2 n')
    (Q := fun p : I × Anim => (∃ n', n < n' ∧ r.Rolling p.1 p.2 ∧ r.AtFrame p.1 p.2 n') ∨
      (r.Finished p.1 p.2 ∧ p.2.curloop = r.loopNum ∧ p.2.totaldelay = r.loopNum * r.total))
    ?_ ?_ ⟨n, Nat.le_refl n, hroll, h⟩ hp
  · rintro ⟨img, b⟩ s' ⟨n', hn, hroll, h⟩ hgo
    obtain ⟨hfin, hstick, -, rfl⟩ := (animBody_go_iff hroll).mp hgo
    exact ⟨n' + 1, by omega, hroll.rolled hfin hstick, h.rolled hst hroll⟩
  · rintro ⟨img, b⟩ s' ⟨n', hn, hroll, h⟩ hleave
    rcases animBody_leave hroll hleave with ⟨hfin, hend, hs⟩ | ⟨-, hstick, -⟩ |
      ⟨hfin, hstick, -, rfl⟩
    · obtain ⟨hcur, hdelays⟩ := h.finishes hroll hfin
      refine .inr ⟨hend, ?_, ?_⟩
      · rw [hs]
        exact hcur
      · rw [hs]
        exact hdelays
    · have := hstick.1
      omega
    · exact .inl ⟨n' + 1, by omega, hroll.rolled hfin hstick, h.rolled hst hroll⟩

/-! ## Callbacks on time -/

theorem Opened.atFrame (h : r.Opened img) (t : Int) :
    r.AtFrame img (Playback.opened ops img t).anim 0 := by
  have htwo := r.two_le
  refine ⟨?_, ?_, ?_, ?_, ?_⟩
  · rw [h.pos, Nat.zero_mod]
  · rw [h.delay, Nat.zero_mod]
  · rw [Nat.zero_mod]
    rfl
  · rw [Nat.zero_div]
    rfl
  · rw [cycle_succ, cycle_zero, Nat.zero_mod, Int.zero_add]
    exact h.delay

theorem rearm_armed_iff (ops : ImageOps I) (img : I) (a : Anim) (tmcur tmcurnew : Int) :
    (rearm ops img a tmcur tmcurnew).timer.isSome ↔
      (ops.getLoopNum img ≤ 0 ∧ 0 ≤ a.curloop) ∨ a.curloop < ops.getLoopNum img := by
  simp only [rearm]
  split
  · rename_i hrun
    exact iff_of_true rfl hrun
  · rename_i hrun
    exact iff_of_false Bool.false_ne_true hrun

theorem step_armed_iff {p : I × Anim} {s' : Playback I}
    (h : s' = (rearm ops p.1 p.2 l.tmcur l.tmcurnew).playback l) :
    s'.timer.isSome ↔
      (ops.getLoopNum p.1 ≤ 0 ∧ 0 ≤ p.2.curloop) ∨ p.2.curloop < ops.getLoopNum p.1 := by
  rw [h]
  exact rearm_armed_iff ops p.1 p.2 l.tmcur l.tmcurnew

/-- All frames last 20 ms or more, and five times that fits the timer. -/
def Long (r : Reel ops) : Prop := ∀ k, k < r.count → 20 ≤ r.delay k ∧ 5 * r.delay k < 2 ^ 32

theorem Long.total_pos (h : r.Long) : 0 < r.total := by
  have hsome := roundSum_nonneg (c := r.count - 1) r.delay_nonneg
  have hsum : r.total = roundSum r.delay (r.count - 1) + r.delay (r.count - 1) := by
    rw [total, ← roundSum_succ, Nat.sub_add_cancel count_pos]
  have := (h (r.count - 1) (Nat.sub_lt count_pos Nat.one_pos)).1
  omega

theorem Played.paced (hlong : r.Long) (h : r.Played s n) : Paced ops s := by
  have := hlong (n % r.count) (Nat.mod_lt n count_pos)
  rwa [← h.frame.delay] at this

/-- A callback on time goes on to a later frame, or ends the last loop. -/
theorem Played.step (hst : r.Steady) (hlong : r.Long) (hlimit : 0 < r.loopNum) (h : r.Played s n)
    (htime : OnTime ops s l) {s' : Playback I} (hs : r.playback.step s l s') :
    (∃ n', n < n' ∧ r.Played s' n') ∨ r.Ended s' := by
  have hpaced := h.paced hlong
  have htotal := hlong.total_pos
  obtain ⟨fuel, p, hp, himage, hanim, heq⟩ := h.timed.goes htime hpaced hs
  have harmed := step_armed_iff heq
  have htimed := h.timed.step htotal htime hpaced h.armed hp
  rcases animLoop_atFrame hst htotal h.timed.rolling h.frame hp with
    ⟨n', hn, hroll', hframe'⟩ | ⟨hfin, hcur, htot⟩
  · refine .inl ⟨n', hn, ?_, ?_, ?_⟩
    · rw [heq]
      exact (htimed.resolve_left hroll'.not_finished).1
    · rw [himage, hanim]
      exact ⟨hframe'.pos, hframe'.delay, hframe'.curframe, hframe'.curloop, hframe'.totaldelay⟩
    · refine harmed.mpr (.inr ?_)
      rw [r.getLoopNum hroll'.sound]
      exact hroll'.running hlimit
  · refine .inr ⟨?_, ?_, ?_, ?_⟩
    · rw [himage, hanim]
      exact ⟨hfin.sound, hfin.pos_ge, hfin.curframe, hfin.loopNum_pos, hfin.curloop⟩
    · rw [hanim]
      exact hcur
    · rw [hanim]
      exact htot
    · rw [← Option.not_isSome_iff_eq_none]
      refine fun hsome => absurd (harmed.mp hsome) ?_
      rw [r.getLoopNum hfin.sound]
      omega

theorem Played.lt (hlimit : 0 < r.loopNum) (h : r.Played s n) :
    n < r.loopNum.toNat * r.count := by
  have hrun := h.timed.rolling.running hlimit
  have hloop := h.frame.curloop
  rw [← Nat.div_lt_iff_lt_mul count_pos]
  omega

/-- A callback on time comes back. -/
theorem Played.returns (hst : r.Steady) (hlong : r.Long) (h : r.Played s n)
    (htime : OnTime ops s l) : ∃ s', r.playback.step s l s' := by
  obtain ⟨w, hw⟩ := Option.isSome_iff_exists.mp h.armed
  have hnot := h.timed.not_shifts htime (h.paced hlong) hw
  obtain ⟨fuel, c, hc⟩ : ∃ fuel c, onAnimate ops fuel s.image s.anim l.tmcur l.tmcurnew = some c :=
    (returns_iff h.timed.rolling).mpr fun hh =>
      hnot (.inr ((hst.hangs_iff h.timed.rolling).mp hh).1)
  exact ⟨_, h.armed, fuel, c, hc, rfl⟩

/-- The callbacks that are left: one for each frame at most. -/
def PlayedLeft (r : Reel ops) (k : Nat) (s : Playback I) : Prop :=
  (∃ n, r.Played s n ∧ r.loopNum.toNat * r.count - n ≤ k) ∨ r.Ended s

theorem playedLeft_step (hst : r.Steady) (hlong : r.Long) (hlimit : 0 < r.loopNum) {k : Nat}
    (h : r.PlayedLeft k s) (htime : OnTime ops s l) {s' : Playback I}
    (hs : r.playback.step s l s') : ∃ k', k' < k ∧ r.PlayedLeft k' s' := by
  rcases h with ⟨n, h, hk⟩ | hend
  · have hlt := h.lt hlimit
    rcases h.step hst hlong hlimit htime hs with ⟨n', hn, h'⟩ | hend'
    · exact ⟨k - 1, by omega, .inl ⟨n', h', by omega⟩⟩
    · exact ⟨k - 1, by omega, .inr hend'⟩
  · have := hs.1
    rw [hend.timer] at this
    cases this

theorem Opened.played (h : r.Opened img) (t : Int) : r.Played (Playback.opened ops img t) 0 :=
  ⟨h.timed t, h.atFrame t, rfl⟩

theorem playback_onTime (hst : r.Steady) (hlong : r.Long) (hlimit : 0 < r.loopNum)
    (h : r.playback.Reach (OnTime ops) s) : (∃ n, r.Played s n) ∨ r.Ended s := by
  refine h.holds (P := fun s => (∃ n, r.Played s n) ∨ r.Ended s) ?_ ?_
  · rintro s ⟨img, t, hopen, rfl⟩
    exact .inl ⟨0, hopen.played t⟩
  · rintro s l s' hs htime hstep
    rcases hs with ⟨n, h⟩ | hend
    · rcases h.step hst hlong hlimit htime hstep with ⟨n', -, h'⟩ | hend'
      · exact .inl ⟨n', h'⟩
      · exact .inr hend'
    · have := hstep.1
      rw [hend.timer] at this
      cases this

/-! ## Endless animations, and static ones -/

/-- An animation without a loop limit and with some delay never stops. -/
theorem endless_armed (hloop : r.loopNum ≤ 0) (htotal : 0 < r.total)
    (h : r.playback.Reach Machine.always s) : s.timer.isSome := by
  have hinv : r.Rolling s.image s.anim ∧ 0 ≤ s.anim.curloop ∧ s.timer.isSome := by
    refine h.holds
      (P := fun s => r.Rolling s.image s.anim ∧ 0 ≤ s.anim.curloop ∧ s.timer.isSome) ?_ ?_
    · rintro s ⟨img, t, hopen, rfl⟩
      exact ⟨hopen.rolling t, Int.le_refl 0, rfl⟩
    · rintro s l s' ⟨hroll, hcur, -⟩ - hs
      rcases hroll.step_cases hs with ⟨-, rfl⟩ | ⟨-, fuel, p, hp, himage, hanim, heq⟩
      · exact ⟨hroll.congr (Int.le_refl _) rfl rfl, hcur, rfl⟩
      · have hent : (entered ops s.image s.anim l.tmcur).curloop = s.anim.curloop := by
          rw [entered]
          split
          · rfl
          · rfl
        obtain ⟨img₀, b, hb, hroll', rfl, -, hle, -⟩ :=
          (animLoop_last htotal (hroll.entered l.tmcur) hp).resolve_left
            fun hend => hend.not_endless hloop
        have hcur' := rolled_curloop_ge hb (decide (Restarts ops s.image s.anim l.tmcur))
        rw [hent] at hle
        refine ⟨?_, ?_, ?_⟩
        · rw [himage, hanim]
          exact hroll'.congr (Int.le_refl _) rfl rfl
        · rw [hanim]
          simp only
          omega
        · have hstays := (r.getLoopNum hroll'.sound).trans_le hloop
          refine (step_armed_iff heq).mpr (.inl ⟨hstays, ?_⟩)
          simp only
          omega
  exact hinv.2.2

/-- On a static animation the timer is armed exactly when the loop count is not negative. -/
theorem static_armed_iff (h : r.playback.Reach Machine.always s) (hstatic : s.anim.curloop = -1) :
    s.timer.isSome ↔ 0 ≤ r.loopNum := by
  have hinv : (r.Rolling s.image s.anim ∨ r.Finished s.image s.anim) ∧
      (s.anim.curloop = -1 → (s.timer.isSome ↔ 0 ≤ r.loopNum)) := by
    refine h.holds (P := fun s => (r.Rolling s.image s.anim ∨ r.Finished s.image s.anim) ∧
      (s.anim.curloop = -1 → (s.timer.isSome ↔ 0 ≤ r.loopNum))) ?_ ?_
    · rintro s ⟨img, t, hopen, rfl⟩
      refine ⟨.inl (hopen.rolling t), ?_⟩
      intro hcur
      cases hcur
    · rintro s l s' ⟨hs, harmed⟩ - hstep
      refine ⟨rolling_step hs hstep, ?_⟩
      intro hcur
      rcases hs with hroll | hfin
      · rcases hroll.step_cases hstep with ⟨-, rfl⟩ | ⟨-, fuel, p, hp, himage, hanim, heq⟩
        · exact iff_of_true rfl ((harmed hcur).mp hstep.1)
        · have hsound : r.Sound p.1 := by
            rcases animLoop_rolling (hroll.entered l.tmcur) hp with h | h
            · exact h.sound
            · exact h.sound
          rw [hanim] at hcur
          simp only at hcur
          rw [step_armed_iff heq, r.getLoopNum hsound, hcur]
          omega
      · obtain ⟨-, fuel, c, hc, rfl⟩ := hstep
        rw [onAnimate_of_finished hfin] at hc
        cases hc
        have := hfin.curloop
        have := hfin.loopNum_pos
        simp only [Callback.playback] at hcur
        omega
  exact hinv.2 hstatic

/-- **When an animation stops.** With a loop limit `L`, frames that come and none shorter than 20 ms,
callbacks on time play its frames one after the other, at most one callback a frame, up to the end
of loop `L` and no further; then the last frame stays, and there is no timer. Without a limit a
timer is armed after every callback. A static animation, once its delays are found to be all 0, is
left alone exactly when its loop count is negative. -/
theorem animation_stops (r : Reel ops) :
    (0 < r.loopNum → r.Steady → r.Long →
      (∀ s, r.playback.Reach (OnTime ops) s →
        ((∃ n, n < r.loopNum.toNat * r.count ∧ r.Played s n) ∨ r.Ended s) ∧
        (s.timer.isSome → (∃ l, OnTime ops s l) ∧
          ∀ l, OnTime ops s l → ∃ s', r.playback.step s l s')) ∧
      ∀ s₀ ls s, r.playback.init s₀ → r.playback.Run (OnTime ops) s₀ ls s →
        ls.length ≤ r.loopNum.toNat * r.count) ∧
    (r.loopNum ≤ 0 → 0 < r.total → ∀ s, r.playback.Reach Machine.always s → s.timer.isSome) ∧
    (∀ s, r.playback.Reach Machine.always s → s.anim.curloop = -1 →
      (s.timer = none ↔ r.loopNum < 0)) := by
  refine ⟨?_, ?_, ?_⟩
  · intro hlimit hst hlong
    constructor
    · intro s hs
      rcases playback_onTime hst hlong hlimit hs with ⟨n, h⟩ | hend
      · refine ⟨.inl ⟨n, h.lt hlimit, h⟩, fun harmed => ⟨?_, fun l htime => ?_⟩⟩
        · exact ⟨_, h.timed.onTime h.timed.due_ge (by omega) (Int.le_refl _)⟩
        · exact h.returns hst hlong htime
      · refine ⟨.inr hend, fun harmed => ?_⟩
        rw [hend.timer] at harmed
        cases harmed
    · rintro s₀ ls s ⟨img, t, hopen, rfl⟩ hrun
      refine hrun.length_le (P := fun k s => r.PlayedLeft k s) ?_ ?_
      · intro k s l s' h htime hs
        exact playedLeft_step hst hlong hlimit h htime hs
      · exact .inl ⟨0, hopen.played t, Nat.le_refl _⟩
  · intro hloop htotal s hs
    exact endless_armed hloop htotal hs
  · intro s hs hstatic
    rw [← Option.not_isSome_iff_eq_none, static_armed_iff hs hstatic]
    omega

end Reel

/-! ## Gifs with a loop count of 2 -/

def gifTwice : GdiLib Int Unit := { gdiFrames 2 with loopCount := fun _ => some 2 }

def gifTwiceReel : Reel (GdiPlusImage.ops gifTwice) :=
  GdiPlusImage.reel gifTwice [100, 100] 2 gif_two_frames gif_delays_nonneg

def gifTwiceOpened : Playback (GdiPlusImage Int) :=
  .opened (GdiPlusImage.ops gifTwice) (GdiPlusImage.openFromBuffer gifTwice []).2 0

theorem gifTwice_ends : ∃ s : Playback (GdiPlusImage Int),
    gifTwiceReel.playback.Reach (OnTime (GdiPlusImage.ops gifTwice)) s ∧
      s.image.curfid = 2 ∧ s.anim = ⟨1, 2, 0, 400⟩ ∧ s.timer = none := by
  have h₀ : gifTwiceReel.playback.Reach (OnTime (GdiPlusImage.ops gifTwice)) gifTwiceOpened :=
    .of_init ⟨_, 0, ⟨⟨rfl, rfl, rfl, by decide⟩, rfl, rfl⟩, rfl⟩
  have h₁ := h₀.step (l := ⟨100, 100⟩)
    ⟨by rintro w ⟨⟩; decide, by decide, by decide, by decide⟩ ⟨rfl, 1, _, rfl, rfl⟩
  have h₂ := h₁.step (l := ⟨200, 200⟩)
    ⟨by rintro w ⟨⟩; decide, by decide, by decide, by decide⟩ ⟨rfl, 1, _, rfl, rfl⟩
  have h₃ := h₂.step (l := ⟨300, 300⟩)
    ⟨by rintro w ⟨⟩; decide, by decide, by decide, by decide⟩ ⟨rfl, 1, _, rfl, rfl⟩
  have h₄ := h₃.step (l := ⟨400, 400⟩)
    ⟨by rintro w ⟨⟩; decide, by decide, by decide, by decide⟩ ⟨rfl, 1, _, rfl, rfl⟩
  exact ⟨_, h₄, rfl, rfl, rfl⟩

theorem animation_stops_gif : ∃ s : Playback (GdiPlusImage Int),
    gifTwiceReel.playback.Reach (OnTime (GdiPlusImage.ops gifTwice)) s ∧
      s.anim = ⟨1, 2, 0, 400⟩ ∧ gifTwiceReel.Ended s := by
  obtain ⟨s, hs, -, hanim, htimer⟩ := gifTwice_ends
  have hlong : gifTwiceReel.Long := by
    unfold Reel.Long
    decide
  have hstops := (gifTwiceReel.animation_stops.1 (by decide)
    (GdiPlusImage.reel_steady _ _ _ _ _) hlong).1 s hs
  refine ⟨s, hs, hanim, ?_⟩
  rcases hstops.1 with ⟨n, -, hplayed⟩ | hend
  · have harmed := hplayed.armed
    rw [htimer] at harmed
    cases harmed
  · exact hend

def gifFastTwice : GdiLib Int Unit := { gifFast with loopCount := fun _ => some 2 }

theorem gif_fast_two_frames : 2 ≤ ([10, 10] : List Int).length := by decide

theorem gif_fast_delays_nonneg : ∀ d ∈ [10, 10], (0 : Int) ≤ d := by decide

def gifFastTwiceReel : Reel (GdiPlusImage.ops gifFastTwice) :=
  GdiPlusImage.reel gifFastTwice [10, 10] 2 gif_fast_two_frames gif_fast_delays_nonneg

def gifFastTwiceOpened : Playback (GdiPlusImage Int) :=
  .opened (GdiPlusImage.ops gifFastTwice) (GdiPlusImage.openFromBuffer gifFastTwice []).2 0

/-- Frames of 10 ms, called back on time at 5 and at 6: the second callback restarts, and frame 0
comes up again with the delays of both frames counted, which is no frame of the sequence. -/
theorem fast_gif_unplayed : ∃ s : Playback (GdiPlusImage Int),
    gifFastTwiceReel.playback.Reach (OnTime (GdiPlusImage.ops gifFastTwice)) s ∧
      s.anim = ⟨0, 0, 6, 30⟩ ∧ s.timer.isSome ∧ ∀ n, ¬ gifFastTwiceReel.Played s n := by
  have h₀ : gifFastTwiceReel.playback.Reach (OnTime (GdiPlusImage.ops gifFastTwice))
      gifFastTwiceOpened :=
    .of_init ⟨_, 0, ⟨⟨rfl, rfl, rfl, by decide⟩, rfl, rfl⟩, rfl⟩
  have h₁ := h₀.step (l := ⟨5, 5⟩)
    ⟨by rintro w ⟨⟩; decide, by decide, by decide, by decide⟩ ⟨rfl, 1, _, rfl, rfl⟩
  have h₂ := h₁.step (l := ⟨6, 6⟩)
    ⟨by rintro w ⟨⟩; decide, by decide, by decide, by decide⟩ ⟨rfl, 1, _, rfl, rfl⟩
  refine ⟨_, h₂, rfl, rfl, fun n hplayed => ?_⟩
  have hloop : (0 : Int) = (n / 2 : Nat) := hplayed.frame.curloop
  have hframe : (0 : Int) = (n % 2 : Nat) := hplayed.frame.curframe
  obtain rfl : n = 0 := by omega
  exact absurd hplayed.frame.totaldelay (by decide)

/-- Two frames without delay. -/
def gifStill : GdiLib Int Unit := { gdiDelays fun _ => 0 with loopCount := fun _ => some 2 }

def gifStillReel : Reel (GdiPlusImage.ops gifStill) :=
  GdiPlusImage.reel gifStill [0, 0] 2 (by decide) (by decide)

def gifStillOpened : Playback (GdiPlusImage Int) :=
  .opened (GdiPlusImage.ops gifStill) (GdiPlusImage.openFromBuffer gifStill []).2 0

/-- The first callback finds that the gif is static, and arms a timer again. -/
theorem static_gif_armed : ∃ s : Playback (GdiPlusImage Int),
    gifStillReel.playback.Reach Machine.always s ∧ s.anim = ⟨0, -1, 0, 0⟩ ∧ s.timer = some 0 := by
  have h₀ : gifStillReel.playback.Reach Machine.always gifStillOpened :=
    .of_init ⟨_, 0, ⟨⟨rfl, rfl, rfl, by decide⟩, rfl, rfl⟩, rfl⟩
  have h₁ := h₀.step (l := ⟨10, 10⟩) trivial ⟨rfl, 2, _, rfl, rfl⟩
  exact ⟨_, h₁, rfl, rfl⟩

end ObZrv
