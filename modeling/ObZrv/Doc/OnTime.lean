import ObZrv.Doc.Schedule

/-!
# Doc.OnTime

An endless animation whose callbacks come on time.

* `OnTime`              : not before the last callback, at most 20 ms before the timer was to go
  off, and at most `allowdiff` past the due time.
* `Timed`               : what every callback on time leaves of the schedule, as long as the frames
  shown last 20 ms or more (`Paced`).
* `onTime_never_shifts` : then none takes a wrap of the clock off `_tmstart` or restarts.
-/

namespace ObZrv

open Lib

section

variable {I : Type} (ops : ImageOps I)

structure OnTime (s : Playback I) (l : Reading) : Prop where
  early : ∀ {w}, s.timer = some w → s.tmcur + w ≤ l.tmcur + 20
  forward : s.tmcur ≤ l.tmcur
  late : l.tmcur ≤ s.anim.due + allowdiff ops s.image
  noWrap : l.tmcur ≤ l.tmcurnew

/-- The frame that is shown lasts at least 20 ms, and five times that fits the timer. -/
def Paced (s : Playback I) : Prop :=
  20 ≤ ops.getFrameDelay s.image ∧ 5 * ops.getFrameDelay s.image < 2 ^ 32

/-- The callback shifts the animation: it takes a wrap of the clock off `_tmstart`, as the current
frame seems to start in the future, or it restarts. -/
def Shifts (s : Playback I) (tmcur : Int) : Prop :=
  s.anim.due - ops.getFrameDelay s.image > tmcur ∨ Restarts ops s.image s.anim tmcur

instance (s : Playback I) (tmcur : Int) : Decidable (Shifts ops s tmcur) :=
  inferInstanceAs (Decidable (_ ∨ _))

end

namespace Reel

variable {I : Type} {ops : ImageOps I} (r : Reel ops)

/-- The schedule a callback on time leaves: the current frame starts at most 20 ms after it, and
the timer asks for the due time or five times the delay of the frame. -/
structure Timed (s : Playback I) : Prop where
  rolling : r.Rolling s.image s.anim
  start_le : s.anim.due - ops.getFrameDelay s.image ≤ s.tmcur + 20
  due_ge : s.tmcur ≤ s.anim.due
  timer : ∀ {w}, s.timer = some w → w = toUINT (s.anim.due - s.tmcur) ∨
    w = min (toUINT (s.anim.due - s.tmcur)) (toUINT (ops.getFrameDelay s.image) * 5 % 2 ^ 32)

variable {r} {s : Playback I} {l : Reading} {img : I} {a : Anim} {tmcur tmcurnew : Int} {fuel : Nat}

theorem toUINT_eq {x : Int} (h : 0 ≤ x) (hlt : x < 2 ^ 32) : (toUINT x : Int) = x := by
  rw [toUINT, Int.toNat_of_nonneg (by omega), Int.emod_eq_of_lt h hlt]

/-- A paced frame is due at most 20 ms after a callback that is on time, and has started. -/
theorem Timed.started (h : r.Timed s) (htime : OnTime ops s l) (hpaced : Paced ops s) {w : Nat}
    (hw : s.timer = some w) :
    s.anim.due - ops.getFrameDelay s.image ≤ l.tmcur ∧ s.anim.due ≤ l.tmcur + 20 := by
  obtain ⟨hlong, hfits⟩ := hpaced
  have hstart := h.start_le
  have hge := h.due_ge
  have hearly := htime.early hw
  have hdue := toUINT_eq (x := s.anim.due - s.tmcur) (by omega) (by omega)
  have hdelay := toUINT_eq (x := ops.getFrameDelay s.image) (by omega) (by omega)
  have hfive : toUINT (ops.getFrameDelay s.image) * 5 % 2 ^ 32 =
      toUINT (ops.getFrameDelay s.image) * 5 := Nat.mod_eq_of_lt (by omega)
  rcases h.timer hw with rfl | rfl
  · omega
  · rw [hfive] at hearly
    omega

theorem Timed.not_shifts (h : r.Timed s) (htime : OnTime ops s l) (hpaced : Paced ops s) {w : Nat}
    (hw : s.timer = some w) : ¬ Shifts ops s l.tmcur := by
  obtain ⟨hstart, hdue⟩ := h.started htime hpaced hw
  rintro (hlt | hr)
  · omega
  · exact not_restarts hstart hdue htime.late hr

/-- The frame that a pass goes to starts when the one before was due. -/
theorem rolled_start (r : Reel ops) (reset : Bool) (img : I) (a : Anim) :
    (r.rolled reset img a).due - ops.getFrameDelay (r.fetch reset img) = a.due := by
  simp only [rolled, Anim.due]
  omega

theorem rolled_curloop_ge (h : r.Rolling img a) (reset : Bool) :
    a.curloop ≤ (r.rolled reset img a).curloop := by
  simp only [rolled]
  rcases wraps_cases h reset with ⟨hw, -⟩ | ⟨hw, -⟩
  · omega
  · omega

/-- The last pass of the loop, where that does not end the last loop of the animation: it is the
first one, or it comes after the first one and was due within 10 ms. -/
theorem animLoop_last {reset : Bool} {p : I × Anim} (htotal : 0 < r.total)
    (h : r.Rolling img a) (hp : animLoop ops reset tmcur fuel img a = some p) :
    r.Finished p.1 p.2 ∨ ∃ img₀ b, r.Rolling img₀ b ∧
      r.Rolling (r.fetch reset img₀) (r.rolled reset img₀ b) ∧
      p = (r.fetch reset img₀, r.rolled reset img₀ b) ∧ tmcur + 10 < p.2.due ∧
      a.curloop ≤ b.curloop ∧
      ((img₀ = img ∧ b = a) ∨ ((r.rolled reset img a).due ≤ b.due ∧ b.due ≤ tmcur + 10)) := by
  rw [animLoop_eq] at hp
  refine doWhile_inv
    (P := fun s : I × Anim => r.Rolling s.1 s.2 ∧ a.curloop ≤ s.2.curloop ∧
      ((s.1 = img ∧ s.2 = a) ∨ ((r.rolled reset img a).due ≤ s.2.due ∧ s.2.due ≤ tmcur + 10)))
    (Q := fun p : I × Anim => r.Finished p.1 p.2 ∨ ∃ img₀ b, r.Rolling img₀ b ∧
      r.Rolling (r.fetch reset img₀) (r.rolled reset img₀ b) ∧
      p = (r.fetch reset img₀, r.rolled reset img₀ b) ∧ tmcur + 10 < p.2.due ∧
      a.curloop ≤ b.curloop ∧
      ((img₀ = img ∧ b = a) ∨ ((r.rolled reset img a).due ≤ b.due ∧ b.due ≤ tmcur + 10)))
    ?_ ?_ ⟨h, Int.le_refl _, .inl ⟨rfl, rfl⟩⟩ hp
  · rintro ⟨img', b⟩ s' ⟨h, hcur, hfrom⟩ hgo
    obtain ⟨hfin, hstick, hdue, rfl⟩ := (animBody_go_iff h).mp hgo
    refine ⟨h.rolled hfin hstick, Int.le_trans hcur (rolled_curloop_ge h reset), .inr ⟨?_, hdue⟩⟩
    rcases hfrom with ⟨himg, hb⟩ | ⟨hge, -⟩
    · simp only at himg hb
      rw [himg, hb]
    · have hdelay := fetch_delay_nonneg reset h.sound h.pos_le
      have hstart := rolled_start r reset img' b
      simp only at hge hdelay ⊢
      omega
  · rintro ⟨img', b⟩ s' ⟨h, hcur, hfrom⟩ hleave
    rcases animBody_leave h hleave with ⟨-, hend, -⟩ | ⟨-, hstick, -⟩ |
      ⟨hfin, hstick, hahead, rfl⟩
    · exact .inl hend
    · have := hstick.1
      omega
    · exact .inr ⟨img', b, h, h.rolled hfin hstick, rfl, hahead, hcur, hfrom⟩

/-- Without a loop limit there is no last loop. -/
theorem Finished.not_endless (h : r.Finished img a) : ¬ r.loopNum ≤ 0 :=
  Int.not_le.mpr h.loopNum_pos

theorem rearm_timed (h : r.Rolling img a) (hahead : tmcur + 10 < a.due)
    (hstart : a.due - ops.getFrameDelay img ≤ tmcur + 20) (hnew : tmcur ≤ tmcurnew) :
    r.Timed ((rearm ops img a tmcur tmcurnew).playback ⟨tmcur, tmcurnew⟩) := by
  simp only [rearm]
  split
  · rw [if_neg (Int.not_lt.mpr hnew), if_pos (by omega)]
    refine ⟨h, hstart, ?_, ?_⟩
    · simp only [Callback.playback]
      omega
    · rintro w ⟨⟩
      exact .inr rfl
  · refine ⟨h, hstart, ?_, ?_⟩
    · simp only [Callback.playback]
      omega
    · rintro w ⟨⟩

/-- A callback on time of a paced frame goes into the loop, on the schedule as it is. -/
theorem Timed.goes (h : r.Timed s) (htime : OnTime ops s l) (hpaced : Paced ops s)
    {s' : Playback I} (hs : r.playback.step s l s') :
    ∃ fuel p, animLoop ops false l.tmcur fuel s.image s.anim = some p ∧ s'.image = p.1 ∧
      s'.anim = { p.2 with tmstart := s'.anim.tmstart } ∧
      s' = (rearm ops p.1 p.2 l.tmcur l.tmcurnew).playback l := by
  obtain ⟨w, hw⟩ := Option.isSome_iff_exists.mp hs.1
  obtain ⟨hstart, hdue⟩ := h.started htime hpaced hw
  have hnot : ¬ Restarts ops s.image s.anim l.tmcur :=
    fun hr => h.not_shifts htime hpaced hw (.inr hr)
  have hadj := adjusted_eq hstart
  rcases h.rolling.step_cases hs with ⟨⟨-, hlater⟩, -⟩ | ⟨-, fuel, p, hp, hres⟩
  · rw [hadj] at hlater
    omega
  · simp only [hnot, decide_false, entered, if_false, hadj] at hp
    exact ⟨fuel, p, hp, hres⟩

/-- It leaves such a schedule, for the frame it fetched, or has ended the last loop. -/
theorem Timed.step (htotal : 0 < r.total) (h : r.Timed s) (htime : OnTime ops s l)
    (hpaced : Paced ops s) {p : I × Anim} (harmed : s.timer.isSome)
    (hp : animLoop ops false l.tmcur fuel s.image s.anim = some p) :
    r.Finished p.1 p.2 ∨ r.Timed ((rearm ops p.1 p.2 l.tmcur l.tmcurnew).playback l) ∧
      ∃ img₀, r.Sound img₀ ∧ r.pos img₀ ≤ r.count ∧ p.1 = r.fetch false img₀ := by
  obtain ⟨w, hw⟩ := Option.isSome_iff_exists.mp harmed
  obtain ⟨hstart, hdue⟩ := h.started htime hpaced hw
  rcases animLoop_last htotal h.rolling hp with hend | ⟨img₀, b, hroll, hroll', rfl, hahead, -, hfrom⟩
  · exact .inl hend
  · refine .inr ⟨rearm_timed hroll' hahead ?_ htime.noWrap, img₀, hroll.sound, hroll.pos_le, rfl⟩
    rw [rolled_start]
    rcases hfrom with ⟨-, rfl⟩ | ⟨-, hle⟩
    · exact hdue
    · omega

/-- Without a loop limit it leaves such a schedule. -/
theorem Timed.step_endless (hloop : r.loopNum ≤ 0) (htotal : 0 < r.total) (h : r.Timed s)
    (htime : OnTime ops s l) (hpaced : Paced ops s) {s' : Playback I}
    (hs : r.playback.step s l s') :
    r.Timed s' ∧ ∃ img₀, r.Sound img₀ ∧ r.pos img₀ ≤ r.count ∧ s'.image = r.fetch false img₀ := by
  obtain ⟨fuel, p, hp, himage, -, heq⟩ := h.goes htime hpaced hs
  rcases h.step htotal htime hpaced hs.1 hp with hend | ⟨htimed, hfetched⟩
  · exact absurd hloop hend.not_endless
  · rw [himage]
    exact ⟨heq ▸ htimed, hfetched⟩

theorem Opened.timed (h : r.Opened img) (t : Int) : r.Timed (Playback.opened ops img t) := by
  have hdelay := r.delay_nonneg 0
  have hd := h.delay
  refine ⟨h.rolling t, ?_, ?_, ?_⟩
  · simp only [Playback.opened, Anim.due]
    omega
  · simp only [Playback.opened, Anim.due]
    omega
  · rintro w ⟨⟩
    refine .inl ?_
    simp only [Playback.opened, Anim.due]
    congr 1
    omega

theorem playback_timed (hloop : r.loopNum ≤ 0) (htotal : 0 < r.total)
    (h : r.playback.Reach (fun s l => OnTime ops s l ∧ Paced ops s) s) : r.Timed s := by
  refine h.holds (P := fun s => r.Timed s) ?_ ?_
  · rintro s ⟨img, t, hopen, rfl⟩
    exact hopen.timed t
  · rintro s l s' hs ⟨htime, hpaced⟩ hstep
    exact (hs.step_endless hloop htotal htime hpaced hstep).1

/-! ## Frames of less than 20 ms -/

/-- Frame `k` is shown, by a schedule in which it does not start before the last callback. -/
structure Showing (r : Reel ops) (s : Playback I) (k : Nat) : Prop where
  timed : r.Timed s
  armed : s.timer.isSome
  pos : r.pos s.image = k + 1
  delay : ops.getFrameDelay s.image = r.delay k
  curloop : 0 ≤ s.anim.curloop
  start_ge : s.tmcur ≤ s.anim.due - r.delay k

variable {k : Nat}

theorem toUINT_le {x : Int} (h : 0 ≤ x) : (toUINT x : Int) ≤ x := by
  rw [toUINT, Int.toNat_of_nonneg (Int.emod_nonneg _ (by omega))]
  omega

/-- The timer does not ask for more than the due time. -/
theorem Timed.timer_le (h : r.Timed s) {w : Nat} (hw : s.timer = some w) :
    s.tmcur + w ≤ s.anim.due := by
  have hge := h.due_ge
  have hle := toUINT_le (x := s.anim.due - s.tmcur) (by omega)
  rcases h.timer hw with rfl | rfl
  · omega
  · omega

/-- A callback between the last one and the due time, at most 20 ms ahead of the latter. -/
theorem Timed.onTime (h : r.Timed s) {t : Int} (hforward : s.tmcur ≤ t)
    (hearly : s.anim.due ≤ t + 20) (hlate : t ≤ s.anim.due) : OnTime ops s ⟨t, t⟩ := by
  have hallow := allowdiff_ge ops s.image
  refine ⟨?_, hforward, ?_, Int.le_refl t⟩
  · intro w hw
    have := h.timer_le hw
    simp only
    omega
  · simp only
    omega

/-- An endless animation goes on, on the same schedule when the clock has not wrapped. -/
theorem rearm_endless {img : I} {a : Anim} (hloop : ops.getLoopNum img ≤ 0) (hcur : 0 ≤ a.curloop)
    (hnew : tmcur ≤ tmcurnew) : (rearm ops img a tmcur tmcurnew).image = img ∧
      (rearm ops img a tmcur tmcurnew).anim = a ∧
      (rearm ops img a tmcur tmcurnew).timer.isSome := by
  simp only [rearm]
  rw [if_pos (.inl ⟨hloop, hcur⟩), if_neg (Int.not_lt.mpr hnew)]
  exact ⟨rfl, rfl, rfl⟩

/-- A callback between the start and the due time of the frame, at most 20 ms ahead of the latter,
goes on to a frame that starts when this one is due, or later: to the next one, unless that is due
within 10 ms itself. -/
theorem Showing.advance (hst : r.Steady) (hloop : r.loopNum ≤ 0) (htotal : 0 < r.total)
    (h : r.Showing s k) {t : Int} (hstart : s.anim.due - r.delay k ≤ t)
    (hearly : s.anim.due ≤ t + 20) (hlate : t ≤ s.anim.due) :
    ∃ s' k', r.playback.step s ⟨t, t⟩ s' ∧ r.Showing s' k' ∧ s'.tmcur = t ∧ k' < r.count ∧
      t + 10 < s'.anim.due ∧ s.anim.due ≤ s'.anim.due - r.delay k' ∧
      (t + 10 < s.anim.due + r.delay ((k + 1) % r.count) → k' = (k + 1) % r.count) := by
  have hroll := h.timed.rolling
  have hallow := allowdiff_ge ops s.image
  have hstart' : s.anim.due - ops.getFrameDelay s.image ≤ t := by rwa [h.delay]
  have hnot : ¬ Restarts ops s.image s.anim t := not_restarts hstart' hearly (by omega)
  have hadj := adjusted_eq hstart'
  have hwaits : ¬ Waits ops s.image s.anim t := by
    rintro ⟨-, hlt⟩
    rw [hadj] at hlt
    omega
  obtain ⟨fuel, c, hc⟩ : ∃ fuel c, onAnimate ops fuel s.image s.anim t t = some c :=
    (returns_iff hroll).mpr fun hh => hnot ((hst.hangs_iff hroll).mp hh).1
  have hstep : r.playback.step s ⟨t, t⟩ (c.playback ⟨t, t⟩) := ⟨h.armed, fuel, c, hc, rfl⟩
  rw [onAnimate_of_loop hroll hwaits] at hc
  obtain ⟨p, hp, rfl⟩ := Option.map_eq_some_iff.mp hc
  simp only [hnot, decide_false, entered, if_false, hadj] at hp
  obtain ⟨img₀, b, hb, hb', rfl, hahead, hcur, hfrom⟩ :=
    (animLoop_last htotal hroll hp).resolve_left fun hend => hend.not_endless hloop
  obtain ⟨hsound, -, hdelay⟩ := hst.fetch false hb.sound hb.pos_le
  have hpos := hst.fetch_pos false hb.sound hb.pos_le
  have hbegin := rolled_start r false img₀ b
  have hslot : r.slot false s.image = (k + 1) % r.count := by
    rw [← h.pos]
    rfl
  have hfirst := rolled_start r false s.image s.anim
  have hfirstDelay := (hst.fetch false hroll.sound hroll.pos_le).2.2
  rw [hslot] at hfirstDelay
  have hnext := r.delay_nonneg ((k + 1) % r.count)
  have hge : s.anim.due ≤ b.due := by
    rcases hfrom with ⟨-, rfl⟩ | ⟨hge, -⟩
    · exact Int.le_refl _
    · omega
  have hle : b.due ≤ t + 20 := by
    rcases hfrom with ⟨-, rfl⟩ | ⟨-, hle⟩
    · exact hearly
    · omega
  have hcurloop : 0 ≤ (r.rolled false img₀ b).curloop :=
    Int.le_trans (Int.le_trans h.curloop hcur) (rolled_curloop_ge hb false)
  have htimed := rearm_timed hb' hahead (by omega) (Int.le_refl t)
  obtain ⟨himg, hanim, harmed⟩ := rearm_endless
    ((r.getLoopNum hsound).trans_le hloop) hcurloop (Int.le_refl t)
  refine ⟨_, r.slot false img₀, hstep, ⟨htimed, harmed, ?_, ?_, ?_, ?_⟩, rfl, slot_lt _ _ _, ?_, ?_, ?_⟩
  · simp only [Callback.playback, himg]
    exact hpos
  · simp only [Callback.playback, himg]
    exact hdelay
  · simp only [Callback.playback, hanim]
    exact hcurloop
  · simp only [Callback.playback, hanim]
    omega
  · simp only [Callback.playback, hanim]
    exact hahead
  · simp only [Callback.playback, hanim]
    omega
  · intro hlt
    rcases hfrom with ⟨rfl, -⟩ | ⟨hge', hle'⟩
    · exact hslot
    · omega

/-- No callback on time of any run shifts the animation. -/
def NeverShifts (r : Reel ops) : Prop :=
  ∀ s l, r.playback.Reach (OnTime ops) s → s.timer.isSome → OnTime ops s l → ¬ Shifts ops s l.tmcur

/-- A frame that starts after the callback that shows it lasts 20 ms: the next callback could
otherwise come on time before it starts. -/
theorem NeverShifts.long (hnever : r.NeverShifts) (hs : r.playback.Reach (OnTime ops) s)
    (h : r.Showing s k) (hlater : s.tmcur < s.anim.due - r.delay k) : 20 ≤ r.delay k := by
  by_contra hshort
  have hdelay := r.delay_nonneg k
  have hon : OnTime ops s ⟨max s.tmcur (s.anim.due - 20), max s.tmcur (s.anim.due - 20)⟩ :=
    h.timed.onTime (Int.le_max_left _ _) (by omega) (by omega)
  refine hnever s _ hs h.armed hon (.inl ?_)
  rw [h.delay]
  simp only
  omega

/-- From a frame of 20 ms or more on, called 20 ms early, the next one is as long. -/
theorem NeverShifts.next (hnever : r.NeverShifts) (hst : r.Steady) (hloop : r.loopNum ≤ 0)
    (htotal : 0 < r.total) (hs : r.playback.Reach (OnTime ops) s) (h : r.Showing s k)
    (hlong : 20 ≤ r.delay k) :
    ∃ s', r.playback.Reach (OnTime ops) s' ∧ r.Showing s' ((k + 1) % r.count) ∧
      20 ≤ r.delay ((k + 1) % r.count) := by
  have hge := h.start_ge
  have hnext := r.delay_nonneg ((k + 1) % r.count)
  obtain ⟨s', k', hstep, h', htm, -, -, hbegin, hk⟩ :=
    h.advance hst hloop htotal (t := s.anim.due - 20) (by omega) (by omega) (by omega)
  have hs' := hs.step (h.timed.onTime (by omega) (by omega) (by omega)) hstep
  obtain rfl := hk (by omega)
  exact ⟨s', hs', h', hnever.long hs' h' (by omega)⟩

/-- Some frame of 20 ms or more is shown: three callbacks at the time of opening come to one. -/
theorem NeverShifts.exists_long (hnever : r.NeverShifts) (hst : r.Steady) (hloop : r.loopNum ≤ 0)
    (htotal : 0 < r.total) (hs : r.playback.Reach (OnTime ops) s) (h : r.Showing s 0)
    (hbegin : s.anim.due - r.delay 0 = s.tmcur) :
    ∃ s' k', r.playback.Reach (OnTime ops) s' ∧ r.Showing s' k' ∧ 20 ≤ r.delay k' := by
  by_cases hlong : 20 ≤ r.delay 0
  · exact ⟨s, 0, hs, h, hlong⟩
  · have hdelay := r.delay_nonneg 0
    obtain ⟨s₁, k₁, hstep₁, h₁, htm₁, -, hahead₁, hbegin₁, -⟩ :=
      h.advance hst hloop htotal (t := s.tmcur) (by omega) (by omega) (by omega)
    have hs₁ := hs.step (h.timed.onTime (by omega) (by omega) (by omega)) hstep₁
    by_cases hlong₁ : 20 ≤ r.delay k₁
    · exact ⟨s₁, k₁, hs₁, h₁, hlong₁⟩
    · have hnow : s₁.anim.due - r.delay k₁ ≤ s₁.tmcur :=
        Int.not_lt.mp fun hlt => hlong₁ (hnever.long hs₁ h₁ hlt)
      have hdelay₁ := r.delay_nonneg k₁
      obtain ⟨s₂, k₂, hstep₂, h₂, htm₂, -, -, hbegin₂, -⟩ :=
        h₁.advance hst hloop htotal (t := s₁.tmcur) (by omega) (by omega) (by omega)
      have hs₂ := hs₁.step (h₁.timed.onTime (by omega) (by omega) (by omega)) hstep₂
      exact ⟨s₂, k₂, hs₂, h₂, hnever.long hs₂ h₂ (by omega)⟩

theorem Opened.showing (h : r.Opened img) (t : Int) :
    r.Showing (Playback.opened ops img t) 0 where
  timed := h.timed t
  armed := rfl
  pos := h.pos
  delay := h.delay
  curloop := Int.le_refl 0
  start_ge := by
    have := h.delay
    simp only [Playback.opened, Anim.due]
    omega

theorem NeverShifts.all_long (hnever : r.NeverShifts) (hst : r.Steady) (hloop : r.loopNum ≤ 0)
    (htotal : 0 < r.total) (hopen : r.Opened img) {k : Nat} (hk : k < r.count) :
    20 ≤ r.delay k := by
  obtain ⟨s, j, hs, h, hlong⟩ := hnever.exists_long hst hloop htotal
    (.of_init ⟨img, 0, hopen, rfl⟩) (hopen.showing 0) (by
      have := hopen.delay
      simp only [Playback.opened, Anim.due]
      omega)
  -- from there on all frames are, around to frame `k`
  have hall : ∀ n, ∃ s, r.playback.Reach (OnTime ops) s ∧ r.Showing s ((j + n) % r.count) ∧
      20 ≤ r.delay ((j + n) % r.count) := by
    intro n
    induction n with
    | zero =>
      have hj : j < r.count := by
        have := h.pos
        have := h.timed.rolling.pos_le
        omega
      rw [Nat.add_zero, Nat.mod_eq_of_lt hj]
      exact ⟨s, hs, h, hlong⟩
    | succ n ih =>
      obtain ⟨s', hs', h', hlong'⟩ := ih
      have := hnever.next hst hloop htotal hs' h' hlong'
      rwa [Nat.mod_add_mod] at this
  obtain ⟨-, -, -, hlast⟩ := hall (r.count * j + k - j)
  have hround : j ≤ r.count * j := Nat.le_mul_of_pos_left j count_pos
  rwa [show j + (r.count * j + k - j) = k + r.count * j by omega, Nat.add_mul_mod_self_left,
    Nat.mod_eq_of_lt hk] at hlast

/-! ## Which animations are never shifted -/

theorem neverShifts_of_long (hst : r.Steady) (hloop : r.loopNum ≤ 0) (htotal : 0 < r.total)
    (hlong : ∀ k, k < r.count → 20 ≤ r.delay k ∧ 5 * r.delay k < 2 ^ 32) : r.NeverShifts := by
  intro s l hs harmed htime
  have hkept : r.Timed s ∧ Paced ops s := by
    refine hs.holds (P := fun s => r.Timed s ∧ Paced ops s) ?_ ?_
    · rintro s ⟨img, t, hopen, rfl⟩
      refine ⟨hopen.timed t, ?_⟩
      have := hlong 0 count_pos
      simp only [Paced, Playback.opened, hopen.delay]
      exact this
    · rintro s l s' ⟨h, hpaced⟩ htime hstep
      obtain ⟨h', img₀, hsound, hpos, himg⟩ := h.step_endless hloop htotal htime hpaced hstep
      refine ⟨h', ?_⟩
      rw [Paced, himg, (hst.fetch false hsound hpos).2.2]
      exact hlong _ (slot_lt _ _ _)
  obtain ⟨w, hw⟩ := Option.isSome_iff_exists.mp harmed
  exact hkept.1.not_shifts htime hkept.2 hw

/-- **An animation whose callbacks come on time is not shifted**, neither by a wrap of the clock nor
by a restart, as long as the frames that are shown last at least 20 ms. So an endless animation
whose frames all come, none longer than about 10 days, is never shifted if and only if all its
frames last 20 ms or more. -/
theorem onTime_never_shifts (r : Reel ops) (hloop : r.loopNum ≤ 0) (htotal : 0 < r.total) :
    (∀ s l, r.playback.Reach (fun s l => OnTime ops s l ∧ Paced ops s) s → s.timer.isSome →
      OnTime ops s l → Paced ops s → ¬ Shifts ops s l.tmcur) ∧
    (r.Steady → (∃ img, r.Opened img) → (∀ k, k < r.count → 5 * r.delay k < 2 ^ 32) →
      (r.NeverShifts ↔ ∀ k, k < r.count → 20 ≤ r.delay k)) := by
  constructor
  · intro s l hs harmed htime hpaced
    obtain ⟨w, hw⟩ := Option.isSome_iff_exists.mp harmed
    exact (playback_timed hloop htotal hs).not_shifts htime hpaced hw
  · rintro hst ⟨img, hopen⟩ hshort
    constructor
    · intro hnever k hk
      exact hnever.all_long hst hloop htotal hopen hk
    · intro hlong
      exact neverShifts_of_long hst hloop htotal fun k hk => ⟨hlong k hk, hshort k hk⟩

end Reel

/-! ## Gifs of 100 ms and of 10 ms -/

theorem gif_two_frames : 2 ≤ ([100, 100] : List Int).length := by decide

theorem gif_delays_nonneg : ∀ d ∈ [100, 100], (0 : Int) ≤ d := by decide

def gifReel : Reel (GdiPlusImage.ops (gdiFrames 2)) :=
  GdiPlusImage.reel (gdiFrames 2) [100, 100] 0 gif_two_frames gif_delays_nonneg

theorem gif_opened : gifReel.Opened gif := ⟨⟨rfl, rfl, rfl, by decide⟩, rfl, rfl⟩

theorem onTime_never_shifts_gif :
    ¬ Shifts (GdiPlusImage.ops (gdiFrames 2)) gifOpened 100 ∧ gifReel.NeverShifts := by
  have h := gifReel.onTime_never_shifts (by decide) (by decide)
  have hlong : ∀ k, k < gifReel.count → 20 ≤ gifReel.delay k := by decide
  have hshort : ∀ k, k < gifReel.count → 5 * gifReel.delay k < 2 ^ 32 := by decide
  have hnever := (h.2 (GdiPlusImage.reel_steady _ _ _ _ _) ⟨gif, gif_opened⟩ hshort).mpr hlong
  refine ⟨h.1 gifOpened ⟨100, 100⟩ (.of_init ⟨gif, 0, gif_opened, rfl⟩) rfl ?_ ?_, hnever⟩
  · refine ⟨?_, by decide, by decide, by decide⟩
    rintro w ⟨⟩
    decide
  · exact ⟨by decide, by decide⟩

def gifFast : GdiLib Int Unit := gdiDelays fun _ => 1

def gifFastReel : Reel (GdiPlusImage.ops gifFast) :=
  GdiPlusImage.reel gifFast [10, 10] 0 (by decide) (by decide)

def gifFastOpened : Playback (GdiPlusImage Int) :=
  .opened (GdiPlusImage.ops gifFast) (GdiPlusImage.openFromBuffer gifFast []).2 0

/-- Opened at time 0 and called at 5, where 15 ms are asked for: the frame shown then starts at 10.
A callback at 6, still on time, takes it for a wrap of the clock, and restarts. -/
theorem fast_gif_shifted : ∃ s : Playback (GdiPlusImage Int),
    gifFastReel.playback.Reach (OnTime (GdiPlusImage.ops gifFast)) s ∧ s.timer = some 15 ∧
      OnTime (GdiPlusImage.ops gifFast) s ⟨6, 6⟩ ∧
      s.anim.due - (GdiPlusImage.ops gifFast).getFrameDelay s.image > 6 ∧
      Restarts (GdiPlusImage.ops gifFast) s.image s.anim 6 := by
  have hopen : gifFastReel.playback.Reach (OnTime (GdiPlusImage.ops gifFast)) gifFastOpened :=
    .of_init ⟨_, 0, ⟨⟨rfl, rfl, rfl, by decide⟩, rfl, rfl⟩, rfl⟩
  have hfirst : OnTime (GdiPlusImage.ops gifFast) gifFastOpened ⟨5, 5⟩ := by
    refine ⟨?_, by decide, by decide, by decide⟩
    rintro w ⟨⟩
    decide
  have hs := hopen.step (l := ⟨5, 5⟩) hfirst ⟨rfl, 1, _, rfl, rfl⟩
  refine ⟨_, hs, rfl, ⟨?_, by decide, by decide, by decide⟩, by decide, by decide⟩
  rintro w ⟨⟩
  decide

end ObZrv
