import ObZrv.Doc.Loops
import ObZrv.Doc.Passes

/-!
# Doc.Counters

The frame counters of the document and of the codecs, after every callback of every run.

* `delayReads_inside`          : the delay table is only read at frames that are there.
* `finished_iff`               : which callbacks come to the end of the last loop (`EndsLoops`).
* `curframe_eq_zero_iff`       : which callbacks leave frame 0 (`ShowsFirst`).
* `agrees_iff_of_counts`, `agrees_iff_of_zero` : when a counter that goes with the frames, and one
  that stays at 0, agree with `_curframe`.
-/

namespace ObZrv

open Lib

def GdiPlusImage.getCurFrame {G : Type} (img : GdiPlusImage G) : Int := img.curfid

def WebpImage.getCurFrame {D : Type} (img : WebpImage D) : Int := img.curfid

/-! ## The calls of `getFrameDelay` -/

section

variable {I : Type} (ops : ImageOps I)

instance (img : I) (a : Anim) (tmcur : Int) : Decidable (Reel.Waits ops img a tmcur) :=
  inferInstanceAs (Decidable (_ ∧ _))

/-- The images that a pass of the catch-up loop calls `getFrameDelay` on. -/
def passReads (reset : Bool) (img : I) (a : Anim) : List I :=
  let (res, img) := ops.nextFrame img reset
  let curframe := if reset then 0 else a.curframe + 1
  if res = .NO_MORE_FRAMES then
    if ops.getLoopNum img > 0 ∧ a.curloop + 1 ≥ ops.getLoopNum img then []
    else if curframe ≤ 1 then []
    else [(ops.nextFrame img true).2]
  else [img]

def loopReads (reset : Bool) (tmcur : Int) : Nat → I → Anim → List I
  | 0, _, _ => []
  | fuel + 1, img, a =>
    passReads ops reset img a ++
      match Reel.animBody ops reset tmcur (img, a) with
      | .inl (img, a) => loopReads reset tmcur fuel img a
      | .inr _ => []

/-- The images that `onAnimate` calls it on: at the top, in the loop, and for the timer. -/
def delayReads (fuel : Nat) (img : I) (a : Anim) (tmcur : Int) : List I :=
  if ops.getLoopNum img > 0 ∧ a.curloop ≥ ops.getLoopNum img then []
  else if Reel.Waits ops img a tmcur then [img]
  else
    let reset := decide (Restarts ops img a tmcur)
    let a := Reel.entered ops img a tmcur
    [img] ++ loopReads ops reset tmcur fuel img a ++
      match animLoop ops reset tmcur fuel img a with
      | none => []
      | some (img, a) =>
        if (ops.getLoopNum img ≤ 0 ∧ a.curloop ≥ 0) ∨ a.curloop < ops.getLoopNum img then [img]
        else []

end

namespace Reel

variable {I : Type} {ops : ImageOps I} {r : Reel ops} {img img' : I} {a : Anim} {reset : Bool}
  {tmcur tmcurnew : Int} {fuel : Nat} {s : Playback I} {l : Reading}

/-- A frame of the sequence is the one delivered last, or the one to come. -/
def Inside (r : Reel ops) (img : I) : Prop := r.Sound img ∧ r.pos img ≤ r.count

theorem fetch_inside (h : r.Rolling img a) (reset : Bool) : r.Inside (r.fetch reset img) := by
  obtain ⟨hsound, hpos⟩ := fetch_spec reset h.sound h.pos_le
  have hslot := slot_lt r reset img
  exact ⟨hsound, by omega⟩

theorem passReads_inside (h : r.Rolling img a) (hread : img' ∈ passReads ops reset img a) :
    r.Inside img' := by
  have hin := fetch_inside h reset
  unfold passReads at hread
  by_cases hmore : reset = true ∨ r.pos img < r.count
  · have hres : (ops.nextFrame img reset).1 ≠ .NO_MORE_FRAMES := by
      cases reset with
      | true => exact (r.rewind h.sound).more
      | false => exact (r.next h.sound (hmore.resolve_left Bool.false_ne_true)).more
    rw [fetch, if_pos hmore] at hin
    simp only [hres, if_false, List.mem_singleton] at hread
    rw [hread]
    exact hin
  · obtain ⟨hreset, hpos⟩ := not_or.mp hmore
    obtain rfl : reset = false := by simpa using hreset
    obtain ⟨hres, -, -⟩ := r.finish h.sound (Nat.le_of_not_lt hpos)
    rw [fetch, if_neg hmore] at hin
    simp only [hres, if_true] at hread
    split at hread
    · cases hread
    · split at hread
      · cases hread
      · rw [List.mem_singleton.mp hread]
        exact hin

theorem loopReads_inside (h : r.Rolling img a)
    (hread : img' ∈ loopReads ops reset tmcur fuel img a) : r.Inside img' := by
  induction fuel generalizing img a with
  | zero => cases hread
  | succ fuel ih =>
    rcases List.mem_append.mp hread with hpass | hrest
    · exact passReads_inside h hpass
    · split at hrest
      · rename_i img₁ a₁ hgo
        obtain ⟨hfin, hstick, -, heq⟩ := (animBody_go_iff h).mp hgo
        cases heq
        exact ih (h.rolled hfin hstick) hrest
      · cases hrest

/-- Every call of `getFrameDelay` in a callback is made at a frame of the sequence. -/
theorem delayReads_inside (h : r.Rolling img a ∨ r.Finished img a)
    (hread : img' ∈ delayReads ops fuel img a tmcur) : r.Inside img' := by
  rw [delayReads] at hread
  split at hread
  · cases hread
  · rename_i hrun
    rcases h with h | hfin
    · split at hread
      · rw [List.mem_singleton.mp hread]
        exact ⟨h.sound, h.pos_le⟩
      · have hent := h.entered tmcur
        rcases List.mem_append.mp hread with htop | htimer
        · rcases List.mem_append.mp htop with himg | hloop
          · rw [List.mem_singleton.mp himg]
            exact ⟨h.sound, h.pos_le⟩
          · exact loopReads_inside hent hloop
        · split at htimer
          · cases htimer
          · rename_i img₁ a₁ hres
            split at htimer
            · rename_i hrunning
              rw [List.mem_singleton.mp htimer]
              rcases animLoop_rolling hent hres with hroll | hfin
              · exact ⟨hroll.sound, hroll.pos_le⟩
              · -- at the end of the last loop the timer is not set
                have hlimit := hfin.loopNum_pos
                have hcur := hfin.curloop
                simp only [r.getLoopNum hfin.sound] at hrunning hcur
                omega
            · cases htimer
    · rw [r.getLoopNum hfin.sound] at hrun
      exact absurd ⟨hfin.loopNum_pos, hfin.curloop⟩ hrun

/-! ## The counter of the document -/

/-- The codec's counter is the frame that the document takes for the current one, and there is such
a frame. -/
structure Agrees (ops : ImageOps I) (getCurFrame : I → Int) (s : Playback I) : Prop where
  eq : getCurFrame s.image = s.anim.curframe
  nonneg : 0 ≤ getCurFrame s.image
  lt : getCurFrame s.image < ops.getFrameCount s.image

/-- The callback comes to the end of the last loop. -/
def EndsLoops (r : Reel ops) (s : Playback I) (l : Reading) : Prop :=
  ¬ Restarts ops s.image s.anim l.tmcur ∧ ¬ Waits ops s.image s.anim l.tmcur ∧
    ∃ k, r.Reaches s.image (adjusted ops s.image s.anim l.tmcur) l.tmcur k ∧
      r.PastLimit s.image (adjusted ops s.image s.anim l.tmcur) (r.delivered k s.image)

/-- The callback leaves frame 0: it restarts, it waits on it, or the loop stops there. -/
def ShowsFirst (r : Reel ops) (s : Playback I) (l : Reading) : Prop :=
  Restarts ops s.image s.anim l.tmcur ∨
    (Waits ops s.image s.anim l.tmcur ∧ s.anim.curframe = 0) ∨
    (¬ Restarts ops s.image s.anim l.tmcur ∧ ¬ Waits ops s.image s.anim l.tmcur ∧
      ∃ k, r.Reaches s.image (adjusted ops s.image s.anim l.tmcur) l.tmcur k ∧
        ¬ r.PastLimit s.image (adjusted ops s.image s.anim l.tmcur) (r.delivered k s.image) ∧
        (r.AllZero s.image (adjusted ops s.image s.anim l.tmcur) (r.delivered k s.image) ∨
          (r.pos (r.fetched k s.image) = r.count ∧
            r.CaughtUp s.image (adjusted ops s.image s.anim l.tmcur) l.tmcur
              (r.delivered (k + 1) s.image))))

/-- An animation that rolls has a frame to show; at the end there is no timer. -/
def Counted (r : Reel ops) (s : Playback I) : Prop :=
  (r.Rolling s.image s.anim ∧ 0 ≤ s.anim.curframe) ∨ (r.Finished s.image s.anim ∧ s.timer = none)

theorem Finished.curframe_ne (h : r.Finished img a) : a.curframe ≠ 0 := by
  have := r.two_le
  have := h.curframe
  omega

/-- A restart shows frame 0. -/
theorem animLoop_restart {p : I × Anim} (h : r.Rolling img a)
    (hp : animLoop ops true tmcur fuel img a = some p) :
    r.Rolling p.1 p.2 ∧ p.2.curframe = 0 := by
  rw [animLoop_eq] at hp
  refine doWhile_inv (P := fun s : I × Anim => r.Rolling s.1 s.2)
    (Q := fun p : I × Anim => r.Rolling p.1 p.2 ∧ p.2.curframe = 0) ?_ ?_ h hp
  · rintro ⟨img, a⟩ s' h hgo
    obtain ⟨hfin, hstick, -, rfl⟩ := (animBody_go_iff h).mp hgo
    exact h.rolled hfin hstick
  · rintro ⟨img, a⟩ s' h hleave
    rcases animBody_leave h hleave with ⟨hfin, -⟩ | ⟨-, -, hroll, rfl⟩ | ⟨hfin, hstick, -, rfl⟩
    · cases hfin.1
    · exact ⟨hroll, rfl⟩
    · exact ⟨h.rolled hfin hstick, rfl⟩

/-- What a callback leaves: the counter where it was, frame 0, or where the loop stops. -/
theorem step_cases {s' : Playback I} (h : r.Rolling s.image s.anim) (hcur : 0 ≤ s.anim.curframe)
    (hs : r.playback.step s l s') :
    (Waits ops s.image s.anim l.tmcur ∧ r.Rolling s'.image s'.anim ∧
        s'.anim.curframe = s.anim.curframe) ∨
      (Restarts ops s.image s.anim l.tmcur ∧ r.Rolling s'.image s'.anim ∧ s'.anim.curframe = 0) ∨
      (¬ Restarts ops s.image s.anim l.tmcur ∧ ¬ Waits ops s.image s.anim l.tmcur ∧
        ∃ k, r.Reaches s.image (adjusted ops s.image s.anim l.tmcur) l.tmcur k ∧
          r.Stops s.image (adjusted ops s.image s.anim l.tmcur) l.tmcur k (s'.image, s'.anim)) := by
  rcases h.step_cases hs with ⟨hwaits, rfl⟩ | ⟨hwaits, fuel, p, hp, himage, hanim, -⟩
  · exact .inl ⟨hwaits, h.congr (Int.le_refl _) rfl rfl, rfl⟩
  · have hent := h.entered l.tmcur
    rw [himage, hanim]
    by_cases hr : Restarts ops s.image s.anim l.tmcur
    · rw [decide_eq_true hr] at hp
      obtain ⟨hroll, hzero⟩ := animLoop_restart hent hp
      exact .inr (.inl ⟨hr, hroll.congr (Int.le_refl _) rfl rfl, hzero⟩)
    · rw [decide_eq_false hr, entered, if_neg hr] at hp
      rw [entered, if_neg hr] at hent
      obtain ⟨k, hreach, hstops⟩ := animLoop_stops hent hcur hp
      refine .inr (.inr ⟨hr, hwaits, k, hreach, ?_⟩)
      cases hstops with
      | finish hp hfin =>
        exact .finish hp ⟨hfin.sound, hfin.pos_ge, hfin.curframe, hfin.loopNum_pos, hfin.curloop⟩
      | stick hp hz hroll hzero => exact .stick hp hz (hroll.congr (Int.le_refl _) rfl rfl) hzero
      | roll hp hz hc hroll hcur hzero =>
        exact .roll hp hz hc (hroll.congr (Int.le_refl _) rfl rfl) hcur hzero

theorem Stops.finished_iff {k : Nat} {p : I × Anim} (h : r.Stops img a tmcur k p) :
    r.Finished p.1 p.2 ↔ r.PastLimit img a (r.delivered k img) := by
  cases h with
  | finish hp hfin => exact iff_of_true hfin hp
  | stick hp _ hroll => exact iff_of_false hroll.not_finished hp
  | roll hp _ _ hroll => exact iff_of_false hroll.not_finished hp

/-- The end of the last loop is reached by the callbacks that end it. -/
theorem finished_iff {s' : Playback I} (h : r.Rolling s.image s.anim) (hcur : 0 ≤ s.anim.curframe)
    (hs : r.playback.step s l s') : r.Finished s'.image s'.anim ↔ r.EndsLoops s l := by
  rcases step_cases h hcur hs with ⟨hwaits, hroll, -⟩ | ⟨hr, hroll, -⟩ |
    ⟨hr, hwaits, k, hreach, hstops⟩
  · exact iff_of_false hroll.not_finished fun hends => hends.2.1 hwaits
  · exact iff_of_false hroll.not_finished fun hends => hends.1 hr
  · rw [show r.Finished s'.image s'.anim ↔ _ from hstops.finished_iff]
    constructor
    · intro hp
      exact ⟨hr, hwaits, k, hreach, hp⟩
    · rintro ⟨-, -, k', hreach', hp⟩
      rwa [stops_unique hreach hstops.not_goesOn hreach' fun hgo => hgo.limit hp]

/-- Frame 0 is the current one after the callbacks that show it. -/
theorem curframe_eq_zero_iff {s' : Playback I} (h : r.Rolling s.image s.anim)
    (hcur : 0 ≤ s.anim.curframe) (hs : r.playback.step s l s') :
    s'.anim.curframe = 0 ↔ r.ShowsFirst s l := by
  rcases step_cases h hcur hs with ⟨hwaits, -, heq⟩ | ⟨hr, -, heq⟩ |
    ⟨hr, hwaits, k, hreach, hstops⟩
  · rw [heq]
    constructor
    · intro hzero
      exact .inr (.inl ⟨hwaits, hzero⟩)
    · rintro (hr | ⟨-, hzero⟩ | ⟨-, hnot, -⟩)
      · exact absurd hr hwaits.1
      · exact hzero
      · exact absurd hwaits hnot
  · exact iff_of_true heq (.inl hr)
  · have hpass := hstops.not_goesOn
    constructor
    · intro hzero
      refine .inr (.inr ⟨hr, hwaits, k, hreach, ?_⟩)
      cases hstops with
      | finish _ hfin => exact absurd hzero hfin.curframe_ne
      | stick hp hz => exact ⟨hp, .inl hz⟩
      | roll hp _ hc _ _ hfirst => exact ⟨hp, .inr ⟨hfirst.mp hzero, hc⟩⟩
    · rintro (hr' | ⟨hwaits', -⟩ | ⟨-, -, k', hreach', hp', hlast⟩)
      · exact absurd hr' hr
      · exact absurd hwaits' hwaits
      · -- the pass told of is the one that the loop stops at
        obtain rfl : k = k' := by
          refine stops_unique hreach hpass hreach' ?_
          intro hgo
          rcases hlast with hz | ⟨-, hc⟩
          · exact hgo.zero hz
          · exact hgo.due hc
        cases hstops with
        | finish hp => exact absurd hp hp'
        | stick _ _ _ hzero => exact hzero
        | roll _ hz _ _ _ hfirst =>
          rcases hlast with hz' | ⟨hpos, -⟩
          · exact absurd hz' hz
          · exact hfirst.mpr hpos

/-- Once the last loop has ended, no timer is set. -/
theorem Finished.timer_eq {s' : Playback I} (h : r.Rolling s.image s.anim)
    (hs : r.playback.step s l s') (hfin : r.Finished s'.image s'.anim) : s'.timer = none := by
  rcases h.step_cases hs with ⟨-, rfl⟩ | ⟨-, fuel, p, -, himage, hanim, rfl⟩
  · have hroll : r.Rolling s.image (adjusted ops s.image s.anim l.tmcur) :=
      h.congr (Int.le_refl _) rfl rfl
    exact absurd hfin hroll.not_finished
  · have hsound := hfin.sound
    have hlimit := hfin.loopNum_pos
    have hloop := hfin.curloop
    rw [himage] at hsound
    rw [hanim] at hloop
    simp only at hloop
    simp only [Callback.playback]
    rw [← Option.not_isSome_iff_eq_none, rearm_armed_iff, r.getLoopNum hsound]
    omega

theorem Counted.step {s' : Playback I} (h : r.Counted s) (hs : r.playback.step s l s') :
    r.Rolling s.image s.anim ∧ 0 ≤ s.anim.curframe ∧ r.Counted s' := by
  rcases h with ⟨h, hcur⟩ | ⟨-, hnone⟩
  · refine ⟨h, hcur, ?_⟩
    rcases step_cases h hcur hs with ⟨-, hroll, heq⟩ | ⟨-, hroll, heq⟩ | ⟨-, -, k, -, hstops⟩
    · exact .inl ⟨hroll, by omega⟩
    · exact .inl ⟨hroll, by omega⟩
    · cases hstops with
      | finish _ hfin => exact .inr ⟨hfin, Finished.timer_eq h hs hfin⟩
      | stick _ _ hroll hzero => exact .inl ⟨hroll, Int.le_of_eq hzero.symm⟩
      | roll _ _ _ hroll hcur' => exact .inl ⟨hroll, hcur'⟩
  · have := hs.1
    rw [hnone] at this
    cases this

theorem playback_counted {ok : Playback I → Reading → Prop} (h : r.playback.Reach ok s) :
    r.Counted s := by
  refine h.holds (P := r.Counted) ?_ ?_
  · rintro s ⟨img, t, hopen, rfl⟩
    exact .inl ⟨hopen.rolling t, Int.le_refl 0⟩
  · intro s l s' h _ hs
    exact (h.step hs).2.2

/-! ## A counter that goes with the frames -/

/-- A counter that a codec moves with the frames, past the last one too. -/
structure Counts (r : Reel ops) (getCurFrame : I → Int) : Prop where
  steady : r.Steady
  pos : ∀ {img}, r.Sound img → (r.pos img : Int) = getCurFrame img + 1
  nonneg : ∀ {img}, r.Sound img → 0 ≤ getCurFrame img
  finish : ∀ {img}, r.Sound img → r.pos img = r.count →
    r.pos (ops.nextFrame img false).2 = r.count + 1

/-- The counters are at the same frame, or the codec's has run past the last one. -/
def Paired (r : Reel ops) (img : I) (a : Anim) : Prop :=
  (r.Rolling img a ∧ (r.pos img : Int) = a.curframe + 1) ∨
    (r.Finished img a ∧ r.pos img = r.count + 1)

theorem rolled_paired (hst : r.Steady) (h : r.Rolling img a)
    (hpair : reset = true ∨ (r.pos img : Int) = a.curframe + 1) :
    (r.pos (r.fetch reset img) : Int) = (r.rolled reset img a).curframe + 1 := by
  rw [hst.fetch_pos reset h.sound h.pos_le]
  cases reset with
  | true => rfl
  | false =>
    have hpair := hpair.resolve_left Bool.false_ne_true
    rcases Nat.lt_or_ge (r.pos img) r.count with hlt | hge
    · rw [slot_of_lt hlt]
      simp only [rolled, Bool.false_eq_true, if_false, hlt, if_true]
      omega
    · rw [slot_of_eq (Nat.le_antisymm h.pos_le hge)]
      simp only [rolled, Bool.false_eq_true, if_false, Nat.not_lt.mpr hge]
      rfl

theorem animLoop_paired {getCurFrame : I → Int} {p : I × Anim} (hc : r.Counts getCurFrame)
    (h : r.Rolling img a) (hpair : reset = true ∨ (r.pos img : Int) = a.curframe + 1)
    (hp : animLoop ops reset tmcur fuel img a = some p) : r.Paired p.1 p.2 := by
  rw [animLoop_eq] at hp
  refine doWhile_inv
    (P := fun s : I × Anim =>
      r.Rolling s.1 s.2 ∧ (reset = true ∨ (r.pos s.1 : Int) = s.2.curframe + 1))
    (Q := fun p : I × Anim => r.Paired p.1 p.2) ?_ ?_ ⟨h, hpair⟩ hp
  · rintro ⟨img, a⟩ s' ⟨h, hpair⟩ hgo
    obtain ⟨hfin, hstick, -, rfl⟩ := (animBody_go_iff h).mp hgo
    exact ⟨h.rolled hfin hstick, .inr (rolled_paired hc.steady h hpair)⟩
  · rintro ⟨img, a⟩ s' ⟨h, hpair⟩ hleave
    rcases animBody_leave h hleave with ⟨hfin, hend, rfl⟩ | ⟨-, -, hroll, rfl⟩ |
      ⟨hfin, hstick, -, rfl⟩
    · exact .inr ⟨hend, hc.finish h.sound (Nat.le_antisymm h.pos_le hfin.2.1)⟩
    · refine .inl ⟨hroll, ?_⟩
      rw [hc.steady.rewind (fetch_spec reset h.sound h.pos_le).1]
      rfl
    · exact .inl ⟨h.rolled hfin hstick, rolled_paired hc.steady h hpair⟩

theorem Paired.step {getCurFrame : I → Int} (hc : r.Counts getCurFrame)
    (h : r.Rolling s.image s.anim) (hpair : (r.pos s.image : Int) = s.anim.curframe + 1)
    {s' : Playback I} (hs : r.playback.step s l s') : r.Paired s'.image s'.anim := by
  rcases h.step_cases hs with ⟨-, rfl⟩ | ⟨-, fuel, p, hp, himage, hanim, -⟩
  · exact .inl ⟨h.congr (Int.le_refl _) rfl rfl, hpair⟩
  · have hent : decide (Restarts ops s.image s.anim l.tmcur) = true ∨
        (r.pos s.image : Int) = (entered ops s.image s.anim l.tmcur).curframe + 1 := by
      by_cases hr : Restarts ops s.image s.anim l.tmcur
      · exact .inl (decide_eq_true hr)
      · rw [entered, if_neg hr]
        exact .inr hpair
    rw [himage, hanim]
    rcases animLoop_paired hc (h.entered l.tmcur) hent hp with ⟨hroll, hpos⟩ | ⟨hfin, hpos⟩
    · exact .inl ⟨hroll.congr (Int.le_refl _) rfl rfl, hpos⟩
    · exact .inr ⟨⟨hfin.sound, hfin.pos_ge, hfin.curframe, hfin.loopNum_pos, hfin.curloop⟩, hpos⟩

theorem playback_paired {getCurFrame : I → Int} {ok : Playback I → Reading → Prop}
    (hc : r.Counts getCurFrame) (h : r.playback.Reach ok s) : r.Paired s.image s.anim := by
  have hinv : r.Counted s ∧ r.Paired s.image s.anim := by
    refine h.holds (P := fun s => r.Counted s ∧ r.Paired s.image s.anim) ?_ ?_
    · rintro s ⟨img, t, hopen, rfl⟩
      refine ⟨.inl ⟨hopen.rolling t, Int.le_refl 0⟩, .inl ⟨hopen.rolling t, ?_⟩⟩
      simp only [Playback.opened, hopen.pos]
      rfl
    · rintro s l s' ⟨hcounted, hpair⟩ - hs
      obtain ⟨hroll, -, hcounted'⟩ := hcounted.step hs
      rcases hpair with ⟨-, hpos⟩ | ⟨hfin, -⟩
      · exact ⟨hcounted', Paired.step hc hroll hpos hs⟩
      · exact absurd hfin hroll.not_finished
  exact hinv.2

theorem Paired.agrees_iff {getCurFrame : I → Int} (hc : r.Counts getCurFrame)
    (h : r.Paired s.image s.anim) :
    Agrees ops getCurFrame s ↔ ¬ r.Finished s.image s.anim := by
  rcases h with ⟨hroll, hpos⟩ | ⟨hfin, hpos⟩
  · have hcur := hc.pos hroll.sound
    have hle := hroll.pos_le
    refine iff_of_true ⟨by omega, hc.nonneg hroll.sound, ?_⟩ hroll.not_finished
    rw [r.getFrameCount hroll.sound]
    omega
  · have hcur := hc.pos hfin.sound
    refine iff_of_false ?_ (not_not_intro hfin)
    intro hagrees
    have hlt := hagrees.lt
    rw [r.getFrameCount hfin.sound] at hlt
    omega

/-- Such a counter agrees unless the callback ends the last loop. -/
theorem agrees_iff_of_counts {getCurFrame : I → Int} {ok : Playback I → Reading → Prop}
    (hc : r.Counts getCurFrame) (h : r.playback.Reach ok s) {s' : Playback I} (hok : ok s l)
    (hs : r.playback.step s l s') : Agrees ops getCurFrame s' ↔ ¬ r.EndsLoops s l := by
  obtain ⟨hroll, hcur, -⟩ := (playback_counted h).step hs
  rw [(playback_paired hc (h.step hok hs)).agrees_iff hc, finished_iff hroll hcur hs]

theorem agrees_of_counts {getCurFrame : I → Int} (hc : r.Counts getCurFrame)
    (h : r.playback.Reach (fun s l => ¬ r.EndsLoops s l) s) : Agrees ops getCurFrame s := by
  rcases h.init_or_step with ⟨img, t, hopen, rfl⟩ | ⟨s₀, l, h₀, hok, hs⟩
  · exact ((playback_paired hc h).agrees_iff hc).mpr (hopen.rolling t).not_finished
  · exact (agrees_iff_of_counts hc h₀ hok hs).mpr hok

/-! ## A counter that stays at 0 -/

theorem agrees_zero_iff {getCurFrame : I → Int} (hzero : ∀ {img}, r.Sound img → getCurFrame img = 0)
    (h : r.Sound s.image) : Agrees ops getCurFrame s ↔ s.anim.curframe = 0 := by
  have hcount := r.two_le
  constructor
  · intro hagrees
    rw [← hagrees.eq, hzero h]
  · intro hcur
    rw [← hzero h] at hcur
    refine ⟨hcur.symm, Int.le_of_eq (hzero h).symm, ?_⟩
    rw [hzero h, r.getFrameCount h]
    omega

theorem Counted.sound (h : r.Counted s) : r.Sound s.image := by
  rcases h with ⟨hroll, -⟩ | ⟨hfin, -⟩
  · exact hroll.sound
  · exact hfin.sound

theorem agrees_iff_of_zero {getCurFrame : I → Int} {ok : Playback I → Reading → Prop}
    (hzero : ∀ {img}, r.Sound img → getCurFrame img = 0) (h : r.playback.Reach ok s)
    {s' : Playback I} (hs : r.playback.step s l s') :
    Agrees ops getCurFrame s' ↔ r.ShowsFirst s l := by
  obtain ⟨hroll, hcur, hcounted⟩ := (playback_counted h).step hs
  rw [agrees_zero_iff hzero hcounted.sound, curframe_eq_zero_iff hroll hcur hs]

theorem agrees_of_zero {getCurFrame : I → Int} (hzero : ∀ {img}, r.Sound img → getCurFrame img = 0)
    (h : r.playback.Reach r.ShowsFirst s) : Agrees ops getCurFrame s := by
  rcases h.init_or_step with ⟨img, t, hopen, rfl⟩ | ⟨s₀, l, h₀, hok, hs⟩
  · exact (agrees_zero_iff hzero hopen.sound).mpr rfl
  · exact (agrees_iff_of_zero hzero h₀ hs).mpr hok

end Reel

theorem GdiPlusImage.reel_counts {G Id : Type} (lib : GdiLib G Id) (delays : List Int)
    (loopnum : Int) (htwo : 2 ≤ delays.length) (hdelay : ∀ d ∈ delays, 0 ≤ d) :
    (reel lib delays loopnum htwo hdelay).Counts getCurFrame where
  steady := reel_steady lib delays loopnum htwo hdelay
  pos {img} h := by
    have hcur := h.curfid
    change ((img.curfid + 1).toNat : Int) = img.curfid + 1
    omega
  nonneg h := h.curfid
  finish {img} h hpos := by
    obtain ⟨-, hid, -⟩ := h.nextFrame lib htwo false
    have hcur := h.curfid
    change (img.curfid + 1).toNat = delays.length at hpos
    change ((img.nextFrame lib false).2.curfid + 1).toNat = delays.length + 1
    rw [hid, if_neg Bool.false_ne_true]
    omega

/-- **The frame counters.** With any GDI+ and any gif, each call of `getFrameDelay` is inside the
delay table, in every callback of every run; and after a callback the codec's counter agrees with
`_curframe` if and only if the callback does not come to the end of the last loop. The counter of a
webp stays at 0, so it agrees if and only if the callback leaves frame 0. -/
theorem counters_agree {G Id D : Type} (lib : GdiLib G Id) (delays : List Int) (loopnum : Int)
    (htwo : 2 ≤ delays.length) (hdelay : ∀ d ∈ delays, 0 ≤ d) {wlib : WebpLib D}
    (w : WebpSource wlib) (wloopnum : Int) (hmany : 2 ≤ w.count) :
    (∀ s, (GdiPlusImage.reel lib delays loopnum htwo hdelay).playback.Reach Machine.always s →
      (∀ fuel tmcur, ∀ img ∈ delayReads (GdiPlusImage.ops lib) fuel s.image s.anim tmcur,
        0 ≤ img.curfid ∧ img.curfid < img.framedelay.length) ∧
      ∀ l s', (GdiPlusImage.reel lib delays loopnum htwo hdelay).playback.step s l s' →
        (Reel.Agrees (GdiPlusImage.ops lib) GdiPlusImage.getCurFrame s' ↔
          ¬ (GdiPlusImage.reel lib delays loopnum htwo hdelay).EndsLoops s l)) ∧
    (∀ s, (GdiPlusImage.reel lib delays loopnum htwo hdelay).playback.Reach
        (fun s l => ¬ (GdiPlusImage.reel lib delays loopnum htwo hdelay).EndsLoops s l) s →
      Reel.Agrees (GdiPlusImage.ops lib) GdiPlusImage.getCurFrame s) ∧
    (∀ s, (WebpImage.reel w wloopnum hmany).playback.Reach Machine.always s →
      ∀ l s', (WebpImage.reel w wloopnum hmany).playback.step s l s' →
        (Reel.Agrees (WebpImage.ops wlib) WebpImage.getCurFrame s' ↔
          (WebpImage.reel w wloopnum hmany).ShowsFirst s l)) ∧
    (∀ s, (WebpImage.reel w wloopnum hmany).playback.Reach
        (WebpImage.reel w wloopnum hmany).ShowsFirst s →
      Reel.Agrees (WebpImage.ops wlib) WebpImage.getCurFrame s) := by
  have hcounts := GdiPlusImage.reel_counts lib delays loopnum htwo hdelay
  generalize hr : GdiPlusImage.reel lib delays loopnum htwo hdelay = r at hcounts ⊢
  have hzero : ∀ {img}, (WebpImage.reel w wloopnum hmany).Sound img →
      WebpImage.getCurFrame img = 0 := fun h => h.curfid
  refine ⟨?_, ?_, ?_, ?_⟩
  · intro s hs
    constructor
    · intro fuel tmcur img hread
      have hin := Reel.delayReads_inside (Reel.playback_rolling hs) hread
      subst hr
      have hpos : (img.curfid + 1).toNat ≤ delays.length := hin.2
      have htable := hin.1.framedelay
      have hcur := hin.1.curfid
      rw [htable]
      omega
    · intro l s' hstep
      exact Reel.agrees_iff_of_counts hcounts hs trivial hstep
  · intro s hs
    exact Reel.agrees_of_counts hcounts hs
  · intro s hs l s' hstep
    exact Reel.agrees_iff_of_zero hzero hs hstep
  · intro s hs
    exact Reel.agrees_of_zero hzero hs

/-! ## A gif and a webp of two frames -/

def webpTwo : WebpSource (webpFrames 2) where
  Sound _ := True
  pos d := d
  count := 2
  tm k := 100 * k
  tm_zero := rfl
  reset _ := ⟨trivial, rfl⟩
  more {d} _ := decide_eq_true_iff (p := d < 2)
  next _ _ := ⟨trivial, .inl ⟨rfl, rfl⟩⟩

theorem webp_two_frames : 2 ≤ webpTwo.count := Nat.le_refl 2

def webpReel : Reel (WebpImage.ops (webpFrames 2)) := WebpImage.reel webpTwo 0 webp_two_frames

def webpOpened : Playback (WebpImage Nat) :=
  .opened (WebpImage.ops (webpFrames 2)) (WebpImage.openFromBuffer (webpFrames 2) []).2 0

theorem webp_opened : webpReel.Opened webpOpened.image :=
  ⟨⟨rfl, rfl, rfl, 1, rfl, trivial, rfl⟩, rfl, rfl⟩

/-- The gif is called on time, the webp too late. -/
theorem counters_agree_two_frames :
    ∃ (g : Playback (GdiPlusImage Int)) (v : Playback (WebpImage Nat)),
    gifTwiceReel.playback.step gifTwiceOpened ⟨100, 100⟩ g ∧ g.anim.curframe = 1 ∧
      ¬ gifTwiceReel.EndsLoops gifTwiceOpened ⟨100, 100⟩ ∧
      webpReel.playback.step webpOpened ⟨5000, 5000⟩ v ∧
      Reel.Agrees (WebpImage.ops (webpFrames 2)) WebpImage.getCurFrame v := by
  have h := counters_agree gifTwice [100, 100] 2 gif_two_frames gif_delays_nonneg webpTwo 0
    webp_two_frames
  have hgif : gifTwiceReel.playback.Reach Machine.always gifTwiceOpened :=
    .of_init ⟨_, 0, ⟨⟨rfl, rfl, rfl, by decide⟩, rfl, rfl⟩, rfl⟩
  have hg : gifTwiceReel.playback.step gifTwiceOpened ⟨100, 100⟩ _ := ⟨rfl, 1, _, rfl, rfl⟩
  have hv : webpReel.playback.step webpOpened ⟨5000, 5000⟩ _ := ⟨rfl, 99, _, rfl, rfl⟩
  refine ⟨_, _, hg, rfl, ?_, hv, ?_⟩
  · exact ((h.1 _ hgif).2 _ _ hg).mp ⟨rfl, by decide, by decide⟩
  · exact (h.2.2.1 _ (.of_init ⟨_, 0, webp_opened, rfl⟩) _ _ hv).mpr (.inl (by decide))

/-- At its end the gif is at "frame 3/2", and `_curframe` at its last frame. The webp shows its
second frame as "frame 1/2". -/
theorem counters_differ : ∃ (g : Playback (GdiPlusImage Int)) (v : Playback (WebpImage Nat)),
    gifTwiceReel.playback.Reach (OnTime (GdiPlusImage.ops gifTwice)) g ∧
      g.image.getCurFrame = 2 ∧ g.anim.curframe = 1 ∧
      webpReel.playback.Reach Machine.always v ∧
      v.image.getCurFrame = 0 ∧ v.anim.curframe = 1 := by
  obtain ⟨g, hg, hid, hanim, -⟩ := gifTwice_ends
  have hv := (Machine.Reach.of_init ⟨_, 0, webp_opened, rfl⟩ :
    webpReel.playback.Reach Machine.always webpOpened).step (l := ⟨100, 100⟩) trivial
    ⟨rfl, 1, _, rfl, rfl⟩
  exact ⟨g, _, hg, hid, by rw [hanim], hv, rfl, rfl⟩

end ObZrv
