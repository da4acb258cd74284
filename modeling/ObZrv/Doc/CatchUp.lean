import Mathlib.Data.Nat.Find
import ObZrv.Doc.CodecReels

/-!
# Doc.CatchUp

When the catch-up loop of `Doc::onAnimate` ends.

* `stalls_iff`           : without a restart the loop does not end if and only if the image stops
  delivering frames while the frame it is at is due.
* `rewinds_iff`          : on a restart, if and only if frame 0 never brings the delays counted
  past 10 ms.
* `callback_returns_iff` : so a callback comes back exactly when it is in neither case.
-/

namespace ObZrv

open Lib

namespace Reel

variable {I : Type} {ops : ImageOps I} (r : Reel ops)

/-- The frames that `k` fetches deliver. -/
def delivered : Nat → I → Nat
  | 0, _ => 0
  | k + 1, img =>
    (if r.pos (r.fetch false img) = r.slot false img then 0 else 1) +
      delivered k (r.fetch false img)

/-- Fetched on and on, the image delivers `n` more frames and then none. -/
def DriesUp (img : I) (n : Nat) : Prop := ∃ k, ∀ j, k ≤ j → r.delivered j img = n

/-- The delays that `k` rewinds report. -/
def rewound (ops : ImageOps I) : Nat → I → Int
  | 0, _ => 0
  | k + 1, img =>
    ops.getFrameDelay (ops.nextFrame img true).2 + rewound ops k (ops.nextFrame img true).2

/-- After `n` more frames the next one is due, its loop is one to be played, and the delays are not
found to be all 0. -/
structure Behind (img : I) (a : Anim) (tmcur : Int) (n : Nat) : Prop where
  due : a.due + cycle r.delay r.count (r.pos img) n ≤ tmcur + 10
  limit : 0 < r.loopNum → a.curloop + ((r.pos img + n) / r.count : Nat) < r.loopNum
  zero : r.total = 0 → a.curloop + ((r.pos img + n) / r.count : Nat) ≤ 0

/-- The image dries up while it is behind. -/
def Stalls (img : I) (a : Anim) (tmcur : Int) : Prop :=
  ∃ n, r.DriesUp img n ∧ r.Behind img a tmcur n

/-- Frame 0, however often it is fetched, does not bring the delays counted past 10 ms. -/
def Rewinds (ops : ImageOps I) (img : I) (a : Anim) : Prop :=
  ∀ k, a.totaldelay + rewound ops k img ≤ 10

/-- The callback does not come back. -/
def Hangs (img : I) (a : Anim) (tmcur : Int) : Prop :=
  (0 < r.loopNum → a.curloop < r.loopNum) ∧
    if Restarts ops img a tmcur then Rewinds ops img a
    else r.Stalls img (adjusted ops img a tmcur) tmcur

variable {r} {img : I} {a : Anim} {tmcur : Int}

/-! ## Without a restart -/

/-- One pass takes as many of the frames ahead as it delivers. -/
structure Advance (r : Reel ops) (img : I) (a : Anim) (n : Nat) (img' : I) (a' : Anim) : Prop where
  due : ∀ m, a'.due + cycle r.delay r.count (r.pos img') m =
    a.due + cycle r.delay r.count (r.pos img) (n + m)
  curloop : ∀ m, a'.curloop + ((r.pos img' + m) / r.count : Nat) =
    a.curloop + ((r.pos img + (n + m)) / r.count : Nat)

theorem Advance.refl (img : I) (a : Anim) : r.Advance img a 0 img a := by
  constructor
  · intro m
    rw [Nat.zero_add]
  · intro m
    rw [Nat.zero_add]

theorem Advance.trans {n n' : Nat} {img' img'' : I} {a' a'' : Anim}
    (h : r.Advance img a n img' a') (h' : r.Advance img' a' n' img'' a'') :
    r.Advance img a (n + n') img'' a'' := by
  constructor
  · intro m
    rw [h'.due, h.due, Nat.add_assoc]
  · intro m
    rw [h'.curloop, h.curloop, Nat.add_assoc]

theorem delivered_succ (k : Nat) (img : I) :
    r.delivered (k + 1) img = r.delivered 1 img + r.delivered k (r.fetch false img) := by
  simp only [delivered, Nat.add_zero]

theorem rolled_advance (h : r.Rolling img a) :
    r.Advance img a (r.delivered 1 img) (r.fetch false img) (r.rolled false img a) := by
  have hspec := (fetch_spec false h.sound h.pos_le).2
  have hslot : r.slot false img = r.pos img % r.count := rfl
  constructor
  · intro m
    simp only [rolled, Anim.due]
    rcases hspec with ⟨hpos, hd⟩ | ⟨hpos, hd⟩
    · rw [delivered, delivered, if_neg (by omega), hpos, hd, hslot, cycle_mod_succ, Nat.add_zero,
        Nat.add_comm 1 m, cycle_succ_left]
      omega
    · rw [delivered, delivered, if_pos hpos, hpos, hd, hslot, cycle_mod, Nat.add_zero,
        Nat.zero_add, Int.add_zero]
  · intro m
    have hd : r.pos (r.fetch false img) = r.slot false img + r.delivered 1 img := by
      rw [delivered, delivered]
      split
      · omega
      · omega
    rw [hd]
    simp only [rolled]
    rcases wraps_cases h false with ⟨hw, hlt⟩ | ⟨hw, -, hend⟩
    · rw [hw, slot_of_lt (hlt.resolve_left Bool.false_ne_true), Int.add_zero, Nat.add_assoc]
    · rw [hw, slot_of_eq hend, hend, Nat.zero_add, Nat.add_div_left _ count_pos]
      omega

/-- The first of the frames ahead, at the start of a pass. -/
theorem wraps_eq (h : r.Rolling img a) : r.wraps false img = ((r.pos img / r.count : Nat) : Int) := by
  rcases wraps_cases h false with ⟨hw, hlt⟩ | ⟨hw, -, hend⟩
  · rw [hw, Nat.div_eq_of_lt (hlt.resolve_left Bool.false_ne_true)]
    rfl
  · rw [hw, hend, Nat.div_self count_pos]
    rfl

/-- Being behind is a matter of the frames ahead only. -/
theorem Advance.behind_iff {n m : Nat} {img' : I} {a' : Anim} (h : r.Advance img a n img' a') :
    r.Behind img' a' tmcur m ↔ r.Behind img a tmcur (n + m) := by
  constructor
  · rintro ⟨hdue, hlimit, hzero⟩
    rw [h.due] at hdue
    rw [h.curloop] at hlimit hzero
    exact ⟨hdue, hlimit, hzero⟩
  · rintro ⟨hdue, hlimit, hzero⟩
    refine ⟨?_, ?_, ?_⟩
    · rwa [h.due]
    · rwa [h.curloop]
    · rwa [h.curloop]

/-- The loop goes on exactly when it is behind after the pass. -/
theorem animBody_go_of_behind {n : Nat} (h : r.Rolling img a)
    (hb : r.Behind img a tmcur (r.delivered 1 img + n)) :
    animBody ops false tmcur (img, a) = .inl (r.fetch false img, r.rolled false img a) := by
  have hmono : r.pos img / r.count ≤ (r.pos img + (r.delivered 1 img + n)) / r.count :=
    Nat.div_le_div_right (Nat.le_add_right _ _)
  refine (animBody_go_iff h).mpr ⟨?_, ?_, ?_, rfl⟩
  · rintro ⟨-, hpos, hlimit, hle⟩
    have := hb.limit hlimit
    have hone : 1 ≤ r.pos img / r.count := Nat.div_pos hpos count_pos
    omega
  · rintro ⟨htotal, hloop⟩
    have := hb.zero htotal
    rw [wraps_eq h] at hloop
    omega
  · have hdue := ((rolled_advance h).behind_iff.mpr hb).due
    have := cycle_nonneg (c := r.count) (p := r.pos (r.fetch false img)) (n := n) r.delay_nonneg
    omega

theorem behind_of_go (h : r.Rolling img a) {s : I × Anim}
    (hgo : animBody ops false tmcur (img, a) = .inl s) : r.Behind img a tmcur 0 := by
  obtain ⟨hfin, hstick, hdue, -⟩ := (animBody_go_iff h).mp hgo
  refine ⟨?_, ?_, ?_⟩
  · have := fetch_delay_nonneg false h.sound h.pos_le
    simp only [rolled, Anim.due, cycle_zero] at hdue ⊢
    omega
  · intro hlimit
    have := (h.rolled hfin hstick).running hlimit
    rw [Nat.add_zero, ← wraps_eq h]
    exact this
  · intro htotal
    rw [Nat.add_zero, ← wraps_eq h]
    exact Int.not_lt.mp fun hloop => hstick ⟨htotal, hloop⟩

theorem not_ends_of_stalls (h : r.Rolling img a) (hs : r.Stalls img a tmcur) :
    ¬ Ends (animBody ops false tmcur) (img, a) := by
  refine not_ends_of_inv
    (P := fun s : I × Anim => r.Rolling s.1 s.2 ∧ r.Stalls s.1 s.2 tmcur) ?_ ⟨h, hs⟩
  rintro ⟨img, a⟩ ⟨h, n, ⟨k, hk⟩, hb⟩
  -- the next fetch delivers a part of the frames that are left
  have hsplit : ∀ j, k ≤ j → r.delivered 1 img + r.delivered j (r.fetch false img) = n := by
    intro j hj
    rw [← delivered_succ]
    exact hk (j + 1) (by omega)
  obtain ⟨m, rfl⟩ : ∃ m, n = r.delivered 1 img + m := ⟨_, (hsplit k (Nat.le_refl k)).symm⟩
  have hgo := animBody_go_of_behind h hb
  obtain ⟨hfin, hstick, -⟩ := (animBody_go_iff h).mp hgo
  refine ⟨_, hgo, h.rolled hfin hstick, m, ⟨k, ?_⟩, (rolled_advance h).behind_iff.mpr hb⟩
  exact fun j hj => Nat.add_left_cancel (hsplit j hj)

/-- A loop that does not end gets behind after every number of passes. -/
theorem behind_of_not_ends (h : r.Rolling img a)
    (hn : ¬ Ends (animBody ops false tmcur) (img, a)) (k : Nat) :
    r.Behind img a tmcur (r.delivered k img) := by
  induction k generalizing img a with
  | zero =>
    obtain ⟨s, hgo, -⟩ := not_ends_go hn
    exact behind_of_go h hgo
  | succ k ih =>
    obtain ⟨s, hgo, hs⟩ := not_ends_go hn
    obtain ⟨hfin, hstick, -, rfl⟩ := (animBody_go_iff h).mp hgo
    rw [delivered_succ]
    exact (rolled_advance h).behind_iff.mp (ih (h.rolled hfin hstick) hs)

theorem delivered_le_succ (k : Nat) (img : I) : r.delivered k img ≤ r.delivered (k + 1) img := by
  induction k generalizing img with
  | zero => exact Nat.zero_le _
  | succ k ih =>
    rw [delivered_succ k, delivered_succ (k + 1)]
    exact Nat.add_le_add_left (ih _) _

theorem delivered_mono (img : I) : Monotone fun k => r.delivered k img :=
  monotone_nat_of_le_succ fun k => delivered_le_succ k img

/-- An image is behind for so many frames only. -/
theorem Behind.lt {n : Nat} (hb : r.Behind img a tmcur n) (h : r.Rolling img a) :
    n < r.count * ((tmcur + 11 - a.due).toNat + 2) := by
  have htwo := r.two_le
  rcases Int.lt_or_eq_of_le (total_nonneg (r := r)) with hpos | hzero
  · -- every loop takes up at least 1 ms
    by_contra hge
    have hle : r.count * (tmcur + 11 - a.due).toNat ≤ n :=
      Nat.le_trans (Nat.mul_le_mul_left _ (Nat.le_add_right _ 2)) (Nat.le_of_not_lt hge)
    have hmono := cycle_mono (c := r.count) (p := r.pos img) r.delay_nonneg hle
    rw [cycle_rounds] at hmono
    have hdue := hb.due
    have hone : ((tmcur + 11 - a.due).toNat : Int) * 1 ≤ (tmcur + 11 - a.due).toNat * r.total :=
      Int.mul_le_mul_of_nonneg_left hpos (Int.natCast_nonneg _)
    rw [nsmul_eq_mul] at hmono
    change ((tmcur + 11 - a.due).toNat : Int) * r.total ≤ _ at hmono
    omega
  · -- the second loop finds out
    have hloop := hb.zero hzero.symm
    have hge := h.curloop_ge
    have hdiv : (r.pos img + n) / r.count < 2 := by omega
    rw [Nat.div_lt_iff_lt_mul count_pos] at hdiv
    have := Nat.mul_le_mul_left r.count (Nat.le_add_left 2 (tmcur + 11 - a.due).toNat)
    omega

/-- A count of frames that does not grow without end stops. -/
theorem driesUp_of_bounded {N : Nat} (h : ∀ k, r.delivered k img ≤ N) :
    ∃ k, r.DriesUp img (r.delivered k img) := by
  classical
  obtain ⟨k, hk⟩ : ∃ k, r.delivered k img =
      Nat.findGreatest (fun n => ∃ k, r.delivered k img = n) N :=
    Nat.findGreatest_spec (P := fun n => ∃ k, r.delivered k img = n) (h 0) ⟨0, rfl⟩
  refine ⟨k, k, ?_⟩
  intro j hj
  refine Nat.le_antisymm ?_ (delivered_mono img hj)
  rw [hk]
  exact Nat.le_findGreatest (h j) ⟨j, rfl⟩

/-- The loop does not end exactly when the image stalls. -/
theorem stalls_iff (h : r.Rolling img a) :
    ¬ Ends (animBody ops false tmcur) (img, a) ↔ r.Stalls img a tmcur := by
  constructor
  · intro hn
    have hbehind := behind_of_not_ends h hn
    obtain ⟨k, hk⟩ := driesUp_of_bounded fun k => Nat.le_of_lt ((hbehind k).lt h)
    exact ⟨_, hk, hbehind k⟩
  · exact not_ends_of_stalls h

/-! ## On a restart -/

/-- A pass of a restart fetches frame 0, and goes on while the delays counted are up to 10 ms. -/
theorem animBody_rewind_iff (h : r.Rolling img a) (hstart : a.tmstart = tmcur) {s : I × Anim} :
    animBody ops true tmcur (img, a) = .inl s ↔
      a.totaldelay + ops.getFrameDelay (ops.nextFrame img true).2 ≤ 10 ∧
        s = (r.fetch true img, r.rolled true img a) := by
  have hfetch : r.fetch true img = (ops.nextFrame img true).2 := rfl
  have hfin : ¬ r.Finishes true img a := fun hf => absurd hf.1 (by decide)
  have hstick : ¬ r.Sticks true img a := by
    rintro ⟨htotal, hloop⟩
    have hle := (h.zero htotal).2
    have hwraps : r.wraps true img = 0 := rfl
    omega
  rw [animBody_go_iff h]
  simp only [hfin, hstick, not_false_eq_true, true_and, Reel.rolled, Anim.due, hstart, hfetch]
  constructor
  · rintro ⟨hdue, hs⟩
    exact ⟨by omega, hs⟩
  · rintro ⟨hdue, hs⟩
    exact ⟨by omega, hs⟩

theorem rewound_nonneg (k : Nat) (h : r.Sound img) : 0 ≤ rewound ops k img := by
  induction k generalizing img with
  | zero => exact Int.le_refl 0
  | succ k ih =>
    have hf := r.rewind h
    have hdelay := r.delay_nonneg 0
    have := ih hf.sound
    rw [rewound]
    rcases hf.pos with ⟨-, hd⟩ | ⟨-, -, hd⟩
    · omega
    · omega

/-- The restarted loop does not end exactly when frame 0 does not bring the delays on. -/
theorem rewinds_iff (h : r.Rolling img a) (hstart : a.tmstart = tmcur) :
    ¬ Ends (animBody ops true tmcur) (img, a) ↔ Rewinds ops img a := by
  constructor
  · intro hn k
    induction k generalizing img a with
    | zero =>
      obtain ⟨s, hgo, -⟩ := not_ends_go hn
      have := ((animBody_rewind_iff h hstart).mp hgo).1
      have hone := rewound_nonneg 1 h.sound
      simp only [rewound] at hone ⊢
      omega
    | succ k ih =>
      obtain ⟨s, hgo, hs⟩ := not_ends_go hn
      obtain ⟨hfin, hstick, -⟩ := (animBody_go_iff h).mp hgo
      obtain ⟨-, rfl⟩ := (animBody_rewind_iff h hstart).mp hgo
      have := ih (h.rolled hfin hstick) hstart hs
      rw [rewound, ← Int.add_assoc]
      exact this
  · intro hr
    refine not_ends_of_inv
      (P := fun s : I × Anim => r.Rolling s.1 s.2 ∧ s.2.tmstart = tmcur ∧ Rewinds ops s.1 s.2)
      ?_ ⟨h, hstart, hr⟩
    rintro ⟨img, a⟩ ⟨h, hstart, hdelay⟩
    have hone := hdelay 1
    simp only [rewound, Int.add_zero] at hone
    have hgo := (animBody_rewind_iff h hstart).mpr ⟨hone, rfl⟩
    obtain ⟨hfin, hstick, -⟩ := (animBody_go_iff h).mp hgo
    refine ⟨_, hgo, h.rolled hfin hstick, hstart, ?_⟩
    intro k
    have := hdelay (k + 1)
    rw [rewound, ← Int.add_assoc] at this
    exact this

/-! ## The callback -/

theorem returns_iff_ends {tmcurnew : Int} (h : r.Rolling img a) (hw : ¬ Waits ops img a tmcur) :
    (∃ fuel c, onAnimate ops fuel img a tmcur tmcurnew = some c) ↔
      Ends (animBody ops (decide (Restarts ops img a tmcur)) tmcur)
        (img, entered ops img a tmcur) := by
  constructor
  · rintro ⟨fuel, c, hc⟩
    rw [onAnimate_of_loop h hw, animLoop_eq] at hc
    obtain ⟨p, hp, -⟩ := Option.map_eq_some_iff.mp hc
    exact ⟨fuel, p, hp⟩
  · rintro ⟨fuel, p, hp⟩
    refine ⟨fuel, rearm ops p.1 p.2 tmcur tmcurnew, ?_⟩
    rw [onAnimate_of_loop h hw, animLoop_eq, hp]
    rfl

theorem returns_iff {tmcurnew : Int} (h : r.Rolling img a) :
    (∃ fuel c, onAnimate ops fuel img a tmcur tmcurnew = some c) ↔ ¬ r.Hangs img a tmcur := by
  by_cases hw : Waits ops img a tmcur
  · refine iff_of_true ⟨0, _, onAnimate_of_waits h hw⟩ ?_
    rintro ⟨-, hstall⟩
    rw [if_neg hw.1] at hstall
    obtain ⟨n, -, hb⟩ := hstall
    have hdue := hb.due
    have hcycle := cycle_nonneg (c := r.count) (p := r.pos img) (n := n) r.delay_nonneg
    have := hw.2
    omega
  · rw [returns_iff_ends h hw, ← not_iff_not, not_not, Hangs]
    by_cases hr : Restarts ops img a tmcur
    · simp only [hr, decide_true, if_true]
      have hent := h.entered tmcur
      rw [entered, if_pos hr] at hent ⊢
      rw [rewinds_iff hent rfl]
      exact ⟨fun hs => ⟨h.running, hs⟩, fun hs => hs.2⟩
    · simp only [hr, decide_false, if_false]
      have hent := h.entered tmcur
      rw [entered, if_neg hr] at hent ⊢
      rw [stalls_iff hent]
      exact ⟨fun hs => ⟨h.running, hs⟩, fun hs => hs.2⟩

/-- **The catch-up loop ends** in every state an animation can be in, at every reading of the
clock, except when the callback restarts on a frame 0 that does not bring the delays counted past
10 ms, or when the image delivers no frame any more while the next one is due. -/
theorem callback_returns_iff (r : Reel ops) {s : Playback I}
    (h : r.playback.Reach Machine.always s) (l : Reading) :
    (∃ fuel c, onAnimate ops fuel s.image s.anim l.tmcur l.tmcurnew = some c) ↔
      ¬ r.Hangs s.image s.anim l.tmcur := by
  rcases playback_rolling h with hroll | hfin
  · exact returns_iff hroll
  · refine iff_of_true ⟨0, _, onAnimate_of_finished hfin⟩ ?_
    rintro ⟨hlimit, -⟩
    have := hlimit hfin.loopNum_pos
    have := hfin.curloop
    omega

/-! ## Images whose frames always come -/

structure Steady (r : Reel ops) : Prop where
  next : ∀ {img}, r.Sound img → r.pos img < r.count →
    r.pos (ops.nextFrame img false).2 = r.pos img + 1
  rewind : ∀ {img}, r.Sound img → r.pos (ops.nextFrame img true).2 = 1

theorem Steady.fetch_pos (hst : r.Steady) (reset : Bool) (h : r.Sound img)
    (hpos : r.pos img ≤ r.count) : r.pos (r.fetch reset img) = r.slot reset img + 1 := by
  cases reset with
  | true => exact hst.rewind h
  | false =>
    rcases Nat.lt_or_ge (r.pos img) r.count with hlt | hge
    · rw [Reel.fetch, if_pos (.inr hlt), slot_of_lt hlt]
      exact hst.next h hlt
    · have heq := Nat.le_antisymm hpos hge
      rw [Reel.fetch, if_neg (by simp [hge]), slot_of_eq heq]
      exact hst.rewind (r.finish h hge).2.1

theorem Steady.fetch (hst : r.Steady) (reset : Bool) (h : r.Sound img)
    (hpos : r.pos img ≤ r.count) :
    r.Sound (r.fetch reset img) ∧ r.pos (r.fetch reset img) ≤ r.count ∧
      ops.getFrameDelay (r.fetch reset img) = r.delay (r.slot reset img) := by
  have hp := hst.fetch_pos reset h hpos
  have hslot := slot_lt r reset img
  obtain ⟨hsound, hcases⟩ := fetch_spec reset h hpos
  refine ⟨hsound, by omega, ?_⟩
  rcases hcases with ⟨-, hd⟩ | ⟨hp', -⟩
  · exact hd
  · omega

theorem Steady.delivered (hst : r.Steady) (k : Nat) (h : r.Sound img)
    (hpos : r.pos img ≤ r.count) : r.delivered k img = k := by
  induction k generalizing img with
  | zero => rfl
  | succ k ih =>
    obtain ⟨hsound, hle, -⟩ := hst.fetch false h hpos
    have := hst.fetch_pos false h hpos
    rw [Reel.delivered, if_neg (by omega), ih hsound hle, Nat.add_comm]

theorem Steady.rewound (hst : r.Steady) (k : Nat) (h : r.Sound img) (hpos : r.pos img ≤ r.count) :
    rewound ops k img = k * r.delay 0 := by
  induction k generalizing img with
  | zero =>
    rw [Reel.rewound]
    omega
  | succ k ih =>
    obtain ⟨hsound, hle, hd⟩ := hst.fetch true h hpos
    have hfetch : r.fetch true img = (ops.nextFrame img true).2 := rfl
    have hslot : r.slot true img = 0 := rfl
    rw [hfetch] at hsound hle hd
    rw [hslot] at hd
    rw [Reel.rewound, ih hsound hle, hd, Int.natCast_succ, Int.add_mul, Int.one_mul, Int.add_comm]

/-- Then the first frame is to blame: it has no delay, and the callback restarts on it. -/
theorem Steady.hangs_iff (hst : r.Steady) (h : r.Rolling img a) :
    r.Hangs img a tmcur ↔ Restarts ops img a tmcur ∧ r.delay 0 = 0 ∧ a.totaldelay ≤ 10 := by
  rw [Hangs]
  by_cases hr : Restarts ops img a tmcur
  · simp only [hr, if_true, true_and]
    constructor
    · rintro ⟨-, hdelay⟩
      refine ⟨?_, ?_⟩
      · -- eleven rewinds would do
        have := hdelay 11
        have hT := h.totaldelay_nonneg
        have hnonneg := r.delay_nonneg 0
        rw [hst.rewound 11 h.sound h.pos_le] at this
        omega
      · have := hdelay 0
        rwa [Reel.rewound, Int.add_zero] at this
    · rintro ⟨hdelay, hT⟩
      refine ⟨h.running, ?_⟩
      intro k
      rw [hst.rewound k h.sound h.pos_le, hdelay, Int.mul_zero, Int.add_zero]
      exact hT
  · simp only [hr, if_false, false_and, iff_false, not_and]
    rintro - ⟨n, ⟨k, hk⟩, -⟩
    have h₁ := hk (k + n + 1) (by omega)
    rw [hst.delivered _ h.sound h.pos_le] at h₁
    omega

end Reel

/-- A gif always delivers, converted or not. -/
theorem GdiPlusImage.reel_steady {G Id : Type} (lib : GdiLib G Id) (delays : List Int)
    (loopnum : Int) (htwo : 2 ≤ delays.length) (hdelay : ∀ d ∈ delays, 0 ≤ d) :
    (reel lib delays loopnum htwo hdelay).Steady where
  next {img} h _ := by
    have hcur := h.curfid
    obtain ⟨-, hid, -⟩ := h.nextFrame lib htwo false
    change ((img.nextFrame lib false).2.curfid + 1).toNat = (img.curfid + 1).toNat + 1
    rw [hid, if_neg Bool.false_ne_true]
    omega
  rewind {img} h := by
    obtain ⟨-, hid, -⟩ := h.nextFrame lib htwo true
    change ((img.nextFrame lib true).2.curfid + 1).toNat = 1
    rw [hid]
    rfl

theorem WebpImage.Decoding.decodeNext_pos {D : Type} {lib : WebpLib D} {w : WebpSource lib}
    {loopnum : Int} {img : WebpImage D} (h : Decoding w loopnum img)
    (hlt : (frameSeq w loopnum).pos img < w.count)
    (hcomes : ∀ {d}, w.Sound d → w.pos d < w.count → (lib.animDecoderGetNext d).1.isSome) :
    (frameSeq w loopnum).pos (img.decodeNext lib).2 = (frameSeq w loopnum).pos img + 1 := by
  rcases (h.decodeNext hlt).pos with ⟨hpos, -⟩ | ⟨hfail, -⟩
  · exact hpos
  · obtain ⟨-, -, -, d, hd, hsound, -⟩ := h
    have hpos : (frameSeq w loopnum).pos img = w.pos d := by simp [frameSeq, hd]
    rw [hpos] at hlt
    obtain ⟨tm, hsome⟩ := Option.isSome_iff_exists.mp (hcomes hsound hlt)
    have hmore := (w.more hsound).mpr hlt
    unfold WebpImage.decodeNext at hfail
    simp only [hd, hmore, not_true_eq_false, if_false] at hfail
    generalize lib.animDecoderGetNext d = next at hsome hfail
    obtain ⟨res, d'⟩ := next
    simp only at hsome
    subst hsome
    cases hfail

/-- A webp image delivers as long as its frames decode. -/
theorem WebpImage.reel_steady {D : Type} {lib : WebpLib D} (w : WebpSource lib) (loopnum : Int)
    (htwo : 2 ≤ w.count)
    (hcomes : ∀ {d}, w.Sound d → w.pos d < w.count → (lib.animDecoderGetNext d).1.isSome) :
    (reel w loopnum htwo).Steady where
  next {img} h hlt := by
    have hanim := Decoding.isAnim h htwo
    change (frameSeq w loopnum).pos (img.nextFrame lib false).2 = _
    rw [nextFrame, hanim, if_neg (by simp)]
    exact Decoding.decodeNext_pos h hlt hcomes
  rewind {img} h := by
    obtain ⟨hdec, hpos⟩ := Decoding.rewound h
    change (frameSeq w loopnum).pos (img.nextFrame lib true).2 = 1
    rw [nextFrame, Decoding.isAnim h htwo, if_neg (by simp)]
    have := hdec.decodeNext_pos (by rw [hpos]; omega) hcomes
    rwa [hpos] at this

/-! ## A gif that starts with a frame of no delay -/

/-- GDI+ on a 1x1 gif of two frames with these delays, in hundredths of a second. -/
def gdiDelays (frameDelay : Nat → Int) : GdiLib Int Unit :=
  { gdiFrames 2 with frameDelay := fun _ => some frameDelay }

/-- Frame 0 has no delay, frame 1 has 100 ms. -/
def gifNoDelay : GdiLib Int Unit := gdiDelays fun i => if i = 0 then 0 else 10

def gifNoDelayReel : Reel (GdiPlusImage.ops gifNoDelay) :=
  GdiPlusImage.reel gifNoDelay [0, 100] 0 (by decide) (by decide)

def gifNoDelayOpened : Playback (GdiPlusImage Int) :=
  .opened (GdiPlusImage.ops gifNoDelay) (GdiPlusImage.openFromBuffer gifNoDelay []).2 0

theorem gifNoDelay_opened : gifNoDelayReel.Opened gifNoDelayOpened.image :=
  ⟨⟨rfl, rfl, rfl, by decide⟩, rfl, rfl⟩

theorem gifNoDelayOpened_reach : gifNoDelayReel.playback.Reach Machine.always gifNoDelayOpened :=
  .of_init ⟨_, 0, gifNoDelay_opened, rfl⟩

theorem gifNoDelay_hangs_iff (tmcur : Int) :
    gifNoDelayReel.Hangs gifNoDelayOpened.image gifNoDelayOpened.anim tmcur ↔
      Restarts (GdiPlusImage.ops gifNoDelay) gifNoDelayOpened.image gifNoDelayOpened.anim tmcur := by
  have hst : gifNoDelayReel.Steady := GdiPlusImage.reel_steady _ _ _ _ _
  refine (hst.hangs_iff (gifNoDelay_opened.rolling 0)).trans (and_iff_left ?_)
  exact ⟨rfl, by decide⟩

/-- Called on time, it goes on. -/
theorem callback_returns_gif : ∃ fuel c, onAnimate (GdiPlusImage.ops gifNoDelay) fuel
    gifNoDelayOpened.image gifNoDelayOpened.anim 10 10 = some c := by
  refine (gifNoDelayReel.callback_returns_iff gifNoDelayOpened_reach ⟨10, 10⟩).mpr ?_
  rw [gifNoDelay_hangs_iff]
  decide

/-- When the first callback comes 2 s late, it restarts on frame 0 again and again. -/
theorem late_callback_hangs : gifNoDelayReel.playback.Reach Machine.always gifNoDelayOpened ∧
    gifNoDelayOpened.timer = some 0 ∧
      ∀ fuel, onAnimate (GdiPlusImage.ops gifNoDelay) fuel gifNoDelayOpened.image
        gifNoDelayOpened.anim 2000 2000 = none := by
  refine ⟨gifNoDelayOpened_reach, rfl, ?_⟩
  intro fuel
  have hhang := (gifNoDelay_hangs_iff 2000).mpr (by decide)
  cases hc : onAnimate (GdiPlusImage.ops gifNoDelay) fuel gifNoDelayOpened.image
      gifNoDelayOpened.anim 2000 2000 with
  | none => rfl
  | some c => exact absurd hhang ((Reel.returns_iff (gifNoDelay_opened.rolling 0)).mp ⟨fuel, c, hc⟩)

end ObZrv
