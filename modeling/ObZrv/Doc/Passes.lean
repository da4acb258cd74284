import ObZrv.Doc.CatchUp

/-!
# Doc.Passes

Where the catch-up loop of `Doc::onAnimate` stops when it does not restart, told from the frames
ahead of the state it is entered with.

* `GoesOn`, `Reaches` : which pass goes on, and which pass the loop gets to.
* `animLoop_stops`    : the loop stops at the first pass that does not go on.
* `stops_unique`      : there is only one such pass.
-/

namespace ObZrv

open Lib

namespace Reel

variable {I : Type} {ops : ImageOps I} (r : Reel ops)

/-- The image after `k` fetches. -/
def fetched : Nat → I → I
  | 0, img => img
  | k + 1, img => fetched k (r.fetch false img)

/-- The frame after `n` more is not played: its loop is past the limit. -/
def PastLimit (img : I) (a : Anim) (n : Nat) : Prop :=
  0 < r.loopNum ∧ r.loopNum ≤ a.curloop + ((r.pos img + n) / r.count : Nat)

/-- At the frame after `n` more, the delays are found to be all 0. -/
def AllZero (img : I) (a : Anim) (n : Nat) : Prop :=
  r.total = 0 ∧ 0 < a.curloop + ((r.pos img + n) / r.count : Nat)

/-- The end of `n` more frames is not due. -/
def CaughtUp (img : I) (a : Anim) (tmcur : Int) (n : Nat) : Prop :=
  tmcur + 10 < a.due + cycle r.delay r.count (r.pos img) n

/-- What makes pass `k + 1` go on: the `k` passes before it delivered `r.delivered k img` frames. -/
structure GoesOn (img : I) (a : Anim) (tmcur : Int) (k : Nat) : Prop where
  limit : ¬ r.PastLimit img a (r.delivered k img)
  zero : ¬ r.AllZero img a (r.delivered k img)
  due : ¬ r.CaughtUp img a tmcur (r.delivered (k + 1) img)

/-- The loop gets to pass `k + 1`. -/
def Reaches (img : I) (a : Anim) (tmcur : Int) (k : Nat) : Prop :=
  ∀ j, j < k → r.GoesOn img a tmcur j

/-- What the loop leaves at pass `k + 1`, the one that does not go on. -/
inductive Stops (img : I) (a : Anim) (tmcur : Int) (k : Nat) (p : I × Anim) : Prop where
  | finish : r.PastLimit img a (r.delivered k img) → r.Finished p.1 p.2 → Stops img a tmcur k p
  | stick : ¬ r.PastLimit img a (r.delivered k img) → r.AllZero img a (r.delivered k img) →
      r.Rolling p.1 p.2 → p.2.curframe = 0 → Stops img a tmcur k p
  | roll : ¬ r.PastLimit img a (r.delivered k img) → ¬ r.AllZero img a (r.delivered k img) →
      r.CaughtUp img a tmcur (r.delivered (k + 1) img) → r.Rolling p.1 p.2 → 0 ≤ p.2.curframe →
      (p.2.curframe = 0 ↔ r.pos (r.fetched k img) = r.count) → Stops img a tmcur k p

variable {r} {img img' : I} {a a' : Anim} {tmcur : Int} {k n m : Nat} {p : I × Anim}

/-! ## The frames ahead -/

theorem Advance.pastLimit_iff (h : r.Advance img a n img' a') :
    r.PastLimit img' a' m ↔ r.PastLimit img a (n + m) := by
  rw [PastLimit, h.curloop]
  rfl

theorem Advance.allZero_iff (h : r.Advance img a n img' a') :
    r.AllZero img' a' m ↔ r.AllZero img a (n + m) := by
  rw [AllZero, h.curloop]
  rfl

theorem Advance.caughtUp_iff (h : r.Advance img a n img' a') :
    r.CaughtUp img' a' tmcur m ↔ r.CaughtUp img a tmcur (n + m) := by
  rw [CaughtUp, h.due]
  rfl

theorem goesOn_succ_iff (h : r.Rolling img a) :
    r.GoesOn img a tmcur (k + 1) ↔
      r.GoesOn (r.fetch false img) (r.rolled false img a) tmcur k := by
  have hadv := rolled_advance h
  constructor
  · rintro ⟨hlimit, hzero, hdue⟩
    rw [delivered_succ] at hlimit hzero hdue
    exact ⟨fun hp => hlimit (hadv.pastLimit_iff.mp hp), fun hz => hzero (hadv.allZero_iff.mp hz),
      fun hc => hdue (hadv.caughtUp_iff.mp hc)⟩
  · rintro ⟨hlimit, hzero, hdue⟩
    constructor
    · rw [delivered_succ]
      exact fun hp => hlimit (hadv.pastLimit_iff.mpr hp)
    · rw [delivered_succ]
      exact fun hz => hzero (hadv.allZero_iff.mpr hz)
    · rw [delivered_succ]
      exact fun hc => hdue (hadv.caughtUp_iff.mpr hc)

/-! ## The first pass -/

theorem finishes_iff (h : r.Rolling img a) : r.Finishes false img a ↔ r.PastLimit img a 0 := by
  rw [PastLimit, Nat.add_zero, ← wraps_eq h]
  constructor
  · rintro ⟨-, hpos, hlimit, hle⟩
    have hwraps : r.wraps false img = 1 := if_neg (by simp [hpos])
    exact ⟨hlimit, by omega⟩
  · rintro ⟨hlimit, hle⟩
    have hrun := h.running hlimit
    rcases wraps_cases h false with ⟨hw, -⟩ | ⟨hw, -, hend⟩
    · omega
    · exact ⟨rfl, Nat.le_of_eq hend.symm, hlimit, by omega⟩

theorem sticks_iff (h : r.Rolling img a) : r.Sticks false img a ↔ r.AllZero img a 0 := by
  rw [AllZero, Nat.add_zero, ← wraps_eq h]
  rfl

theorem rolled_due_iff (h : r.Rolling img a) :
    tmcur + 10 < (r.rolled false img a).due ↔ r.CaughtUp img a tmcur (r.delivered 1 img) := by
  have hdue := (rolled_advance h).due 0
  rw [cycle_zero, Int.add_zero, Nat.add_zero] at hdue
  rw [CaughtUp, ← hdue]

/-- The frame shown is frame 0 exactly after a pass that completes a loop. -/
theorem rolled_curframe_eq_zero (h : r.Rolling img a) (hcur : 0 ≤ a.curframe) :
    (r.rolled false img a).curframe = 0 ↔ r.pos img = r.count := by
  have hle := h.pos_le
  simp only [rolled, Bool.false_eq_true, if_false]
  split
  · exact iff_of_false (by omega) (by omega)
  · exact iff_of_true rfl (by omega)

/-- Where the body goes on, so does pass 1. -/
theorem goesOn_of_go (h : r.Rolling img a) {s : I × Anim}
    (hgo : animBody ops false tmcur (img, a) = .inl s) : r.GoesOn img a tmcur 0 := by
  obtain ⟨hfin, hstick, hdue, -⟩ := (animBody_go_iff h).mp hgo
  exact ⟨fun hp => hfin ((finishes_iff h).mpr hp), fun hz => hstick ((sticks_iff h).mpr hz),
    fun hc => absurd ((rolled_due_iff h).mpr hc) (Int.not_lt.mpr hdue)⟩

theorem rolled_curframe_nonneg (h : r.Rolling img a) (reset : Bool) :
    0 ≤ (r.rolled reset img a).curframe :=
  Int.le_trans (Int.natCast_nonneg _) (slot_le_curframe h reset)

theorem stops_of_leave (h : r.Rolling img a) (hcur : 0 ≤ a.curframe)
    (hleave : animBody ops false tmcur (img, a) = .inr p) : r.Stops img a tmcur 0 p := by
  rcases animBody_leave h hleave with ⟨hfin, hend, -⟩ | ⟨hfin, hstick, hroll, rfl⟩ |
    ⟨hfin, hstick, hdue, rfl⟩
  · exact .finish ((finishes_iff h).mp hfin) hend
  · exact .stick (fun hp => hfin ((finishes_iff h).mpr hp)) ((sticks_iff h).mp hstick) hroll rfl
  · exact .roll (fun hp => hfin ((finishes_iff h).mpr hp))
      (fun hz => hstick ((sticks_iff h).mpr hz)) ((rolled_due_iff h).mp hdue)
      (h.rolled hfin hstick) (rolled_curframe_nonneg h false) (rolled_curframe_eq_zero h hcur)

/-! ## The loop -/

/-- A pass that goes on puts the others one further. -/
theorem Stops.succ (h : r.Rolling img a)
    (hs : r.Stops (r.fetch false img) (r.rolled false img a) tmcur k p) :
    r.Stops img a tmcur (k + 1) p := by
  have hadv := rolled_advance h
  cases hs with
  | finish hp hfin =>
    refine .finish ?_ hfin
    rw [delivered_succ]
    exact hadv.pastLimit_iff.mp hp
  | stick hp hz hroll hzero =>
    refine .stick ?_ ?_ hroll hzero
    · rw [delivered_succ]
      exact fun hp' => hp (hadv.pastLimit_iff.mpr hp')
    · rw [delivered_succ]
      exact hadv.allZero_iff.mp hz
  | roll hp hz hc hroll hcur hzero =>
    refine .roll ?_ ?_ ?_ hroll hcur hzero
    · rw [delivered_succ]
      exact fun hp' => hp (hadv.pastLimit_iff.mpr hp')
    · rw [delivered_succ]
      exact fun hz' => hz (hadv.allZero_iff.mpr hz')
    · rw [delivered_succ]
      exact hadv.caughtUp_iff.mp hc

/-- The loop stops at the first pass that does not go on. -/
theorem animLoop_stops {fuel : Nat} (h : r.Rolling img a) (hcur : 0 ≤ a.curframe)
    (hp : animLoop ops false tmcur fuel img a = some p) :
    ∃ k, r.Reaches img a tmcur k ∧ r.Stops img a tmcur k p := by
  rw [animLoop_eq] at hp
  induction fuel generalizing img a with
  | zero => cases hp
  | succ fuel ih =>
    cases hbody : animBody ops false tmcur (img, a) with
    | inl s =>
      have hfirst := goesOn_of_go h hbody
      obtain ⟨hfin, hstick, -, rfl⟩ := (animBody_go_iff h).mp hbody
      rw [doWhile_inl hbody] at hp
      obtain ⟨k, hreach, hstops⟩ :=
        ih (h.rolled hfin hstick) (rolled_curframe_nonneg h false) hp
      refine ⟨k + 1, ?_, hstops.succ h⟩
      intro j hj
      cases j with
      | zero => exact hfirst
      | succ j => exact (goesOn_succ_iff h).mpr (hreach j (by omega))
    | inr s =>
      rw [doWhile_inr hbody] at hp
      cases hp
      exact ⟨0, (fun j hj => absurd hj (Nat.not_lt_zero j)), stops_of_leave h hcur hbody⟩

theorem Stops.not_goesOn (h : r.Stops img a tmcur k p) : ¬ r.GoesOn img a tmcur k := by
  intro hgo
  cases h with
  | finish hp => exact hgo.limit hp
  | stick _ hz => exact hgo.zero hz
  | roll _ _ hc => exact hgo.due hc

theorem stops_unique {k' : Nat} (h : r.Reaches img a tmcur k) (hk : ¬ r.GoesOn img a tmcur k)
    (h' : r.Reaches img a tmcur k') (hk' : ¬ r.GoesOn img a tmcur k') : k = k' := by
  rcases Nat.lt_trichotomy k k' with hlt | heq | hgt
  · exact absurd (h' k hlt) hk
  · exact heq
  · exact absurd (h k' hgt) hk'

end Reel

end ObZrv
