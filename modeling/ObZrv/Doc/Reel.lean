import Mathlib.Algebra.Order.Ring.Int
import ObZrv.Lib.Cycle
import ObZrv.Lib.DoWhile
import ObZrv.Lib.Machine
import ObZrv.Codec.Bitmap
import ObZrv.Doc.Animate

/-!
# Doc.Reel

`Doc::onAnimate` on any animated image: frame delays may be zero, there may be a loop limit, and a
frame may fail to come. `Reel` is what the callback needs to know of such an image.

* `animPass_cases`, `rewindPass_cases` : all that one pass of the catch-up loop can do.
* `onAnimate_cases`                    : all that a callback can do.
* `playback_rolling`                   : the invariant of every run of callbacks.
-/

namespace ObZrv

open Lib

/-- How an animated image is gone through. `pos` counts the frames delivered since the last
rewind; it may be past `count`, as the GDI+ codec counts on at the end. -/
structure FrameSeq (I : Type) where
  Sound : I → Prop
  pos : I → Nat
  count : Nat
  delay : Nat → Int
  loopNum : Int

/-- `nextFrame` where frame `k` is the next. It delivers the frame, or it fails, leaves the position
and reports a delay of 0. -/
structure FrameSeq.Fetched {I : Type} (f : FrameSeq I) (ops : ImageOps I) (k : Nat) (r : IM × I) :
    Prop where
  more : r.1 ≠ .NO_MORE_FRAMES
  sound : f.Sound r.2
  pos : (f.pos r.2 = k + 1 ∧ ops.getFrameDelay r.2 = f.delay k) ∨
    (r.1 = .FAIL ∧ f.pos r.2 = k ∧ ops.getFrameDelay r.2 = 0)

structure Reel {I : Type} (ops : ImageOps I) extends FrameSeq I where
  two_le : 2 ≤ count
  delay_nonneg : ∀ k, 0 ≤ delay k
  getFrameCount : ∀ {img}, Sound img → ops.getFrameCount img = count
  getLoopNum : ∀ {img}, Sound img → ops.getLoopNum img = loopNum
  next : ∀ {img}, Sound img → pos img < count →
    toFrameSeq.Fetched ops (pos img) (ops.nextFrame img false)
  finish : ∀ {img}, Sound img → count ≤ pos img →
    (ops.nextFrame img false).1 = .NO_MORE_FRAMES ∧ Sound (ops.nextFrame img false).2 ∧
      count ≤ pos (ops.nextFrame img false).2
  rewind : ∀ {img}, Sound img → toFrameSeq.Fetched ops 0 (ops.nextFrame img true)

namespace Reel

variable {I : Type} {ops : ImageOps I} (r : Reel ops)

/-- All delays of one loop. -/
def total : Int := roundSum r.delay r.count

/-- The frame that a pass of the catch-up loop asks for: frame 0 on a restart and after the last
one. -/
def slot (reset : Bool) (img : I) : Nat := if reset then 0 else r.pos img % r.count

/-- The image after the pass asked for it. -/
def fetch (reset : Bool) (img : I) : I :=
  if reset = true ∨ r.pos img < r.count then (ops.nextFrame img reset).2
  else (ops.nextFrame (ops.nextFrame img false).2 true).2

/-- The loops that the pass completes. -/
def wraps (reset : Bool) (img : I) : Int := if reset = true ∨ r.pos img < r.count then 0 else 1

/-- An image as `Doc::open` gets it: its first frame is delivered. -/
structure Opened (img : I) : Prop where
  sound : r.Sound img
  pos : r.pos img = 1
  delay : ops.getFrameDelay img = r.delay 0

/-- An animation that has not come to the end of its last loop. -/
structure Rolling (img : I) (a : Anim) : Prop where
  sound : r.Sound img
  pos_le : r.pos img ≤ r.count
  pos_le_curframe : (r.pos img : Int) ≤ a.curframe + 1
  curloop_ge : -1 ≤ a.curloop
  loops : 0 < a.curloop → r.total ≤ a.totaldelay
  zero : r.total = 0 → a.totaldelay = 0 ∧ a.curloop ≤ 0
  spent : roundSum r.delay (r.pos img) ≤ a.totaldelay
  running : 0 < r.loopNum → a.curloop < r.loopNum

/-- The end of the last loop. -/
structure Finished (img : I) (a : Anim) : Prop where
  sound : r.Sound img
  pos_ge : r.count ≤ r.pos img
  curframe : a.curframe = r.count - 1
  loopNum_pos : 0 < r.loopNum
  curloop : r.loopNum ≤ a.curloop

/-- The state after a pass that goes on. -/
def rolled (reset : Bool) (img : I) (a : Anim) : Anim :=
  { curframe := if reset then 0 else if r.pos img < r.count then a.curframe + 1 else 0
    curloop := a.curloop + r.wraps reset img
    tmstart := a.tmstart
    totaldelay := a.totaldelay + ops.getFrameDelay (r.fetch reset img) }

/-- The pass comes to the end of the last loop. -/
def Finishes (reset : Bool) (img : I) (a : Anim) : Prop :=
  reset = false ∧ r.count ≤ r.pos img ∧ 0 < r.loopNum ∧ r.loopNum ≤ a.curloop + 1

/-- The pass finds that there are only frames of delay 0. -/
def Sticks (reset : Bool) (img : I) (a : Anim) : Prop :=
  r.total = 0 ∧ 0 < a.curloop + r.wraps reset img

/-- What one pass of the catch-up loop does: it ends the last loop, it stops on frame 0 for good, or
it goes on with the next frame. -/
inductive Pass (reset : Bool) (img : I) (a : Anim) : I × Anim × Bool → Prop where
  | finish : r.Finishes reset img a →
      Pass reset img a ((ops.nextFrame img false).2,
        { a with curframe := r.count - 1, curloop := a.curloop + 1 }, true)
  | stick : ¬ r.Finishes reset img a → r.Sticks reset img a →
      Pass reset img a
        ((ops.nextFrame (r.fetch reset img) true).2, { a with curframe := 0, curloop := -1 }, true)
  | roll : ¬ r.Finishes reset img a → ¬ r.Sticks reset img a →
      Pass reset img a (r.fetch reset img, r.rolled reset img a, false)

variable {r} {img : I} {a : Anim} {reset : Bool}

theorem total_nonneg : 0 ≤ r.total := roundSum_nonneg r.delay_nonneg

theorem count_pos : 0 < r.count := by
  have := r.two_le
  omega

theorem slot_of_lt (h : r.pos img < r.count) : r.slot false img = r.pos img := Nat.mod_eq_of_lt h

theorem slot_of_eq (h : r.pos img = r.count) : r.slot false img = 0 := by
  rw [slot, if_neg Bool.false_ne_true, h, Nat.mod_self]

theorem slot_lt (r : Reel ops) (reset : Bool) (img : I) : r.slot reset img < r.count := by
  rw [slot]
  split
  · exact count_pos
  · exact Nat.mod_lt _ count_pos

theorem delay_eq_zero (h : r.total = 0) {k : Nat} (hk : k < r.count) : r.delay k = 0 :=
  eq_zero_of_roundSum r.delay_nonneg h hk

/-- A fetch delivers the frame asked for, or leaves the position at it. -/
theorem fetch_spec (reset : Bool) (h : r.Sound img) (hpos : r.pos img ≤ r.count) :
    r.Sound (r.fetch reset img) ∧
      ((r.pos (r.fetch reset img) = r.slot reset img + 1 ∧
          ops.getFrameDelay (r.fetch reset img) = r.delay (r.slot reset img)) ∨
        (r.pos (r.fetch reset img) = r.slot reset img ∧
          ops.getFrameDelay (r.fetch reset img) = 0)) := by
  cases reset with
  | true =>
    rw [fetch, if_pos (.inl rfl)]
    exact ⟨(r.rewind h).sound, (r.rewind h).pos.imp_right And.right⟩
  | false =>
    by_cases hlt : r.pos img < r.count
    · rw [fetch, if_pos (.inr hlt), slot_of_lt hlt]
      exact ⟨(r.next h hlt).sound, (r.next h hlt).pos.imp_right And.right⟩
    · have hf := r.rewind (r.finish h (Nat.le_of_not_lt hlt)).2.1
      rw [fetch, if_neg (by simp [hlt]), slot_of_eq (by omega)]
      exact ⟨hf.sound, hf.pos.imp_right And.right⟩

theorem fetch_delay_nonneg (reset : Bool) (h : r.Sound img) (hpos : r.pos img ≤ r.count) :
    0 ≤ ops.getFrameDelay (r.fetch reset img) := by
  have := r.delay_nonneg (r.slot reset img)
  rcases (fetch_spec reset h hpos).2 with ⟨-, hd⟩ | ⟨-, hd⟩
  · omega
  · omega

theorem fetch_delay_eq_zero (reset : Bool) (h : r.Sound img) (hpos : r.pos img ≤ r.count)
    (htotal : r.total = 0) :
    ops.getFrameDelay (r.fetch reset img) = 0 := by
  have := delay_eq_zero htotal (slot_lt r reset img)
  rcases (fetch_spec reset h hpos).2 with ⟨-, hd⟩ | ⟨-, hd⟩
  · omega
  · omega

theorem Rolling.not_finished (h : r.Rolling img a) : ¬ r.Finished img a := by
  intro hfin
  have hrun := h.running hfin.loopNum_pos
  have := hfin.curloop
  omega

theorem Rolling.totaldelay_nonneg (h : r.Rolling img a) : 0 ≤ a.totaldelay :=
  le_trans (roundSum_nonneg r.delay_nonneg) h.spent

/-- The 0-delay test, which looks at one frame, finds out about all of them. -/
theorem countDelay_eq {b : Anim} (hloops : 0 < b.curloop → r.total ≤ b.totaldelay)
    (hzero : r.total = 0 → b.totaldelay = 0) (hdelay : r.total = 0 → ops.getFrameDelay img = 0) :
    countDelay ops img b =
      if r.total = 0 ∧ 0 < b.curloop then
        ((ops.nextFrame img true).2, { b with curframe := 0, curloop := -1 }, true)
      else (img, { b with totaldelay := b.totaldelay + ops.getFrameDelay img }, false) := by
  have htotal := total_nonneg (r := r)
  rw [countDelay]
  by_cases hd : ops.getFrameDelay img = 0
  · rw [if_pos hd]
    by_cases hstick : b.curloop > 0 ∧ b.totaldelay = 0
    · have := hloops hstick.1
      rw [if_pos hstick, if_pos ⟨by omega, hstick.1⟩]
    · rw [if_neg hstick, if_neg fun h => hstick ⟨h.2, hzero h.1⟩, hd, Int.add_zero]
  · rw [if_neg hd, if_neg fun h => hd (hdelay h.1)]

theorem animPass_cases (reset : Bool) (h : r.Rolling img a) :
    r.Pass reset img a (animPass ops reset img a) := by
  have hdelay := fetch_delay_eq_zero reset h.sound h.pos_le
  unfold animPass
  by_cases hmore : reset = true ∨ r.pos img < r.count
  · -- the frame asked for is in the sequence
    have hfin : ¬ r.Finishes reset img a := by
      rintro ⟨hreset, hpos, -⟩
      rcases hmore with hmore | hmore
      · rw [hreset] at hmore
        cases hmore
      · omega
    have hres : (ops.nextFrame img reset).1 ≠ .NO_MORE_FRAMES := by
      cases reset with
      | true => exact (r.rewind h.sound).more
      | false => exact (r.next h.sound (hmore.resolve_left Bool.false_ne_true)).more
    have hfetch : (ops.nextFrame img reset).2 = r.fetch reset img := by rw [fetch, if_pos hmore]
    simp only [hres, if_false, hfetch]
    rw [countDelay_eq (r := r) (b := { a with curframe := if reset then 0 else a.curframe + 1 })
      h.loops (fun ht => (h.zero ht).1) hdelay]
    have hwraps : r.wraps reset img = 0 := if_pos hmore
    by_cases hstick : r.total = 0 ∧ 0 < a.curloop
    · rw [if_pos hstick]
      exact .stick hfin ⟨hstick.1, by omega⟩
    · rw [if_neg hstick]
      have hroll := Pass.roll hfin fun hs => hstick ⟨hs.1, by have := hs.2; omega⟩
      have hcur : (if reset then 0 else if r.pos img < r.count then a.curframe + 1 else 0) =
          if reset then 0 else a.curframe + 1 := by
        cases reset with
        | true => rfl
        | false => simp [hmore.resolve_left Bool.false_ne_true]
      rw [rolled, hwraps, Int.add_zero, hcur] at hroll
      exact hroll
  · -- the end of a loop
    obtain ⟨hreset, hpos⟩ := not_or.mp hmore
    obtain rfl : reset = false := by simpa using hreset
    have hend : r.pos img = r.count := Nat.le_antisymm h.pos_le (Nat.le_of_not_lt hpos)
    obtain ⟨hres, hsound, -⟩ := r.finish h.sound (Nat.le_of_eq hend.symm)
    have hwraps : r.wraps false img = 1 := if_neg hmore
    have hfetch : (ops.nextFrame (ops.nextFrame img false).2 true).2 = r.fetch false img := by
      rw [fetch, if_neg hmore]
    simp only [hres, if_true, Bool.false_eq_true, if_false, r.getLoopNum hsound,
      r.getFrameCount hsound]
    by_cases hfin : r.loopNum > 0 ∧ a.curloop + 1 ≥ r.loopNum
    · rw [if_pos hfin]
      exact .finish ⟨rfl, Nat.le_of_eq hend.symm, hfin⟩
    · have hfin' : ¬ r.Finishes false img a := fun hf => hfin hf.2.2
      have htwo := r.two_le
      have hcurframe := h.pos_le_curframe
      have hspent := h.spent
      rw [hend] at hspent
      rw [if_neg hfin, if_neg (by omega), hfetch,
        countDelay_eq (r := r) (b := { a with curframe := 0, curloop := a.curloop + 1 })
          (fun _ => hspent) (fun ht => (h.zero ht).1) hdelay]
      by_cases hstick : r.total = 0 ∧ 0 < a.curloop + 1
      · rw [if_pos hstick]
        exact .stick hfin' ⟨hstick.1, by omega⟩
      · rw [if_neg hstick]
        have hroll := Pass.roll hfin' fun hs => hstick ⟨hs.1, by have := hs.2; omega⟩
        rw [rolled, hwraps, if_neg Bool.false_ne_true, if_neg hpos] at hroll
        exact hroll

/-! ## The invariant -/

theorem wraps_cases (h : r.Rolling img a) (reset : Bool) :
    (r.wraps reset img = 0 ∧ (reset = true ∨ r.pos img < r.count)) ∨
      (r.wraps reset img = 1 ∧ reset = false ∧ r.pos img = r.count) := by
  rw [wraps]
  split
  · rename_i hmore
    exact .inl ⟨rfl, hmore⟩
  · rename_i hend
    obtain ⟨hreset, hpos⟩ := not_or.mp hend
    exact .inr ⟨rfl, by simpa using hreset, Nat.le_antisymm h.pos_le (Nat.le_of_not_lt hpos)⟩

/-- The delays of the frames delivered since the last rewind are counted. -/
theorem fetch_spent (h : r.Rolling img a) (reset : Bool) :
    roundSum r.delay (r.pos (r.fetch reset img)) ≤
      a.totaldelay + ops.getFrameDelay (r.fetch reset img) := by
  have hslot : roundSum r.delay (r.slot reset img) ≤ a.totaldelay := by
    cases reset with
    | true => exact h.totaldelay_nonneg
    | false =>
      rcases Nat.lt_or_ge (r.pos img) r.count with hlt | hge
      · rw [slot_of_lt hlt]
        exact h.spent
      · rw [slot_of_eq (Nat.le_antisymm h.pos_le hge)]
        exact h.totaldelay_nonneg
  rcases (fetch_spec reset h.sound h.pos_le).2 with ⟨hpos, hd⟩ | ⟨hpos, hd⟩
  · rw [hpos, hd, roundSum_succ]
    omega
  · rw [hpos, hd]
    omega

theorem slot_le_curframe (h : r.Rolling img a) (reset : Bool) :
    (r.slot reset img : Int) ≤ (r.rolled reset img a).curframe := by
  have hcur := h.pos_le_curframe
  cases reset with
  | true => exact Int.le_refl 0
  | false =>
    rcases Nat.lt_or_ge (r.pos img) r.count with hlt | hge
    · rw [slot_of_lt hlt]
      simp only [Reel.rolled, Bool.false_eq_true, if_false, hlt, if_true]
      exact hcur
    · rw [slot_of_eq (Nat.le_antisymm h.pos_le hge)]
      simp only [Reel.rolled, Bool.false_eq_true, if_false, Nat.not_lt.mpr hge]
      exact Int.le_refl 0

theorem Rolling.rolled (h : r.Rolling img a) (hfin : ¬ r.Finishes reset img a)
    (hstick : ¬ r.Sticks reset img a) :
    r.Rolling (r.fetch reset img) (r.rolled reset img a) := by
  obtain ⟨hsound, hpos⟩ := fetch_spec reset h.sound h.pos_le
  have hslot := slot_lt r reset img
  have hcur := slot_le_curframe h reset
  have hdelay := fetch_delay_nonneg reset h.sound h.pos_le
  refine ⟨hsound, ?_, ?_, ?_, ?_, ?_, fetch_spent h reset, ?_⟩
  · omega
  · omega
  · have := h.curloop_ge
    simp only [Reel.rolled]
    rcases wraps_cases h reset with ⟨hw, -⟩ | ⟨hw, -⟩
    · omega
    · omega
  · intro hloop
    simp only [Reel.rolled] at hloop ⊢
    rcases wraps_cases h reset with ⟨hw, -⟩ | ⟨-, -, hend⟩
    · have := h.loops (by omega)
      omega
    · have := h.spent
      rw [hend] at this
      exact Int.le_trans this (by omega)
  · intro htotal
    refine ⟨?_, Int.not_lt.mp fun hloop => hstick ⟨htotal, hloop⟩⟩
    simp only [Reel.rolled, (h.zero htotal).1, fetch_delay_eq_zero reset h.sound h.pos_le htotal]
    rfl
  · intro hlimit
    have := h.running hlimit
    simp only [Reel.rolled]
    rcases wraps_cases h reset with ⟨hw, -⟩ | ⟨hw, hreset, hend⟩
    · omega
    · have : ¬ r.loopNum ≤ a.curloop + 1 :=
        fun hle => hfin ⟨hreset, Nat.le_of_eq hend.symm, hlimit, hle⟩
      omega

/-- Stopping on frame 0 for good. -/
theorem Rolling.stuck (h : r.Rolling img a) (htotal : r.total = 0) :
    r.Rolling (ops.nextFrame (r.fetch reset img) true).2 { a with curframe := 0, curloop := -1 } := by
  have hf := r.rewind (fetch_spec reset h.sound h.pos_le).1
  have hcount := r.two_le
  have hpos := hf.pos
  have hzero : r.delay 0 = 0 := delay_eq_zero htotal count_pos
  have hT := (h.zero htotal).1
  refine ⟨hf.sound, ?_, ?_, Int.le_refl _, ?_, fun _ => ⟨hT, show (-1 : Int) ≤ 0 by decide⟩, ?_, ?_⟩
  · omega
  · simp only
    omega
  · intro hloop
    cases hloop
  · rcases hpos with ⟨hpos, -⟩ | ⟨-, hpos, -⟩
    · rw [hpos, roundSum_succ, roundSum_zero, hzero, hT]
      rfl
    · rw [hpos, roundSum_zero, hT]
  · simp only
    omega

/-! ## The catch-up loop -/

/-- The body of the catch-up loop with its `while`. -/
def animBody (ops : ImageOps I) (reset : Bool) (tmcur : Int) (s : I × Anim) :
    (I × Anim) ⊕ (I × Anim) :=
  match animPass ops reset s.1 s.2 with
  | (img, a, true) => .inr (img, a)
  | (img, a, false) => if a.due ≤ tmcur + 10 then .inl (img, a) else .inr (img, a)

theorem animLoop_eq (ops : ImageOps I) (reset : Bool) (tmcur : Int) (fuel : Nat) (img : I)
    (a : Anim) : animLoop ops reset tmcur fuel img a =
      doWhile (animBody ops reset tmcur) fuel (img, a) := by
  induction fuel generalizing img a with
  | zero => rfl
  | succ fuel ih =>
    rw [animLoop, doWhile, animBody]
    rcases animPass ops reset img a with ⟨img', a', _ | _⟩
    · simp only
      split
      · exact ih img' a'
      · rfl
    · rfl

variable {tmcur : Int} {s : I × Anim}

/-- The loop goes on only with the next frame, and only while that frame is due. -/
theorem animBody_go_iff (h : r.Rolling img a) :
    animBody ops reset tmcur (img, a) = .inl s ↔
      ¬ r.Finishes reset img a ∧ ¬ r.Sticks reset img a ∧ (r.rolled reset img a).due ≤ tmcur + 10 ∧
        s = (r.fetch reset img, r.rolled reset img a) := by
  have hpass := animPass_cases reset h
  rw [animBody]
  generalize animPass ops reset img a = p at hpass ⊢
  cases hpass with
  | finish hfin => simp [hfin]
  | stick hfin hstick => simp [hstick]
  | roll hfin hstick =>
    simp only [hfin, hstick, not_false_eq_true, true_and]
    split
    · rename_i hdue
      simp [hdue, eq_comm]
    · rename_i hdue
      simp [hdue]

/-- The loop leaves at the end of the last loop, on frame 0 for good, or caught up. -/
theorem animBody_leave (h : r.Rolling img a) (hs : animBody ops reset tmcur (img, a) = .inr s) :
    (r.Finishes reset img a ∧ r.Finished s.1 s.2 ∧ s = ((ops.nextFrame img false).2,
        { a with curframe := r.count - 1, curloop := a.curloop + 1 })) ∨
      (¬ r.Finishes reset img a ∧ r.Sticks reset img a ∧ r.Rolling s.1 s.2 ∧
        s = ((ops.nextFrame (r.fetch reset img) true).2,
          { a with curframe := 0, curloop := -1 })) ∨
      (¬ r.Finishes reset img a ∧ ¬ r.Sticks reset img a ∧
        tmcur + 10 < (r.rolled reset img a).due ∧
        s = (r.fetch reset img, r.rolled reset img a)) := by
  have hpass := animPass_cases reset h
  rw [animBody] at hs
  generalize animPass ops reset img a = p at hpass hs
  cases hpass with
  | finish hfin =>
    obtain ⟨-, hsound, hpast⟩ := r.finish h.sound hfin.2.1
    cases hs
    exact .inl ⟨hfin, ⟨hsound, hpast, rfl, hfin.2.2.1, hfin.2.2.2⟩, rfl⟩
  | stick hfin hstick =>
    cases hs
    exact .inr (.inl ⟨hfin, hstick, h.stuck hstick.1, rfl⟩)
  | roll hfin hstick =>
    simp only at hs
    split at hs
    · cases hs
    · rename_i hdue
      cases hs
      exact .inr (.inr ⟨hfin, hstick, Int.not_le.mp hdue, rfl⟩)

theorem animLoop_rolling {fuel : Nat} (h : r.Rolling img a)
    (hs : animLoop ops reset tmcur fuel img a = some s) :
    r.Rolling s.1 s.2 ∨ r.Finished s.1 s.2 := by
  rw [animLoop_eq] at hs
  refine doWhile_inv (P := fun s : I × Anim => r.Rolling s.1 s.2)
    (Q := fun s : I × Anim => r.Rolling s.1 s.2 ∨ r.Finished s.1 s.2) ?_ ?_ h hs
  · rintro ⟨img, a⟩ s' h hgo
    obtain ⟨hfin, hstick, -, rfl⟩ := (animBody_go_iff h).mp hgo
    exact h.rolled hfin hstick
  · rintro ⟨img, a⟩ s' h hleave
    rcases animBody_leave h hleave with ⟨-, hfin, -⟩ | ⟨-, -, hroll, -⟩ | ⟨hfin, hstick, -, rfl⟩
    · exact .inr hfin
    · exact .inl hroll
    · exact .inl (h.rolled hfin hstick)

/-! ## The callback -/

/-- The state the loop is entered with. -/
def entered (ops : ImageOps I) (img : I) (a : Anim) (tmcur : Int) : Anim :=
  if Restarts ops img a tmcur then
    { adjusted ops img a tmcur with curframe := ops.getFrameCount img - 1, tmstart := tmcur }
  else adjusted ops img a tmcur

/-- The frame is not due yet. -/
def Waits (ops : ImageOps I) (img : I) (a : Anim) (tmcur : Int) : Prop :=
  ¬ Restarts ops img a tmcur ∧ (adjusted ops img a tmcur).due > tmcur + 20

/-- When the image runs and by how much it is shifted does not matter to the invariant. -/
theorem Rolling.congr {b : Anim} (h : r.Rolling img a) (hcur : a.curframe ≤ b.curframe)
    (hloop : b.curloop = a.curloop) (htot : b.totaldelay = a.totaldelay) : r.Rolling img b where
  sound := h.sound
  pos_le := h.pos_le
  pos_le_curframe := Int.le_trans h.pos_le_curframe (Int.add_le_add_right hcur 1)
  curloop_ge := hloop ▸ h.curloop_ge
  loops := by rw [hloop, htot]; exact h.loops
  zero := by rw [hloop, htot]; exact h.zero
  spent := by rw [htot]; exact h.spent
  running := by rw [hloop]; exact h.running

theorem Rolling.entered (h : r.Rolling img a) (tmcur : Int) :
    r.Rolling img (entered ops img a tmcur) := by
  rw [Reel.entered]
  split
  · refine ⟨h.sound, h.pos_le, ?_, h.curloop_ge, h.loops, h.zero, h.spent, h.running⟩
    have := h.pos_le
    simp only [r.getFrameCount h.sound]
    omega
  · exact h.congr (Int.le_refl _) rfl rfl

variable {tmcurnew : Int} {fuel : Nat}

theorem onAnimate_of_waits (h : r.Rolling img a) (hwaits : Waits ops img a tmcur) :
    onAnimate ops fuel img a tmcur tmcurnew =
      some ⟨img, adjusted ops img a tmcur, false,
        some (toUINT ((adjusted ops img a tmcur).due - tmcur))⟩ := by
  have hrun := h.running
  rw [onAnimate, r.getLoopNum h.sound, if_neg (by omega)]
  simp only [hwaits.1, decide_false, Bool.false_eq_true, not_false_eq_true, hwaits.2, and_self,
    if_true]

theorem onAnimate_of_loop (h : r.Rolling img a) (hwaits : ¬ Waits ops img a tmcur) :
    onAnimate ops fuel img a tmcur tmcurnew =
      (animLoop ops (decide (Restarts ops img a tmcur)) tmcur fuel img
        (entered ops img a tmcur)).map fun p => rearm ops p.1 p.2 tmcur tmcurnew := by
  have hrun := h.running
  rw [onAnimate, r.getLoopNum h.sound, if_neg (by omega)]
  by_cases hr : Restarts ops img a tmcur
  · simp only [hr, decide_true, not_true_eq_false, false_and, if_false, if_true, Reel.entered]
  · have hdue : ¬ (adjusted ops img a tmcur).due > tmcur + 20 := fun hd => hwaits ⟨hr, hd⟩
    simp only [hr, decide_false, Bool.false_eq_true, not_false_eq_true, hdue, and_false, if_false,
      Reel.entered]

theorem onAnimate_of_finished (h : r.Finished img a) :
    onAnimate ops fuel img a tmcur tmcurnew = some ⟨img, a, true, none⟩ := by
  rw [onAnimate, r.getLoopNum h.sound, if_pos ⟨h.loopNum_pos, h.curloop⟩, r.getFrameCount h.sound,
    ← h.curframe]

theorem rearm_image (ops : ImageOps I) (img : I) (a : Anim) (tmcur tmcurnew : Int) :
    (rearm ops img a tmcur tmcurnew).image = img := by
  simp only [rearm]
  split
  · rfl
  · rfl

/-- Setting the timer can only take a wrap of the clock off `_tmstart`. -/
theorem rearm_anim (ops : ImageOps I) (img : I) (a : Anim) (tmcur tmcurnew : Int) :
    (rearm ops img a tmcur tmcurnew).anim =
      { a with tmstart := (rearm ops img a tmcur tmcurnew).anim.tmstart } := by
  simp only [rearm]
  split
  · split
    · rfl
    · rfl
  · rfl

theorem onAnimate_rolling {c : Callback I} (h : r.Rolling img a ∨ r.Finished img a)
    (hc : onAnimate ops fuel img a tmcur tmcurnew = some c) :
    r.Rolling c.image c.anim ∨ r.Finished c.image c.anim := by
  rcases h with h | h
  · by_cases hwaits : Waits ops img a tmcur
    · rw [onAnimate_of_waits h hwaits] at hc
      cases hc
      exact .inl (h.congr (Int.le_refl _) rfl rfl)
    · rw [onAnimate_of_loop h hwaits] at hc
      obtain ⟨p, hp, rfl⟩ := Option.map_eq_some_iff.mp hc
      rw [rearm_image, rearm_anim]
      rcases animLoop_rolling (h.entered tmcur) hp with hroll | hfin
      · exact .inl (hroll.congr (Int.le_refl _) rfl rfl)
      · exact .inr ⟨hfin.sound, hfin.pos_ge, hfin.curframe, hfin.loopNum_pos, hfin.curloop⟩
  · rw [onAnimate_of_finished h] at hc
    cases hc
    exact .inr h

/-! ## Runs of callbacks -/

/-- The playback of a reel: each step is a callback of an armed timer that comes back, with any
clock readings. -/
def playback (r : Reel ops) : Machine (Playback I) Reading where
  init s := ∃ img t, r.Opened img ∧ s = .opened ops img t
  step s l s' := s.timer.isSome ∧ ∃ fuel c,
    onAnimate ops fuel s.image s.anim l.tmcur l.tmcurnew = some c ∧ s' = c.playback l

theorem Opened.rolling (h : r.Opened img) (t : Int) :
    r.Rolling img (Playback.opened ops img t).anim := by
  have hcount := r.two_le
  have hpos := h.pos
  refine ⟨h.sound, ?_, ?_, ?_, ?_, ?_, ?_, fun hlimit => hlimit⟩
  · omega
  · simp only [Playback.opened]
    omega
  · simp [Playback.opened]
  · intro hloop
    cases hloop
  · intro htotal
    exact ⟨h.delay.trans (delay_eq_zero htotal count_pos), Int.le_refl 0⟩
  · rw [hpos, roundSum_succ, roundSum_zero, Int.zero_add]
    exact Int.le_of_eq h.delay.symm

/-- What a step does to an animation that rolls: the callback waits, or it leaves what the loop
gives, but for a wrap of the clock. -/
theorem Rolling.step_cases {s s' : Playback I} {l : Reading} (h : r.Rolling s.image s.anim)
    (hs : r.playback.step s l s') :
    (Waits ops s.image s.anim l.tmcur ∧
        s' = ⟨s.image, adjusted ops s.image s.anim l.tmcur,
          some (toUINT ((adjusted ops s.image s.anim l.tmcur).due - l.tmcur)), l.tmcur,
          l.tmcurnew⟩) ∨
      (¬ Waits ops s.image s.anim l.tmcur ∧ ∃ fuel p,
        animLoop ops (decide (Restarts ops s.image s.anim l.tmcur)) l.tmcur fuel s.image
          (Reel.entered ops s.image s.anim l.tmcur) = some p ∧
        s'.image = p.1 ∧ s'.anim = { p.2 with tmstart := s'.anim.tmstart } ∧
        s' = (rearm ops p.1 p.2 l.tmcur l.tmcurnew).playback l) := by
  obtain ⟨-, fuel, c, hc, rfl⟩ := hs
  by_cases hwaits : Waits ops s.image s.anim l.tmcur
  · rw [onAnimate_of_waits h hwaits] at hc
    cases hc
    exact .inl ⟨hwaits, rfl⟩
  · rw [onAnimate_of_loop h hwaits] at hc
    obtain ⟨p, hp, rfl⟩ := Option.map_eq_some_iff.mp hc
    exact .inr ⟨hwaits, fuel, p, hp, rearm_image ops p.1 p.2 l.tmcur l.tmcurnew,
      rearm_anim ops p.1 p.2 l.tmcur l.tmcurnew, rfl⟩

theorem rolling_step {s s' : Playback I} {l : Reading}
    (h : r.Rolling s.image s.anim ∨ r.Finished s.image s.anim) (hs : r.playback.step s l s') :
    r.Rolling s'.image s'.anim ∨ r.Finished s'.image s'.anim := by
  obtain ⟨-, fuel, c, hc, rfl⟩ := hs
  exact onAnimate_rolling h hc

/-- The animation rolls in every state of every run, until the last loop ends. -/
theorem playback_rolling {ok : Playback I → Reading → Prop} {s : Playback I}
    (h : r.playback.Reach ok s) : r.Rolling s.image s.anim ∨ r.Finished s.image s.anim := by
  refine h.holds (P := fun s => r.Rolling s.image s.anim ∨ r.Finished s.image s.anim) ?_ ?_
  · rintro s ⟨img, t, hopen, rfl⟩
    exact .inl (hopen.rolling t)
  · rintro s l s' hs - hstep
    exact rolling_step hs hstep

end Reel

end ObZrv
