import ObZrv.Bitmap.SixTap
import ObZrv.Lib.Blocks

/-!
# Bitmap.RowRing

The rings of source rows in `_scalecrop_6tap` and `_scalecrop_4tap`, with their pointers. The rows
are allocated behind `srcrow` and `cache`; from one output row to the next the pointers are passed
round and only the last rows are fetched.

* `Ready.next`          : one output row, for a ring of any size.
* `atBlend_holds`       : every output row of a run down the image.
* `ring_rows`           : both rings hold the rows that fetching them directly gives.
* `sixTapRows_ring`     : the rows that `sixTapRow` keeps are those behind the pointers.
-/

namespace ObZrv

open Lib

/-- `mem` is the allocated buffer. -/
structure RowRing where
  mem : Int → UInt32
  ring : Nat → Int
  lastYi : Int

/-- The ring before the first row: `ring[0]` is `base`, and each row follows the one before. -/
def RowRing.start (base sw : Int) (junk : Int → UInt32) : RowRing :=
  { mem := junk, ring := fun k => base + k * sw, lastYi := -100 }

section

variable (src : Pixmap) (sx sw : Int)

/-- The source row of slot `k`, brought into the image: `memcpy` or `RowFetch`. -/
def sourceRow (before yi : Int) (k : Nat) : Int → UInt32 :=
  fun i => src.card (sx + i) (clamp src.h (yi - before + k))

/-- `n` rows from `yi - before` on, in place of those for `lastYi`; `wrap` brings an index of `temp`
into the ring. -/
def nextRing (n : Nat) (wrap : Nat → Nat) (before yi : Int) (s : RowRing) : RowRing :=
  let shift := yi - s.lastYi
  if shift ≤ 0 ∧ s.lastYi ≥ 0 then { s with lastYi := yi }
  else if shift ≥ 1 ∧ shift ≤ n - 1 ∧ s.lastYi ≥ 0 then
    let temp := s.ring
    let ring := fun k => temp (wrap (k + shift.toNat))
    { mem := fillBlocks ring sw (n - shift.toNat) shift.toNat (sourceRow src sx before yi) s.mem
      ring
      lastYi := yi }
  else
    { s with
      mem := fillBlocks s.ring sw 0 n (sourceRow src sx before yi) s.mem
      lastYi := yi }

/-- The ring of `_scalecrop_6tap`. -/
def sixTapRing (yi : Int) (s : RowRing) : RowRing := nextRing src sx sw 6 (· % 6) 2 yi s

/-- The ring of `_scalecrop_4tap`. -/
def fourTapRing (yi : Int) (s : RowRing) : RowRing := nextRing src sx sw 4 (· &&& 3) 1 yi s

end

/-- The row `yi` of output row `j`. -/
def rowAt (starty incy : Int) (j : Nat) : Int := whole (starty + j * incy)

section

variable (step : Int → RowRing → RowRing) (base : Int) (yi : Nat → Int) (front : Nat → Int → UInt32)

/-- `j` output rows. What row `j` leaves in `srcrow` and `cache`, in front of the rows, is
`front j`. -/
def ringLoop (j : Nat) (s : RowRing) : RowRing :=
  forLoop j (fun j s =>
    let s := step (yi j) s
    { s with mem := fun a => if a < base then front j a else s.mem a }) s

/-- The ring when the vertical blend of output row `j` runs. -/
def atBlend (j : Nat) (s : RowRing) : RowRing := step (yi j) (ringLoop step base yi front j s)

end

/-- When output row `j` is blended, slot `k` of either ring holds the source row that it stands for,
and the pointers are a permutation of the rows that were allocated. -/
structure RingsHold (src : Pixmap) (sx sw base : Int) (yi : Nat → Int) (front : Nat → Int → UInt32)
    (junk : Int → UInt32) (j : Nat) (six four : RowRing) : Prop where
  isSix : six = atBlend (sixTapRing src sx sw) base yi front j (RowRing.start base sw junk)
  isFour : four = atBlend (fourTapRing src sx sw) base yi front j (RowRing.start base sw junk)
  sixRows : ∀ k < 6, ∀ i, 0 ≤ i → i < sw →
    six.mem (six.ring k + i) = src.card (sx + i) (clamp src.h (yi j - 2 + k))
  fourRows : ∀ k < 4, ∀ i, 0 ≤ i → i < sw →
    four.mem (four.ring k + i) = src.card (sx + i) (clamp src.h (yi j - 1 + k))
  sixRing : ((List.range 6).map six.ring).Perm
    ((List.range 6).map (RowRing.start base sw junk).ring)
  fourRing : ((List.range 4).map four.ring).Perm
    ((List.range 4).map (RowRing.start base sw junk).ring)

/-! ## One output row -/

section Step

variable {src : Pixmap} {sx sw base before : Int} {n : Nat}

/-- The ring holds `n` rows from `yi - before` on. -/
structure RowRing.Holds (src : Pixmap) (sx sw base before : Int) (n : Nat) (yi : Int) (s : RowRing) :
    Prop where
  covers : Covers n base sw s.ring
  last : s.lastYi = yi
  rows : ∀ k < n, ∀ i, 0 ≤ i → i < sw → s.mem (s.ring k + i) = sourceRow src sx before yi k i

/-- The ring holds the rows for `lastYi`, or nothing yet. -/
structure RowRing.Ready (src : Pixmap) (sx sw base before : Int) (n : Nat) (s : RowRing) : Prop where
  covers : Covers n base sw s.ring
  holds : 0 ≤ s.lastYi → s.Holds src sx sw base before n s.lastYi

theorem RowRing.start_ready (junk : Int → UInt32) :
    (RowRing.start base sw junk).Ready src sx sw base before n :=
  ⟨covers_start, fun h => absurd h (by decide : ¬ (0 : Int) ≤ -100)⟩

theorem RowRing.Holds.ready {s : RowRing} {yi : Int} (h : s.Holds src sx sw base before n yi) :
    s.Ready src sx sw base before n := by
  refine ⟨h.covers, fun _ => ?_⟩
  rw [h.last]
  exact h

/-- What is written in front of the rows is not seen. -/
theorem RowRing.Holds.front {s : RowRing} {yi : Int} (h : s.Holds src sx sw base before n yi)
    (f : Int → UInt32) :
    RowRing.Holds src sx sw base before n yi
      { s with mem := fun a => if a < base then f a else s.mem a } := by
  refine ⟨h.covers, h.last, ?_⟩
  intro k hk i h0 h1
  have hge := h.covers.base_le (by omega) hk
  dsimp only
  rw [if_neg (by omega)]
  exact h.rows k hk i h0 h1

/-- The source row of a slot depends on the sum of row and slot only. -/
theorem sourceRow_shift {yi lastYi : Int} {k s : Nat} (h : lastYi + s = yi) :
    sourceRow src sx before lastYi (k + s) = sourceRow src sx before yi k := by
  unfold sourceRow
  rw [show lastYi - before + ((k + s : Nat) : Int) = yi - before + k by push_cast; omega]

/-- **One output row**, not above the one before: the rows are kept, passed round or fetched anew. -/
theorem RowRing.Ready.next {s : RowRing} {wrap : Nat → Nat} {yi : Int}
    (hs : s.Ready src sx sw base before n) (hwrap : ∀ a, wrap a = a % n)
    (hle : 0 ≤ s.lastYi → s.lastYi ≤ yi) :
    (nextRing src sx sw n wrap before yi s).Holds src sx sw base before n yi := by
  unfold nextRing
  simp only
  split
  · -- the same row again
    rename_i hc
    have heq : s.lastYi = yi := by
      have := hle hc.2
      omega
    have h := hs.holds hc.2
    exact ⟨h.covers, rfl, by rw [← heq]; exact h.rows⟩
  · split
    · -- the windows overlap
      rename_i hc
      have h := hs.holds hc.2.2
      have hring : (fun k => s.ring (wrap (k + (yi - s.lastYi).toNat))) =
          fun k => s.ring ((k + (yi - s.lastYi).toNat) % n) := by
        funext k
        rw [hwrap]
      have hcov : Covers n base sw fun k => s.ring (wrap (k + (yi - s.lastYi).toNat)) := by
        rw [hring]
        exact h.covers.rotate _
      refine ⟨hcov, rfl, ?_⟩
      intro k hk i h0 h1
      dsimp only
      by_cases hkeep : k < n - (yi - s.lastYi).toNat
      · rw [fillBlocks_other hcov (by omega) hkeep h0 h1]
        simp only [hwrap]
        rw [Nat.mod_eq_of_lt (show k + (yi - s.lastYi).toNat < n by omega),
          h.rows _ (by omega) i h0 h1,
          sourceRow_shift (show s.lastYi + ((yi - s.lastYi).toNat : Int) = yi by omega)]
      · exact fillBlocks_in hcov (by omega) (by omega) (by omega) h0 h1
    · refine ⟨hs.covers, rfl, ?_⟩
      intro k hk i h0 h1
      exact fillBlocks_in hs.covers (by omega) (by omega) (by omega) h0 h1

end Step

/-! ## A run down the image -/

section Run

variable {src : Pixmap} {sx sw base before : Int} {n : Nat} {yi : Nat → Int}

theorem rowAt_step {starty incy : Int} (hincy : 0 ≤ incy) (j : Nat) :
    rowAt starty incy j ≤ rowAt starty incy (j + 1) := by
  refine whole_mono ?_
  have hmul : (j : Int) * incy ≤ ((j + 1 : Nat) : Int) * incy :=
    Int.mul_le_mul_of_nonneg_right (by omega) hincy
  omega

/-- Before output row `j` the ring holds the rows of an earlier one, or nothing yet. -/
theorem ringLoop_ready {step : Int → RowRing → RowRing} (hyi : ∀ j, yi j ≤ yi (j + 1))
    (hstep : ∀ y s, s.Ready src sx sw base before n → (0 ≤ s.lastYi → s.lastYi ≤ y) →
      (step y s).Holds src sx sw base before n y)
    (front : Nat → Int → UInt32) (junk : Int → UInt32) (j : Nat) :
    (ringLoop step base yi front j (RowRing.start base sw junk)).Ready src sx sw base before n ∧
      (0 ≤ (ringLoop step base yi front j (RowRing.start base sw junk)).lastYi →
        (ringLoop step base yi front j (RowRing.start base sw junk)).lastYi ≤ yi j) := by
  induction j with
  | zero => exact ⟨RowRing.start_ready junk, fun h => absurd h (by decide : ¬ (0 : Int) ≤ -100)⟩
  | succ j ih =>
    have hold := (hstep (yi j) _ ih.1 ih.2).front (front j)
    exact ⟨hold.ready, fun _ => hold.last.trans_le (hyi j)⟩

theorem atBlend_holds {step : Int → RowRing → RowRing} (hyi : ∀ j, yi j ≤ yi (j + 1))
    (hstep : ∀ y s, s.Ready src sx sw base before n → (0 ≤ s.lastYi → s.lastYi ≤ y) →
      (step y s).Holds src sx sw base before n y)
    (front : Nat → Int → UInt32) (junk : Int → UInt32) (j : Nat) :
    (atBlend step base yi front j (RowRing.start base sw junk)).Holds
      src sx sw base before n (yi j) := by
  obtain ⟨hready, hle⟩ := ringLoop_ready hyi hstep front junk j
  exact hstep _ _ hready hle

theorem sixTap_holds (hyi : ∀ j, yi j ≤ yi (j + 1)) (front : Nat → Int → UInt32)
    (junk : Int → UInt32) (j : Nat) :
    (atBlend (sixTapRing src sx sw) base yi front j (RowRing.start base sw junk)).Holds
      src sx sw base 2 6 (yi j) :=
  atBlend_holds hyi (fun _ _ hs hle => hs.next (fun _ => rfl) hle) front junk j

theorem fourTap_holds (hyi : ∀ j, yi j ≤ yi (j + 1)) (front : Nat → Int → UInt32)
    (junk : Int → UInt32) (j : Nat) :
    (atBlend (fourTapRing src sx sw) base yi front j (RowRing.start base sw junk)).Holds
      src sx sw base 1 4 (yi j) :=
  atBlend_holds hyi
    (fun _ _ hs hle => hs.next (fun a => Nat.and_two_pow_sub_one_eq_mod a 2) hle) front junk j

theorem rings_hold (hyi : ∀ j, yi j ≤ yi (j + 1)) (front : Nat → Int → UInt32)
    (junk : Int → UInt32) (j : Nat) :
    RingsHold src sx sw base yi front junk j
      (atBlend (sixTapRing src sx sw) base yi front j (RowRing.start base sw junk))
      (atBlend (fourTapRing src sx sw) base yi front j (RowRing.start base sw junk)) := by
  obtain ⟨hsix, -, hsixRows⟩ := sixTap_holds hyi front junk j
  obtain ⟨hfour, -, hfourRows⟩ := fourTap_holds hyi front junk j
  exact ⟨rfl, rfl, hsixRows, hfourRows, hsix, hfour⟩

end Run

/-- **The rings equal direct fetching**, at every output row of every scaled image, and for any rows
that do not go up again. -/
theorem ring_rows (src : Pixmap) (sx sw base : Int) (front : Nat → Int → UInt32)
    (junk : Int → UInt32) (j : Nat) :
    (∀ starty incy, 0 ≤ incy → ∃ six four,
      RingsHold src sx sw base (rowAt starty incy) front junk j six four) ∧
    (∀ yi : Nat → Int, (∀ i, yi i ≤ yi (i + 1)) → ∃ six four,
      RingsHold src sx sw base yi front junk j six four) :=
  ⟨fun _ _ hincy => ⟨_, _, rings_hold (rowAt_step hincy) front junk j⟩,
    fun _ hyi => ⟨_, _, rings_hold hyi front junk j⟩⟩

/-- From the first row to the second the window jumps by three rows, over the lower edge. -/
theorem ring_rows_jump :
    let src : Pixmap := ⟨1, 5, .A8R8G8B8, fun _ y => UInt32.ofNat y.toNat⟩
    ∃ six : RowRing,
      six = atBlend (sixTapRing src 0 1) 4 (rowAt 0 0x30000) (fun _ _ => 0) 1
        (RowRing.start 4 1 fun _ => 0) ∧
      six.mem (six.ring 0 + 0) = 1 ∧ six.mem (six.ring 5 + 0) = 4 := by
  intro src
  obtain ⟨six, four, h⟩ := (ring_rows src 0 1 4 (fun _ _ => 0) (fun _ => 0) 1).1 0 0x30000 (by decide)
  exact ⟨six, h.isSix, h.sixRows 0 (by decide) 0 (by decide) (by decide),
    h.sixRows 5 (by decide) 0 (by decide) (by decide)⟩

/-! ## The rows that `sixTapRow` keeps -/

section SixTap

variable {src : Pixmap} {wtab : Nat → Taps Int} {c : Crop} {base sx sw localStartx incx : Int}
  {starty incy : Int} {s : SixTapState}

theorem sixTapRows_hold (hincy : 0 ≤ incy) (hs : s.lastYi = -100) (j : Nat) :
    RingHolds src sx
        (forLoop j (sixTapRow src wtab c sx sw localStartx incx starty incy) s).lastYi
        (forLoop j (sixTapRow src wtab c sx sw localStartx incx starty incy) s).ring ∧
      (0 ≤ (forLoop j (sixTapRow src wtab c sx sw localStartx incx starty incy) s).lastYi →
        (forLoop j (sixTapRow src wtab c sx sw localStartx incx starty incy) s).lastYi ≤
          rowAt starty incy j) := by
  induction j with
  | zero =>
    have hneg : ¬ 0 ≤ s.lastYi := by
      rw [hs]
      decide
    exact ⟨fun h => absurd h hneg, fun h => absurd h hneg⟩
  | succ j ih =>
    refine ⟨?_, fun _ => rowAt_step hincy j⟩
    intro hyi
    refine fetchRing_holds ih.1 ?_ hyi
    by_cases hlast : 0 ≤ (forLoop j (sixTapRow src wtab c sx sw localStartx incx starty incy) s).lastYi
    · exact ih.2 hlast
    · exact Int.le_trans (Int.le_of_lt (Int.not_le.mp hlast)) hyi

/-- The rows of `sixTapRow` are those behind the pointers. -/
theorem sixTapRows_ring (hincy : 0 ≤ incy) (hs : s.lastYi = -100) (front : Nat → Int → UInt32)
    (junk : Int → UInt32) {j : Nat} (hyi : 0 ≤ rowAt starty incy j) {k : Nat} (hk : k < 6)
    {i : Int} (h0 : 0 ≤ i) (h1 : i < sw) :
    (forLoop (j + 1) (sixTapRow src wtab c sx sw localStartx incx starty incy) s).ring k i =
      let ptrs := atBlend (sixTapRing src sx sw) base (rowAt starty incy) front j
        (RowRing.start base sw junk)
      ptrs.mem (ptrs.ring k + i) := by
  obtain ⟨hold, -⟩ := sixTapRows_hold hincy hs (j + 1)
  rw [hold hyi k hk i]
  exact ((sixTap_holds (rowAt_step hincy) front junk j).rows k hk i h0 h1).symm

end SixTap

end ObZrv
