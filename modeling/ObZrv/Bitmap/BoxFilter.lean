import ObZrv.Bitmap.SixTap

/-!
# Bitmap.BoxFilter

The box prefilter of `ScaleCrop`. The source is averaged in blocks of `nx` times `ny` pixels; of the
smaller image only the window around the crop is computed. The rows of the source are scanned once,
with the sums of the columns kept between them.

* `boxAt`          : the average of one block.
* `boxFilter_card` : the window holds the averages of its blocks.
-/

namespace ObZrv

open Lib

/-- The shift of channel `k`. -/
def shiftOf (k : Nat) : UInt32 := UInt32.ofNat (8 * k)

/-- The sum of channel `k` over `n` pixels of a row. -/
def rowSum (row : Int → UInt32) (x0 : Int) (n : Nat) (k : Nat) : UInt32 :=
  forLoop n (fun t sum => sum + ((row (x0 + t) >>> shiftOf k) &&& byteMask)) 0

/-- The sums of the four channels become a pixel. -/
def packBox (recip : Nat) (sum : Nat → UInt32) : UInt32 :=
  let avg (k : Nat) : UInt32 := UInt32.ofNat ((sum k).toNat * recip / 4194304)
  (avg 3 <<< 24) ||| (avg 2 <<< 16) ||| (avg 1 <<< 8) ||| avg 0

/-- The columns and rows of the smaller image that are computed. -/
structure Window where
  ixMin : Int
  ixMax : Int
  iyMin : Int
  iyMax : Int

namespace Window

def subW (v : Window) : Int := v.ixMax - v.ixMin + 1
def subH (v : Window) : Int := v.iyMax - v.iyMin + 1

end Window

structure BoxState where
  colAcc : Int → Nat → UInt32
  out : Int → Int → UInt32
  iyOut : Int
  rowInBlock : Int

section

variable (src : Pixmap) (nx ny : Int) (v : Window)

/-- One source row is added to the columns. -/
def accumRow (sxStart sxEnd : Int) (row : Int → UInt32) (colAcc : Int → Nat → UInt32) :
    Int → Nat → UInt32 := fun ix k =>
  if 0 ≤ ix ∧ ix < v.subW then
    let xBase := (v.ixMin + ix) * nx
    let x0 := if xBase < sxStart then sxStart else xBase
    let x1 := if xBase + nx > sxEnd then sxEnd else xBase + nx
    colAcc ix k + rowSum row x0 (x1 - x0).toNat k
  else colAcc ix k

/-- The loop body for source row `y`. -/
def boxRow (recip : Nat) (sxStart sxEnd y : Int) (s : BoxState) : BoxState :=
  let colAcc := accumRow nx v sxStart sxEnd (fun x => src.card x y) s.colAcc
  let rowInBlock := s.rowInBlock + 1
  if rowInBlock = ny ∧ s.iyOut < v.subH then
    { colAcc := fun ix k => if 0 ≤ ix ∧ ix < v.subW then 0 else colAcc ix k
      out := fun x y =>
        if y = s.iyOut ∧ 0 ≤ x ∧ x < v.subW then packBox recip (colAcc x) else s.out x y
      iyOut := s.iyOut + 1
      rowInBlock := 0 }
  else { s with colAcc, rowInBlock }

/-- The prefiltered bitmap; `junk` is what its memory holds when it is allocated. -/
def boxFilter (junk : Int → Int → UInt32) : Pixmap :=
  let syStart := v.iyMin * ny
  let syEnd := (v.iyMax + 1) * ny
  let syStart := if syStart < 0 then 0 else syStart
  let syEnd := if syEnd > src.h then src.h else syEnd
  let sxStart := v.ixMin * nx
  let sxEnd := (v.ixMax + 1) * nx
  let sxStart := if sxStart < 0 then 0 else sxStart
  let sxEnd := if sxEnd > src.w then src.w else sxEnd
  let recip := 4194304 / (nx * ny).toNat
  let s := forLoop (syEnd - syStart).toNat
    (fun t => boxRow src nx ny v recip sxStart sxEnd (syStart + t))
    { colAcc := fun _ _ => 0, out := junk, iyOut := 0, rowInBlock := 0 }
  { w := v.subW
    h := v.subH
    fmt := if src.fmt.bpp = 32 then src.fmt else .A8R8G8B8
    card := s.out }

/-! ## The average of a block -/

/-- The sum of channel `k` over the first `rows` rows of a block. -/
def blockSum (ix iy : Int) (rows : Nat) (k : Nat) : UInt32 :=
  forLoop rows (fun r sum =>
    sum + rowSum (fun x => src.card x (iy * ny + r)) (ix * nx) nx.toNat k) 0

def boxAt (ix iy : Int) : UInt32 :=
  packBox (4194304 / (nx * ny).toNat) (blockSum src nx ny ix iy ny.toNat)

/-- The blocks of the window lie in the image. -/
structure Window.In : Prop where
  nx_pos : 1 ≤ nx
  ny_pos : 1 ≤ ny
  ixMin : 0 ≤ v.ixMin
  iyMin : 0 ≤ v.iyMin
  ix : v.ixMin ≤ v.ixMax
  iy : v.iyMin ≤ v.iyMax
  right : (v.ixMax + 1) * nx ≤ src.w
  bottom : (v.iyMax + 1) * ny ≤ src.h

end

section Scan

variable {src : Pixmap} {nx ny : Int} {v : Window} {junk : Int → Int → UInt32}

/-- After `t` rows: `q` blocks of rows are done, and `r` rows of the next are summed up. -/
structure Scanned (src : Pixmap) (nx ny : Int) (v : Window) (t : Nat) (s : BoxState) (q r : Nat) :
    Prop where
  rows : t = q * ny.toNat + r
  lt : r < ny.toNat
  iyOut : s.iyOut = q
  rowInBlock : s.rowInBlock = r
  acc : ∀ ix, 0 ≤ ix → ix < v.subW → ∀ k,
    s.colAcc ix k = blockSum src nx ny (v.ixMin + ix) (v.iyMin + q) r k
  out : ∀ ix, 0 ≤ ix → ix < v.subW → ∀ iy : Int, 0 ≤ iy → iy < q →
    s.out ix iy = boxAt src nx ny (v.ixMin + ix) (v.iyMin + iy)

theorem accumRow_eq (hv : v.In src nx ny) {row : Int → UInt32} {acc : Int → Nat → UInt32} {ix : Int}
    (h0 : 0 ≤ ix) (h1 : ix < v.subW) (k : Nat) :
    accumRow nx v (v.ixMin * nx) ((v.ixMax + 1) * nx) row acc ix k =
      acc ix k + rowSum row ((v.ixMin + ix) * nx) nx.toNat k := by
  have hlo : v.ixMin * nx ≤ (v.ixMin + ix) * nx :=
    Int.mul_le_mul_of_nonneg_right (by omega) (by have := hv.nx_pos; omega)
  have hhi : (v.ixMin + ix + 1) * nx ≤ (v.ixMax + 1) * nx :=
    Int.mul_le_mul_of_nonneg_right (by unfold Window.subW at h1; omega) (by have := hv.nx_pos; omega)
  rw [Int.add_mul (v.ixMin + ix) 1 nx, Int.one_mul] at hhi
  rw [accumRow, if_pos ⟨h0, h1⟩]
  simp only
  rw [if_neg (Int.not_lt.mpr hlo), if_neg (Int.not_lt.mpr hhi),
    show (v.ixMin + ix) * nx + nx - (v.ixMin + ix) * nx = nx by omega]

theorem Scanned.next {t : Nat} {s : BoxState} {q r : Nat} (hv : v.In src nx ny)
    (hs : Scanned src nx ny v t s q r) (ht : t < v.subH.toNat * ny.toNat) :
    ∃ q' r', Scanned src nx ny v (t + 1)
      (boxRow src nx ny v (4194304 / (nx * ny).toNat) (v.ixMin * nx) ((v.ixMax + 1) * nx)
        (v.iyMin * ny + t) s) q' r' := by
  have hny := hv.ny_pos
  have hq : q < v.subH.toNat := by
    refine Nat.lt_of_mul_lt_mul_right (a := ny.toNat) (Nat.lt_of_le_of_lt ?_ ht)
    rw [hs.rows]
    exact Nat.le_add_right _ _
  have hrow : v.iyMin * ny + t = (v.iyMin + q) * ny + r := by
    have hrows := hs.rows
    have hcast : (t : Int) = q * ny + r := by
      rw [hrows]
      push_cast
      rw [Int.toNat_of_nonneg (by omega)]
    rw [hcast, Int.add_mul, Int.add_assoc]
  have hacc : ∀ ix, 0 ≤ ix → ix < v.subW → ∀ k,
      accumRow nx v (v.ixMin * nx) ((v.ixMax + 1) * nx) (fun x => src.card x (v.iyMin * ny + t))
        s.colAcc ix k = blockSum src nx ny (v.ixMin + ix) (v.iyMin + q) (r + 1) k := by
    intro ix h0 h1 k
    rw [accumRow_eq hv h0 h1, hs.acc ix h0 h1, hrow]
    rfl
  unfold boxRow
  simp only
  by_cases hlast : r + 1 = ny.toNat
  · -- the block is complete
    rw [if_pos ⟨by rw [hs.rowInBlock]; omega, by rw [hs.iyOut]; omega⟩]
    refine ⟨q + 1, 0, ?_, by omega, by rw [hs.iyOut]; rfl, rfl, ?_, ?_⟩
    · rw [hs.rows, Nat.succ_mul]
      omega
    · intro ix h0 h1 k
      exact if_pos ⟨h0, h1⟩
    · intro ix h0 h1 iy hy0 hy
      dsimp only
      by_cases hiy : iy = q
      · rw [if_pos ⟨by rw [hs.iyOut, hiy], h0, h1⟩, boxAt, hiy, ← hlast]
        congr 1
        funext k
        exact hacc ix h0 h1 k
      · rw [if_neg (by rw [hs.iyOut]; omega)]
        exact hs.out ix h0 h1 iy hy0 (by push_cast at hy; omega)
  · rw [if_neg (by rw [hs.rowInBlock]; omega)]
    refine ⟨q, r + 1, ?_, by have := hs.lt; omega, hs.iyOut, by rw [hs.rowInBlock]; rfl, hacc, hs.out⟩
    rw [hs.rows, Nat.add_assoc]

/-- **The prefiltered bitmap** holds the averages of the blocks of its window. -/
theorem boxFilter_card (hv : v.In src nx ny) {ix iy : Int} (hx0 : 0 ≤ ix) (hx : ix < v.subW)
    (hy0 : 0 ≤ iy) (hy : iy < v.subH) :
    (boxFilter src nx ny v junk).card ix iy = boxAt src nx ny (v.ixMin + ix) (v.iyMin + iy) := by
  have hnx := hv.nx_pos
  have hny := hv.ny_pos
  have hx₀ : 0 ≤ v.ixMin * nx := Int.mul_nonneg hv.ixMin (by omega)
  have hy₀ : 0 ≤ v.iyMin * ny := Int.mul_nonneg hv.iyMin (by omega)
  have hcount : ((v.iyMax + 1) * ny - v.iyMin * ny).toNat = v.subH.toNat * ny.toNat := by
    rw [← Int.sub_mul, Window.subH, show v.iyMax + 1 - v.iyMin = v.iyMax - v.iyMin + 1 by omega,
      Int.toNat_mul (by have := hv.iy; omega) (by omega)]
  unfold boxFilter
  simp only [if_neg (Int.not_lt.mpr hx₀), if_neg (Int.not_lt.mpr hy₀),
    if_neg (Int.not_lt.mpr hv.right), if_neg (Int.not_lt.mpr hv.bottom), hcount]
  obtain ⟨q, r, hs⟩ := forLoop_inv (n := v.subH.toNat * ny.toNat)
    (s := { colAcc := fun _ _ => 0, out := junk, iyOut := 0, rowInBlock := 0 })
    (f := fun t => boxRow src nx ny v (4194304 / (nx * ny).toNat) (v.ixMin * nx)
      ((v.ixMax + 1) * nx) (v.iyMin * ny + t))
    (fun t s => ∃ q r, Scanned src nx ny v t s q r)
    ⟨0, 0, by simp, by omega, rfl, rfl, fun _ _ _ _ => rfl, fun _ _ _ iy h0 h => by omega⟩
    fun t s ht ⟨q, r, hs⟩ => hs.next hv ht
  have hq : q = v.subH.toNat := by
    have hrows := hs.rows
    have hlt := hs.lt
    rw [Nat.mul_comm, Nat.mul_comm q] at hrows
    calc q = (ny.toNat * q + r) / ny.toNat := by
          rw [Nat.mul_add_div (by omega), Nat.div_eq_of_lt hlt, Nat.add_zero]
      _ = v.subH.toNat := by rw [← hrows, Nat.mul_div_cancel_left _ (by omega)]
  exact hs.out ix hx0 hx iy hy0 (by omega)

end Scan

end ObZrv
