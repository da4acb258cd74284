import ObZrv.Lib.Loop

/-!
# Lib.Cells

Values of several cells each in memory, and loops that change every value of an array, or of the rows
of an image.

* `loadCells_storeCells` : what was stored is loaded.
* `mapCells_load`        : a loop over an array changes each value by what it was.
* `mapRows_load`         : the same for an image, whose rows may have cells behind their values.
* `fillRows_in`          : the rows of an image, written one after the other.
-/

namespace Lib

section Store

variable {α : Type*} (mem : Int → α) (a : Int)

/-- The `n` cells from `a` on. -/
def loadCells (n : Nat) : List α := (List.range n).map fun k : Nat => mem (a + k)

def storeCells (values : List α) : Int → α :=
  fun b => if b < a then mem b else (values[(b - a).toNat]?).getD (mem b)

variable {mem a}

@[simp] theorem loadCells_length (n : Nat) : (loadCells mem a n).length = n := by
  rw [loadCells, List.length_map, List.length_range]

theorem loadCells_congr {mem' : Int → α} {n : Nat}
    (h : ∀ k : Nat, k < n → mem (a + k) = mem' (a + k)) : loadCells mem a n =
      loadCells mem' a n :=
  List.map_congr_left fun k hk => h k (List.mem_range.mp hk)

theorem storeCells_out {values : List α} {b : Int} (h : b < a ∨ a + values.length ≤ b) :
    storeCells mem a values b = mem b := by
  unfold storeCells
  split
  · rfl
  · rw [List.getElem?_eq_none (by omega), Option.getD_none]

theorem loadCells_storeCells {values : List α} {n : Nat} (h : values.length = n) :
    loadCells (storeCells mem a values) a n = values := by
  refine List.ext_getElem (by simp [h]) fun k hk hk' => ?_
  simp only [loadCells, List.getElem_map, List.getElem_range, storeCells]
  rw [if_neg (by omega), show (a + (k : Int) - a).toNat = k by omega, List.getElem?_eq_getElem hk',
    Option.getD_some]

/-- A store behind or before some cells leaves them. -/
theorem loadCells_storeCells_apart {values : List α} {b : Int} {n : Nat}
    (h : b + n ≤ a ∨ a + values.length ≤ b) :
    loadCells (storeCells mem a values) b n = loadCells mem b n :=
  loadCells_congr fun k hk => storeCells_out (by omega)

end Store

section Map

variable {α : Type*} (size : Nat) (p : List α → List α)

/-- A loop over `n` values of `size` cells from `base` on. -/
def mapCells (base : Int) (n : Nat) (mem : Int → α) : Int → α :=
  forLoop n (fun i mem =>
    let a := base + (i : Int) * size
    storeCells mem a (p (loadCells mem a size))) mem

/-- A loop over `h` rows of `w` values, which are `pitch` cells apart. -/
def mapRows (pitch : Int) (w h : Nat) (mem : Int → α) : Int → α :=
  forLoop h (fun j mem => mapCells size p ((j : Int) * pitch) w mem) mem

variable {size p} (hp : ∀ l, l.length = size → (p l).length = size)

include hp

theorem mapCells_spec (base : Int) (n : Nat) (mem : Int → α) :
    (∀ i < n, loadCells (mapCells size p base n mem) (base + (i : Int) * size) size =
      p (loadCells mem (base + (i : Int) * size) size)) ∧
    ∀ b, b < base ∨ base + (n : Int) * size ≤ b → mapCells size p base n mem b = mem b := by
  refine forLoop_inv (P := fun k m =>
    (∀ i < k, loadCells m (base + (i : Int) * size) size =
      p (loadCells mem (base + (i : Int) * size) size)) ∧
    ∀ b, b < base ∨ base + (k : Int) * size ≤ b → m b = mem b) ⟨?_, fun _ _ => rfl⟩ ?_
  · intro i hi
    exact absurd hi (Nat.not_lt_zero i)
  · rintro k m - ⟨hdone, hrest⟩
    have hlen : (p (loadCells m (base + (k : Int) * size) size)).length = size :=
      hp _ (loadCells_length _)
    have hnext : ((k + 1 : Nat) : Int) * size = (k : Int) * size + size := by
      rw [Int.natCast_add, Int.add_mul, Int.natCast_one, Int.one_mul]
    have hstart : (0 : Int) ≤ (k : Int) * size :=
      Int.mul_nonneg (Int.natCast_nonneg k) (Int.natCast_nonneg size)
    have hold : loadCells m (base + (k : Int) * size) size =
        loadCells mem (base + (k : Int) * size) size :=
      loadCells_congr fun c _ => hrest _ (.inr (by omega))
    refine ⟨fun i hi => ?_, fun b hb => ?_⟩
    · rcases Nat.lt_succ_iff_lt_or_eq.mp hi with hlt | rfl
      · have hbefore : ((i : Int) + 1) * size ≤ (k : Int) * size :=
          Int.mul_le_mul_of_nonneg_right (by omega) (Int.natCast_nonneg size)
        rw [Int.add_mul, Int.one_mul] at hbefore
        rw [loadCells_storeCells_apart (.inl (by omega)), hdone i hlt]
      · rw [loadCells_storeCells hlen, hold]
    · rw [storeCells_out (by rw [hlen]; omega)]
      exact hrest b (by omega)

theorem mapCells_load (base : Int) {n i : Nat} (mem : Int → α) (hi : i < n) :
    loadCells (mapCells size p base n mem) (base + (i : Int) * size) size =
      p (loadCells mem (base + (i : Int) * size) size) :=
  (mapCells_spec hp base n mem).1 i hi

theorem mapCells_out {base b : Int} {n : Nat} (mem : Int → α)
    (h : b < base ∨ base + (n : Int) * size ≤ b) : mapCells size p base n mem b = mem b :=
  (mapCells_spec hp base n mem).2 b h

/-- Each value of an image is changed by what it was. -/
theorem mapRows_load {pitch : Int} {w h i j : Nat} (mem : Int → α)
    (hpitch : (w : Int) * size ≤ pitch) (hj : j < h) (hi : i < w) :
    loadCells (mapRows size p pitch w h mem) ((j : Int) * pitch + (i : Int) * size) size =
      p (loadCells mem ((j : Int) * pitch + (i : Int) * size) size) := by
  have hcells : (0 : Int) ≤ (w : Int) * size :=
    Int.mul_nonneg (Int.natCast_nonneg w) (Int.natCast_nonneg size)
  have hwidth : ∀ i : Nat, i < w →
      0 ≤ (i : Int) * size ∧ (i : Int) * size + size ≤ (w : Int) * size := by
    intro i hi
    have hle : ((i : Int) + 1) * size ≤ (w : Int) * size :=
      Int.mul_le_mul_of_nonneg_right (by omega) (Int.natCast_nonneg size)
    rw [Int.add_mul, Int.one_mul] at hle
    exact ⟨Int.mul_nonneg (Int.natCast_nonneg i) (Int.natCast_nonneg size), hle⟩
  have hrows : ∀ j k : Nat, j < k → (j : Int) * pitch + pitch ≤ (k : Int) * pitch := by
    intro j k hjk
    have hle : ((j : Int) + 1) * pitch ≤ (k : Int) * pitch :=
      Int.mul_le_mul_of_nonneg_right (by omega) (by omega)
    rwa [Int.add_mul, Int.one_mul] at hle
  -- the rows before row `k` are done, the rows from it on are as they were
  have hrun := forLoop_inv (n := h) (s := mem)
    (f := fun j mem => mapCells size p ((j : Int) * pitch) w mem)
    (P := fun k m => ∀ j i : Nat, i < w →
      loadCells m ((j : Int) * pitch + (i : Int) * size) size =
        if j < k then p (loadCells mem ((j : Int) * pitch + (i : Int) * size) size)
        else loadCells mem ((j : Int) * pitch + (i : Int) * size) size)
    (fun j i _ => (if_neg (Nat.not_lt_zero j)).symm) ?_
  · rw [mapRows, hrun j i hi, if_pos hj]
  · rintro k m - hm j i hi
    have hin := hwidth i hi
    by_cases hjk : j = k
    · subst hjk
      rw [mapCells_load hp _ m hi, hm j i hi, if_neg (Nat.lt_irrefl j), if_pos (Nat.lt_succ_self j)]
    · have hsame : loadCells (mapCells size p ((k : Int) * pitch) w m)
          ((j : Int) * pitch + (i : Int) * size) size =
          loadCells m ((j : Int) * pitch + (i : Int) * size) size := by
        refine loadCells_congr fun c hc => mapCells_out hp m ?_
        rcases Nat.lt_or_gt_of_ne hjk with hlt | hgt
        · have hle := hrows j k hlt
          exact .inl (by omega)
        · have hle := hrows k j hgt
          exact .inr (by omega)
      rw [hsame, hm j i hi]
      have hiff : j < k + 1 ↔ j < k := by omega
      simp only [hiff]

end Map

section Fill

variable {α : Type*} (pitch n : Int) (h : Nat) (f : Nat → Int → α) (mem : Int → α)

/-- A loop that writes `n` cells of each of `h` rows, which are `pitch` cells apart. -/
def fillRows : Int → α := forLoop h (fun j mem => fill mem ((j : Int) * pitch) n (f j)) mem

variable {pitch n h f mem}

theorem fillRows_in (hpitch : n ≤ pitch) {j : Nat} {k : Int} (hj : j < h) (h0 : 0 ≤ k) (h1 : k < n) :
    fillRows pitch n h f mem ((j : Int) * pitch + k) = f j k := by
  have hrows : ∀ j k : Nat, j < k → (j : Int) * pitch + pitch ≤ (k : Int) * pitch := by
    intro j k hjk
    have hle : ((j : Int) + 1) * pitch ≤ (k : Int) * pitch :=
      Int.mul_le_mul_of_nonneg_right (by omega) (by omega)
    rwa [Int.add_mul, Int.one_mul] at hle
  refine forLoop_inv (n := h) (s := mem) (P := fun i m => ∀ j < i, m ((j : Int) * pitch + k) = f j k)
    (fun j hj => absurd hj (Nat.not_lt_zero j)) ?_ j hj
  rintro i m - hm j hj
  rcases Nat.lt_succ_iff_lt_or_eq.mp hj with hlt | rfl
  · have hle := hrows j i hlt
    rw [fill_out (by omega)]
    exact hm j hlt
  · rw [fill_in (by omega) (by omega), show (j : Int) * pitch + k - (j : Int) * pitch = k by omega]

end Fill

end Lib
