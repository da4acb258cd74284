import Mathlib.Algebra.BigOperators.Group.Finset.Basic
import Mathlib.Algebra.Order.BigOperators.Group.Finset
import ObZrv.Bitmap.BoxFilter
import ObZrv.Lib.Reciprocal

/-!
# Bitmap.BoxAverage

The sums that the box prefilter keeps in 32 bits, and its division by a reciprocal of 22 bits, next
to the averages they stand for.

* `blockSum_toNat`     : a sum is the true one modulo 2^32.
* `boxAt_channel_iff`  : when a channel of a pixel is the true average.
* `box_average_iff`    : the same for the prefiltered bitmap, each pixel of which is made from a whole
  block, and for images of one colour.
* `box_exact_iff`      : the blocks that are exact for every image.
* `white_turns_grey`   : a white picture that is not white after the prefilter.
-/

namespace ObZrv

open Lib

/-- Channel `k` of a pixel. -/
def channelOf (p : UInt32) (k : Nat) : Nat := ((p >>> shiftOf k) &&& byteMask).toNat

section

variable (src : Pixmap) (nx ny : Int) (v : Window)

/-- The true sum of channel `k` over the first `rows` rows of a block. -/
def blockTotal (ix iy : Int) (rows k : Nat) : Nat :=
  ∑ r ∈ Finset.range rows, ∑ t ∈ Finset.range nx.toNat,
    channelOf (src.card (ix * nx + t) (iy * ny + r)) k

/-- No sum wraps, and `out` has the average of the block in channel `k`. -/
def Averages (ix iy : Int) (k : Nat) (out : UInt32) : Prop :=
  (∀ rows ≤ ny.toNat, (blockSum src nx ny ix iy rows k).toNat = blockTotal src nx ny ix iy rows k) ∧
    channelOf out k = blockTotal src nx ny ix iy ny.toNat k / (nx * ny).toNat

/-- The remainder of the sum makes up for what the reciprocal of 22 bits loses. -/
def RecipExact (ix iy : Int) (k : Nat) : Prop :=
  blockTotal src nx ny ix iy ny.toNat k / (nx * ny).toNat * (4194304 % (nx * ny).toNat) ≤
    blockTotal src nx ny ix iy ny.toNat k % (nx * ny).toNat * (4194304 / (nx * ny).toNat)

/-- A sub-region of the grid of whole blocks. -/
structure Window.InGrid : Prop where
  nx_pos : 1 ≤ nx
  ny_pos : 1 ≤ ny
  ixMin : 0 ≤ v.ixMin
  iyMin : 0 ≤ v.iyMin
  ix : v.ixMin ≤ v.ixMax
  iy : v.iyMin ≤ v.iyMax
  ixMax : v.ixMax < src.w / nx
  iyMax : v.iyMax < src.h / ny

end

/-! ## Channels -/

theorem channelOf_le (p : UInt32) (k : Nat) : channelOf p k ≤ 255 := by
  rw [channelOf, UInt32.toNat_and]
  exact Nat.and_le_right

theorem channelOf_eq (p : UInt32) {k : Nat} (hk : k < 4) :
    channelOf p k = p.toNat / 2 ^ (8 * k) % 256 := by
  have hshift : (shiftOf k).toNat = 8 * k := by
    rw [shiftOf, UInt32.toNat_ofNat']
    omega
  have hmask : ∀ x : Nat, x &&& byteMask.toNat = x % 256 := fun x => Nat.and_two_pow_sub_one_eq_mod x 8
  rw [channelOf, UInt32.toNat_and, UInt32.toNat_shiftRight, hshift, hmask,
    Nat.mod_eq_of_lt (show 8 * k < 32 by omega), Nat.shiftRight_eq_div_pow]

/-- A pixel is its four channels. -/
theorem eq_of_channels {p q : UInt32} (h : ∀ k < 4, channelOf p k = channelOf q k) : p = q := by
  have h0 := h 0 (by omega)
  have h1 := h 1 (by omega)
  have h2 := h 2 (by omega)
  have h3 := h 3 (by omega)
  rw [channelOf_eq p (by omega), channelOf_eq q (by omega)] at h0 h1 h2 h3
  have hp := p.toNat_lt
  have hq := q.toNat_lt
  refine UInt32.toNat_inj.mp ?_
  omega

theorem two_pow_or {i x y : Nat} (hy : y < 2 ^ i) : x * 2 ^ i ||| y = x * 2 ^ i + y := by
  rw [← Nat.shiftLeft_eq, Nat.shiftLeft_add_eq_or_of_lt hy]

/-- Four bytes, shifted into their places. -/
theorem pack_toNat {a b c d : UInt32} (ha : a.toNat < 256) (hb : b.toNat < 256) (hc : c.toNat < 256)
    (hd : d.toNat < 256) :
    ((a <<< 24) ||| (b <<< 16) ||| (c <<< 8) ||| d).toNat =
      a.toNat * 16777216 + b.toNat * 65536 + c.toNat * 256 + d.toNat := by
  have hshift : ∀ (x n : UInt32) (m : Nat), n.toNat = m → m < 32 → x.toNat * 2 ^ m < 4294967296 →
      (x <<< n).toNat = x.toNat * 2 ^ m := by
    intro x n m hn hm hlt
    rw [UInt32.toNat_shiftLeft, hn, Nat.mod_eq_of_lt hm, Nat.shiftLeft_eq,
      Nat.mod_eq_of_lt hlt]
  rw [UInt32.toNat_or, UInt32.toNat_or, UInt32.toNat_or, hshift a 24 24 rfl (by omega) (by omega),
    hshift b 16 16 rfl (by omega) (by omega), hshift c 8 8 rfl (by omega) (by omega),
    two_pow_or (i := 24) (by omega),
    show a.toNat * 2 ^ 24 + b.toNat * 2 ^ 16 = (a.toNat * 256 + b.toNat) * 2 ^ 16 by omega,
    two_pow_or (i := 16) (by omega),
    show (a.toNat * 256 + b.toNat) * 2 ^ 16 + c.toNat * 2 ^ 8 =
      ((a.toNat * 256 + b.toNat) * 256 + c.toNat) * 2 ^ 8 by omega,
    two_pow_or (i := 8) (by omega)]
  omega

theorem packBox_channel {recip : Nat} {sum : Nat → UInt32}
    (h : ∀ k < 4, (sum k).toNat * recip / 4194304 < 256) {k : Nat} (hk : k < 4) :
    channelOf (packBox recip sum) k = (sum k).toNat * recip / 4194304 := by
  have havg : ∀ j < 4, (UInt32.ofNat ((sum j).toNat * recip / 4194304)).toNat =
      (sum j).toNat * recip / 4194304 := by
    intro j hj
    rw [UInt32.toNat_ofNat']
    have := h j hj
    omega
  have hlt : ∀ j < 4, (UInt32.ofNat ((sum j).toNat * recip / 4194304)).toNat < 256 := by
    intro j hj
    rw [havg j hj]
    exact h j hj
  have h0 := hlt 0 (by omega)
  have h1 := hlt 1 (by omega)
  have h2 := hlt 2 (by omega)
  have h3 := hlt 3 (by omega)
  rw [← havg k hk, channelOf_eq _ hk, packBox]
  simp only
  rw [pack_toNat h3 h2 h1 h0]
  match k, hk with
  | 0, _ => omega
  | 1, _ => omega
  | 2, _ => omega
  | 3, _ => omega

/-! ## The sums -/

theorem forLoop_sum_toNat (n : Nat) (f : Nat → UInt32) :
    (forLoop n (fun t sum => sum + f t) 0).toNat =
      (∑ t ∈ Finset.range n, (f t).toNat) % 4294967296 := by
  induction n with
  | zero => rfl
  | succ n ih =>
    rw [forLoop, UInt32.toNat_add, ih, Finset.sum_range_succ]
    exact Nat.mod_add_mod _ _ _

section Sums

variable {src : Pixmap} {nx ny : Int} {v : Window} {ix iy : Int} {k : Nat}

theorem blockSum_toNat (src : Pixmap) (nx ny ix iy : Int) (rows k : Nat) :
    (blockSum src nx ny ix iy rows k).toNat = blockTotal src nx ny ix iy rows k % 4294967296 := by
  rw [blockSum, forLoop_sum_toNat, blockTotal]
  simp only [rowSum, forLoop_sum_toNat]
  rw [← Finset.sum_nat_mod]
  rfl

theorem blockTotal_le (src : Pixmap) (nx ny ix iy : Int) (rows k : Nat) :
    blockTotal src nx ny ix iy rows k ≤ rows * (nx.toNat * 255) := by
  have hrow : ∀ r ∈ Finset.range rows, ∑ t ∈ Finset.range nx.toNat,
      channelOf (src.card (ix * nx + t) (iy * ny + r)) k ≤ nx.toNat * 255 := by
    intro r _
    have h := Finset.sum_le_card_nsmul (Finset.range nx.toNat) _ 255
      fun t _ => channelOf_le (src.card (ix * nx + t) (iy * ny + r)) k
    rw [Finset.card_range] at h
    exact h
  have h := Finset.sum_le_card_nsmul (Finset.range rows) _ _ hrow
  rw [Finset.card_range] at h
  exact h

theorem blockTotal_mono {rows rows' : Nat} (h : rows ≤ rows') :
    blockTotal src nx ny ix iy rows k ≤ blockTotal src nx ny ix iy rows' k :=
  Finset.sum_le_sum_of_subset (Finset.range_subset_range.mpr h)

theorem count_pos (hnx : 1 ≤ nx) (hny : 1 ≤ ny) : 0 < (nx * ny).toNat := by
  have := Int.mul_pos (show 0 < nx by omega) (show 0 < ny by omega)
  omega

theorem total_le (src : Pixmap) (hnx : 1 ≤ nx) (hny : 1 ≤ ny) (ix iy : Int) (k : Nat) :
    blockTotal src nx ny ix iy ny.toNat k ≤ (nx * ny).toNat * 255 := by
  have h := blockTotal_le src nx ny ix iy ny.toNat k
  rw [← Nat.mul_assoc, Nat.mul_comm ny.toNat] at h
  rwa [Int.toNat_mul (by omega) (by omega)]

/-- The reciprocal of a block of more than 2^22 pixels is 0; no other block has a sum that wraps. -/
theorem no_wrap_of_le (hnx : 1 ≤ nx) (hny : 1 ≤ ny) (hsmall : (nx * ny).toNat ≤ 4194304) :
    blockTotal src nx ny ix iy ny.toNat k < 4294967296 := by
  have hle := total_le src hnx hny ix iy k
  omega

theorem recipExact_of_gt (hbig : 4194304 < (nx * ny).toNat) :
    RecipExact src nx ny ix iy k ↔ blockTotal src nx ny ix iy ny.toNat k / (nx * ny).toNat = 0 := by
  rw [RecipExact, Nat.div_eq_of_lt hbig, Nat.mod_eq_of_lt hbig, Nat.mul_zero]
  omega

/-- Where the reciprocal is exact the sum has not wrapped. -/
theorem RecipExact.no_wrap (hnx : 1 ≤ nx) (hny : 1 ≤ ny) (hcount : (nx * ny).toNat ≤ 4294967296)
    (h : RecipExact src nx ny ix iy k) :
    blockTotal src nx ny ix iy ny.toNat k < 4294967296 := by
  rcases Nat.lt_or_ge 4194304 (nx * ny).toNat with hbig | hsmall
  · have hlt := (Nat.div_eq_zero_iff_lt (by omega)).mp ((recipExact_of_gt hbig).mp h)
    omega
  · exact no_wrap_of_le hnx hny hsmall

/-- A channel of a prefiltered pixel. -/
theorem boxAt_channel (hnx : 1 ≤ nx) (hny : 1 ≤ ny) (hk : k < 4) :
    channelOf (boxAt src nx ny ix iy) k =
      blockTotal src nx ny ix iy ny.toNat k % 4294967296 * (4194304 / (nx * ny).toNat) / 4194304 := by
  have hpos := count_pos hnx hny
  rw [boxAt, packBox_channel ?_ hk, blockSum_toNat]
  intro j hj
  rw [blockSum_toNat]
  have hle := recip_div_le (blockTotal src nx ny ix iy ny.toNat j % 4294967296) 4194304 hpos
  have hmod := Nat.div_le_div_right (c := (nx * ny).toNat)
    (Nat.mod_le (blockTotal src nx ny ix iy ny.toNat j) 4294967296)
  have hbyte : blockTotal src nx ny ix iy ny.toNat j / (nx * ny).toNat ≤ 255 :=
    Nat.div_le_of_le_mul (total_le src hnx hny ix iy j)
  omega

/-- **A channel is the true average** exactly when the reciprocal is exact for its sum. -/
theorem boxAt_channel_iff (hnx : 1 ≤ nx) (hny : 1 ≤ ny) (hk : k < 4) :
    channelOf (boxAt src nx ny ix iy) k =
        blockTotal src nx ny ix iy ny.toNat k / (nx * ny).toNat ↔
      RecipExact src nx ny ix iy k := by
  have hpos := count_pos hnx hny
  rw [boxAt_channel hnx hny hk]
  rcases Nat.lt_or_ge 4194304 (nx * ny).toNat with hbig | hsmall
  · rw [recipExact_of_gt hbig, Nat.div_eq_of_lt hbig, Nat.mul_zero, Nat.zero_div]
    exact eq_comm
  · rw [Nat.mod_eq_of_lt (no_wrap_of_le hnx hny hsmall)]
    exact recip_div_eq_iff hpos (by omega)

theorem averages_boxAt_iff (hnx : 1 ≤ nx) (hny : 1 ≤ ny) (hcount : (nx * ny).toNat ≤ 4294967296)
    (hk : k < 4) :
    Averages src nx ny ix iy k (boxAt src nx ny ix iy) ↔ RecipExact src nx ny ix iy k := by
  constructor
  · intro h
    exact (boxAt_channel_iff hnx hny hk).mp h.2
  · intro h
    refine ⟨?_, (boxAt_channel_iff hnx hny hk).mpr h⟩
    intro rows hrows
    have hlt := h.no_wrap hnx hny hcount
    rw [blockSum_toNat]
    exact Nat.mod_eq_of_lt (Nat.lt_of_le_of_lt (blockTotal_mono hrows) hlt)

/-! ## Images of one colour -/

/-- All pixels of a block have the colour `c`. -/
def OneColour (src : Pixmap) (nx ny ix iy : Int) (c : UInt32) : Prop :=
  ∀ x y, ix * nx ≤ x → x < (ix + 1) * nx → iy * ny ≤ y → y < (iy + 1) * ny → src.card x y = c

theorem OneColour.total {c : UInt32} (h : OneColour src nx ny ix iy c) (hnx : 1 ≤ nx)
    (hny : 1 ≤ ny) (k : Nat) :
    blockTotal src nx ny ix iy ny.toNat k = channelOf c k * (nx * ny).toNat := by
  have hpixel : ∀ r ∈ Finset.range ny.toNat, ∀ t ∈ Finset.range nx.toNat,
      channelOf (src.card (ix * nx + t) (iy * ny + r)) k = channelOf c k := by
    intro r hr t ht
    have hr' := Finset.mem_range.mp hr
    have ht' := Finset.mem_range.mp ht
    rw [h (ix * nx + t) (iy * ny + r) (by omega) (by rw [Int.add_mul]; omega) (by omega)
      (by rw [Int.add_mul]; omega)]
  rw [blockTotal, Finset.sum_congr rfl fun r hr => Finset.sum_congr rfl (hpixel r hr),
    Finset.sum_const, Finset.sum_const, Finset.card_range, Finset.card_range,
    Int.toNat_mul (by omega) (by omega)]
  change ny.toNat * (nx.toNat * channelOf c k) = _
  ring

/-- **A colour stays** exactly when the number of pixels of a block divides 2^22, or it is 0. -/
theorem boxAt_colour_iff {c : UInt32} (h : OneColour src nx ny ix iy c) (hnx : 1 ≤ nx)
    (hny : 1 ≤ ny) :
    boxAt src nx ny ix iy = c ↔ c = 0 ∨ (nx * ny).toNat ∣ 4194304 := by
  have hpos := count_pos hnx hny
  have hzero : ∀ k < 4, channelOf 0 k = 0 := by
    intro k hk
    rw [channelOf_eq 0 hk, UInt32.toNat_zero, Nat.zero_div]
  have hchannel : ∀ k < 4, channelOf (boxAt src nx ny ix iy) k = channelOf c k ↔
      channelOf c k = 0 ∨ (nx * ny).toNat ∣ 4194304 := by
    intro k hk
    have hiff : channelOf (boxAt src nx ny ix iy) k = _ ↔ _ := boxAt_channel_iff hnx hny hk
    rw [RecipExact, h.total hnx hny k, recip_exact_iff hpos, Nat.mul_div_cancel _ hpos] at hiff
    exact hiff
  constructor
  · intro heq
    by_cases hdvd : (nx * ny).toNat ∣ 4194304
    · exact .inr hdvd
    refine .inl (eq_of_channels fun k hk => ?_)
    rw [hzero k hk]
    exact ((hchannel k hk).mp (by rw [heq])).resolve_right hdvd
  · intro hc
    refine eq_of_channels fun k hk => (hchannel k hk).mpr ?_
    rcases hc with rfl | hdvd
    · exact .inl (hzero k hk)
    · exact .inr hdvd

end Sums

/-! ## The prefiltered bitmap -/

section Filter

variable {src : Pixmap} {nx ny : Int} {v : Window}

theorem Window.InGrid.in (hv : v.InGrid src nx ny) : v.In src nx ny where
  nx_pos := hv.nx_pos
  ny_pos := hv.ny_pos
  ixMin := hv.ixMin
  iyMin := hv.iyMin
  ix := hv.ix
  iy := hv.iy
  right := (Int.le_ediv_iff_mul_le (by have := hv.nx_pos; omega)).mp hv.ixMax
  bottom := (Int.le_ediv_iff_mul_le (by have := hv.ny_pos; omega)).mp hv.iyMax

/-- A block has less than 2^32 pixels. -/
theorem Window.InGrid.count_le (hv : v.InGrid src nx ny) (hw : src.w ≤ 32766) (hh : src.h ≤ 32766) :
    (nx * ny).toNat ≤ 4294967296 := by
  have hin := hv.in
  have hnx : nx ≤ 32766 := by
    have h := Int.mul_le_mul_of_nonneg_right
      (show 1 ≤ v.ixMax + 1 by have := hv.ixMin; have := hv.ix; omega)
      (show 0 ≤ nx by have := hv.nx_pos; omega)
    have := hin.right
    omega
  have hny : ny ≤ 32766 := by
    have h := Int.mul_le_mul_of_nonneg_right
      (show 1 ≤ v.iyMax + 1 by have := hv.iyMin; have := hv.iy; omega)
      (show 0 ≤ ny by have := hv.ny_pos; omega)
    have := hin.bottom
    omega
  have h := Int.mul_le_mul hnx hny (by have := hv.ny_pos; omega) (by omega)
  omega

/-- A pixel of the window is made from a block that lies in the image. -/
theorem Window.In.block (hv : v.In src nx ny) {ix iy : Int} (hx0 : 0 ≤ ix) (hx : ix < v.subW)
    (hy0 : 0 ≤ iy) (hy : iy < v.subH) :
    0 ≤ (v.ixMin + ix) * nx ∧ (v.ixMin + ix + 1) * nx ≤ src.w ∧
      0 ≤ (v.iyMin + iy) * ny ∧ (v.iyMin + iy + 1) * ny ≤ src.h := by
  have hnx : 0 ≤ nx := by
    have := hv.nx_pos
    omega
  have hny : 0 ≤ ny := by
    have := hv.ny_pos
    omega
  have hx0' := hv.ixMin
  have hy0' := hv.iyMin
  unfold Window.subW at hx
  unfold Window.subH at hy
  refine ⟨Int.mul_nonneg (by omega) hnx, ?_, Int.mul_nonneg (by omega) hny, ?_⟩
  · exact Int.le_trans (Int.mul_le_mul_of_nonneg_right (by omega) hnx) hv.right
  · exact Int.le_trans (Int.mul_le_mul_of_nonneg_right (by omega) hny) hv.bottom

/-- **The prefiltered bitmap.** Every pixel of the window is written, from a whole block in the
image. A channel of it is the true average, and no sum wraps, exactly when the reciprocal is exact
for the sum of the block. A block of one colour keeps it exactly when its number of pixels divides
2^22 or the colour is 0. -/
theorem box_average_iff (hv : v.InGrid src nx ny) (hw : src.w ≤ 32766) (hh : src.h ≤ 32766)
    {ix iy : Int} (hx0 : 0 ≤ ix) (hx : ix < v.subW) (hy0 : 0 ≤ iy) (hy : iy < v.subH)
    (junk : Int → Int → UInt32) :
    let out := (boxFilter src nx ny v junk).card ix iy
    (0 ≤ (v.ixMin + ix) * nx ∧ (v.ixMin + ix + 1) * nx ≤ src.w ∧
      0 ≤ (v.iyMin + iy) * ny ∧ (v.iyMin + iy + 1) * ny ≤ src.h) ∧
    out = boxAt src nx ny (v.ixMin + ix) (v.iyMin + iy) ∧
    (∀ k < 4, Averages src nx ny (v.ixMin + ix) (v.iyMin + iy) k out ↔
      RecipExact src nx ny (v.ixMin + ix) (v.iyMin + iy) k) ∧
    ∀ c, OneColour src nx ny (v.ixMin + ix) (v.iyMin + iy) c →
      (out = c ↔ c = 0 ∨ (nx * ny).toNat ∣ 4194304) := by
  intro out
  have hout : out = boxAt src nx ny (v.ixMin + ix) (v.iyMin + iy) :=
    boxFilter_card hv.in hx0 hx hy0 hy
  refine ⟨hv.in.block hx0 hx hy0 hy, hout, ?_, ?_⟩
  · intro k hk
    rw [hout]
    exact averages_boxAt_iff hv.nx_pos hv.ny_pos (hv.count_le hw hh) hk
  · intro c hc
    rw [hout]
    exact boxAt_colour_iff hc hv.nx_pos hv.ny_pos

theorem box_average_iff_three :
    let src : Pixmap := ⟨2, 1, .A8R8G8B8, fun x _ => if x = 0 then 0xff010203 else 0xff030405⟩
    let v : Window := ⟨0, 0, 0, 0⟩
    ∀ k < 4, Averages src 2 1 (0 + 0) (0 + 0) k ((boxFilter src 2 1 v fun _ _ => 0).card 0 0) := by
  intro src v k hk
  have hv : v.InGrid src 2 1 := by constructor <;> decide
  obtain ⟨-, -, hiff, -⟩ := box_average_iff hv (by decide) (by decide) (Int.le_refl 0) (by decide)
    (Int.le_refl 0) (by decide) fun _ _ => 0
  refine (hiff k hk).mpr ?_
  -- 2 divides 2^22
  exact Nat.zero_le _

/-- **Blocks that are exact for every image** are those whose number of pixels divides 2^22. -/
theorem box_exact_iff (src : Pixmap) (hv : v.InGrid src nx ny) (hw : src.w ≤ 32766)
    (hh : src.h ≤ 32766) (junk : Int → Int → UInt32) :
    (∀ card, ∀ ix iy, 0 ≤ ix → ix < v.subW → 0 ≤ iy → iy < v.subH → ∀ k < 4,
      Averages { src with card } nx ny (v.ixMin + ix) (v.iyMin + iy) k
        ((boxFilter { src with card } nx ny v junk).card ix iy)) ↔
      (nx * ny).toNat ∣ 4194304 := by
  have hin : ∀ card, v.In { src with card } nx ny := by
    intro card
    obtain ⟨hnx, hny, hx0, hy0, hx, hy, hright, hbottom⟩ := hv.in
    exact ⟨hnx, hny, hx0, hy0, hx, hy, hright, hbottom⟩
  have hcount := hv.count_le hw hh
  constructor
  · intro h
    have hsub : 0 < v.subW ∧ 0 < v.subH := by
      have := hv.ix
      have := hv.iy
      unfold Window.subW Window.subH
      omega
    have hwhite := h (fun _ _ => 0xffffffff) 0 0 (Int.le_refl 0) hsub.1 (Int.le_refl 0) hsub.2 0
      (by omega)
    have hone : OneColour { src with card := fun _ _ => 0xffffffff } nx ny (v.ixMin + 0)
        (v.iyMin + 0) 0xffffffff := fun _ _ _ _ _ _ => rfl
    rw [boxFilter_card (hin _) (Int.le_refl 0) hsub.1 (Int.le_refl 0) hsub.2,
      averages_boxAt_iff hv.nx_pos hv.ny_pos hcount (by omega), RecipExact,
      hone.total hv.nx_pos hv.ny_pos 0, recip_exact_iff (count_pos hv.nx_pos hv.ny_pos)] at hwhite
    exact hwhite.resolve_left (by decide)
  · intro hdvd card ix iy hx0 hx hy0 hy k hk
    rw [boxFilter_card (hin card) hx0 hx hy0 hy, averages_boxAt_iff hv.nx_pos hv.ny_pos hcount hk,
      RecipExact, Nat.mod_eq_zero_of_dvd hdvd, Nat.mul_zero]
    exact Nat.zero_le _

end Filter

/-- A white picture of 50 by 50 pixels. -/
def whitePicture : Pixmap := ⟨50, 50, .A8R8G8B8, fun _ _ => 0xffffffff⟩

/-- Scaled down to 10 by 10, it is averaged in blocks of 3 by 3 (`50 * 0.6 / 10` rounded); all
channels of the prefiltered pixels are 254. -/
theorem white_turns_grey :
    let v : Window := ⟨0, 15, 0, 15⟩
    v.InGrid whitePicture 3 3 ∧
      (boxFilter whitePicture 3 3 v fun _ _ => 0).card 0 0 = 0xfefefefe ∧
      blockTotal whitePicture 3 3 0 0 3 0 / 9 = 255 ∧
      ¬ Averages whitePicture 3 3 0 0 0 ((boxFilter whitePicture 3 3 v fun _ _ => 0).card 0 0) := by
  intro v
  have hv : v.InGrid whitePicture 3 3 := by constructor <;> decide
  have hout : (boxFilter whitePicture 3 3 v fun _ _ => 0).card 0 0 = 0xfefefefe := by
    rw [boxFilter_card hv.in (Int.le_refl 0) (by decide) (Int.le_refl 0) (by decide)]
    decide
  have htotal : blockTotal whitePicture 3 3 0 0 3 0 / 9 = 255 := by decide
  refine ⟨hv, hout, htotal, ?_⟩
  rintro ⟨-, h⟩
  rw [hout] at h
  exact absurd (h.trans htotal) (by decide)

end ObZrv
