import ObZrv.Bitmap.BoxAverage
import ObZrv.Lib.Sse2

/-!
# Bitmap.BlendColor

`BasicBitmap::BlendColor` on a row of 32-bit pixels: they are blended with one colour, which is
given split into red and blue, and alpha and green.

* `blendColorPixel_toNat` : the three cases of the loop are one formula.
* `toNat_lane_mixLanes`   : the SSE2 code computes it without saturation.
* `blendColorRowSse2_eq`  : the SSE2 row is the row of the loop.
-/

namespace ObZrv

open Lib Lib.M128

/-- `_pixel_fast_div_255`. -/
def pixelFastDiv255 (x : UInt32) : UInt32 := (x + ((x + 257) >>> 8)) >>> 8

/-- One pixel of `BlendColorRow_Default`. -/
def blendColorPixel (bgRb bgAg c : UInt32) : UInt32 :=
  let bgR := (bgRb >>> 16) &&& byteMask
  let bgG := bgAg &&& byteMask
  let bgB := bgRb &&& byteMask
  let sa := c >>> 24
  if sa = 0 then (0xff000000 : UInt32) ||| (bgR <<< 16) ||| (bgG <<< 8) ||| bgB
  else if sa < 255 then
    let invSa := 255 - sa
    let dr := pixelFastDiv255 (((c >>> 16) &&& byteMask) * sa + bgR * invSa)
    let dg := pixelFastDiv255 (((c >>> 8) &&& byteMask) * sa + bgG * invSa)
    let db := pixelFastDiv255 ((c &&& byteMask) * sa + bgB * invSa)
    (0xff000000 : UInt32) ||| (dr <<< 16) ||| (dg <<< 8) ||| db
  else c ||| (0xff000000 : UInt32)

/-- `BlendColorRow_Default`. -/
def blendColorRowDefault (bgRb bgAg : UInt32) (w : Int) (pixels : Int → UInt32) : Int → UInt32 :=
  forLoop w.toNat
    (fun i pixels => Function.update pixels (i : Int) (blendColorPixel bgRb bgAg (pixels (i : Int))))
    pixels

/-- `_mm_fast_div_255_epu16`. `BasicBitmap_SSE2_Init_Const` has set the masks before any of these
routines is installed. -/
def fastDiv255Epu16 (x : M128) : M128 :=
  srliEpi16 (addsEpu16 x (srliEpi16 (addsEpu16 x (set1Epi16 0x0101)) 8)) 8

/-- `_mm_expand_alpha`. -/
def expandAlpha (color : M128) : M128 :=
  let alpha := srliEpi32 color 24
  slliEpi32 alpha 16 ||| alpha

/-- `_mm_pixel_rb` and `_mm_pixel_ag`. -/
def pixelRb (color : M128) : M128 := color &&& set1Epi16 0x00ff
def pixelAg (color : M128) : M128 := srliEpi16 color 8

/-- Four pixels of `BlendColorRow_SSE2`. -/
def blendColorQuad (bgRb bgAg : UInt32) (src : M128) : M128 :=
  let alpha := expandAlpha src
  let invAlpha := subsEpu8 (set1Epi16 0x00ff) alpha
  let resRb := addsEpu16 (mulloEpi16 (pixelRb src) alpha)
    (mulloEpi16 (set1Epi32 bgRb.toBitVec) invAlpha)
  let resAg := addsEpu16 (mulloEpi16 (pixelAg src) alpha)
    (mulloEpi16 (set1Epi32 bgAg.toBitVec) invAlpha)
  let result := slliEpi32 (fastDiv255Epu16 resAg) 8 ||| fastDiv255Epu16 resRb
  result ||| set1Epi32 0xff000000

/-- `BlendColorRow_SSE2`. -/
def blendColorRowSse2 (bgRb bgAg : UInt32) (w : Int) (pixels : Int → UInt32) : Int → UInt32 :=
  let n := w.toNat
  let pixels := forLoop (n / 4) (fun q pixels =>
    storeuSi128 pixels ((4 * q : Nat) : Int)
      (blendColorQuad bgRb bgAg (loaduSi128 pixels ((4 * q : Nat) : Int)))) pixels
  -- the scalar tail is the loop of `BlendColorRow_Default`
  forLoop (n % 4) (fun t pixels =>
    let i : Int := ((4 * (n / 4) + t : Nat) : Int)
    Function.update pixels i (blendColorPixel bgRb bgAg (pixels i))) pixels

/-! ## The loop -/

def fastDiv255 (x : Nat) : Nat := (x + (x + 257) / 256) / 256

/-- A channel of the source and one of the background, mixed by the alpha of the source. -/
def mix (sa s bg : Nat) : Nat := fastDiv255 (s * sa + bg * (255 - sa))

theorem mix_sum_le {sa s bg : Nat} (hsa : sa ≤ 255) (hs : s ≤ 255) (hbg : bg ≤ 255) :
    s * sa + bg * (255 - sa) ≤ 65025 := by
  have h1 := Nat.mul_le_mul_right sa hs
  have h2 := Nat.mul_le_mul_right (255 - sa) hbg
  omega

theorem mix_lt {sa s bg : Nat} (hsa : sa ≤ 255) (hs : s ≤ 255) (hbg : bg ≤ 255) :
    mix sa s bg < 256 := by
  have hsum := mix_sum_le hsa hs hbg
  unfold mix fastDiv255
  omega

/-- A transparent pixel becomes the background. -/
theorem mix_zero {s bg : Nat} (hbg : bg ≤ 255) : mix 0 s bg = bg := by
  unfold mix fastDiv255
  omega

/-- An opaque pixel stays. -/
theorem mix_full {s bg : Nat} (hs : s ≤ 255) : mix 255 s bg = s := by
  unfold mix fastDiv255
  omega

theorem pixelFastDiv255_toNat {sa s bg : UInt32} (hsa : sa.toNat ≤ 255) (hs : s.toNat ≤ 255)
    (hbg : bg.toNat ≤ 255) :
    (pixelFastDiv255 (s * sa + bg * (255 - sa))).toNat = mix sa.toNat s.toNat bg.toNat := by
  have hsum := mix_sum_le hsa hs hbg
  have hinv : (255 - sa).toNat = 255 - sa.toNat := UInt32.toNat_sub_of_le _ _ hsa
  have hx : (s * sa + bg * (255 - sa)).toNat =
      s.toNat * sa.toNat + bg.toNat * (255 - sa.toNat) := by
    rw [UInt32.toNat_add, UInt32.toNat_mul, UInt32.toNat_mul, hinv]
    omega
  have hdiv : ∀ y : UInt32, (y >>> 8).toNat = y.toNat / 256 := by
    intro y
    rw [UInt32.toNat_shiftRight]
    exact Nat.shiftRight_eq_div_pow _ 8
  have h257 : (257 : UInt32).toNat = 257 := rfl
  generalize s * sa + bg * (255 - sa) = x at hx
  rw [pixelFastDiv255, hdiv, UInt32.toNat_add, hdiv, UInt32.toNat_add, h257, hx, mix, fastDiv255]
  omega

/-- The pixel made of three mixed channels. -/
def mixed (bgR bgG bgB : Nat) (c : UInt32) : Nat :=
  255 * 16777216 + mix (channelOf c 3) (channelOf c 2) bgR * 65536 +
    mix (channelOf c 3) (channelOf c 1) bgG * 256 + mix (channelOf c 3) (channelOf c 0) bgB

theorem mixed_zero {bgR bgG bgB : Nat} {c : UInt32} (hr : bgR ≤ 255) (hg : bgG ≤ 255)
    (hb : bgB ≤ 255) (hsa : channelOf c 3 = 0) :
    mixed bgR bgG bgB c = 255 * 16777216 + bgR * 65536 + bgG * 256 + bgB := by
  rw [mixed, hsa, mix_zero hr, mix_zero hg, mix_zero hb]

theorem mixed_full {bgR bgG bgB : Nat} {c : UInt32} (hsa : channelOf c 3 = 255) :
    mixed bgR bgG bgB c = c.toNat := by
  have hlt := c.toNat_lt
  rw [mixed, hsa, mix_full (channelOf_le c 2), mix_full (channelOf_le c 1),
    mix_full (channelOf_le c 0), channelOf_eq c (by omega), channelOf_eq c (by omega),
    channelOf_eq c (by omega)]
  rw [channelOf_eq c (by omega)] at hsa
  omega

theorem alpha_toNat (c : UInt32) : (c >>> 24).toNat = channelOf c 3 := by
  have hlt := c.toNat_lt
  rw [channelOf_eq c (by omega), UInt32.toNat_shiftRight]
  change c.toNat >>> 24 = c.toNat / 2 ^ 24 % 256
  rw [Nat.shiftRight_eq_div_pow]
  omega

theorem byteMask_toNat (x : UInt32) : (x &&& byteMask).toNat = channelOf x 0 := by
  rw [channelOf, show x >>> shiftOf 0 = x from UInt32.shiftRight_zero]

/-- Three bytes below an alpha of 255. -/
theorem pack_full_toNat {r g b : UInt32} (hr : r.toNat < 256) (hg : g.toNat < 256)
    (hb : b.toNat < 256) :
    ((0xff000000 : UInt32) ||| (r <<< 16) ||| (g <<< 8) ||| b).toNat =
      255 * 16777216 + r.toNat * 65536 + g.toNat * 256 + b.toNat :=
  pack_toNat (a := 255) (by decide) hr hg hb

/-- The alpha of a pixel forced to 255. -/
theorem or_full {a x : Nat} (ha : a < 256) (hx : x < 16777216) :
    (a * 16777216 + x) ||| 255 * 16777216 = 255 * 16777216 + x := by
  have hor : a ||| 255 = 255 :=
    Nat.le_antisymm (Nat.lt_succ_iff.mp (Nat.or_lt_two_pow (n := 8) ha (by omega))) Nat.right_le_or
  have halpha : a * 2 ^ 24 ||| 255 * 2 ^ 24 = 255 * 2 ^ 24 := by
    rw [← Nat.shiftLeft_eq, ← Nat.shiftLeft_eq, ← Nat.shiftLeft_or_distrib, hor]
  rw [show 16777216 = 2 ^ 24 from rfl, ← two_pow_or (i := 24) hx, ← two_pow_or (i := 24) hx,
    Nat.or_assoc, Nat.or_comm x, ← Nat.or_assoc, halpha]

theorem toNat_or_full {c : UInt32} (hsa : channelOf c 3 = 255) :
    (c ||| (0xff000000 : UInt32)).toNat = c.toNat := by
  have hlt := c.toNat_lt
  rw [channelOf_eq c (by omega)] at hsa
  have hc : c.toNat = 255 * 16777216 + c.toNat % 16777216 := by omega
  rw [UInt32.toNat_or, hc]
  exact or_full (by omega) (Nat.mod_lt _ (by omega))

/-- A mixed channel of a pixel that is neither transparent nor solid. -/
theorem pixelFastDiv255_channel {c s bg x : UInt32} {j k : Nat} (hs : s.toNat = channelOf c j)
    (hbg : bg.toNat = channelOf x k) :
    (pixelFastDiv255 (s * (c >>> 24) + bg * ((255 : UInt32) - (c >>> 24)))).toNat =
        mix (channelOf c 3) (channelOf c j) (channelOf x k) ∧
      mix (channelOf c 3) (channelOf c j) (channelOf x k) < 256 := by
  have hsa : (c >>> 24).toNat ≤ 255 := alpha_toNat c ▸ channelOf_le c 3
  refine ⟨?_, mix_lt (channelOf_le c 3) (channelOf_le c j) (channelOf_le x k)⟩
  rw [pixelFastDiv255_toNat hsa (hs ▸ channelOf_le c j) (hbg ▸ channelOf_le x k), alpha_toNat, hs,
    hbg]

/-- **The three cases of the loop** are one formula. -/
theorem blendColorPixel_toNat (bgRb bgAg c : UInt32) :
    (blendColorPixel bgRb bgAg c).toNat =
      mixed (channelOf bgRb 2) (channelOf bgAg 0) (channelOf bgRb 0) c := by
  have h2 : ∀ x : UInt32, ((x >>> 16) &&& byteMask).toNat = channelOf x 2 := fun _ => rfl
  have h1 : ∀ x : UInt32, ((x >>> 8) &&& byteMask).toNat = channelOf x 1 := fun _ => rfl
  unfold blendColorPixel
  simp only
  split
  · rename_i hzero
    have hsa : channelOf c 3 = 0 := by
      rw [← alpha_toNat, hzero]
      rfl
    have hbyte : ∀ (x : UInt32) (k : Nat), channelOf x k < 256 := fun x k =>
      Nat.lt_succ_of_le (channelOf_le x k)
    rw [mixed_zero (channelOf_le bgRb 2) (channelOf_le bgAg 0) (channelOf_le bgRb 0) hsa,
      pack_full_toNat (h2 bgRb ▸ hbyte bgRb 2) (byteMask_toNat bgAg ▸ hbyte bgAg 0)
        (byteMask_toNat bgRb ▸ hbyte bgRb 0), h2, byteMask_toNat, byteMask_toNat]
  · split
    · obtain ⟨hr, hrlt⟩ := pixelFastDiv255_channel (h2 c) (h2 bgRb)
      obtain ⟨hg, hglt⟩ := pixelFastDiv255_channel (h1 c) (byteMask_toNat bgAg)
      obtain ⟨hb, hblt⟩ := pixelFastDiv255_channel (byteMask_toNat c) (byteMask_toNat bgRb)
      rw [pack_full_toNat (hr ▸ hrlt) (hg ▸ hglt) (hb ▸ hblt), hr, hg, hb, mixed]
    · rename_i _ hfull
      have hsa : channelOf c 3 = 255 := by
        have hnot : ¬ (c >>> 24).toNat < 255 := hfull
        have hle := channelOf_le c 3
        rw [alpha_toNat] at hnot
        omega
      rw [mixed_full hsa, toNat_or_full hsa]

/-! ## Four pixels -/

theorem toNat_lane_half {x : M128} {p b : Nat} (hb : b < 2) :
    (lane 16 x (2 * p + b)).toNat = (lane 32 x p).toNat / 2 ^ (16 * b) % 65536 :=
  toNat_lane_part (by omega) hb x p

theorem toNat_lane_expandAlpha {src : M128} {p b : Nat} (hp : p < 4) (hb : b < 2) :
    (lane 16 (expandAlpha src) (2 * p + b)).toNat = (lane 32 src p).toNat / 16777216 := by
  have hlt := (lane 32 src p).isLt
  have halpha : (lane 32 src p >>> 24).toNat = (lane 32 src p).toNat / 2 ^ 24 := by
    rw [BitVec.toNat_ushiftRight, Nat.shiftRight_eq_div_pow]
  have hboth : (lane 32 (expandAlpha src) p).toNat =
      (lane 32 src p).toNat / 2 ^ 24 * 2 ^ 16 + (lane 32 src p).toNat / 2 ^ 24 := by
    rw [expandAlpha, lane_or, lane_slliEpi32 hp, lane_srliEpi32 hp, BitVec.toNat_or,
      BitVec.toNat_shiftLeft, halpha, Nat.shiftLeft_eq, Nat.mod_eq_of_lt (by omega),
      two_pow_or (by omega)]
  rw [toNat_lane_half hb, hboth, show 2 ^ 24 = 16777216 from rfl]
  generalize ha : (lane 32 src p).toNat / 16777216 = a
  have hbyte : a < 256 := by omega
  match b, hb with
  | 0, _ =>
    change _ / 1 % 65536 = _
    omega
  | 1, _ =>
    change (a * 65536 + a) / 65536 % 65536 = a
    rw [Nat.mul_comm, Nat.mul_add_div (by omega)]
    omega

/-- The mask leaves the lower half of a lane of 16 bits. -/
theorem toNat_lane_pixelRb {src : M128} {j : Nat} (hj : j < 8) :
    (lane 16 (pixelRb src) j).toNat = (lane 16 src j).toNat % 256 := by
  rw [pixelRb, lane_and, lane_set1Epi16 hj, BitVec.toNat_and]
  exact Nat.and_two_pow_sub_one_eq_mod _ 8

theorem toNat_lane_pixelAg {src : M128} {j : Nat} (hj : j < 8) :
    (lane 16 (pixelAg src) j).toNat = (lane 16 src j).toNat / 256 := toNat_lane_srliEpi16 hj

theorem toNat_lane_invAlpha {alpha : M128} {j : Nat} (hj : j < 8)
    (ha : (lane 16 alpha j).toNat ≤ 255) :
    (lane 16 (subsEpu8 (set1Epi16 0x00ff) alpha) j).toNat = 255 - (lane 16 alpha j).toNat := by
  have hmask : (lane 16 (set1Epi16 0x00ff) j).toNat = _ := toNat_lane_append 8 (set1Epi16 0x00ff) j
  have halpha : (lane 16 alpha j).toNat = _ := toNat_lane_append 8 alpha j
  have hlo := (lane 8 (set1Epi16 0x00ff) (2 * j)).isLt
  rw [lane_set1Epi16 hj] at hmask
  change 255 = _ at hmask
  calc (lane 16 (subsEpu8 (set1Epi16 0x00ff) alpha) j).toNat
      = (lane 8 (subsEpu8 (set1Epi16 0x00ff) alpha) (2 * j + 1)).toNat * 2 ^ 8 +
          (lane 8 (subsEpu8 (set1Epi16 0x00ff) alpha) (2 * j)).toNat := toNat_lane_append 8 _ j
    _ = 255 - (lane 16 alpha j).toNat := by
        rw [toNat_lane_subsEpu8 (by omega), toNat_lane_subsEpu8 (by omega)]
        omega

theorem toNat_lane_fastDiv255 {x : M128} {j : Nat} (hj : j < 8) (hx : (lane 16 x j).toNat ≤ 65025) :
    (lane 16 (fastDiv255Epu16 x) j).toNat = fastDiv255 (lane 16 x j).toNat := by
  have h257 : (0x0101 : BitVec 16).toNat = 257 := rfl
  have hplus : (lane 16 (addsEpu16 x (set1Epi16 0x0101)) j).toNat = (lane 16 x j).toNat + 257 := by
    rw [toNat_lane_addsEpu16 hj, lane_set1Epi16 hj, h257]
    rw [lane_set1Epi16 hj, h257]
    omega
  have hcarry : (lane 16 (srliEpi16 (addsEpu16 x (set1Epi16 0x0101)) 8) j).toNat =
      ((lane 16 x j).toNat + 257) / 256 := by
    rw [toNat_lane_srliEpi16 hj, hplus]
    rfl
  rw [fastDiv255Epu16, toNat_lane_srliEpi16 hj, toNat_lane_addsEpu16 hj (by rw [hcarry]; omega),
    hcarry, fastDiv255]
  rfl

/-- What the SSE2 code makes of two channels of each pixel and of the background. -/
def mixLanes (half bg alpha : M128) : M128 :=
  fastDiv255Epu16 (addsEpu16 (mulloEpi16 half alpha)
    (mulloEpi16 bg (subsEpu8 (set1Epi16 0x00ff) alpha)))

/-- **The SSE2 code** mixes a channel without saturation. -/
theorem toNat_lane_mixLanes {half bg alpha : M128} {j : Nat} (hj : j < 8)
    (ha : (lane 16 alpha j).toNat ≤ 255) (hs : (lane 16 half j).toNat ≤ 255)
    (hbg : (lane 16 bg j).toNat ≤ 255) :
    (lane 16 (mixLanes half bg alpha) j).toNat =
      mix (lane 16 alpha j).toNat (lane 16 half j).toNat (lane 16 bg j).toNat := by
  have hsum := mix_sum_le ha hs hbg
  have hinv := toNat_lane_invAlpha hj ha
  have hsrc : (lane 16 (mulloEpi16 half alpha) j).toNat =
      (lane 16 half j).toNat * (lane 16 alpha j).toNat :=
    toNat_lane_mulloEpi16 hj (by omega)
  have hback : (lane 16 (mulloEpi16 bg (subsEpu8 (set1Epi16 0x00ff) alpha)) j).toNat =
      (lane 16 bg j).toNat * (255 - (lane 16 alpha j).toNat) := by
    rw [toNat_lane_mulloEpi16 hj (by rw [hinv]; omega), hinv]
  have hadd : (lane 16 (addsEpu16 (mulloEpi16 half alpha)
      (mulloEpi16 bg (subsEpu8 (set1Epi16 0x00ff) alpha))) j).toNat =
      (lane 16 half j).toNat * (lane 16 alpha j).toNat +
        (lane 16 bg j).toNat * (255 - (lane 16 alpha j).toNat) := by
    rw [toNat_lane_addsEpu16 hj (by rw [hsrc, hback]; omega), hsrc, hback]
  rw [mixLanes, toNat_lane_fastDiv255 hj (by rw [hadd]; exact hsum), hadd, mix]

theorem half_rbMask (c : UInt32) {b : Nat} (hb : b < 2) :
    (c &&& rbMask).toNat / 2 ^ (16 * b) % 65536 = channelOf (c &&& rbMask) (2 * b) := by
  have hmask : rbMask.toNat / 2 ^ (16 * b) % 2 ^ 16 = 255 := by
    match b, hb with
    | 0, _ => rfl
    | 1, _ => rfl
  have hle : (c &&& rbMask).toNat / 2 ^ (16 * b) % 2 ^ 16 ≤ 255 := by
    rw [UInt32.toNat_and, Nat.and_div_two_pow, Nat.and_mod_two_pow, hmask]
    exact Nat.and_le_right
  rw [channelOf_eq _ (by omega), show 8 * (2 * b) = 16 * b by omega]
  omega

/-- The bytes of alpha and green, and between them those of red and blue. -/
theorem or_bytes {a r g b : Nat} (hr : r < 256) (hg : g < 256) (hb : b < 256) :
    (a * 16777216 + g * 256) ||| (r * 65536 + b) = a * 16777216 + (r * 65536 + g * 256 + b) := by
  have hgb : g * 2 ^ 8 ||| (r * 2 ^ 16 ||| b) = r * 2 ^ 16 + (g * 2 ^ 8 + b) := by
    rw [← two_pow_or (i := 16) (show g * 2 ^ 8 + b < 2 ^ 16 by omega), ← two_pow_or (i := 8) hb]
    ac_rfl
  have hag : a * 2 ^ 24 ||| g * 2 ^ 8 = a * 2 ^ 24 + g * 2 ^ 8 := two_pow_or (by omega)
  have hrb : r * 2 ^ 16 ||| b = r * 2 ^ 16 + b := two_pow_or (by omega)
  calc (a * 2 ^ 24 + g * 2 ^ 8) ||| (r * 2 ^ 16 + b)
      = a * 2 ^ 24 ||| (g * 2 ^ 8 ||| (r * 2 ^ 16 ||| b)) := by rw [← hag, ← hrb, Nat.or_assoc]
    _ = a * 2 ^ 24 + (r * 2 ^ 16 + g * 2 ^ 8 + b) := by
        rw [hgb, two_pow_or (by omega), Nat.add_assoc (r * 2 ^ 16)]

section Quad

variable {src : M128} {c : UInt32} {p : Nat}

/-- Two channels that lie 16 bits apart. -/
theorem toNat_lane_mixed (half : M128) (k : Nat) (hp : p < 4) (hc : lane 32 src p = c.toBitVec)
    (hhalf : ∀ b < 2, (lane 16 half (2 * p + b)).toNat = channelOf c (2 * b + k)) (bg : UInt32) :
    (lane 32 (mixLanes half (set1Epi32 (bg &&& rbMask).toBitVec) (expandAlpha src)) p).toNat =
      mix (channelOf c 3) (channelOf c (2 + k)) (channelOf (bg &&& rbMask) 2) * 65536 +
        mix (channelOf c 3) (channelOf c k) (channelOf (bg &&& rbMask) 0) := by
  have halpha : ∀ b < 2, (lane 16 (expandAlpha src) (2 * p + b)).toNat = channelOf c 3 := by
    intro b hb
    have hlt := c.toNat_lt
    rw [toNat_lane_expandAlpha hp hb, hc, channelOf_eq c (by omega)]
    change c.toNat / 16777216 = _
    omega
  have hback : ∀ b < 2, (lane 16 (set1Epi32 (bg &&& rbMask).toBitVec) (2 * p + b)).toNat =
      channelOf (bg &&& rbMask) (2 * b) := by
    intro b hb
    rw [toNat_lane_half hb, lane_set1Epi32 hp]
    exact half_rbMask bg hb
  have hmix : ∀ b < 2, (lane 16 (mixLanes half (set1Epi32 (bg &&& rbMask).toBitVec)
      (expandAlpha src)) (2 * p + b)).toNat =
      mix (channelOf c 3) (channelOf c (2 * b + k)) (channelOf (bg &&& rbMask) (2 * b)) := by
    intro b hb
    rw [toNat_lane_mixLanes (by omega) (halpha b hb ▸ channelOf_le c 3)
      (hhalf b hb ▸ channelOf_le c (2 * b + k)) (hback b hb ▸ channelOf_le _ (2 * b)), halpha b hb,
      hhalf b hb, hback b hb]
  have h0 := hmix 0 (by omega)
  have h1 := hmix 1 (by omega)
  rw [Nat.mul_zero, Nat.zero_add] at h0
  rw [← h0, ← h1]
  exact toNat_lane_append 16 _ p

theorem lane_blendColorQuad (hp : p < 4) (hc : lane 32 src p = c.toBitVec) (c₁ c₂ : UInt32) :
    lane 32 (blendColorQuad (c₁ &&& rbMask) (c₂ &&& rbMask) src) p =
      (blendColorPixel (c₁ &&& rbMask) (c₂ &&& rbMask) c).toBitVec := by
  have hsrc : ∀ b < 2, (lane 16 src (2 * p + b)).toNat = c.toNat / 2 ^ (16 * b) % 65536 := by
    intro b hb
    rw [toNat_lane_half hb, hc]
    rfl
  have hrb := toNat_lane_mixed (pixelRb src) 0 hp hc (by
    intro b hb
    rw [toNat_lane_pixelRb (by omega), hsrc b hb, channelOf_eq c (by omega),
      show 8 * (2 * b + 0) = 16 * b by omega]
    omega) c₁
  have hag := toNat_lane_mixed (pixelAg src) 1 hp hc (by
    intro b hb
    rw [toNat_lane_pixelAg (by omega), hsrc b hb, channelOf_eq c (by omega),
      show 8 * (2 * b + 1) = 16 * b + 8 by omega, Nat.pow_add, ← Nat.div_div_eq_div_mul]
    omega) c₂
  have hlt : ∀ (j k : Nat) (x : UInt32), mix (channelOf c 3) (channelOf c j) (channelOf x k) < 256 :=
    fun j k x => mix_lt (channelOf_le c 3) (channelOf_le c j) (channelOf_le x k)
  apply BitVec.eq_of_toNat_eq
  change (lane 32 (slliEpi32 (mixLanes (pixelAg src) _ (expandAlpha src)) 8 |||
    mixLanes (pixelRb src) _ (expandAlpha src) ||| set1Epi32 0xff000000) p).toNat =
      (blendColorPixel (c₁ &&& rbMask) (c₂ &&& rbMask) c).toNat
  rw [blendColorPixel_toNat, mixed, lane_or, lane_or, lane_slliEpi32 hp,
    lane_set1Epi32 hp, BitVec.toNat_or, BitVec.toNat_or, BitVec.toNat_shiftLeft, hrb, hag,
    Nat.shiftLeft_eq]
  have ha := hlt 3 2 (c₂ &&& rbMask)
  have hr := hlt 2 2 (c₁ &&& rbMask)
  have hg := hlt 1 0 (c₂ &&& rbMask)
  have hb := hlt 0 0 (c₁ &&& rbMask)
  generalize mix (channelOf c 3) (channelOf c (2 + 1)) (channelOf (c₂ &&& rbMask) 2) = a at *
  generalize mix (channelOf c 3) (channelOf c (2 + 0)) (channelOf (c₁ &&& rbMask) 2) = r at *
  generalize mix (channelOf c 3) (channelOf c 1) (channelOf (c₂ &&& rbMask) 0) = g at *
  generalize mix (channelOf c 3) (channelOf c 0) (channelOf (c₁ &&& rbMask) 0) = b at *
  have hshift : (a * 65536 + g) * 2 ^ 8 % 2 ^ 32 = a * 16777216 + g * 256 := by omega
  rw [hshift, or_bytes hr hg hb]
  change _ ||| 255 * 16777216 = _
  rw [or_full ha (by omega)]
  omega

end Quad

/-- **The SSE2 row** is the row of the loop, for every row, every length and every background, the
two halves of which `BlendColor` masks. -/
theorem blendColorRowSse2_eq (c₁ c₂ : UInt32) (w : Int) (pixels : Int → UInt32) :
    blendColorRowSse2 (c₁ &&& rbMask) (c₂ &&& rbMask) w pixels =
      blendColorRowDefault (c₁ &&& rbMask) (c₂ &&& rbMask) w pixels := by
  refine @forLoop_quads (fun _ c => blendColorPixel (c₁ &&& rbMask) (c₂ &&& rbMask) c)
    (fun q pixels => blendColorQuad (c₁ &&& rbMask) (c₂ &&& rbMask)
      (loaduSi128 pixels ((4 * q : Nat) : Int))) ?_ w.toNat pixels
  intro q pixels k hk
  refine lane_blendColorQuad hk ?_ c₁ c₂
  rw [lane_loaduSi128 hk]
  push_cast
  rfl

end ObZrv
