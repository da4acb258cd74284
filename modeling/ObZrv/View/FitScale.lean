import ObZrv.Lib.Rounding
import ObZrv.View.Steps

/-!
# View.FitScale

The scale at which `OnPaint` shows a whole image. It is chosen by a comparison of products and comes
from a rounded quotient; the comparison keeps the quotient within the client area and, where the
image is only made smaller, within the image, and rounding does not leave an integer bound.

* `ImageView.fitAspect_cases`   : the axis that is filled, and the rounded quotient on the other.
* `ImageView.paint_fits_window` : what holds of the scale in every mode that shows the whole image.
-/

namespace ObZrv

/-- `n` is `x` but for half a pixel, or was raised to 1. -/
def Rounds (n : Int) (x : ℚ) : Prop := |x - n| ≤ 1 / 2 ∨ n = 1 ∧ x < 1 / 2

/-- A scale that shows the whole image in the client area, one axis given and the other by the
aspect ratio. -/
structure FitsWindow (zt : ZoomType) (client dim scale : Size) : Prop where
  one_le : 1 ≤ scale.cx ∧ 1 ≤ scale.cy
  le_client : scale.cx ≤ client.cx ∧ scale.cy ≤ client.cy
  fills : zt = .I2W → scale.cx = client.cx ∨ scale.cy = client.cy
  zoomsOut : zt ≠ .I2W → scale.cx ≤ dim.cx ∧ scale.cy ≤ dim.cy ∧
    (scale = dim ↔ dim.cx ≤ client.cx ∧ dim.cy ≤ client.cy)
  aspect :
    (scale.cx = client.cx ∨ scale = dim) ∧ Rounds scale.cy (scale.cx * dim.cy / dim.cx) ∨
      (scale.cy = client.cy ∨ scale = dim) ∧ Rounds scale.cx (scale.cy * dim.cx / dim.cy)

theorem rounds_max (x : ℚ) : Rounds (max (round x) 1) x := by
  by_cases h : 1 ≤ round x
  · rw [max_eq_left h]
    exact .inl (abs_sub_round x)
  · have hround : ((round x : ℤ) : ℚ) ≤ 0 := by exact_mod_cast (by omega : round x ≤ 0)
    have hx := sub_half_lt_round x
    rw [max_eq_right (by omega)]
    exact .inr ⟨rfl, by linarith⟩

theorem rounds_exact {a b : Int} (ha : 1 ≤ a) : Rounds b (a * b / a) := by
  have hne : (a : ℚ) ≠ 0 := by exact_mod_cast (by omega : a ≠ 0)
  rw [mul_div_cancel_left₀ _ hne]
  exact .inl (by simp)

/-- A quotient rounded and raised to 1. -/
def raised (a b c : Int) : Int := max (round (a * b / c : ℚ)) 1

theorem one_le_raised (a b c : Int) : 1 ≤ raised a b c := le_max_right _ _

/-- Rounding does not pass an integer that the quotient does not pass. -/
theorem raised_le {a b c n : Int} (hc : 1 ≤ c) (hn : 1 ≤ n) (h : a * b ≤ n * c) :
    raised a b c ≤ n := by
  have hpos : (0 : ℚ) < c := by exact_mod_cast (by omega : 0 < c)
  refine max_le (Lib.round_le_of_le ?_) hn
  rw [div_le_iff₀ hpos]
  exact_mod_cast h

theorem scaledAxis_eq {a b c : Int} (ha : 0 ≤ a) (hb : 0 ≤ b) (hc : 1 ≤ c) :
    scaledAxis a b c = some (raised a b c) := by
  have hab : 0 ≤ 2 * a * b := by
    rw [mul_assoc]
    have := mul_nonneg ha hb
    omega
  have hround := Lib.round_div (a := a * b) (c := c) (by omega)
  rw [← mul_assoc, Int.cast_mul] at hround
  unfold scaledAxis raised
  rw [if_neg (by omega), Int.tdiv_eq_ediv_of_nonneg (by omega), hround]

namespace ImageView

variable {B : Type}

/-- **One axis is filled.** Which one is the outcome of a comparison that bounds the quotient on the
other. -/
theorem fitAspect_cases (size dim : Size) (hsize : 0 ≤ size.cx ∧ 0 ≤ size.cy) (hcx : 1 ≤ dim.cx)
    (hcy : 1 ≤ dim.cy) :
    (size.cy * dim.cx < size.cx * dim.cy ∧
      ∃ level, fitAspect size dim = some (level, ⟨raised size.cy dim.cx dim.cy, size.cy⟩)) ∨
    (size.cx * dim.cy ≤ size.cy * dim.cx ∧
      ∃ level, fitAspect size dim = some (level, ⟨size.cx, raised size.cx dim.cy dim.cx⟩)) := by
  unfold fitAspect
  split
  · rename_i hwide
    rw [divInt_of_ne (by omega), scaledAxis_eq hsize.2 (by omega) hcy]
    exact .inl ⟨hwide, _, rfl⟩
  · rename_i hhigh
    rw [divInt_of_ne (by omega), scaledAxis_eq hsize.1 (by omega) hcx]
    exact .inr ⟨by omega, _, rfl⟩

/-- An axis that is filled takes less than the image has of it where the image does not fit. -/
theorem filled_lt {w h iw ih : Int} (hiw : 1 ≤ iw) (hih : 1 ≤ ih) (hle : h * iw ≤ w * ih)
    (hfits : ¬ (iw ≤ w ∧ ih ≤ h)) : h < ih := by
  by_contra hge
  have hw : w < iw := by omega
  have hlt : w * ih < h * iw := by
    calc w * ih < iw * ih := mul_lt_mul_of_pos_right hw (by omega)
      _ ≤ iw * h := mul_le_mul_of_nonneg_left (by omega) (by omega)
      _ = h * iw := mul_comm _ _
  omega

/-- The scale of an image that fills the client area on one axis. -/
theorem fitAspect_fits {zt : ZoomType} {size dim : Size} (hw : 1 ≤ size.cx) (hh : 1 ≤ size.cy)
    (hcx : 1 ≤ dim.cx) (hcy : 1 ≤ dim.cy)
    (hfits : zt ≠ .I2W → ¬ (dim.cx ≤ size.cx ∧ dim.cy ≤ size.cy)) :
    ∃ level scale, fitAspect size dim = some (level, scale) ∧ FitsWindow zt size dim scale := by
  have hsize : 0 ≤ size.cx ∧ 0 ≤ size.cy := ⟨by omega, by omega⟩
  rcases fitAspect_cases size dim hsize hcx hcy with ⟨hwide, level, hfit⟩ | ⟨hhigh, level, hfit⟩
  · refine ⟨level, _, hfit, ⟨one_le_raised _ _ _, hh⟩, ⟨raised_le hcy hw hwide.le, le_refl _⟩,
      fun _ => .inr rfl, ?_, .inr ⟨.inl rfl, rounds_max _⟩⟩
    intro hout
    have hless := filled_lt hcx hcy hwide.le (hfits hout)
    have hprod : size.cy * dim.cx ≤ dim.cx * dim.cy := by
      rw [mul_comm dim.cx]
      exact mul_le_mul_of_nonneg_right hless.le (by omega)
    refine ⟨raised_le hcy hcx hprod, hless.le, iff_of_false ?_ (hfits hout)⟩
    intro hsame
    exact hless.ne (by rw [← hsame])
  · refine ⟨level, _, hfit, ⟨hw, one_le_raised _ _ _⟩, ⟨le_refl _, raised_le hcx hh hhigh⟩,
      fun _ => .inl rfl, ?_, .inl ⟨.inl rfl, rounds_max _⟩⟩
    intro hout
    have hless := filled_lt hcy hcx hhigh fun h => hfits hout ⟨h.2, h.1⟩
    have hprod : size.cx * dim.cy ≤ dim.cy * dim.cx := by
      rw [mul_comm dim.cy]
      exact mul_le_mul_of_nonneg_right hless.le (by omega)
    refine ⟨hless.le, raised_le hcx hcy hprod, iff_of_false ?_ (hfits hout)⟩
    intro hsame
    exact hless.ne (by rw [← hsame])

theorem fitScale_fits (zt : ZoomType) (size dim : Size) (hw : 1 ≤ size.cx) (hh : 1 ≤ size.cy)
    (hcx : 1 ≤ dim.cx) (hcy : 1 ≤ dim.cy) :
    ∃ scale, ViewSettings.fitScale zt size dim = some scale ∧ FitsWindow zt size dim scale := by
  unfold ViewSettings.fitScale
  by_cases hzt : zt = .I2W
  · obtain ⟨level, scale, hfit, hscale⟩ :=
      fitAspect_fits hw hh hcx hcy (fun hout => absurd hzt hout)
    rw [if_pos hzt, if_neg (by omega), hfit]
    exact ⟨scale, rfl, hscale⟩
  · rw [if_neg hzt]
    by_cases hfits : dim.cx ≤ size.cx ∧ dim.cy ≤ size.cy
    · rw [if_pos hfits]
      refine ⟨dim, rfl, ⟨hcx, hcy⟩, hfits, fun h => absurd h hzt, ?_, ?_⟩
      · intro _
        exact ⟨le_refl _, le_refl _, iff_of_true rfl hfits⟩
      · exact .inl ⟨.inr rfl, rounds_exact hcx⟩
    · obtain ⟨level, scale, hfit, hscale⟩ := fitAspect_fits hw hh hcx hcy fun _ => hfits
      rw [if_neg hfits, hfit]
      exact ⟨scale, rfl, hscale⟩

/-- A paint that computes the view anew, where the mode shows the whole image. -/
theorem onPaint_fits {v : ImageView B} {env : ViewEnv B} {img : OpenImage B}
    (himage : env.image = some img) (hstale : v.stale env = true) (hfits : ¬ v.settings.Pans)
    {scale : Size} (hscale : ViewSettings.fitScale v.zoomtype env.client img.dim = some scale) :
    ∃ v', v.onPaint env = some v' ∧ v'.scaleSize = scale ∧
      v'.viewCrop = ⟨0, 0, scale.cx, scale.cy⟩ := by
  have hview := ViewSettings.view_fits hfits env.client img.dim
  rw [show v.settings.zoomtype = v.zoomtype from rfl, hscale, Option.map_some] at hview
  obtain ⟨v', hpaint, -, hsame, hcrop⟩ := onPaint_painted himage hstale hview
  exact ⟨v', hpaint, hsame, hcrop⟩

/-- **The scale of a whole image.** In the modes that show the whole image, at any client area and
image, `OnPaint` computes a scale of at least 1x1 within the client area. It fills the client area
on one axis, or is the image's own size where the image is only made smaller and fits; on the other
axis it keeps the aspect ratio to half a pixel. -/
theorem paint_fits_window {v : ImageView B} {env : ViewEnv B} {img : OpenImage B}
    (himage : env.image = some img) (hstale : v.stale env = true) (hauto : v.zoomlevel = 0)
    (hmode : v.zoomtype = .I2W ∨ v.zoomtype = .I2W_ZOOMOUT ∨ v.zoomtype = .W2I_ZOOMOUT)
    (hwidth : 1 ≤ env.width) (hheight : 1 ≤ env.height) :
    ∃ v', v.onPaint env = some v' ∧
      FitsWindow v.zoomtype env.client img.dim v'.scaleSize := by
  have hfits : ¬ v.settings.Pans := by
    rintro (hlevel | hzt | hzt)
    · exact hlevel hauto
    · rcases hmode with h | h | h <;> cases h.symm.trans hzt
    · rcases hmode with h | h | h <;> cases h.symm.trans hzt
  obtain ⟨scale, hscale, hspec⟩ := fitScale_fits v.zoomtype env.client img.dim
    (Int.ofNat_le.mpr hwidth) (Int.ofNat_le.mpr hheight) img.cx_pos img.cy_pos
  obtain ⟨v', hpaint, hsame, -⟩ := onPaint_fits himage hstale hfits hscale
  exact ⟨v', hpaint, hsame.symm ▸ hspec⟩

/-- A high image in a low client area. -/
theorem paint_fits_window_tall :
    ∃ v', ({} : ImageView Unit).onPaint (plainEnv (some tallImage) 100 500) = some v' ∧
      FitsWindow .W2I_ZOOMOUT (plainEnv (some tallImage) 100 500).client tallImage.dim
        v'.scaleSize :=
  paint_fits_window rfl rfl rfl (.inr (.inr rfl)) (by decide) (by decide)

end ImageView

end ObZrv
