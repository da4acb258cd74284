import ObZrv.Codec.Image
import ObZrv.Text.Config

/-!
# View.Placement

The window placement that `MainWnd` keeps in the settings: `LoadWindowPlacement`,
`SaveWindowPlacement` and `ClampWindowRectToNearestWorkArea`. The extents and far edges of the
rectangle are calculated in 32 bits before anything is clamped.

* `scanPlacement_text` : what was saved is read back.
* `clampAxis_iff`      : when one axis of the window comes to lie on the screen.
* `restored_iff`       : the same for the window.
* `restored_off_screen` : a placement that leaves the window off the screen.
-/

namespace ObZrv

/-- A 32-bit result in two's complement. -/
def wrap32 (v : Int) : Int := (v + 2147483648) % 4294967296 - 2147483648

theorem wrap32_inInt32 (v : Int) : InInt32 (wrap32 v) := by
  unfold InInt32 wrap32
  omega

theorem wrap32_eq {v : Int} (h : InInt32 v) : wrap32 v = v := by
  unfold InInt32 at h
  unfold wrap32
  omega

/-! ## The text of a placement -/

/-- The digits of a number and what follows them. A number out of range is cut to 32 bits. -/
def scanDigits (neg : Bool) (s : WStr) : Option (Int × WStr) :=
  if s.takeWhile isDigitW = [] then none
  else
    let v : Int := if neg then -(digitsValue s : Int) else digitsValue s
    some (wrap32 v, s.dropWhile isDigitW)

/-- `%ld` and `%d` of `swscanf`. -/
def scanLong (s : WStr) : Option (Int × WStr) :=
  match s.dropWhile isSpaceW with
  | [] => none
  | c :: rest =>
    if c = 45 then scanDigits true rest
    else if c = 43 then scanDigits false rest
    else scanDigits false (c :: rest)

/-- A comma in the format of `swscanf`. -/
def scanComma : WStr → Option WStr
  | [] => none
  | c :: rest => if c = 44 then some rest else none

/-- `swscanf` with `L"%ld,%ld,%ld,%ld,%d"`, if it gives back 5. -/
def scanPlacement (s : WStr) : Option (Rect × Int) := do
  let (left, s) ← scanLong s
  let s ← scanComma s
  let (top, s) ← scanLong s
  let s ← scanComma s
  let (right, s) ← scanLong s
  let s ← scanComma s
  let (bottom, s) ← scanLong s
  let s ← scanComma s
  let (maxFlag, _) ← scanLong s
  return (⟨left, top, right, bottom⟩, maxFlag)

/-- What `SaveWindowPlacement` writes. -/
def placementText (rc : Rect) (maximized : Bool) : WStr :=
  formatInt rc.left ++ 44 :: (formatInt rc.top ++ 44 :: (formatInt rc.right ++ 44 ::
    (formatInt rc.bottom ++ 44 :: formatInt (if maximized then 1 else 0))))

/-! ## The rectangle -/

/-- What Windows says: the work area of the primary screen and its size, the work area of the monitor
nearest to a rectangle, and the resolution that `Dpi` has read. -/
structure PlacementEnv where
  workArea : Rect
  monitorWork : Rect → Option Rect
  cxScreen : Int
  cyScreen : Int
  dpi : Int

/-- `Dpi::Scale`. -/
def PlacementEnv.scale (env : PlacementEnv) (px : Int) : Int :=
  (wrap32 (wrap32 (px * env.dpi) + 48)).tdiv 96

/-- The work area that counts for a rectangle. -/
def PlacementEnv.work (env : PlacementEnv) (rc : Rect) : Rect :=
  let work := (env.monitorWork rc).getD env.workArea
  if work.right ≤ work.left ∨ work.bottom ≤ work.top then ⟨0, 0, env.cxScreen, env.cyScreen⟩
  else work

/-- The extent of the window on one axis, from the edges of the rectangle and of the work area. -/
def clampExtent (near far workNear workFar minExtent : Int) : Int :=
  let work := wrap32 (workFar - workNear)
  let extent := wrap32 (far - near)
  let extent := if extent < minExtent then minExtent else extent
  if extent > work then work else extent

/-- The near and the far edge of a window of the given extent. -/
def clampEdges (near extent workNear workFar : Int) : Int × Int :=
  let out := (near, wrap32 (near + extent))
  let out := if out.2 > workFar then (wrap32 (workFar - extent), workFar) else out
  if out.1 < workNear then (workNear, wrap32 (workNear + extent)) else out

/-- One axis of `ClampWindowRectToNearestWorkArea`. -/
def clampAxis (near far workNear workFar minExtent : Int) : Int × Int :=
  clampEdges near (clampExtent near far workNear workFar minExtent) workNear workFar

def clampWindowRectToNearestWorkArea (env : PlacementEnv) (rc : Rect) : Rect :=
  let work := env.work rc
  let x := clampAxis rc.left rc.right work.left work.right (env.scale 320)
  let y := clampAxis rc.top rc.bottom work.top work.bottom (env.scale 240)
  ⟨x.1, y.1, x.2, y.2⟩

/-- `LoadWindowPlacement`, from the setting; the rectangle and whether the window is maximized. -/
def loadWindowPlacement (env : PlacementEnv) (placement : WStr) : Option (Rect × Bool) :=
  if placement = [] then none
  else
    match scanPlacement placement with
    | none => none
    | some (saved, maxFlag) =>
      if saved.right ≤ saved.left ∨ saved.bottom ≤ saved.top then none
      else some (clampWindowRectToNearestWorkArea env saved, decide (maxFlag ≠ 0))

/-! ## What was saved is read back -/

section Text

variable {rest : WStr}

theorem scanLong_digits {n : Nat} (hrest : ∀ c ∈ rest.head?, isDigitW c = false) :
    (wide (Nat.toDigits 10 n) ++ rest).takeWhile isDigitW = wide (Nat.toDigits 10 n) ∧
      (wide (Nat.toDigits 10 n) ++ rest).dropWhile isDigitW = rest ∧
      digitsValue (wide (Nat.toDigits 10 n) ++ rest) = n := by
  have hall : ∀ c ∈ wide (Nat.toDigits 10 n), isDigitW c = true := by
    intro c hc
    obtain ⟨d, hd, rfl⟩ := List.mem_map.mp hc
    exact isDigitW_wide (digits_isDigit n d hd)
  have hstop : rest.takeWhile isDigitW = [] ∧ rest.dropWhile isDigitW = rest := by
    cases rest with
    | nil => exact ⟨rfl, rfl⟩
    | cons c rest =>
      have hc := hrest c rfl
      simp [hc]
  have htake : (wide (Nat.toDigits 10 n) ++ rest).takeWhile isDigitW = wide (Nat.toDigits 10 n) := by
    rw [List.takeWhile_append_of_pos hall, hstop.1, List.append_nil]
  have hself : (wide (Nat.toDigits 10 n)).takeWhile isDigitW = wide (Nat.toDigits 10 n) :=
    List.takeWhile_eq_self_iff.mpr hall
  refine ⟨htake, ?_, ?_⟩
  · rw [List.dropWhile_append_of_pos hall, hstop.2]
  · rw [digitsValue, htake, ← hself, ← digitsValue, digitsValue_digits]

theorem wide_digits_ne_nil (n : Nat) : wide (Nat.toDigits 10 n) ≠ [] := by
  obtain ⟨c, s, hs, -⟩ := wide_digits_cons n
  rw [hs]
  exact List.cons_ne_nil c s

/-- A number is read back, and what follows it is left. -/
theorem scanLong_formatInt {v : Int} (h : InInt32 v) (hrest : ∀ c ∈ rest.head?, isDigitW c = false) :
    scanLong (formatInt v ++ rest) = some (v, rest) := by
  cases v with
  | ofNat n =>
    obtain ⟨htake, hdrop, hvalue⟩ := scanLong_digits (n := n) hrest
    obtain ⟨c, s, hs, hc⟩ := wide_digits_cons n
    obtain ⟨hspace, hminus, hplus⟩ := digit_not_space hc
    have hne := wide_digits_ne_nil n
    have hw : wrap32 (n : Int) = n := wrap32_eq h
    rw [formatInt]
    rw [hs] at htake hdrop hvalue hne ⊢
    rw [List.cons_append] at htake hdrop hvalue ⊢
    unfold scanLong
    rw [List.dropWhile_cons_of_neg (by simp [hspace])]
    simp only [if_neg hminus, if_neg hplus, scanDigits, htake, hdrop, hvalue, if_neg hne]
    simp [hw]
  | negSucc n =>
    obtain ⟨htake, hdrop, hvalue⟩ := scanLong_digits (n := n + 1) hrest
    have hne := wide_digits_ne_nil (n + 1)
    have hw : wrap32 (-((n + 1 : Nat) : Int)) = -((n + 1 : Nat) : Int) := wrap32_eq h
    rw [formatInt, List.cons_append]
    unfold scanLong
    rw [List.dropWhile_cons_of_neg (by decide)]
    simp only [if_true, scanDigits, htake, hdrop, hvalue, if_neg hne, hw]
    rfl

/-- **What was saved is read back.** -/
theorem scanPlacement_text {rc : Rect} (maximized : Bool) (hl : InInt32 rc.left) (ht : InInt32 rc.top)
    (hr : InInt32 rc.right) (hb : InInt32 rc.bottom) :
    scanPlacement (placementText rc maximized) = some (rc, if maximized then 1 else 0) := by
  have hcomma : ∀ s : WStr, ∀ c ∈ (44 :: s).head?, isDigitW c = false := by
    intro s c hc
    cases hc
    rfl
  have hflag : scanLong (formatInt (if maximized then 1 else 0)) =
      some (if maximized then 1 else 0, []) := by
    cases maximized <;> decide
  simp only [scanPlacement, placementText, scanLong_formatInt hl (hcomma _), 
    scanLong_formatInt ht (hcomma _), scanLong_formatInt hr (hcomma _),
    scanLong_formatInt hb (hcomma _), scanComma, Option.bind_eq_bind, Option.bind_some, if_true, hflag]
  rfl

end Text

/-! ## One axis -/

section Axis

variable {near far workNear workFar minExtent : Int}

/-- The extent an axis is to have. -/
def wantedExtent (extent minExtent work : Int) : Int := min (max extent minExtent) work

/-- The axis comes to lie in the work area, with the extent it is to have. -/
def AxisRestored (near far workNear workFar minExtent : Int) (out : Int × Int) : Prop :=
  workNear ≤ out.1 ∧ out.2 ≤ workFar ∧
    out.2 - out.1 = wantedExtent (far - near) minExtent (workFar - workNear)

/-- The extent fits in 32 bits, or is the whole work area anyhow, and so does the far edge. -/
def AxisFits (near far workNear workFar minExtent : Int) : Prop :=
  (far - near ≤ 2147483647 ∨ workFar - workNear ≤ minExtent) ∧
    near + wantedExtent (far - near) minExtent (workFar - workNear) ≤ 2147483647

instance : Decidable (AxisFits near far workNear workFar minExtent) :=
  inferInstanceAs (Decidable (_ ∧ _))

/-- An axis of a work area with ordinary coordinates: not empty, and its extent fits in 32 bits. -/
structure OrdinaryAxis (workNear workFar : Int) : Prop where
  near : InInt32 workNear
  far : InInt32 workFar
  lt : workNear < workFar
  extent : workFar - workNear ≤ 2147483647

section

variable (hw : OrdinaryAxis workNear workFar)
include hw

theorem OrdinaryAxis.wrap_extent : wrap32 (workFar - workNear) = workFar - workNear :=
  wrap32_eq ⟨by have := hw.lt; omega, hw.extent⟩

/-- An extent in 32 bits becomes the one that is wanted. -/
theorem clampExtent_fits (hlt : near < far) (hfit : far - near ≤ 2147483647) :
    clampExtent near far workNear workFar minExtent =
      wantedExtent (far - near) minExtent (workFar - workNear) := by
  have hextent : wrap32 (far - near) = far - near := wrap32_eq ⟨by omega, hfit⟩
  unfold clampExtent wantedExtent
  simp only [hextent, hw.wrap_extent]
  split_ifs <;> omega

/-- A greater one has become negative: it ends as the whole work area if the minimum is that. -/
theorem clampExtent_wraps (hnear : InInt32 near) (hfar : InInt32 far)
    (hbig : 2147483647 < far - near) :
    -2147483648 ≤ clampExtent near far workNear workFar minExtent ∧
      (clampExtent near far workNear workFar minExtent = workFar - workNear ↔
        workFar - workNear ≤ minExtent) := by
  have hextent : wrap32 (far - near) = far - near - 4294967296 := by
    unfold InInt32 at hnear hfar
    unfold wrap32
    omega
  have hlt := hw.lt
  obtain ⟨hmin, -⟩ := wrap32_inInt32 (far - near)
  unfold InInt32 at hnear hfar
  unfold clampExtent
  simp only [hw.wrap_extent]
  split_ifs <;> omega

theorem clampExtent_le :
    clampExtent near far workNear workFar minExtent ≤ workFar - workNear := by
  unfold clampExtent
  simp only [hw.wrap_extent]
  split_ifs <;> omega

/-- The edges keep the extent within the work area, unless the far edge leaves 32 bits. -/
theorem clampEdges_iff {extent : Int} (hnear : InInt32 near) (hpos : 1 ≤ extent)
    (hle : extent ≤ workFar - workNear) :
    (workNear ≤ (clampEdges near extent workNear workFar).1 ∧
      (clampEdges near extent workNear workFar).2 ≤ workFar ∧
      (clampEdges near extent workNear workFar).2 - (clampEdges near extent workNear workFar).1 =
        extent) ↔ near + extent ≤ 2147483647 := by
  obtain ⟨hwn, hwf, hwlt, hwe⟩ := hw
  unfold InInt32 at hnear hwn hwf
  have hback : wrap32 (workFar - extent) = workFar - extent := wrap32_eq ⟨by omega, by omega⟩
  have hforth : wrap32 (workNear + extent) = workNear + extent := wrap32_eq ⟨by omega, by omega⟩
  unfold clampEdges
  simp only [hback, hforth]
  by_cases hfit : near + extent ≤ 2147483647
  · rw [wrap32_eq ⟨by omega, hfit⟩]
    split_ifs <;> simp only <;> omega
  · have hwrap : wrap32 (near + extent) = near + extent - 4294967296 := by
      unfold wrap32
      omega
    -- the far edge has become negative, and so seems to lie in front of the end of the work area
    have hpast : ¬ near + extent - 4294967296 > workFar := by omega
    have hright : ¬ near < workNear := by omega
    simp only [hwrap, if_neg hpast, if_neg hright]
    omega

/-- An extent other than that of the work area does not become that. -/
theorem clampEdges_ne {extent : Int} (hnear : InInt32 near) (hmin : -2147483648 ≤ extent)
    (hlt : extent < workFar - workNear) :
    ¬ (workNear ≤ (clampEdges near extent workNear workFar).1 ∧
      (clampEdges near extent workNear workFar).2 ≤ workFar ∧
      (clampEdges near extent workNear workFar).2 - (clampEdges near extent workNear workFar).1 =
        workFar - workNear) := by
  obtain ⟨hwn, hwf, hwlt, hwe⟩ := hw
  unfold InInt32 at hnear hwn hwf
  unfold clampEdges wrap32
  simp only
  split_ifs <;> simp only <;> omega

/-- **One axis** comes to lie on the screen, as large as it is to be, exactly when its extent and its
far edge fit in 32 bits. -/
theorem clampAxis_iff (hnear : InInt32 near) (hfar : InInt32 far) (hlt : near < far) :
    AxisRestored near far workNear workFar minExtent
        (clampAxis near far workNear workFar minExtent) ↔
      AxisFits near far workNear workFar minExtent := by
  have hwlt := hw.lt
  have hwe := hw.extent
  unfold AxisRestored AxisFits clampAxis
  by_cases hfit : far - near ≤ 2147483647
  · have hwanted : 1 ≤ wantedExtent (far - near) minExtent (workFar - workNear) ∧
        wantedExtent (far - near) minExtent (workFar - workNear) ≤ workFar - workNear := by
      unfold wantedExtent
      omega
    rw [clampExtent_fits hw hlt hfit, clampEdges_iff hw hnear hwanted.1 hwanted.2]
    exact ⟨fun h => ⟨.inl hfit, h⟩, fun h => h.2⟩
  · have hwanted : wantedExtent (far - near) minExtent (workFar - workNear) = workFar - workNear := by
      unfold wantedExtent
      omega
    obtain ⟨hmin, hwhole⟩ : -2147483648 ≤ clampExtent near far workNear workFar minExtent ∧
        (clampExtent near far workNear workFar minExtent = workFar - workNear ↔
          workFar - workNear ≤ minExtent) := clampExtent_wraps hw hnear hfar (by omega)
    rw [hwanted]
    by_cases hall : workFar - workNear ≤ minExtent
    · rw [hwhole.mpr hall, clampEdges_iff hw hnear (by omega) (Int.le_refl _)]
      exact ⟨fun h => ⟨.inr hall, h⟩, fun h => h.2⟩
    · have hne : clampExtent near far workNear workFar minExtent ≠ workFar - workNear :=
        fun heq => hall (hwhole.mp heq)
      have hlt' : clampExtent near far workNear workFar minExtent < workFar - workNear :=
        Int.lt_iff_le_and_ne.mpr ⟨clampExtent_le hw, hne⟩
      refine iff_of_false (clampEdges_ne hw hnear hmin hlt') ?_
      rintro ⟨h | h, -⟩
      · exact hfit h
      · exact hall h

/-- An axis that lies in the work area and is not too small is left as it is. -/
theorem clampAxis_inside (hlt : near < far) (hn : workNear ≤ near) (hf : far ≤ workFar)
    (hmin : minExtent ≤ far - near) : clampAxis near far workNear workFar minExtent = (near, far) := by
  have hextent : clampExtent near far workNear workFar minExtent =
      wantedExtent (far - near) minExtent (workFar - workNear) :=
    clampExtent_fits hw hlt (by have := hw.extent; omega)
  have hwanted : wantedExtent (far - near) minExtent (workFar - workNear) = far - near := by
    unfold wantedExtent
    omega
  obtain ⟨hwn, hwf, -, -⟩ := hw
  unfold InInt32 at hwn hwf
  have hedge : wrap32 (near + (far - near)) = far := by
    rw [show near + (far - near) = far by omega]
    exact wrap32_eq ⟨by omega, by omega⟩
  unfold clampAxis clampEdges
  simp only [hextent, hwanted, hedge]
  rw [if_neg (Int.not_lt.mpr hf), if_neg (Int.not_lt.mpr hn)]

end

end Axis

/-! ## The window -/

/-- Both axes of a work area are ordinary. -/
structure OrdinaryArea (work : Rect) : Prop where
  x : OrdinaryAxis work.left work.right
  y : OrdinaryAxis work.top work.bottom

/-- `rc` lies in `work`. -/
def Inside (rc work : Rect) : Prop :=
  work.left ≤ rc.left ∧ rc.right ≤ work.right ∧ work.top ≤ rc.top ∧ rc.bottom ≤ work.bottom

/-- The window is restored on the screen: with the extents it had, but not below the minimum and not
beyond the work area; and where it was, if it can be. -/
structure Restored (work saved : Rect) (minW minH : Int) (out : Rect) : Prop where
  inside : Inside out work
  width : out.width = min (max saved.width minW) work.width
  height : out.height = min (max saved.height minH) work.height
  unchanged : Inside saved work → minW ≤ saved.width → minH ≤ saved.height → out = saved

/-- On both axes the extent fits in 32 bits, or is the whole work area anyhow, and the far edge fits
in 32 bits. -/
def Restorable (work saved : Rect) (minW minH : Int) : Prop :=
  AxisFits saved.left saved.right work.left work.right minW ∧
    AxisFits saved.top saved.bottom work.top work.bottom minH

theorem scanDigits_inInt32 {neg : Bool} {s rest : WStr} {v : Int}
    (h : scanDigits neg s = some (v, rest)) : InInt32 v := by
  unfold scanDigits at h
  by_cases hdigits : s.takeWhile isDigitW = []
  · rw [if_pos hdigits] at h
    cases h
  · rw [if_neg hdigits] at h
    cases h
    exact wrap32_inInt32 _

theorem scanLong_inInt32 {s rest : WStr} {v : Int} (h : scanLong s = some (v, rest)) : InInt32 v := by
  unfold scanLong at h
  cases hs : s.dropWhile isSpaceW with
  | nil =>
    rw [hs] at h
    cases h
  | cons c s =>
    rw [hs] at h
    dsimp only at h
    by_cases hminus : c = 45
    · rw [if_pos hminus] at h
      exact scanDigits_inInt32 h
    · rw [if_neg hminus] at h
      by_cases hplus : c = 43
      · rw [if_pos hplus] at h
        exact scanDigits_inInt32 h
      · rw [if_neg hplus] at h
        exact scanDigits_inInt32 h

/-- The four numbers of a placement are 32-bit numbers. -/
theorem scanPlacement_inInt32 {placement : WStr} {saved : Rect} {maxFlag : Int}
    (h : scanPlacement placement = some (saved, maxFlag)) :
    InInt32 saved.left ∧ InInt32 saved.top ∧ InInt32 saved.right ∧ InInt32 saved.bottom := by
  unfold scanPlacement at h
  simp only [Option.bind_eq_bind, Option.bind_eq_some_iff] at h
  obtain ⟨⟨l, s1⟩, hl, s2, -, ⟨t, s3⟩, ht, s4, -, ⟨r, s5⟩, hr, s6, -, ⟨b, s7⟩, hb, s8, -, ⟨f, s9⟩, -,
    heq⟩ := h
  cases heq
  exact ⟨scanLong_inInt32 hl, scanLong_inInt32 ht, scanLong_inInt32 hr, scanLong_inInt32 hb⟩

theorem clampWindowRect_iff {env : PlacementEnv} {saved : Rect}
    (hl : InInt32 saved.left) (ht : InInt32 saved.top) (hr : InInt32 saved.right)
    (hb : InInt32 saved.bottom) (hx : saved.left < saved.right) (hy : saved.top < saved.bottom)
    (hwork : OrdinaryArea (env.work saved)) :
    Restored (env.work saved) saved (env.scale 320) (env.scale 240)
        (clampWindowRectToNearestWorkArea env saved) ↔
      Restorable (env.work saved) saved (env.scale 320) (env.scale 240) := by
  unfold Restorable
  rw [← clampAxis_iff hwork.x hl hr hx, ← clampAxis_iff hwork.y ht hb hy]
  constructor
  · rintro ⟨⟨h1, h2, h3, h4⟩, hw, hh, -⟩
    exact ⟨⟨h1, h2, hw⟩, h3, h4, hh⟩
  · rintro ⟨⟨h1, h2, hw⟩, h3, h4, hh⟩
    refine ⟨⟨h1, h2, h3, h4⟩, hw, hh, ?_⟩
    rintro ⟨g1, g2, g3, g4⟩ hminW hminH
    have hkeepX := clampAxis_inside hwork.x hx g1 g2 hminW
    have hkeepY := clampAxis_inside hwork.y hy g3 g4 hminH
    unfold clampWindowRectToNearestWorkArea
    simp only [hkeepX, hkeepY]

/-- **A restored window is on screen** exactly when no extent and no far edge of the saved rectangle
leaves 32 bits on the way. -/
theorem restored_iff (env : PlacementEnv) (placement : WStr) (saved : Rect) (maxFlag : Int)
    (hscan : scanPlacement placement = some (saved, maxFlag)) (hx : saved.left < saved.right)
    (hy : saved.top < saved.bottom) (hwork : OrdinaryArea (env.work saved)) :
    ∃ out, loadWindowPlacement env placement = some (out, decide (maxFlag ≠ 0)) ∧
      (Restored (env.work saved) saved (env.scale 320) (env.scale 240) out ↔
        Restorable (env.work saved) saved (env.scale 320) (env.scale 240)) := by
  obtain ⟨hl, ht, hr, hb⟩ := scanPlacement_inInt32 hscan
  refine ⟨clampWindowRectToNearestWorkArea env saved, ?_,
    clampWindowRect_iff hl ht hr hb hx hy hwork⟩
  have hne : placement ≠ [] := by
    rintro rfl
    cases hscan
  unfold loadWindowPlacement
  rw [if_neg hne]
  simp only [hscan]
  rw [if_neg (by omega)]

/-- A screen of 1920 times 1080 with a task bar. -/
def oneScreen : PlacementEnv where
  workArea := ⟨0, 0, 1920, 1040⟩
  monitorWork := fun _ => some ⟨0, 0, 1920, 1040⟩
  cxScreen := 1920
  cyScreen := 1080
  dpi := 96

/-- A window that hangs over the right edge is brought back. -/
theorem restored_over_edge :
    ∃ out, loadWindowPlacement oneScreen (wide "1800,100,2600,700,0".toList) = some (out, false) ∧
      (Restored ⟨0, 0, 1920, 1040⟩ ⟨1800, 100, 2600, 700⟩ 320 240 out ↔
        Restorable ⟨0, 0, 1920, 1040⟩ ⟨1800, 100, 2600, 700⟩ 320 240) :=
  restored_iff oneScreen (wide "1800,100,2600,700,0".toList) ⟨1800, 100, 2600, 700⟩ 0 (by decide)
    (by decide) (by decide) ⟨⟨by decide, by decide, by decide, by decide⟩,
      ⟨by decide, by decide, by decide, by decide⟩⟩

/-- A small window at the far right end of the 32-bit numbers stays there. -/
theorem restored_off_screen :
    loadWindowPlacement oneScreen (wide "2147483500,100,2147483600,700,0".toList) =
        some (⟨2147483500, 100, -2147483476, 700⟩, false) ∧
      ¬ Restored ⟨0, 0, 1920, 1040⟩ ⟨2147483500, 100, 2147483600, 700⟩ 320 240
        ⟨2147483500, 100, -2147483476, 700⟩ :=
  ⟨by decide, fun h => absurd h.width (by decide)⟩

end ObZrv
