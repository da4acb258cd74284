import ObZrv.Codec.Image

/-!
# Codec.GdiPlus

`GdiPlusImage` of `GdiPlusCodec.cpp` and `gdiplusConvert`. GDI+ is a parameter: `GdiLib` gives
back any well-typed result at every call, and `G` is the state of its bitmap object.

* `openFromBuffer_hasBitmap` : an opened image has a bitmap of its size.
* `gdiplusConvert_isSome`    : a frame is converted exactly when all its blocks can be locked.
* `nextFrame_hasBitmap_iff`  : so after `nextFrame` the image has a bitmap of its size again exactly
  when GDI+ locks all blocks of the frame selected and reports that size for it.
-/

namespace ObZrv

inductive GdiFormat where
  | gif
  | tiff
  | other
deriving DecidableEq, Repr

/-- The frame dimension ids the codec selects frames by. -/
inductive FrameDimension where
  | time
  | page
deriving DecidableEq, Repr

inductive GdiPixelFormat where
  | argb32
  | rgb24
  | rgb565
  | argb1555
  | rgb555
  | pargb32
  | argb64
  | pargb64
  | other
deriving DecidableEq, Repr

/-- What the codec calls of GDI+. `Id` is a frame dimension id as the list reports it; a property
that is missing is `none`. -/
structure GdiLib (G Id : Type) where
  createStream : List UInt8 → Bool
  fromStream : List UInt8 → Option G
  getWidth : G → UInt32
  getHeight : G → UInt32
  getRawFormat : G → Option GdiFormat
  getFrameDimensions : G → Option (List Id)
  getFrameCount : G → Id → UInt32
  frameDelay : G → Option (Nat → Int)
  loopCount : G → Option Int
  getPixelFormat : G → GdiPixelFormat
  selectActiveFrame : G → FrameDimension → Int → G
  lockBits : G → Nat → Nat → PixelFmt → Bool × G

/-- The pixel format a frame is converted to. -/
def outFormat : GdiPixelFormat → PixelFmt
  | .argb32 => .A8R8G8B8
  | .rgb24 => .R8G8B8
  | .rgb565 => .R5G6B5
  | .argb1555 => .A1R5G5B5
  | .rgb555 => .X1R5G5B5
  | .pargb32 | .argb64 | .pargb64 => .A8R8G8B8
  | .other => .R8G8B8

def PixelFmt.nbytes : PixelFmt → Nat
  | .A8R8G8B8 => 4
  | .R8G8B8 => 3
  | .R5G6B5 | .A1R5G5B5 | .X1R5G5B5 => 2

section Convert

variable {G Id : Type} (lib : GdiLib G Id)

/-- The block loop of `gdiplusConvert` from row `i` on; false if a block cannot be locked. -/
def lockRows (fmt : PixelFmt) (linestep height : Nat) : Nat → Nat → G → Bool × G
  | 0, _, g => (true, g)
  | fuel + 1, i, g =>
    if i < height then
      match lib.lockBits g i (min linestep (height - i)) fmt with
      | (true, g) => lockRows fmt linestep height fuel (i + linestep) g
      | (false, g) => (false, g)
    else (true, g)

/-- `gdiplusConvert`: the frame that is active, in blocks of about 10 MB. -/
def gdiplusConvert (g : G) : Option BasicBitmap × G :=
  let fmt := outFormat (lib.getPixelFormat g)
  let width := lib.getWidth g
  let height := lib.getHeight g
  let stride := (fmt.nbytes * width.toNat + 3) / 4 * 4
  let linestep := max 1 (1024 * 1024 * 10 / stride)
  match lockRows lib fmt linestep height.toNat height.toNat 0 g with
  | (true, g) => (some ⟨⟨width.toBitVec.toInt, height.toBitVec.toInt⟩, fmt⟩, g)
  | (false, g) => (none, g)

/-- GDI+ once it was asked for the first `n` blocks of `linestep` rows. -/
def blockState (fmt : PixelFmt) (linestep height : Nat) (g : G) : Nat → G
  | 0 => g
  | n + 1 => (lib.lockBits (blockState fmt linestep height g n) (n * linestep)
      (min linestep (height - n * linestep)) fmt).2

/-- The answer of GDI+ for block `n`. -/
def blockLocks (fmt : PixelFmt) (linestep height : Nat) (g : G) (n : Nat) : Bool :=
  (lib.lockBits (blockState lib fmt linestep height g n) (n * linestep)
    (min linestep (height - n * linestep)) fmt).1

/-- GDI+ locks every block of the active frame. -/
def FrameLocks (g : G) : Prop :=
  let fmt := outFormat (lib.getPixelFormat g)
  let height := (lib.getHeight g).toNat
  let stride := (fmt.nbytes * (lib.getWidth g).toNat + 3) / 4 * 4
  let linestep := max 1 (1024 * 1024 * 10 / stride)
  ∀ n, n * linestep < height → blockLocks lib fmt linestep height g n = true

/-- The size of the active frame, as `SIZE` holds it. -/
def frameSize (g : G) : Size :=
  ⟨(lib.getWidth g).toBitVec.toInt, (lib.getHeight g).toBitVec.toInt⟩

theorem lockRows_iff (fmt : PixelFmt) {linestep : Nat} (height : Nat) (hstep : 1 ≤ linestep) (g : G)
    (fuel : Nat) : ∀ n, height ≤ n * linestep + fuel →
      ((lockRows lib fmt linestep height fuel (n * linestep)
          (blockState lib fmt linestep height g n)).1 = true ↔
        ∀ m, n ≤ m → m * linestep < height → blockLocks lib fmt linestep height g m = true) := by
  induction fuel with
  | zero =>
    intro n hfuel
    refine iff_of_true rfl fun m hm hlt => ?_
    have := Nat.mul_le_mul_right linestep hm
    omega
  | succ fuel ih =>
    intro n hfuel
    by_cases hlt : n * linestep < height
    · have hnext := ih (n + 1) (by rw [Nat.succ_mul]; omega)
      have hlock : blockLocks lib fmt linestep height g n = (lib.lockBits
        (blockState lib fmt linestep height g n) (n * linestep)
        (min linestep (height - n * linestep)) fmt).1 := rfl
      rw [blockState, Nat.succ_mul] at hnext
      rw [lockRows, if_pos hlt]
      generalize lib.lockBits (blockState lib fmt linestep height g n) (n * linestep)
        (min linestep (height - n * linestep)) fmt = r at hnext hlock
      obtain ⟨_ | _, g'⟩ := r
      · refine iff_of_false Bool.false_ne_true fun hall => ?_
        rw [hall n (Nat.le_refl n) hlt] at hlock
        cases hlock
      · refine hnext.trans ⟨fun hall m hm hm' => ?_, fun hall m hm => hall m (by omega)⟩
        rcases Nat.eq_or_lt_of_le hm with rfl | hm
        · exact hlock
        · exact hall m hm hm'
    · rw [lockRows, if_neg hlt]
      refine iff_of_true rfl fun m hm hlt' => ?_
      have := Nat.mul_le_mul_right linestep hm
      omega

variable {lib}

/-- A frame is converted exactly when all its blocks can be locked. -/
theorem gdiplusConvert_isSome (g : G) :
    (gdiplusConvert lib g).1.isSome ↔ FrameLocks lib g := by
  unfold gdiplusConvert FrameLocks
  simp only
  have hrows := lockRows_iff lib (outFormat (lib.getPixelFormat g)) (lib.getHeight g).toNat
    (Nat.le_max_left 1 (1024 * 1024 * 10 /
      (((outFormat (lib.getPixelFormat g)).nbytes * (lib.getWidth g).toNat + 3) / 4 * 4))) g
    (lib.getHeight g).toNat 0 (by omega)
  rw [Nat.zero_mul, blockState] at hrows
  simp only [Nat.zero_le, true_imp_iff] at hrows
  rw [← hrows]
  generalize lockRows lib _ _ _ _ 0 g = r
  obtain ⟨_ | _, g'⟩ := r
  · exact iff_of_false Bool.false_ne_true Bool.false_ne_true
  · exact iff_of_true rfl rfl

theorem gdiplusConvert_size {g : G} {b : BasicBitmap} (h : (gdiplusConvert lib g).1 = some b) :
    b.size = frameSize lib g := by
  unfold gdiplusConvert at h
  simp only at h
  split at h
  · obtain rfl := Option.some.inj h
    rfl
  · cases h

/-- What the conversion gives is a bitmap of a size exactly when all blocks can be locked and the
frame has that size. -/
theorem gdiplusConvert_hasBitmap (g : G) (dimension : Size) :
    HasBitmap (gdiplusConvert lib g).1 dimension ↔
      FrameLocks lib g ∧ frameSize lib g = dimension := by
  rw [← gdiplusConvert_isSome]
  constructor
  · rintro ⟨b, hb, hsize⟩
    exact ⟨by rw [hb]; rfl, (gdiplusConvert_size hb).symm.trans hsize⟩
  · rintro ⟨hsome, hsize⟩
    obtain ⟨b, hb⟩ := Option.isSome_iff_exists.mp hsome
    exact ⟨b, hb, (gdiplusConvert_size hb).trans hsize⟩

end Convert

structure GdiPlusImage (G : Type) where
  filebuf : Option (List UInt8)
  imgfmt : GdiFormat := .other
  dimension : Size := ⟨0, 0⟩
  framecnt : Int := 0
  framedelay : List Int := []
  loopnum : Int := 0
  curfid : Int := 0
  fbitmap : Option BasicBitmap := none
  gbitmap : Option G := none

namespace GdiPlusImage

variable {G Id : Type} (lib : GdiLib G Id) (img : GdiPlusImage G)

def getBBitmap (scaleSize : Size) (cropRect : Rect) : Option BasicBitmap :=
  cropOf img.fbitmap scaleSize cropRect

/-- `nextFrame` selects frame `fid`: `none` where it returns before. -/
def frameToShow (rewind : Bool) : Option (G × Int) :=
  let fid := if rewind then 0 else img.curfid + 1
  if img.framecnt ≤ 1 ∨ fid ≥ img.framecnt then none else img.gbitmap.map (·, fid)

/-- The bitmap object with that frame active. -/
def selectFrame (g : G) (fid : Int) : G :=
  lib.selectActiveFrame g (if img.imgfmt = .gif then .time else .page) fid

def nextFrame (rewind : Bool) : IM × GdiPlusImage G :=
  if img.framecnt ≤ 1 then (.OK, img)
  else
    let img := { img with curfid := if rewind then 0 else img.curfid + 1 }
    if img.curfid ≥ img.framecnt then (.NO_MORE_FRAMES, img)
    else
      match img.gbitmap with
      | none => (.FAIL, img)
      | some g =>
        match gdiplusConvert lib (img.selectFrame lib g img.curfid) with
        | (none, g) => (.FAIL, { img with fbitmap := none, gbitmap := some g })
        | (some bmp, g) => (.OK, { img with fbitmap := some bmp, gbitmap := some g })

/-- `getFrameDelay`; the table has an entry for every frame. -/
def getFrameDelay : Int := img.framedelay.getD img.curfid.toNat 0

def ops : ImageOps (GdiPlusImage G) where
  getFrameCount := framecnt
  getLoopNum := loopnum
  getFrameDelay := getFrameDelay
  nextFrame := nextFrame lib

/-- The properties of an animated file: the delay of each frame and the loop count. -/
def readAnimation (framecnt : UInt32) (g : G) : Option (List Int × Int) :=
  match lib.frameDelay g, lib.loopCount g with
  | some delay, some loopnum =>
    let framedelay := (List.range framecnt.toNat).map fun i => max (delay i * 10) 0
    -- if all delays are 0, force one loop only
    some (framedelay, if framedelay.foldl (· + ·) 0 = 0 ∧ loopnum ≤ 0 then 1 else loopnum)
  | _, _ => none

/-- The end of `openFromBuffer`: the first frame becomes the bitmap. -/
def convertFirst (g : G) : IM × GdiPlusImage G :=
  match gdiplusConvert lib g with
  | (none, g) => (.FAIL, { img with gbitmap := some g })
  | (some bmp, g) =>
    if img.framecnt ≤ 1 then
      (.OK, { img with fbitmap := some bmp, gbitmap := none, filebuf := none })
    else (.OK, { img with fbitmap := some bmp, gbitmap := some g })

/-- `openFromBuffer`, with `buf` what `readFromUniFile` has put in `_filebuf`. -/
def openFromBuffer (buf : List UInt8) : IM × GdiPlusImage G :=
  let img : GdiPlusImage G := { filebuf := some buf }
  if ¬ lib.createStream buf then (.FAIL, img)
  else
    match lib.fromStream buf with
    | none => (.FAIL, img)
    | some g =>
      let img := { img with
        gbitmap := some g
        dimension := ⟨(lib.getWidth g).toBitVec.toInt, (lib.getHeight g).toBitVec.toInt⟩ }
      match lib.getRawFormat g with
      | none => (.NOT_SUPPORTED, img)
      | some imgfmt =>
        match lib.getFrameDimensions g with
        | none => (.FAIL, { img with imgfmt })
        | some dimids =>
          let framecnt : UInt32 := (dimids.head?.map (lib.getFrameCount g)).getD 1
          let cnt := framecnt.toBitVec.toInt
          -- only animated gifs and tiffs are supported
          let cnt := if cnt > 1 ∧ imgfmt ≠ .gif ∧ imgfmt ≠ .tiff then 1 else cnt
          let img := { img with imgfmt, framecnt := cnt }
          if framecnt > 1 then
            match readAnimation lib framecnt g with
            | none => (.FAIL, img)
            | some (framedelay, loopnum) => { img with framedelay, loopnum }.convertFirst lib g
          else img.convertFirst lib g

/-- GDI+ locks all blocks of the frame that `nextFrame` is about to show, and reports the size of the
image for it. -/
def FrameOk (rewind : Bool) : Prop :=
  ∀ g fid, img.frameToShow rewind = some (g, fid) →
    FrameLocks lib (img.selectFrame lib g fid) ∧
      frameSize lib (img.selectFrame lib g fid) = img.dimension

variable {lib img}

theorem convertFirst_ok (lib : GdiLib G Id) (img : GdiPlusImage G) {g : G}
    (h : (img.convertFirst lib g).1 = .OK) :
    HasBitmap (img.convertFirst lib g).2.fbitmap
        ⟨(lib.getWidth g).toBitVec.toInt, (lib.getHeight g).toBitVec.toInt⟩ ∧
      (img.convertFirst lib g).2.dimension = img.dimension := by
  have hsize : ∀ b, (gdiplusConvert lib g).1 = some b → b.size = _ :=
    fun _ => gdiplusConvert_size
  unfold convertFirst at h ⊢
  generalize gdiplusConvert lib g = r at h hsize ⊢
  obtain ⟨_ | bmp, g'⟩ := r
  · cases h
  · have hb := hsize bmp rfl
    simp only
    split
    · exact ⟨⟨bmp, rfl, hb⟩, rfl⟩
    · exact ⟨⟨bmp, rfl, hb⟩, rfl⟩

theorem openFromBuffer_hasBitmap {buf : List UInt8} (h : openFromBuffer lib buf = (.OK, img)) :
    HasBitmap img.fbitmap img.dimension := by
  -- whatever the image holds before, the last step puts the bitmap in
  have hlast : ∀ (start : GdiPlusImage G) (g : G),
      start.dimension = ⟨(lib.getWidth g).toBitVec.toInt, (lib.getHeight g).toBitVec.toInt⟩ →
      start.convertFirst lib g = (.OK, img) → HasBitmap img.fbitmap img.dimension := by
    intro start g hdim hstart
    have hok := convertFirst_ok lib start (g := g)
    rw [hstart] at hok
    obtain ⟨hb, hd⟩ := hok rfl
    rw [hd, hdim]
    exact hb
  unfold openFromBuffer at h
  simp only at h
  split at h
  · cases h
  · split at h
    · cases h
    · split at h
      · cases h
      · split at h
        · cases h
        · split at h
          · split at h
            · cases h
            · exact hlast _ _ rfl h
          · exact hlast _ _ rfl h

theorem nextFrame_cases (lib : GdiLib G Id) (img : GdiPlusImage G) (rewind : Bool) :
    (img.nextFrame lib rewind).2.dimension = img.dimension ∧
      ((img.frameToShow rewind = none ∧
          (img.nextFrame lib rewind).2.fbitmap = img.fbitmap) ∨
        ∃ g fid, img.frameToShow rewind = some (g, fid) ∧
          (img.nextFrame lib rewind).2.fbitmap =
            (gdiplusConvert lib (img.selectFrame lib g fid)).1) := by
  unfold nextFrame frameToShow
  by_cases hcnt : img.framecnt ≤ 1
  · simp [hcnt]
  · by_cases hend : (if rewind then 0 else img.curfid + 1) ≥ img.framecnt
    · simp [hcnt, hend]
    · simp only [hcnt, hend, or_self, if_false]
      cases hg : img.gbitmap with
      | none => simp
      | some g =>
        simp only [Option.map_some]
        refine ⟨?_, .inr ⟨g, _, rfl, ?_⟩⟩
        · split <;> rfl
        · split
          · rename_i g' hc
            exact (congrArg Prod.fst hc).symm
          · rename_i bmp g' hc
            exact (congrArg Prod.fst hc).symm

theorem nextFrame_hasBitmap_iff (h : HasBitmap img.fbitmap img.dimension) (rewind : Bool) :
    HasBitmap (img.nextFrame lib rewind).2.fbitmap (img.nextFrame lib rewind).2.dimension ↔
      img.FrameOk lib rewind := by
  obtain ⟨hdim, ⟨hshow, hkeep⟩ | ⟨g, fid, hshow, hnew⟩⟩ :=
    nextFrame_cases lib img rewind
  · rw [hdim, hkeep]
    refine iff_of_true h ?_
    intro g fid hs
    rw [hshow] at hs
    cases hs
  · rw [hdim, hnew, FrameOk, hshow]
    constructor
    · rintro hb _ _ ⟨⟩
      exact (gdiplusConvert_hasBitmap _ _).mp hb
    · exact fun hall => (gdiplusConvert_hasBitmap _ _).mpr (hall g fid rfl)

end GdiPlusImage

end ObZrv
