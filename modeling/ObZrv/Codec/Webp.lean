import ObZrv.Codec.Image

/-!
# Codec.Webp

`WebpImage` of `WebpCodec.cpp`. libwebp is a parameter: `WebpLib` gives back any well-typed result
at every call, and `D` is the state of its animation decoder.

* `openFromBuffer_cases`  : how an opened image looks: still, animated, or an animation with at
  most one frame, which has no bitmap.
* `nextFrame_kept`        : `nextFrame` keeps the bitmap or sets one of the size of the image.
-/

namespace ObZrv

/-- `WebPBitstreamFeatures`. -/
structure WebpFeatures where
  width : Int
  height : Int
  hasAlpha : Bool
  hasAnimation : Bool
deriving DecidableEq, Repr

/-- `WebPAnimInfo`. -/
structure WebpAnimInfo where
  canvasWidth : UInt32
  canvasHeight : UInt32
  loopCount : UInt32
  frameCount : UInt32
deriving DecidableEq, Repr

/-- What the codec calls of libwebp. `animDecoderGetNext` gives the timestamp of the frame it
decoded. -/
structure WebpLib (D : Type) where
  getFeatures : List UInt8 → Option WebpFeatures
  decodeBGRAInto : List UInt8 → Bool
  decodeBGRInto : List UInt8 → Bool
  animDecoderNew : List UInt8 → Option D
  animDecoderGetInfo : D → Option WebpAnimInfo
  animDecoderReset : D → D
  animDecoderHasMoreFrames : D → Bool
  animDecoderGetNext : D → Option Int × D

structure WebpImage (D : Type) where
  filebuf : Option (List UInt8)
  dimension : Size := ⟨0, 0⟩
  fbitmap : Option BasicBitmap := none
  framecnt : Int := 0
  frametm : Int := 0
  lframetm : Int := 0
  loopnum : Int := 0
  curfid : Int := 0
  animdec : Option D := none

namespace WebpImage

variable {D : Type} (lib : WebpLib D) (img : WebpImage D)

def isAnim : Bool := img.framecnt > 1

def getFrameDelay : Int := max 0 (img.frametm - img.lframetm)

def getBBitmap (scaleSize : Size) (cropRect : Rect) : Option BasicBitmap :=
  cropOf img.fbitmap scaleSize cropRect

/-- The bitmap that `nextFrame` copies a frame into: the old one if it fits, or a new one. -/
def frameBitmap : BasicBitmap :=
  match img.fbitmap with
  | some b =>
    if b.size ≠ img.dimension ∨ b.fmt ≠ .A8R8G8B8 then ⟨img.dimension, .A8R8G8B8⟩ else b
  | none => ⟨img.dimension, .A8R8G8B8⟩

/-- The image after the `if (rewind)` of `nextFrame`. -/
def rewound (rewind : Bool) : WebpImage D :=
  if rewind then
    { img with animdec := img.animdec.map lib.animDecoderReset, frametm := 0, lframetm := 0 }
  else img

/-- The rest of `nextFrame`. A null decoder has no more frames. -/
def decodeNext : IM × WebpImage D :=
  match img.animdec with
  | none => (.NO_MORE_FRAMES, img)
  | some dec =>
    if ¬ lib.animDecoderHasMoreFrames dec then (.NO_MORE_FRAMES, img)
    else
      let img := { img with lframetm := img.frametm }
      match lib.animDecoderGetNext dec with
      | (none, dec) => (.FAIL, { img with animdec := some dec })
      | (some tm, dec) =>
        (.OK, { img with animdec := some dec, frametm := tm, fbitmap := some img.frameBitmap })

def nextFrame (rewind : Bool) : IM × WebpImage D :=
  if ¬ img.isAnim then (.OK, img) else (img.rewound lib rewind).decodeNext lib

/-- The image data taken from `WebPAnimInfo`. -/
def withInfo (info : WebpAnimInfo) : WebpImage D :=
  { img with
    framecnt := info.frameCount.toBitVec.toInt
    loopnum := info.loopCount.toBitVec.toInt
    dimension := ⟨info.canvasWidth.toBitVec.toInt, info.canvasHeight.toBitVec.toInt⟩ }

/-- `openFromBuffer`, with `buf` what `readFromUniFile` has put in `_filebuf`. -/
def openFromBuffer (buf : List UInt8) : IM × WebpImage D :=
  let img : WebpImage D := { filebuf := some buf }
  match lib.getFeatures buf with
  | none => (.FAIL, img)
  | some fea =>
    if ¬ fea.hasAnimation then
      if (fea.hasAlpha ∧ ¬ lib.decodeBGRAInto buf) ∨ (¬ fea.hasAlpha ∧ ¬ lib.decodeBGRInto buf) then
        (.FAIL, img)
      else
        let size : Size := ⟨fea.width, fea.height⟩
        (.OK, { img with
          fbitmap := some ⟨size, if fea.hasAlpha then .A8R8G8B8 else .R8G8B8⟩
          dimension := size
          filebuf := none })
    else
      match lib.animDecoderNew buf with
      | none => (.FAIL, img)
      | some dec =>
        let img := { img with animdec := some dec }
        match lib.animDecoderGetInfo dec with
        | none => (.FAIL, img)
        | some info =>
          match (img.withInfo info).nextFrame lib true with
          | (.OK, img) =>
            -- one frame only: decoder and buffer are not needed any more
            if img.framecnt ≤ 1 then (.OK, { img with animdec := none, filebuf := none })
            else (.OK, img)
          | (res, img) => (res, img)

def ops : ImageOps (WebpImage D) where
  getFrameCount := framecnt
  getLoopNum := loopnum
  getFrameDelay := getFrameDelay
  nextFrame := nextFrame lib

/-- The file says it is animated and has at most one frame, counted as an `int`. -/
def OneFrameAnimation (buf : List UInt8) : Prop :=
  ∃ fea dec info, lib.getFeatures buf = some fea ∧ fea.hasAnimation = true ∧
    lib.animDecoderNew buf = some dec ∧ lib.animDecoderGetInfo dec = some info ∧
    info.frameCount.toBitVec.toInt ≤ 1

variable {lib img}

theorem frameBitmap_size : img.frameBitmap.size = img.dimension := by
  unfold frameBitmap
  split
  · split
    · rfl
    · rename_i h
      exact Decidable.not_not.mp (not_or.mp h).1
  · rfl

theorem nextFrame_still (h : img.framecnt ≤ 1) (rewind : Bool) :
    img.nextFrame lib rewind = (.OK, img) := by
  simp [nextFrame, isAnim, Int.not_lt.mpr h]

/-- How a step may change the bitmap: it keeps it, or it puts in one of the size of the image. -/
structure BitmapKept (img img' : WebpImage D) : Prop where
  dimension : img'.dimension = img.dimension
  framecnt : img'.framecnt = img.framecnt
  fbitmap : img'.fbitmap = img.fbitmap ∨ HasBitmap img'.fbitmap img.dimension

theorem BitmapKept.hasBitmap {img' : WebpImage D} (h : BitmapKept img img')
    (hb : HasBitmap img.fbitmap img.dimension) : HasBitmap img'.fbitmap img'.dimension := by
  rw [h.dimension]
  rcases h.fbitmap with h | h
  · rw [h]
    exact hb
  · exact h

theorem rewound_kept (lib : WebpLib D) (img : WebpImage D) (rewind : Bool) :
    BitmapKept img (img.rewound lib rewind) := by
  cases rewind
  · exact ⟨rfl, rfl, .inl rfl⟩
  · exact ⟨rfl, rfl, .inl rfl⟩

theorem decodeNext_kept (lib : WebpLib D) (img : WebpImage D) :
    BitmapKept img (img.decodeNext lib).2 := by
  unfold decodeNext
  split
  · exact ⟨rfl, rfl, .inl rfl⟩
  · split
    · exact ⟨rfl, rfl, .inl rfl⟩
    · simp only
      split
      · exact ⟨rfl, rfl, .inl rfl⟩
      · exact ⟨rfl, rfl, .inr ⟨_, rfl, frameBitmap_size⟩⟩

theorem decodeNext_ok (h : (img.decodeNext lib).1 = .OK) :
    HasBitmap (img.decodeNext lib).2.fbitmap img.dimension := by
  unfold decodeNext at h ⊢
  split at h
  · cases h
  · split at h
    · cases h
    · rename_i hmore
      simp only [hmore, if_false] at h ⊢
      split at h
      · cases h
      · exact ⟨_, rfl, frameBitmap_size⟩

theorem nextFrame_kept (lib : WebpLib D) (img : WebpImage D) (rewind : Bool) :
    BitmapKept img (img.nextFrame lib rewind).2 := by
  unfold nextFrame
  split
  · exact ⟨rfl, rfl, .inl rfl⟩
  · have h₁ := rewound_kept lib img rewind
    have h₂ := decodeNext_kept lib (img.rewound lib rewind)
    refine ⟨h₂.dimension.trans h₁.dimension, h₂.framecnt.trans h₁.framecnt, ?_⟩
    rcases h₂.fbitmap with h | h
    · rw [h]
      exact h₁.fbitmap
    · rw [h₁.dimension] at h
      exact .inr h

theorem nextFrame_anim_ok (lib : WebpLib D) (hanim : img.isAnim = true) (rewind : Bool)
    (h : (img.nextFrame lib rewind).1 = .OK) :
    HasBitmap (img.nextFrame lib rewind).2.fbitmap img.dimension := by
  have hdim := (rewound_kept lib img rewind).dimension
  simp only [nextFrame, hanim, not_true_eq_false, if_false] at h ⊢
  rw [← hdim]
  exact decodeNext_ok h

/-! ## Opening -/

/-- A still image has its bitmap. -/
theorem openFromBuffer_still {buf : List UInt8} {fea : WebpFeatures}
    (hfea : lib.getFeatures buf = some fea) (hanim : ¬ fea.hasAnimation = true)
    (h : openFromBuffer lib buf = (.OK, img)) : HasBitmap img.fbitmap img.dimension := by
  simp only [openFromBuffer, hfea, hanim, Bool.false_eq_true, not_false_eq_true, if_true] at h
  split at h
  · cases h
  · cases h
    exact ⟨_, rfl, rfl⟩

/-- An animation has the bitmap of its first frame, unless it has at most one: then `nextFrame` did
nothing and reported success. -/
theorem openFromBuffer_anim {buf : List UInt8} {fea : WebpFeatures}
    (hfea : lib.getFeatures buf = some fea) (hanim : fea.hasAnimation = true)
    (h : openFromBuffer lib buf = (.OK, img)) :
    ∃ dec info, lib.animDecoderNew buf = some dec ∧ lib.animDecoderGetInfo dec = some info ∧
      (info.frameCount.toBitVec.toInt ≤ 1 ∧ img.fbitmap = none ∧ img.framecnt ≤ 1 ∨
        ¬ info.frameCount.toBitVec.toInt ≤ 1 ∧ HasBitmap img.fbitmap img.dimension) := by
  simp only [openFromBuffer, hfea, hanim, not_true_eq_false, if_false] at h
  cases hdec : lib.animDecoderNew buf with
  | none =>
    simp only [hdec] at h
    cases h
  | some dec =>
    simp only [hdec] at h
    cases hinfo : lib.animDecoderGetInfo dec with
    | none =>
      simp only [hinfo] at h
      cases h
    | some info =>
      simp only [hinfo] at h
      refine ⟨dec, info, rfl, hinfo, ?_⟩
      generalize hstart : WebpImage.withInfo _ info = start at h
      have hcnt : start.framecnt = info.frameCount.toBitVec.toInt := by
        rw [← hstart]
        rfl
      rw [← hcnt]
      by_cases hone : start.framecnt ≤ 1
      · simp only [nextFrame_still hone, hone, if_true, Prod.mk.injEq, true_and] at h
        refine .inl ⟨hone, ?_, ?_⟩
        · rw [← h, ← hstart]
          rfl
        · rw [← h]
          exact hone
      · have hanim' : start.isAnim = true := by simpa [isAnim] using hone
        have hkept := nextFrame_kept lib start true
        have hok := nextFrame_anim_ok lib hanim' true
        refine .inr ⟨hone, ?_⟩
        generalize hnext : start.nextFrame lib true = next at h hkept hok
        obtain ⟨res, img'⟩ := next
        cases res
        case OK =>
          have hmany : ¬ img'.framecnt ≤ 1 := by
            rw [hkept.framecnt]
            exact hone
          simp only [hmany, if_false, Prod.mk.injEq, true_and] at h
          rw [← h, hkept.dimension]
          exact hok rfl
        all_goals cases h

/-- An opened image: with a bitmap, unless the file is an animation of at most one frame. -/
theorem openFromBuffer_cases {buf : List UInt8} (h : openFromBuffer lib buf = (.OK, img)) :
    (OneFrameAnimation lib buf ∧ img.fbitmap = none ∧ img.framecnt ≤ 1) ∨
      (¬ OneFrameAnimation lib buf ∧ HasBitmap img.fbitmap img.dimension) := by
  unfold OneFrameAnimation
  cases hfea : lib.getFeatures buf with
  | none =>
    simp only [openFromBuffer, hfea] at h
    cases h
  | some fea =>
    by_cases hanim : fea.hasAnimation = true
    · obtain ⟨dec, info, hdec, hinfo, ⟨hone, hnone, hcnt⟩ | ⟨hmany, hbitmap⟩⟩ :=
        openFromBuffer_anim hfea hanim h
      · exact .inl ⟨⟨fea, dec, info, rfl, hanim, hdec, hinfo, hone⟩, hnone, hcnt⟩
      · refine .inr ⟨?_, hbitmap⟩
        rintro ⟨_, _, _, hf, -, hd, hi, hle⟩
        cases hf
        cases hdec.symm.trans hd
        cases hinfo.symm.trans hi
        exact hmany hle
    · refine .inr ⟨?_, openFromBuffer_still hfea hanim h⟩
      rintro ⟨_, _, _, hf, ha, -⟩
      cases hf
      exact hanim ha

end WebpImage

end ObZrv
