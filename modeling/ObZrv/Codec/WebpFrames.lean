import ObZrv.Lib.Machine
import ObZrv.Bitmap.Raster
import ObZrv.Codec.Bitmap

/-!
# Codec.WebpFrames

`WebpImage` with the pixels. The bitmap of an animation is used again for the next frame.

* `nextFrame_outline` : without the pixels this is `WebpImage`.
* `nextFrame_drawn`   : a frame that is decoded takes the place of the one before.
* `webp_frame_shown`  : the bitmap always shows a frame of the file, whole and blended.
-/

namespace ObZrv

open Lib

/-- What libwebp writes: into memory with a stride, and to the canvas of the frame that the decoder is
at. -/
structure WebpData (D : Type) where
  decodeBGRAInto : List UInt8 → Int → (Int → UInt8) → Int → UInt8
  decodeBGRInto : List UInt8 → Int → (Int → UInt8) → Int → UInt8
  canvas : D → Int → UInt8

/-- `WebpImage`, with the pixels of its bitmap. -/
structure WebpPixels (D : Type) where
  filebuf : Option (List UInt8)
  dimension : Size := ⟨0, 0⟩
  fbitmap : Option Raster := none
  bgcolor : UInt32
  framecnt : Int := 0
  frametm : Int := 0
  lframetm : Int := 0
  loopnum : Int := 0
  curfid : Int := 0
  animdec : Option D := none

namespace WebpPixels

variable {D : Type} (lib : WebpLib D) (data : WebpData D) (fresh : Int → UInt8) (img : WebpPixels D)

/-- The image without the pixels. -/
def outline : WebpImage D :=
  { filebuf := img.filebuf, dimension := img.dimension, fbitmap := img.fbitmap.map Raster.outline,
    framecnt := img.framecnt, frametm := img.frametm, lframetm := img.lframetm,
    loopnum := img.loopnum, curfid := img.curfid, animdec := img.animdec }

def isAnim : Bool := img.framecnt > 1

/-- The bitmap that `nextFrame` copies a frame into: the old one if it fits, or a new one. -/
def frameBitmap : Raster :=
  match img.fbitmap with
  | some b =>
    if b.w ≠ img.dimension.cx ∨ b.h ≠ img.dimension.cy ∨ b.fmt ≠ .A8R8G8B8 then
      .create img.dimension.cx img.dimension.cy .A8R8G8B8 fresh
    else b
  | none => .create img.dimension.cx img.dimension.cy .A8R8G8B8 fresh

/-- The loop that copies a frame, row by row. -/
def copyFrame (decbits : Int → UInt8) (b : Raster) : Raster :=
  let linelen := img.dimension.cx * 4
  b.setBits (fillRows b.pitch linelen b.h.toNat (fun i k => decbits (linelen * i + k)) b.bits)

/-- The image after the `if (rewind)` of `nextFrame`. -/
def rewound (rewind : Bool) : WebpPixels D :=
  if rewind then
    { img with animdec := img.animdec.map lib.animDecoderReset, frametm := 0, lframetm := 0 }
  else img

/-- The rest of `nextFrame`. A null decoder has no more frames. -/
def decodeNext : IM × WebpPixels D :=
  match img.animdec with
  | none => (.NO_MORE_FRAMES, img)
  | some dec =>
    if ¬ lib.animDecoderHasMoreFrames dec then (.NO_MORE_FRAMES, img)
    else
      let img := { img with lframetm := img.frametm }
      let decbits := data.canvas dec
      match lib.animDecoderGetNext dec with
      | (none, dec) => (.FAIL, { img with animdec := some dec })
      | (some tm, dec) =>
        let b := img.copyFrame decbits (img.frameBitmap fresh)
        (.OK, { img with
          animdec := some dec, frametm := tm, fbitmap := some (b.blendColor img.bgcolor) })

def nextFrame (rewind : Bool) : IM × WebpPixels D :=
  if ¬ img.isAnim then (.OK, img) else (img.rewound lib rewind).decodeNext lib data fresh

/-- The image data taken from `WebPAnimInfo`. -/
def withInfo (info : WebpAnimInfo) : WebpPixels D :=
  { img with
    framecnt := info.frameCount.toBitVec.toInt
    loopnum := info.loopCount.toBitVec.toInt
    dimension := ⟨info.canvasWidth.toBitVec.toInt, info.canvasHeight.toBitVec.toInt⟩ }

/-- `openFromBuffer`, with `buf` what `readFromUniFile` has put in `_filebuf`. -/
def openFromBuffer (bgcolor : UInt32) (buf : List UInt8) : IM × WebpPixels D :=
  let img : WebpPixels D := { filebuf := some buf, bgcolor }
  match lib.getFeatures buf with
  | none => (.FAIL, img)
  | some fea =>
    if ¬ fea.hasAnimation then
      let bmp := Raster.create fea.width fea.height (if fea.hasAlpha then .A8R8G8B8 else .R8G8B8) fresh
      if (fea.hasAlpha ∧ ¬ lib.decodeBGRAInto buf) ∨ (¬ fea.hasAlpha ∧ ¬ lib.decodeBGRInto buf) then
        (.FAIL, img)
      else
        let bmp := bmp.setBits (if fea.hasAlpha then data.decodeBGRAInto buf bmp.pitch bmp.bits
          else data.decodeBGRInto buf bmp.pitch bmp.bits)
        (.OK, { img with
          fbitmap := some (bmp.blendColor img.bgcolor)
          dimension := ⟨fea.width, fea.height⟩
          filebuf := none })
    else
      match lib.animDecoderNew buf with
      | none => (.FAIL, img)
      | some dec =>
        let img := { img with animdec := some dec }
        match lib.animDecoderGetInfo dec with
        | none => (.FAIL, img)
        | some info =>
          match (img.withInfo info).nextFrame lib data fresh true with
          | (.OK, img) =>
            -- one frame only: decoder and buffer are not needed any more
            if img.framecnt ≤ 1 then (.OK, { img with animdec := none, filebuf := none })
            else (.OK, img)
          | (res, img) => (res, img)

/-- An image opened from `buf` and the `nextFrame` calls made on it, each with what is in the memory it
gets. -/
def shown (bgcolor : UInt32) (buf : List UInt8) : Machine (WebpPixels D) (Bool × (Int → UInt8)) :=
  .ofExec (fun img => ∃ fresh, openFromBuffer lib data fresh bgcolor buf = (.OK, img))
    fun img l => some (img.nextFrame lib data l.2 l.1).2

end WebpPixels

/-- What libwebp promises of the file `buf`: it has a size within its limits, and its frames have their
rows, byte for byte; a still image is written as frame 0, and the canvas is that of the frame the
decoder is at, which goes on by one when it has been decoded. -/
structure WebpFile {D : Type} (lib : WebpLib D) (data : WebpData D) (buf : List UInt8) where
  width : Nat
  height : Nat
  width_le : 1 ≤ width ∧ width ≤ 16383
  height_le : 1 ≤ height ∧ height ≤ 16383
  row : PixelFmt → Nat → Nat → Nat → UInt8
  pos : D → Nat
  features : ∀ fea, lib.getFeatures buf = some fea → fea.width = width ∧ fea.height = height
  info : ∀ dec info, lib.animDecoderNew buf = some dec → lib.animDecoderGetInfo dec = some info →
    info.canvasWidth.toNat = width ∧ info.canvasHeight.toNat = height
  bgra : lib.decodeBGRAInto buf = true → ∀ (stride : Int) mem, 4 * width ≤ stride →
    ∀ y < height, ∀ k < 4 * width,
      data.decodeBGRAInto buf stride mem ((y : Int) * stride + (k : Int)) = row .A8R8G8B8 0 y k
  bgr : lib.decodeBGRInto buf = true → ∀ (stride : Int) mem, 3 * width ≤ stride →
    ∀ y < height, ∀ k < 3 * width,
      data.decodeBGRInto buf stride mem ((y : Int) * stride + (k : Int)) = row .R8G8B8 0 y k
  created : ∀ dec, lib.animDecoderNew buf = some dec → pos dec = 0
  reset : ∀ dec, pos (lib.animDecoderReset dec) = 0
  next : ∀ dec tm dec', lib.animDecoderGetNext dec = (some tm, dec') → pos dec' = pos dec + 1 ∧
    ∀ y < height, ∀ k < 4 * width,
      data.canvas dec (((4 * width : Nat) : Int) * y + k) = row .A8R8G8B8 (pos dec) y k

section Frames

variable {D : Type} {lib : WebpLib D} {data : WebpData D} {buf : List UInt8}

/-- The bitmap is that of frame `i`, blended with the colour, with alpha or without. -/
def WebpFile.Drawn (file : WebpFile lib data buf) (color : UInt32) (i : Nat) (bmp : Raster) : Prop :=
  ∃ fmt : PixelFmt, bmp.fmt = fmt.toFmt ∧ bmp.w = file.width ∧ bmp.h = file.height ∧
    bmp.Shows color (file.row fmt i)

namespace WebpPixels

variable {fresh : Int → UInt8} {img : WebpPixels D}

/-! ## Without the pixels -/

/-- The bitmap has a format that the codecs produce. -/
def Produced (img : WebpPixels D) : Prop :=
  ∀ b, img.fbitmap = some b → ∃ fmt : PixelFmt, b.fmt = fmt.toFmt

theorem frameBitmap_outline (h : img.Produced) :
    (img.frameBitmap fresh).outline = img.outline.frameBitmap := by
  unfold frameBitmap WebpImage.frameBitmap
  cases hb : img.fbitmap with
  | none => simp only [outline, hb, Option.map_none, Raster.outline, Raster.create]; rfl
  | some b =>
    obtain ⟨fmt, hfmt⟩ := h b hb
    have hsize : (b.outline.size ≠ img.dimension ∨ b.outline.fmt ≠ .A8R8G8B8) ↔
        (b.w ≠ img.dimension.cx ∨ b.h ≠ img.dimension.cy ∨ b.fmt ≠ .A8R8G8B8) := by
      have hf : b.outline.fmt = .A8R8G8B8 ↔ b.fmt = .A8R8G8B8 := by
        rw [Raster.outline, hfmt, PixelFmt.toPixelFmt_toFmt]
        cases fmt <;> simp [PixelFmt.toFmt]
      have hs : b.outline.size = img.dimension ↔ b.w = img.dimension.cx ∧ b.h = img.dimension.cy := by
        rw [Raster.outline, Size.mk.injEq]
      rw [ne_eq, ne_eq, hf, hs]
      tauto
    simp only [outline, hb, Option.map_some, hsize]
    split
    · rfl
    · rfl

theorem decodeNext_outline (h : img.Produced) :
    ((img.decodeNext lib data fresh).1, (img.decodeNext lib data fresh).2.outline) =
      img.outline.decodeNext lib := by
  unfold decodeNext WebpImage.decodeNext
  have hdec : img.outline.animdec = img.animdec := rfl
  rw [hdec]
  cases hd : img.animdec with
  | none => rfl
  | some dec =>
    dsimp only
    split
    · rfl
    · obtain ⟨_ | tm, dec'⟩ := lib.animDecoderGetNext dec
      · rfl
      · have hcopied : ((img.copyFrame (data.canvas dec) (img.frameBitmap fresh)).blendColor
            img.bgcolor).outline = img.outline.frameBitmap :=
          (Raster.outline_blendColor _ _).trans (frameBitmap_outline h)
        exact congrArg (fun b => (IM.OK, { img.outline with
          animdec := some dec', frametm := tm, lframetm := img.frametm, fbitmap := some b })) hcopied

theorem nextFrame_outline (data : WebpData D) (fresh : Int → UInt8) (h : img.Produced) (rewind : Bool) :
    ((img.nextFrame lib data fresh rewind).1, (img.nextFrame lib data fresh rewind).2.outline) =
      img.outline.nextFrame lib rewind := by
  unfold nextFrame WebpImage.nextFrame
  have hanim : img.outline.isAnim = img.isAnim := rfl
  rw [hanim]
  split
  · rfl
  · have hrewound : (img.rewound lib rewind).outline = img.outline.rewound lib rewind := by
      cases rewind <;> rfl
    have hproduced : (img.rewound lib rewind).Produced := by
      cases rewind
      · exact h
      · exact h
    rw [← hrewound]
    exact decodeNext_outline hproduced

theorem openFromBuffer_outline (data : WebpData D) (fresh : Int → UInt8) (bgcolor : UInt32) :
    ((openFromBuffer lib data fresh bgcolor buf).1,
        (openFromBuffer lib data fresh bgcolor buf).2.outline) =
      WebpImage.openFromBuffer lib buf := by
  unfold openFromBuffer WebpImage.openFromBuffer
  cases lib.getFeatures buf with
  | none => rfl
  | some fea =>
    dsimp only
    by_cases hanim : fea.hasAnimation = true
    · simp only [hanim, not_true_eq_false, if_false]
      cases lib.animDecoderNew buf with
      | none => rfl
      | some dec =>
        dsimp only
        cases lib.animDecoderGetInfo dec with
        | none => rfl
        | some info =>
          dsimp only
          have hnone : (withInfo ({ filebuf := some buf, bgcolor, animdec := some dec } : WebpPixels D)
            info).Produced := fun _ h => by cases h
          have hnext : _ =
              (WebpImage.withInfo { filebuf := some buf, animdec := some dec } info).nextFrame lib true := nextFrame_outline data fresh hnone true
          rw [← hnext]
          generalize (withInfo _ info).nextFrame lib data fresh true = next
          obtain ⟨res, img'⟩ := next
          cases res
          case OK =>
            have hcnt : img'.outline.framecnt = img'.framecnt := rfl
            simp only [hcnt]
            split <;> rfl
          all_goals rfl
    · simp only [hanim, Bool.false_eq_true, not_false_eq_true, if_true]
      split
      · rfl
      · cases fea.hasAlpha <;>
          simp [outline, Raster.outline, Raster.setBits, Raster.create, Fmt.toPixelFmt]

/-! ## The frame that is shown -/

section Drawn

variable {bgcolor : UInt32} (file : WebpFile lib data buf)

theorem frameBitmap_fits (fresh : Int → UInt8) (img : WebpPixels D) :
    (img.frameBitmap fresh).w = img.dimension.cx ∧ (img.frameBitmap fresh).h = img.dimension.cy ∧ (img.frameBitmap fresh).fmt = .A8R8G8B8 := by
  unfold frameBitmap
  split
  · split
    · exact ⟨rfl, rfl, rfl⟩
    · rename_i hfit
      simpa only [not_or, ne_eq, not_not] using hfit
  · exact ⟨rfl, rfl, rfl⟩

/-- Every pixel of the bitmap is written, whatever was in it. -/
theorem copyFrame_drawn (hsize : img.dimension = ⟨file.width, file.height⟩) {dec dec' : D} {tm : Int}
    (hnext : lib.animDecoderGetNext dec = (some tm, dec')) :
    file.Drawn bgcolor (file.pos dec)
      ((img.copyFrame (data.canvas dec) (img.frameBitmap fresh)).blendColor bgcolor) := by
  obtain ⟨hw, hh, hfmt⟩ := frameBitmap_fits fresh img
  generalize img.frameBitmap fresh = b at hw hh hfmt
  rw [hsize] at hw hh
  refine ⟨.A8R8G8B8, ?_, ?_, ?_, Raster.shows_blendColor fun y hy k hk => ?_⟩
  · rw [Raster.blendColor_fmt]
    exact hfmt
  · rw [Raster.blendColor_w]
    exact hw
  · rw [Raster.blendColor_h]
    exact hh
  · have hpitch := b.pitch_ge
    have hpixel : Fmt.pixelsize .A8R8G8B8 = 4 := rfl
    simp only [copyFrame, Raster.setBits, hfmt, hw, hh, hsize, hpixel, Int.toNat_natCast]
      at hy hk hpitch ⊢
    rw [fillRows_in (by omega) hy (by omega) (by omega)]
    have hcanvas := (file.next dec tm dec' hnext).2 y hy k (by omega)
    rw [← hcanvas, Int.natCast_mul]
    congr 3
    omega

/-- A frame that is decoded is shown, and the decoder goes on to the next. -/
theorem decodeNext_drawn (hsize : img.dimension = ⟨file.width, file.height⟩) {dec : D}
    (hdec : img.animdec = some dec) (h : (img.decodeNext lib data fresh).1 = .OK) :
    ∃ bmp dec', (img.decodeNext lib data fresh).2.fbitmap = some bmp ∧
      file.Drawn img.bgcolor (file.pos dec) bmp ∧
      (img.decodeNext lib data fresh).2.animdec = some dec' ∧ file.pos dec' = file.pos dec + 1 := by
  unfold decodeNext at h ⊢
  simp only [hdec] at h ⊢
  split at h
  · cases h
  · rename_i hmore
    rw [if_neg hmore]
    cases hnext : lib.animDecoderGetNext dec with
    | mk tm dec' =>
      simp only [hnext] at h ⊢
      cases tm with
      | none => cases h
      | some tm =>
        have hpos := (file.next dec tm dec' hnext).1
        exact ⟨_, dec', rfl, copyFrame_drawn file hsize hnext, rfl, hpos⟩

/-- What `decodeNext` leaves as it is, whatever comes of it. -/
theorem decodeNext_cases (lib : WebpLib D) (data : WebpData D) (fresh : Int → UInt8)
    (img : WebpPixels D) :
    let next := (img.decodeNext lib data fresh).2
    next.dimension = img.dimension ∧ next.bgcolor = img.bgcolor ∧ next.framecnt = img.framecnt ∧
      next.animdec.isSome = img.animdec.isSome ∧
      ((img.decodeNext lib data fresh).1 = .OK ∨ next.fbitmap = img.fbitmap) := by
  unfold decodeNext
  cases hdec : img.animdec with
  | none => exact ⟨rfl, rfl, rfl, by simp only [hdec], .inr rfl⟩
  | some dec =>
    dsimp only
    split
    · exact ⟨rfl, rfl, rfl, by simp only [hdec], .inr rfl⟩
    · obtain ⟨_ | tm, dec'⟩ := lib.animDecoderGetNext dec
      · exact ⟨rfl, rfl, rfl, rfl, .inr rfl⟩
      · exact ⟨rfl, rfl, rfl, rfl, .inl rfl⟩

/-- The bitmap is that of one of the frames; an animation has its size and its decoder. -/
structure Kept (file : WebpFile lib data buf) (bgcolor : UInt32) (img : WebpPixels D) : Prop where
  color : img.bgcolor = bgcolor
  anim : img.isAnim = true → img.dimension = ⟨file.width, file.height⟩ ∧ img.animdec.isSome
  drawn : ∀ bmp, img.fbitmap = some bmp → ∃ i, file.Drawn bgcolor i bmp

theorem Kept.produced {file : WebpFile lib data buf} (h : Kept file bgcolor img) : img.Produced := by
  intro bmp hbmp
  obtain ⟨i, fmt, hfmt, -⟩ := h.drawn bmp hbmp
  exact ⟨fmt, hfmt⟩

variable {file}

theorem rewound_kept (h : Kept file bgcolor img) (rewind : Bool) :
    Kept file bgcolor (img.rewound lib rewind) := by
  cases rewind with
  | false => exact h
  | true => exact ⟨h.color, fun ha => ⟨(h.anim ha).1, by
      rw [rewound, if_pos rfl, Option.isSome_map]
      exact (h.anim ha).2⟩, h.drawn⟩

theorem nextFrame_kept (h : Kept file bgcolor img) (fresh : Int → UInt8) (rewind : Bool) :
    Kept file bgcolor (img.nextFrame lib data fresh rewind).2 := by
  unfold nextFrame
  by_cases hanim : img.isAnim = true
  · rw [if_neg (not_not_intro hanim)]
    have hr := rewound_kept h rewind
    have hanim' : (img.rewound lib rewind).isAnim = true := by
      cases rewind <;> exact hanim
    generalize img.rewound lib rewind = img at hr hanim'
    obtain ⟨hsize, hsome⟩ := hr.anim hanim'
    obtain ⟨hdim, hcolor, hcnt, hdec, hok⟩ := decodeNext_cases lib data fresh img
    refine ⟨hcolor.trans hr.color, fun _ => ⟨hdim.trans hsize, hdec.trans hsome⟩, fun bmp hbmp => ?_⟩
    rcases hok with hok | hsame
    · obtain ⟨dec, hd⟩ := Option.isSome_iff_exists.mp hsome
      obtain ⟨bmp', dec', hnew, hdrawn, -⟩ := decodeNext_drawn file hsize hd hok
      obtain rfl := Option.some.inj (hnew.symm.trans hbmp)
      rw [hr.color] at hdrawn
      exact ⟨_, hdrawn⟩
    · exact hr.drawn bmp (hsame.symm.trans hbmp)
  · rw [if_pos hanim]
    exact h

/-- A still image is frame 0. -/
theorem still_drawn (file : WebpFile lib data buf) {fea : WebpFeatures}
    (hfea : lib.getFeatures buf = some fea)
    (hok : ¬ ((fea.hasAlpha ∧ ¬ lib.decodeBGRAInto buf) ∨ (¬ fea.hasAlpha ∧ ¬ lib.decodeBGRInto buf))) :
    let bmp := Raster.create fea.width fea.height (if fea.hasAlpha then .A8R8G8B8 else .R8G8B8) fresh
    file.Drawn bgcolor 0 ((bmp.setBits (if fea.hasAlpha then data.decodeBGRAInto buf bmp.pitch bmp.bits
      else data.decodeBGRInto buf bmp.pitch bmp.bits)).blendColor bgcolor) := by
  intro bmp
  obtain ⟨hw, hh⟩ := file.features fea hfea
  have hpitch := bmp.pitch_ge
  have hbits : bmp.bits = fresh := rfl
  have hbw : bmp.w = fea.width := rfl
  have hbh : bmp.h = fea.height := rfl
  have hbf : bmp.fmt = if fea.hasAlpha then .A8R8G8B8 else .R8G8B8 := rfl
  generalize bmp = b at hpitch hbits hbw hbh hbf
  cases halpha : fea.hasAlpha with
  | true =>
    have hdecode : lib.decodeBGRAInto buf = true := by simpa [halpha] using hok
    simp only [halpha, if_true] at hbf ⊢
    refine ⟨.A8R8G8B8, ?_, ?_, ?_, Raster.shows_blendColor fun y hy k hk => ?_⟩
    · rw [Raster.blendColor_fmt]
      exact hbf
    · rw [Raster.blendColor_w]
      exact hbw.trans hw
    · rw [Raster.blendColor_h]
      exact hbh.trans hh
    · have hpixel : Fmt.pixelsize .A8R8G8B8 = 4 := rfl
      simp only [Raster.setBits, hbf, hbw, hbh, hw, hh, hpixel, Int.toNat_natCast] at hy hk hpitch ⊢
      exact file.bgra hdecode b.pitch b.bits (by omega) y hy k (by omega)
  | false =>
    have hdecode : lib.decodeBGRInto buf = true := by simpa [halpha] using hok
    simp only [halpha, Bool.false_eq_true, if_false] at hbf ⊢
    refine ⟨.R8G8B8, ?_, ?_, ?_, Raster.shows_blendColor fun y hy k hk => ?_⟩
    · rw [Raster.blendColor_fmt]
      exact hbf
    · rw [Raster.blendColor_w]
      exact hbw.trans hw
    · rw [Raster.blendColor_h]
      exact hbh.trans hh
    · have hpixel : Fmt.pixelsize .R8G8B8 = 3 := rfl
      simp only [Raster.setBits, hbf, hbw, hbh, hw, hh, hpixel, Int.toNat_natCast] at hy hk hpitch ⊢
      exact file.bgr hdecode b.pitch b.bits (by omega) y hy k (by omega)

theorem openFromBuffer_kept (file : WebpFile lib data buf)
    (h : openFromBuffer lib data fresh bgcolor buf = (.OK, img)) : Kept file bgcolor img := by
  unfold openFromBuffer at h
  cases hfea : lib.getFeatures buf with
  | none => rw [hfea] at h; cases h
  | some fea =>
    rw [hfea] at h
    dsimp only at h
    split at h
    · split at h
      · cases h
      · rename_i hok
        cases h
        refine ⟨rfl, (fun ha => by cases ha), ?_⟩
        rintro _ ⟨⟩
        exact ⟨0, still_drawn file hfea hok⟩
    · cases hdec : lib.animDecoderNew buf with
      | none => rw [hdec] at h; cases h
      | some dec =>
        rw [hdec] at h
        dsimp only at h
        cases hinfo : lib.animDecoderGetInfo dec with
        | none => rw [hinfo] at h; cases h
        | some info =>
          rw [hinfo] at h
          dsimp only at h
          obtain ⟨hw, hh⟩ := file.info dec info hdec hinfo
          have hwidth := file.width_le.2
          have hheight := file.height_le.2
          have hstart : Kept file bgcolor (withInfo
              ({ filebuf := some buf, bgcolor, animdec := some dec } : WebpPixels D) info) := by
            refine ⟨rfl, fun _ => ⟨?_, rfl⟩, fun _ h => by cases h⟩
            rw [withInfo, Size.mk.injEq, toInt_of_lt (by omega), toInt_of_lt (by omega), hw, hh]
            exact ⟨rfl, rfl⟩
          have hkept := nextFrame_kept hstart fresh true
          generalize (withInfo _ info).nextFrame lib data fresh true = next at h hkept
          obtain ⟨res, img'⟩ := next
          cases res
          case OK =>
            dsimp only at h
            split at h
            · rename_i hone
              cases h
              refine ⟨hkept.color, fun ha => ?_, hkept.drawn⟩
              have hmany : img'.framecnt > 1 := of_decide_eq_true ha
              omega
            · cases h
              exact hkept
          all_goals cases h

/-- **A bitmap is always that of a frame of the file.** In every run of `nextFrame` calls on an opened
image, whatever the memory it gets holds and whatever comes of a call: the image is `WebpImage` but for
the pixels, and its bitmap has, pixel for pixel, one frame of the file, blended with the background. A
call that succeeds on an animation shows the frame that the decoder was at, the first one after
`rewind`, and the decoder goes on to the next. -/
theorem webp_frame_shown (file : WebpFile lib data buf)
    (h : (shown lib data bgcolor buf).Reach Machine.always img) :
    (WebpImage.shown lib buf).Reach Machine.always img.outline ∧
      (∀ bmp, img.fbitmap = some bmp → ∃ i, file.Drawn bgcolor i bmp) ∧
      ∀ rewind fresh, img.isAnim = true → (img.nextFrame lib data fresh rewind).1 = .OK →
        ∃ dec dec' bmp, img.animdec = some dec ∧
          (img.nextFrame lib data fresh rewind).2.animdec = some dec' ∧
          (img.nextFrame lib data fresh rewind).2.fbitmap = some bmp ∧
          file.Drawn bgcolor (if rewind then 0 else file.pos dec) bmp ∧
          file.pos dec' = (if rewind then 0 else file.pos dec) + 1 := by
  have hrun : Kept file bgcolor img ∧ (WebpImage.shown lib buf).Reach Machine.always img.outline := by
    refine h.holds (P := fun img => Kept file bgcolor img ∧
      (WebpImage.shown lib buf).Reach Machine.always img.outline) ?_ ?_
    · rintro img ⟨fresh, hopen⟩
      have houtline : _ = WebpImage.openFromBuffer lib buf := openFromBuffer_outline data fresh bgcolor
      rw [hopen] at houtline
      exact ⟨openFromBuffer_kept file hopen, .of_init houtline.symm⟩
    · rintro img ⟨rewind, fresh⟩ img' ⟨hk, hreach⟩ - hstep
      obtain rfl := Option.some.inj hstep
      refine ⟨nextFrame_kept hk fresh rewind, hreach.step (l := rewind) trivial ?_⟩
      exact congrArg (fun r => some r.2) (nextFrame_outline data fresh hk.produced rewind).symm
  obtain ⟨hk, hreach⟩ := hrun
  refine ⟨hreach, hk.drawn, fun rewind fresh hanim hok => ?_⟩
  obtain ⟨hsize, hsome⟩ := hk.anim hanim
  obtain ⟨dec, hdec⟩ := Option.isSome_iff_exists.mp hsome
  have hstart : (img.rewound lib rewind).dimension = ⟨file.width, file.height⟩ ∧
      (img.rewound lib rewind).bgcolor = bgcolor ∧ ∃ d, (img.rewound lib rewind).animdec = some d ∧
        file.pos d = if rewind then 0 else file.pos dec := by
    cases rewind with
    | false => exact ⟨hsize, hk.color, dec, hdec, rfl⟩
    | true =>
      refine ⟨hsize, hk.color, lib.animDecoderReset dec, ?_, file.reset dec⟩
      rw [rewound, if_pos rfl, hdec]
      rfl
  obtain ⟨hdim, hcolor, d, hd, hpos⟩ := hstart
  unfold nextFrame at hok ⊢
  rw [if_neg (not_not_intro hanim)] at hok ⊢
  obtain ⟨bmp, dec', hbmp, hdrawn, hdec', hnext⟩ := decodeNext_drawn file hdim hd hok
  rw [hcolor, hpos] at hdrawn
  rw [hpos] at hnext
  exact ⟨dec, dec', bmp, hdec, hdec', hbmp, hdrawn, hnext⟩

end Drawn

end WebpPixels

end Frames

/-! ## A webp file of two frames -/

/-- The pixels of the file of `webpFrames`. -/
def webpBytes : WebpData Nat where
  decodeBGRAInto _ _ _ a := UInt8.ofInt a
  decodeBGRInto _ _ _ a := UInt8.ofInt a
  canvas k a := UInt8.ofInt (100 * k + a)

def twoFrameFile : WebpFile (webpFrames 2) webpBytes [] where
  width := 1
  height := 1
  width_le := ⟨Nat.le_refl 1, by decide⟩
  height_le := ⟨Nat.le_refl 1, by decide⟩
  row _ i _ k := UInt8.ofInt (100 * i + k)
  pos := id
  features := by
    rintro _ ⟨⟩
    exact ⟨rfl, rfl⟩
  info := by
    rintro _ _ ⟨⟩ ⟨⟩
    exact ⟨rfl, rfl⟩
  bgra _ stride _ _ y hy k _ := by
    obtain rfl : y = 0 := by omega
    simp [webpBytes]
  bgr _ stride _ _ y hy k _ := by
    obtain rfl : y = 0 := by omega
    simp [webpBytes]
  created := by
    rintro _ ⟨⟩
    rfl
  reset _ := rfl
  next := by
    rintro dec _ _ ⟨⟩
    refine ⟨rfl, fun y hy k _ => ?_⟩
    obtain rfl : y = 0 := by omega
    simp [webpBytes]

namespace WebpPixels

/-- The file as it is opened, at its first frame. -/
def webpFirst : WebpPixels Nat := (openFromBuffer (webpFrames 2) webpBytes (fun _ => 7) 0xfafafa []).2

/-- The second frame takes the place of the first. -/
theorem webp_frame_shown_second : ∃ bmp,
    (webpFirst.nextFrame (webpFrames 2) webpBytes (fun _ => 9) false).2.fbitmap = some bmp ∧
      twoFrameFile.Drawn 0xfafafa 1 bmp := by
  have hinit : (shown (webpFrames 2) webpBytes 0xfafafa []).init webpFirst := ⟨fun _ => 7, rfl⟩
  obtain ⟨-, -, hnext⟩ := webp_frame_shown twoFrameFile (.of_init hinit)
  obtain ⟨dec, dec', bmp, hdec, -, hbmp, hdrawn, -⟩ := hnext false (fun _ => 9) rfl rfl
  have hone : dec = 1 := (Option.some.inj hdec).symm
  subst hone
  exact ⟨bmp, hbmp, hdrawn⟩

end WebpPixels

end ObZrv
