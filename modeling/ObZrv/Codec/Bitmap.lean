import ObZrv.Lib.Machine
import ObZrv.Codec.Webp
import ObZrv.Codec.GdiPlus

/-!
# Codec.Bitmap

Whether an opened image can be drawn, over every sequence of `nextFrame` calls on it.

* `opened_image_has_bitmap` : a webp image can be drawn in every state exactly when its file is not
  an animation of at most one frame; a GDI+ image can be drawn as long as GDI+ locks every block of
  the frames it shows and they have the size of the image, and cannot after the first one that fails.
-/

namespace ObZrv

open Lib

/-- An image opened from `buf` and the `nextFrame` calls made on it. -/
def WebpImage.shown {D : Type} (lib : WebpLib D) (buf : List UInt8) : Machine (WebpImage D) Bool :=
  .ofExec (fun img => openFromBuffer lib buf = (.OK, img))
    fun img rewind => some (img.nextFrame lib rewind).2

/-- An image opened from `buf` and the `nextFrame` calls made on it. -/
def GdiPlusImage.shown {G Id : Type} (lib : GdiLib G Id) (buf : List UInt8) :
    Machine (GdiPlusImage G) Bool :=
  .ofExec (fun img => openFromBuffer lib buf = (.OK, img))
    fun img rewind => some (img.nextFrame lib rewind).2

/-- A file that says it is animated but has one frame is opened without a bitmap, and
`nextFrame` never makes one. -/
theorem WebpImage.shown_one_frame {D : Type} {lib : WebpLib D} {buf : List UInt8}
    (hone : OneFrameAnimation lib buf) {img : WebpImage D}
    (h : (shown lib buf).Reach Machine.always img) : img.fbitmap = none ∧ img.framecnt ≤ 1 := by
  refine h.holds (P := fun img => img.fbitmap = none ∧ img.framecnt ≤ 1) ?_ ?_
  · intro img hopen
    rcases openFromBuffer_cases hopen with ⟨-, h⟩ | ⟨hnot, -⟩
    · exact h
    · exact absurd hone hnot
  · rintro img rewind img' hp - hstep
    rw [← Option.some.inj hstep, nextFrame_still hp.2]
    exact hp

theorem WebpImage.shown_hasBitmap {D : Type} {lib : WebpLib D} {buf : List UInt8}
    (hone : ¬ OneFrameAnimation lib buf) {img : WebpImage D}
    (h : (shown lib buf).Reach Machine.always img) : HasBitmap img.fbitmap img.dimension := by
  refine h.holds (P := fun img => HasBitmap img.fbitmap img.dimension) ?_ ?_
  · intro img hopen
    rcases openFromBuffer_cases hopen with ⟨h, -⟩ | ⟨-, hb⟩
    · exact absurd h hone
    · exact hb
  · rintro img rewind img' hp - hstep
    rw [← Option.some.inj hstep]
    exact (nextFrame_kept lib img rewind).hasBitmap hp

theorem GdiPlusImage.shown_hasBitmap {G Id : Type} {lib : GdiLib G Id} {buf : List UInt8}
    {img : GdiPlusImage G} (h : (shown lib buf).Reach (FrameOk lib) img) :
    HasBitmap img.fbitmap img.dimension := by
  refine h.holds (P := fun img => HasBitmap img.fbitmap img.dimension) ?_ ?_
  · intro img hopen
    exact openFromBuffer_hasBitmap hopen
  · rintro img rewind img' hp hok hstep
    rw [← Option.some.inj hstep]
    exact (nextFrame_hasBitmap_iff hp rewind).mpr hok

/-- **An opened image has a bitmap** of the size it reports, so that every crop of it can be
rendered, in every state that `nextFrame` calls lead to. For webp this holds just when the file is
not an animation of at most one frame; for GDI+ as long as every block of the frames shown is locked
and they have the size of the image, and it fails after the first step at which that is not so. -/
theorem opened_image_has_bitmap {D G Id : Type} (webp : WebpLib D) (gdi : GdiLib G Id)
    (buf : List UInt8) :
    (∀ img : WebpImage D, (WebpImage.shown webp buf).Reach Machine.always img →
      (HasBitmap img.fbitmap img.dimension ∧
          (∀ scaleSize cropRect, (img.getBBitmap scaleSize cropRect).isSome) ↔
        ¬ WebpImage.OneFrameAnimation webp buf)) ∧
    (∀ img : GdiPlusImage G, (GdiPlusImage.shown gdi buf).Reach (GdiPlusImage.FrameOk gdi) img →
      (HasBitmap img.fbitmap img.dimension ∧
        ∀ scaleSize cropRect, (img.getBBitmap scaleSize cropRect).isSome) ∧
      ∀ rewind img', (GdiPlusImage.shown gdi buf).step img rewind img' →
        ¬ GdiPlusImage.FrameOk gdi img rewind → ¬ HasBitmap img'.fbitmap img'.dimension) := by
  constructor
  · intro img h
    constructor
    · rintro ⟨hb, -⟩ hone
      rw [(WebpImage.shown_one_frame hone h).1] at hb
      exact not_hasBitmap_none _ hb
    · intro hone
      have hb := WebpImage.shown_hasBitmap hone h
      exact ⟨hb, hb.cropOf_isSome⟩
  · intro img h
    have hb := GdiPlusImage.shown_hasBitmap h
    refine ⟨⟨hb, hb.cropOf_isSome⟩, ?_⟩
    intro rewind img' hstep hbad
    rw [← Option.some.inj hstep, GdiPlusImage.nextFrame_hasBitmap_iff hb]
    exact hbad

/-- libwebp on a 1x1 file that is animated and has `frames` frames. -/
def webpFrames (frames : UInt32) : WebpLib Nat where
  getFeatures _ := some ⟨1, 1, true, true⟩
  decodeBGRAInto _ := true
  decodeBGRInto _ := true
  animDecoderNew _ := some 0
  animDecoderGetInfo _ := some ⟨1, 1, 0, frames⟩
  animDecoderReset _ := 0
  animDecoderHasMoreFrames k := k < frames.toNat
  animDecoderGetNext k := (some (100 * (k + 1)), k + 1)

/-- GDI+ on a 1x1 gif of two frames; only frames before `broken` can be locked. -/
def gdiFrames (broken : Int) : GdiLib Int Unit where
  createStream _ := true
  fromStream _ := some 0
  getWidth _ := 1
  getHeight _ := 1
  getRawFormat _ := some .gif
  getFrameDimensions _ := some [()]
  getFrameCount _ _ := 2
  frameDelay _ := some fun _ => 10
  loopCount _ := some 0
  getPixelFormat _ := .argb32
  selectActiveFrame _ _ fid := fid
  lockBits g _ _ _ := (g < broken, g)

theorem gdiFrames_locks {broken g : Int} (h : g < broken) : FrameLocks (gdiFrames broken) g := by
  intro n _
  have hstate : ∀ fmt linestep height n,
      blockState (gdiFrames broken) fmt linestep height g n = g := by
    intro fmt linestep height n
    induction n with
    | zero => rfl
    | succ n ih => exact ih
  change decide (blockState (gdiFrames broken) _ _ _ g n < broken) = true
  rw [hstate]
  exact decide_eq_true h

/-- A webp file and a gif, both of two frames: the second frame has its bitmap. -/
theorem opened_image_has_bitmap_two_frames : ∃ (w : WebpImage Nat) (g : GdiPlusImage Int),
    (WebpImage.openFromBuffer (webpFrames 2) []).1 = .OK ∧ w.fbitmap = some ⟨⟨1, 1⟩, .A8R8G8B8⟩ ∧
      w.frametm = 200 ∧ HasBitmap w.fbitmap w.dimension ∧
      (GdiPlusImage.openFromBuffer (gdiFrames 2) []).1 = .OK ∧ g.curfid = 1 ∧
      HasBitmap g.fbitmap g.dimension := by
  have hmany : ¬ WebpImage.OneFrameAnimation (webpFrames 2) [] := by
    rintro ⟨_, _, _, -, -, -, hinfo, hle⟩
    cases hinfo
    exact absurd hle (by decide)
  have hwebp : (WebpImage.shown (webpFrames 2) []).Reach Machine.always _ :=
    (Machine.Reach.of_init rfl).step (l := false) trivial rfl
  have hlocks : GdiPlusImage.FrameOk (gdiFrames 2)
      (GdiPlusImage.openFromBuffer (gdiFrames 2) []).2 false := by
    rintro _ _ ⟨⟩
    exact ⟨gdiFrames_locks (by decide), rfl⟩
  have hgdi : (GdiPlusImage.shown (gdiFrames 2) []).Reach (GdiPlusImage.FrameOk (gdiFrames 2)) _ :=
    (Machine.Reach.of_init rfl).step (l := false)
      hlocks rfl
  obtain ⟨hw, hg⟩ := opened_image_has_bitmap (webpFrames 2) (gdiFrames 2) []
  exact ⟨_, _, rfl, rfl, rfl, ((hw _ hwebp).mpr hmany).1, rfl, rfl, (hg _ hgdi).1.1⟩

/-- A webp file with the animation flag and one frame is opened with no bitmap, and so is the
second frame of a gif whose bits cannot be locked. -/
theorem opened_image_without_bitmap :
    (∃ img, WebpImage.openFromBuffer (webpFrames 1) [] = (.OK, img) ∧ img.dimension = ⟨1, 1⟩ ∧
        ¬ HasBitmap img.fbitmap img.dimension ∧
        img.getBBitmap ⟨1, 1⟩ ⟨0, 0, 1, 1⟩ = none) ∧
      (∃ img, GdiPlusImage.openFromBuffer (gdiFrames 1) [] = (.OK, img) ∧
        ¬ HasBitmap (img.nextFrame (gdiFrames 1) false).2.fbitmap img.dimension) := by
  refine ⟨⟨_, rfl, rfl, not_hasBitmap_none _, rfl⟩, ⟨_, rfl, not_hasBitmap_none _⟩⟩

end ObZrv
