import ObZrv.Doc.Reel

/-!
# Doc.CodecReels

The animated images of both codecs are reels.

* `GdiPlusImage.reel` : with any delays and loop count, whatever GDI+ does with the frames.
* `WebpImage.reel`    : with any timestamps and loop count, when a decoding that fails leaves the
  position of the decoder (`WebpSource`).
* `GdiPlusImage.opened_reel`, `WebpImage.opened_reel` : an image that was opened starts as one.
-/

namespace ObZrv

namespace GdiPlusImage

variable {G Id : Type} {lib : GdiLib G Id} {img img' : GdiPlusImage G}

/-- The frame counter goes first, before anything that can fail; the file's data stay. -/
theorem nextFrame_counts (lib : GdiLib G Id) (img : GdiPlusImage G) (hmany : 1 < img.framecnt) (rewind : Bool) :
    ∃ b g, (img.nextFrame lib rewind).2 =
        { img with curfid := if rewind then 0 else img.curfid + 1, fbitmap := b, gbitmap := g } ∧
      ((img.nextFrame lib rewind).1 = .NO_MORE_FRAMES ↔
        img.framecnt ≤ if rewind then 0 else img.curfid + 1) := by
  rw [nextFrame, if_neg (Int.not_le.mpr hmany)]
  simp only
  by_cases hend : (if rewind then 0 else img.curfid + 1) ≥ img.framecnt
  · rw [if_pos hend]
    exact ⟨img.fbitmap, img.gbitmap, rfl, iff_of_true rfl hend⟩
  · rw [if_neg hend]
    split
    · rename_i hg
      exact ⟨img.fbitmap, img.gbitmap, rfl, iff_of_false (fun h => by cases h) hend⟩
    · split
      · exact ⟨_, _, rfl, iff_of_false (fun h => by cases h) hend⟩
      · exact ⟨_, _, rfl, iff_of_false (fun h => by cases h) hend⟩

/-- An image of a file with these delays and this loop count. -/
structure Counting (delays : List Int) (loopnum : Int) (img : GdiPlusImage G) : Prop where
  framecnt : img.framecnt = delays.length
  framedelay : img.framedelay = delays
  loopnum : img.loopnum = loopnum
  curfid : 0 ≤ img.curfid

def frameSeq (G : Type) (delays : List Int) (loopnum : Int) : FrameSeq (GdiPlusImage G) where
  Sound := Counting delays loopnum
  pos img := (img.curfid + 1).toNat
  count := delays.length
  delay k := delays.getD k 0
  loopNum := loopnum

section

variable {delays : List Int} {loopnum : Int}

theorem Counting.nextFrame (h : Counting delays loopnum img) (lib : GdiLib G Id) (htwo : 2 ≤ delays.length)
    (rewind : Bool) :
    Counting delays loopnum (img.nextFrame lib rewind).2 ∧
      (img.nextFrame lib rewind).2.curfid = (if rewind then 0 else img.curfid + 1) ∧
      ((img.nextFrame lib rewind).1 = .NO_MORE_FRAMES ↔
        (delays.length : Int) ≤ if rewind then 0 else img.curfid + 1) := by
  have hcnt := h.framecnt
  have hcur := h.curfid
  obtain ⟨b, g, heq, hiff⟩ := nextFrame_counts lib img (by omega) rewind
  rw [heq, ← hcnt]
  refine ⟨⟨h.framecnt, h.framedelay, h.loopnum, ?_⟩, rfl, hiff⟩
  simp only
  split
  · exact Int.le_refl 0
  · omega

theorem Counting.fetched (h : Counting delays loopnum img) (htwo : 2 ≤ delays.length)
    (rewind : Bool)
    (hin : (if rewind then 0 else img.curfid + 1) < (delays.length : Int)) :
    (frameSeq G delays loopnum).Fetched (ops lib) (if rewind then 0 else img.curfid + 1).toNat
      (img.nextFrame lib rewind) := by
  have hcur := h.curfid
  obtain ⟨hsound, hid, hiff⟩ := h.nextFrame lib htwo rewind
  refine ⟨fun hres => absurd (hiff.mp hres) (Int.not_le.mpr hin), hsound, .inl ⟨?_, ?_⟩⟩
  · change ((img.nextFrame lib rewind).2.curfid + 1).toNat = _
    rw [hid]
    split
    · rfl
    · omega
  · change (img.nextFrame lib rewind).2.framedelay.getD
      (img.nextFrame lib rewind).2.curfid.toNat 0 = _
    rw [hsound.framedelay, hid]
    rfl

end

def reel (lib : GdiLib G Id) (delays : List Int) (loopnum : Int) (htwo : 2 ≤ delays.length)
    (hdelay : ∀ d ∈ delays, 0 ≤ d) : Reel (ops lib) where
  toFrameSeq := frameSeq G delays loopnum
  two_le := htwo
  delay_nonneg k := by
    simp only [frameSeq, List.getD_eq_getElem?_getD]
    cases hk : delays[k]? with
    | none => exact Int.le_refl 0
    | some d => exact hdelay d (List.mem_of_getElem? hk)
  getFrameCount h := h.framecnt
  getLoopNum h := h.loopnum
  next {img} h hlt := by
    have hcur := h.curfid
    simp only [frameSeq] at hlt
    exact h.fetched htwo false (by simp only [Bool.false_eq_true, if_false]; omega)
  finish {img} h hge := by
    have hcur := h.curfid
    simp only [frameSeq] at hge
    obtain ⟨hsound, hid, hiff⟩ := h.nextFrame lib htwo false
    refine ⟨hiff.mpr ?_, hsound, ?_⟩
    · simp only [Bool.false_eq_true, if_false]
      omega
    · change delays.length ≤ ((img.nextFrame lib false).2.curfid + 1).toNat
      rw [hid, if_neg Bool.false_ne_true]
      omega
  rewind {img} h := h.fetched htwo true (by simp only [if_true]; omega)

theorem convertFirst_ok_eq {g : G} (h : img.convertFirst lib g = (.OK, img')) (hmany : 1 < img'.framecnt) :
    img'.framecnt = img.framecnt ∧ img'.framedelay = img.framedelay ∧ img'.loopnum = img.loopnum ∧
      img'.curfid = img.curfid := by
  unfold convertFirst at h
  split at h
  · cases h
  · split at h
    · cases h
      exact ⟨rfl, rfl, rfl, rfl⟩
    · cases h
      exact ⟨rfl, rfl, rfl, rfl⟩

/-- The delays that are read are one for each frame, and none is negative. -/
theorem readAnimation_delays {framecnt : UInt32} {g : G} {framedelay : List Int} {loopnum : Int}
    (h : readAnimation lib framecnt g = some (framedelay, loopnum)) :
    framedelay.length = framecnt.toNat ∧ ∀ d ∈ framedelay, 0 ≤ d := by
  unfold readAnimation at h
  split at h
  · cases h
    refine ⟨by simp, ?_⟩
    intro d hd
    obtain ⟨i, -, rfl⟩ := List.mem_map.mp hd
    exact Int.le_max_right _ _
  · cases h

/-- A frame count that is more than 1 as an `int` is not wrapped. -/
theorem toInt_eq_toNat {n : UInt32} (h : 1 < n.toBitVec.toInt) :
    n.toBitVec.toInt = n.toNat := by
  have hcond := BitVec.toInt_eq_toNat_cond n.toBitVec
  split at hcond
  · exact hcond
  · have := n.toBitVec.isLt
    omega

/-- An animation that `openFromBuffer` opened, on frame 0 with a table of one delay for each
frame. -/
theorem openFromBuffer_counting {buf : List UInt8} (h : openFromBuffer lib buf = (.OK, img))
    (hmany : 1 < img.framecnt) :
    Counting img.framedelay img.loopnum img ∧ img.curfid = 0 ∧ ∀ d ∈ img.framedelay, 0 ≤ d := by
  unfold openFromBuffer at h
  simp only at h
  split at h
  · cases h
  · split at h
    · cases h
    · split at h
      · cases h
      · split at h
        · cases h
        · rename_i g _ _ imgfmt _ _ dimids _
          generalize (Option.map (lib.getFrameCount g) dimids.head?).getD 1 = framecnt at h
          split at h
          · split at h
            · cases h
            · rename_i framedelay loopnum hread
              obtain ⟨hlen, hdelay⟩ := readAnimation_delays hread
              obtain ⟨hcnt, hfd, hln, hid⟩ := convertFirst_ok_eq h hmany
              refine ⟨⟨?_, rfl, rfl, ?_⟩, hid, ?_⟩
              · rw [hcnt] at hmany
                rw [hcnt, hfd, hlen]
                simp only at hmany ⊢
                split at hmany
                · omega
                · rename_i hfmt
                  rw [if_neg hfmt]
                  exact toInt_eq_toNat hmany
              · exact Int.le_of_eq hid.symm
              · rw [hfd]
                exact hdelay
          · -- one frame: not an animation
            rename_i hone
            obtain ⟨hcnt, -⟩ := convertFirst_ok_eq h hmany
            rw [hcnt] at hmany
            have hle : framecnt.toNat ≤ 1 := UInt32.le_iff_toNat_le.mp (UInt32.not_lt.mp hone)
            simp only at hmany
            split at hmany
            · omega
            · have := toInt_eq_toNat hmany
              omega

theorem opened_reel {buf : List UInt8} (h : openFromBuffer lib buf = (.OK, img))
    (hmany : 1 < img.framecnt) :
    ∃ htwo hdelay, (reel lib img.framedelay img.loopnum htwo hdelay).Opened img := by
  obtain ⟨hcounting, hid, hdelay⟩ := openFromBuffer_counting h hmany
  have hcnt := hcounting.framecnt
  refine ⟨by omega, hdelay, hcounting, ?_, ?_⟩
  · change (img.curfid + 1).toNat = 1
    rw [hid]
    rfl
  · change img.framedelay.getD img.curfid.toNat 0 = img.framedelay.getD 0 0
    rw [hid]
    rfl

end GdiPlusImage

/-- An animation decoder over `count` frames: frame `k` ends at timestamp `tm (k + 1)`. Decoding a
frame may fail at any time; the decoder then stays at it. -/
structure WebpSource {D : Type} (lib : WebpLib D) where
  Sound : D → Prop
  pos : D → Nat
  count : Nat
  tm : Nat → Int
  tm_zero : tm 0 = 0
  reset : ∀ {d}, Sound d →
    Sound (lib.animDecoderReset d) ∧ pos (lib.animDecoderReset d) = 0
  more : ∀ {d}, Sound d → (lib.animDecoderHasMoreFrames d = true ↔ pos d < count)
  next : ∀ {d}, Sound d → pos d < count → Sound (lib.animDecoderGetNext d).2 ∧
    (((lib.animDecoderGetNext d).1 = some (tm (pos d + 1)) ∧
        pos (lib.animDecoderGetNext d).2 = pos d + 1) ∨
      ((lib.animDecoderGetNext d).1 = none ∧ pos (lib.animDecoderGetNext d).2 = pos d))

namespace WebpImage

variable {D : Type} {lib : WebpLib D} {w : WebpSource lib} {loopnum : Int} {img : WebpImage D}

/-- The decoder is there, and `_frametm` is the end of the last frame it delivered. `_curfid` is
never set. -/
structure Decoding (w : WebpSource lib) (loopnum : Int) (img : WebpImage D) : Prop where
  framecnt : img.framecnt = w.count
  loopnum : img.loopnum = loopnum
  curfid : img.curfid = 0
  animdec : ∃ d, img.animdec = some d ∧ w.Sound d ∧ img.frametm = w.tm (w.pos d)

def frameSeq (w : WebpSource lib) (loopnum : Int) : FrameSeq (WebpImage D) where
  Sound := Decoding w loopnum
  pos img := (img.animdec.map w.pos).getD 0
  count := w.count
  delay k := max 0 (w.tm (k + 1) - w.tm k)
  loopNum := loopnum

theorem Decoding.rewound (h : Decoding w loopnum img) :
    Decoding w loopnum (img.rewound lib true) ∧
      (frameSeq w loopnum).pos (img.rewound lib true) = 0 := by
  obtain ⟨hcnt, hloop, hid, d, hd, hsound, -⟩ := h
  obtain ⟨hreset, hpos⟩ := w.reset hsound
  refine ⟨⟨hcnt, hloop, hid, _, by simp only [WebpImage.rewound, if_true, hd, Option.map_some], hreset,
    ?_⟩, ?_⟩
  · rw [hpos, w.tm_zero]
    rfl
  · simp [frameSeq, WebpImage.rewound, hd, hpos]

theorem Decoding.decodeNext (h : Decoding w loopnum img)
    (hlt : (frameSeq w loopnum).pos img < w.count) :
    (frameSeq w loopnum).Fetched (ops lib) ((frameSeq w loopnum).pos img)
      (img.decodeNext lib) := by
  obtain ⟨hcnt, hloop, hid, d, hd, hsound, htm⟩ := h
  have hpos : (frameSeq w loopnum).pos img = w.pos d := by simp [frameSeq, hd]
  rw [hpos] at hlt ⊢
  obtain ⟨hnext, hcases⟩ := w.next hsound hlt
  have hmore := (w.more hsound).mpr hlt
  unfold WebpImage.decodeNext
  simp only [hd, hmore, not_true_eq_false, if_false]
  generalize lib.animDecoderGetNext d = next at hnext hcases ⊢
  obtain ⟨res, d'⟩ := next
  simp only at hnext hcases
  rcases hcases with ⟨rfl, hpos'⟩ | ⟨rfl, hpos'⟩
  · refine ⟨(fun hres => by cases hres), ⟨hcnt, hloop, hid, d', rfl, hnext, by rw [hpos']⟩,
      .inl ⟨hpos', ?_⟩⟩
    change max 0 (w.tm (w.pos d + 1) - img.frametm) = max 0 (w.tm (w.pos d + 1) - w.tm (w.pos d))
    rw [htm]
  · refine ⟨(fun hres => by cases hres), ⟨hcnt, hloop, hid, d', rfl, hnext, by rw [hpos']; exact htm⟩,
      .inr ⟨rfl, hpos', ?_⟩⟩
    change max 0 (img.frametm - img.frametm) = 0
    rw [Int.sub_self]
    rfl

theorem Decoding.isAnim (h : Decoding w loopnum img) (htwo : 2 ≤ w.count) : img.isAnim = true := by
  simp only [WebpImage.isAnim, h.framecnt, decide_eq_true_eq]
  omega

theorem Decoding.next (htwo : 2 ≤ w.count) {img : WebpImage D}
    (h : Decoding w loopnum img)
    (hlt : (frameSeq w loopnum).pos img < w.count) :
    (frameSeq w loopnum).Fetched (ops lib) ((frameSeq w loopnum).pos img)
      (img.nextFrame lib false) := by
  rw [nextFrame, h.isAnim htwo, if_neg (by simp)]
  exact h.decodeNext hlt

/-- At the end `nextFrame` changes nothing. -/
theorem Decoding.finish (htwo : 2 ≤ w.count) (h : Decoding w loopnum img)
    (hge : w.count ≤ (frameSeq w loopnum).pos img) :
    img.nextFrame lib false = (.NO_MORE_FRAMES, img) := by
  have hanim := h.isAnim htwo
  obtain ⟨-, -, -, d, hd, hsound, -⟩ := h
  have hpos : (frameSeq w loopnum).pos img = w.pos d := by simp [frameSeq, hd]
  have hmore : lib.animDecoderHasMoreFrames d = false := by
    rw [hpos] at hge
    rw [← Bool.not_eq_true]
    exact fun hm => absurd ((w.more hsound).mp hm) (Nat.not_lt.mpr hge)
  rw [nextFrame, hanim, if_neg (by simp)]
  simp [WebpImage.rewound, WebpImage.decodeNext, hd, hmore]

theorem Decoding.rewind (htwo : 2 ≤ w.count) {img : WebpImage D}
    (h : Decoding w loopnum img) :
    (frameSeq w loopnum).Fetched (ops lib) 0 (img.nextFrame lib true) := by
  obtain ⟨hdec, hpos⟩ := h.rewound
  rw [nextFrame, h.isAnim htwo, if_neg (by simp)]
  have := hdec.decodeNext (by rw [hpos]; omega)
  rwa [hpos] at this

theorem delay_nonneg (w : WebpSource lib) (loopnum : Int) (k : Nat) :
    0 ≤ (frameSeq w loopnum).delay k := Int.le_max_left _ _

theorem Decoding.finished (htwo : 2 ≤ w.count) {img : WebpImage D}
    (h : Decoding w loopnum img)
    (hge : w.count ≤ (frameSeq w loopnum).pos img) :
    (img.nextFrame lib false).1 = .NO_MORE_FRAMES ∧
      Decoding w loopnum (img.nextFrame lib false).2 ∧
      w.count ≤ (frameSeq w loopnum).pos (img.nextFrame lib false).2 := by
  rw [h.finish htwo hge]
  exact ⟨rfl, h, hge⟩

def reel (w : WebpSource lib) (loopnum : Int) (htwo : 2 ≤ w.count) : Reel (ops lib) where
  toFrameSeq := frameSeq w loopnum
  two_le := htwo
  delay_nonneg := delay_nonneg w loopnum
  getFrameCount := @Decoding.framecnt D lib w loopnum
  getLoopNum := @Decoding.loopnum D lib w loopnum
  next := @Decoding.next D lib w loopnum htwo
  finish := @Decoding.finished D lib w loopnum htwo
  rewind := @Decoding.rewind D lib w loopnum htwo

/-- An animation that `openFromBuffer` opened, from a new decoder of that many frames. -/
theorem opened_reel {buf : List UInt8} (h : openFromBuffer lib buf = (.OK, img))
    (hmany : 1 < img.framecnt) (hcount : img.framecnt = w.count)
    (hnew : ∀ d, lib.animDecoderNew buf = some d → w.Sound d ∧ w.pos d = 0) :
    ∃ htwo, (reel w img.loopnum htwo).Opened img := by
  have htwo : 2 ≤ w.count := by omega
  refine ⟨htwo, ?_⟩
  unfold openFromBuffer at h
  simp only at h
  split at h
  · cases h
  · split at h
    · -- a still image
      split at h
      · cases h
      · cases h
        cases hmany
    · split at h
      · cases h
      · rename_i d hdec
        obtain ⟨hsound, hpos⟩ := hnew d hdec
        split at h
        · cases h
        · rename_i info _
          generalize hstart : WebpImage.withInfo _ info = start at h
          have hfetch : ∀ (hc : start.framecnt = w.count),
              (frameSeq w start.loopnum).Fetched (ops lib) 0 (start.nextFrame lib true) := by
            intro hc
            refine (reel w start.loopnum htwo).rewind ⟨hc, rfl, by rw [← hstart]; rfl, ?_⟩
            rw [← hstart]
            exact ⟨d, rfl, hsound, by rw [hpos, w.tm_zero]; rfl⟩
          have hkept := (nextFrame_kept lib start true).framecnt
          generalize start.nextFrame lib true = next at h hfetch hkept
          obtain ⟨res, img'⟩ := next
          cases res with
          | OK =>
            simp only at h hkept
            split at h
            · cases h
              simp only at hmany
              omega
            · cases h
              obtain ⟨-, hdec', hcases⟩ := hfetch (hkept.symm.trans hcount)
              rcases hcases with ⟨hpos', hd⟩ | ⟨hres, -⟩
              · have hloop : img.loopnum = start.loopnum := hdec'.loopnum
                rw [hloop]
                exact ⟨hdec', hpos', hd⟩
              · cases hres
          | _ => cases h

end WebpImage

end ObZrv
