import Mathlib.Data.List.Find
import ObZrv.Codec.ReadFile
import ObZrv.Text.Path
import ObZrv.Unifs.RemoteDisk

/-!
# Codec.Filetype

`filetype`, which tells the type of an image from the bytes it begins with, and what a codec gets of a
file that is local or remote.

* `filetypeOf_head`   : the type depends on 64 bytes at most.
* `filetype_local`    : on a local file, which stays where it is.
* `uniFile_mirrors`   : a call has the same answer of a remote file and of a local one.
* `detect_and_read`   : the type and the bytes of a file, local or remote.
-/

namespace ObZrv

open Lib

/-! ## Signatures -/

/-- The bytes of a string literal. -/
def magicBytes (s : String) : List UInt8 := s.toList.map fun c => UInt8.ofNat c.toNat

/-- A test on the start of a file. -/
inductive Probe where
  /-- `match`. -/
  | magic (off : Nat) (bytes : List UInt8)
  /-- `isFtypBrand`. -/
  | brand (bytes : List UInt8)

/-- `match`. -/
def matchAt (buf : List UInt8) (size off : Nat) (magic : List UInt8) : Bool :=
  decide (size ≥ off + magic.length) && (buf.drop off).take magic.length == magic

/-- The offsets 8, 12 to 60. -/
def brandOffsets : List Nat := List.range' 8 14 4

def isFtypBrand (buf : List UInt8) (size : Nat) (brand : List UInt8) : Bool :=
  matchAt buf size 4 (magicBytes "ftyp") &&
    brandOffsets.any fun off => decide (off + 4 ≤ size) && (buf.drop off).take 4 == brand

def Probe.test (buf : List UInt8) (size : Nat) : Probe → Bool
  | .magic off bytes => matchAt buf size off bytes
  | .brand bytes => isFtypBrand buf size bytes

def Probe.text (s : String) : Probe := .magic 0 (magicBytes s)
def Probe.ftyp (s : String) : Probe := .brand (magicBytes s)

/-- The types in the order they are tried, each with the tests of which one line has to hold. -/
def signatures : List (String × List (List Probe)) :=
  [("jpg", [[.magic 0 [0xff, 0xd8, 0xff]]]),
    ("png", [[.text "\x89PNG\r\n\x1a\n"]]),
    ("gif", [[.text "GIF87a"], [.text "GIF89a"]]),
    ("bmp", [[.text "BM"]]),
    ("tiff", [[.text "II*\x00"], [.text "MM\x00*"]]),
    ("ico", [[.magic 0 [0, 0, 1, 0]]]),
    ("webp", [[.text "RIFF", .magic 8 (magicBytes "WEBP")]]),
    ("jp2", [[.text "\x00\x00\x00\x0cjP  \r\n\x87\n"], [.ftyp "jp2 "]]),
    ("jxl", [[.magic 0 [0xff, 0x0a]], [.text "\x00\x00\x00\x0cJXL \r\n\x87\n"]]),
    ("psd", [[.text "8BPS"]]),
    ("pnm", [[.text "P1"], [.text "P2"], [.text "P3"], [.text "P4"], [.text "P5"], [.text "P6"],
      [.text "P7"]]),
    ("avif", [[.ftyp "avif"], [.ftyp "avis"]]),
    ("heic", [[.ftyp "heic"], [.ftyp "heix"], [.ftyp "hevc"], [.ftyp "hevx"], [.ftyp "mif1"],
      [.ftyp "msf1"]]),
    ("dds", [[.text "DDS "]]),
    ("exr", [[.magic 0 [0x76, 0x2f, 0x31, 0x01]]]),
    ("hdr", [[.text "#?RADIANCE"], [.text "#?RGBE"]]),
    ("qoi", [[.text "qoif"]]),
    ("ff", [[.text "farbfeld"]]),
    ("icns", [[.text "icns"]]),
    ("cur", [[.magic 0 [0, 0, 2, 0]]]),
    ("wmf", [[.magic 0 [0xd7, 0xcd, 0xc6, 0x9a]]]),
    ("emf", [[.magic 40 (magicBytes " EMF")]])]

def holdsAt (buf : List UInt8) (size : Nat) (lines : List (List Probe)) : Bool :=
  lines.any fun line => line.all fun probe => probe.test buf size

/-- `filetype` from the buffer on. -/
def filetypeOf (buf : List UInt8) (size : Nat) : Str :=
  match signatures.find? fun row => holdsAt buf size row.2 with
  | some row => row.1.toList
  | none => "UNK".toList

/-- `buf[512] = {}`. -/
def zeroBuf : List UInt8 := List.replicate 512 0

/-- `filetype`; `none` where a call touches memory outside the buffer. -/
def filetype {W : Type} (f : Option (UniFile W)) (w : W) : Option (Str × W) :=
  match f with
  | none => some ("UNK".toList, w)
  | some f =>
    let (pos, w) := f.tell w
    let (r, w) := f.seek 0 .SEEK_SET w
    if r ≠ 0 then some ("UNK".toList, w)
    else
      match f.read zeroBuf w with
      | none => none
      | some (size, buf, w) =>
        let w := if pos ≥ 0 then (f.seek pos .SEEK_SET w).2 else w
        if size = 0 then some ("UNK".toList, w) else some (filetypeOf buf size, w)

/-! ## The head of a file -/

/-- A probe looks at the first 64 bytes. -/
def Probe.inHead : Probe → Bool
  | .magic off bytes => decide (off + bytes.length ≤ 64)
  | .brand _ => true

theorem any_congr_mem {α : Type*} {l : List α} {p q : α → Bool} (h : ∀ a ∈ l, p a = q a) :
    l.any p = l.any q := by
  rw [Bool.eq_iff_iff, List.any_eq_true, List.any_eq_true]
  exact exists_congr fun a => and_congr_right fun ha => by rw [h a ha]

theorem all_congr_mem {α : Type*} {l : List α} {p q : α → Bool} (h : ∀ a ∈ l, p a = q a) :
    l.all p = l.all q := by
  rw [Bool.eq_iff_iff, List.all_eq_true, List.all_eq_true]
  exact forall₂_congr fun a ha => by rw [h a ha]

section Head

variable {buf : List UInt8} {size : Nat}

/-- A run of bytes that lies in the part of the buffer that is filled, and in the head. -/
theorem drop_take_head {off n : Nat} (h : off + n ≤ min size 64) :
    ((buf.take (min size 64)).drop off).take n = (buf.drop off).take n := by
  rw [List.drop_take, List.take_take, Nat.min_eq_left (by omega)]

theorem matchAt_head {off : Nat} {magic : List UInt8} (h : off + magic.length ≤ 64) :
    matchAt (buf.take (min size 64)) (min size 64) off magic = matchAt buf size off magic := by
  unfold matchAt
  by_cases hfits : off + magic.length ≤ size
  · rw [drop_take_head (by omega)]
    simp only [ge_iff_le, Nat.le_min, hfits, h, and_self, decide_true]
  · have hnot : ¬ off + magic.length ≤ min size 64 := by omega
    simp only [ge_iff_le, hfits, hnot, decide_false, Bool.false_and]

theorem isFtypBrand_head (brand : List UInt8) :
    isFtypBrand (buf.take (min size 64)) (min size 64) brand = isFtypBrand buf size brand := by
  unfold isFtypBrand
  rw [matchAt_head (by decide)]
  congr 1
  refine any_congr_mem fun off hoff => ?_
  have hle : off + 4 ≤ 64 := by
    simp only [brandOffsets, List.mem_range'] at hoff
    omega
  by_cases hfits : off + 4 ≤ size
  · rw [drop_take_head (by omega)]
    simp only [Nat.le_min, hfits, hle, and_self, decide_true]
  · have hnot : ¬ off + 4 ≤ min size 64 := by omega
    simp only [hfits, hnot, decide_false, Bool.false_and]

theorem Probe.test_head {probe : Probe} (h : probe.inHead = true) :
    probe.test (buf.take (min size 64)) (min size 64) = probe.test buf size := by
  cases probe with
  | magic off bytes => exact matchAt_head (of_decide_eq_true h)
  | brand bytes => exact isFtypBrand_head bytes

theorem signatures_inHead : ∀ row ∈ signatures, ∀ line ∈ row.2, ∀ probe ∈ line,
    probe.inHead = true := by
  decide

/-- **The type depends on the head**: on 64 bytes, of those that were read. -/
theorem filetypeOf_head (buf : List UInt8) (size : Nat) :
    filetypeOf (buf.take (min size 64)) (min size 64) = filetypeOf buf size := by
  have hrows : ∀ row ∈ signatures,
      holdsAt (buf.take (min size 64)) (min size 64) row.2 = holdsAt buf size row.2 := by
    intro row hrow
    refine any_congr_mem fun line hline => ?_
    exact all_congr_mem fun probe hprobe =>
      Probe.test_head (signatures_inHead row hrow line hline probe hprobe)
  unfold filetypeOf
  rw [List.find?_congr hrows]

end Head

/-! ## Local files -/

/-- `LocalFile` as a `UniFile`. -/
def LocalFile.uniFile : UniFile LocalFile where
  seek offset whence g := g.seek offset whence
  tell g := (g.tell, g)
  read buf g := some (g.read buf)

/-- The type of a file, if it can be read. -/
def StdFile.detected (fp : StdFile) : Str :=
  if fp.canRead then filetypeOf (fp.bytes.take 64) (min fp.bytes.length 64) else "UNK".toList

/-- The file at another position. -/
def StdFile.movedTo (fp : StdFile) (pos : Nat) (h : pos < 9223372036854775808) : StdFile :=
  { fp with pos := pos, pos_lt := h }

section Local

variable (fp : StdFile)

theorem local_seek (offset : Int) (whence : Whence) (pos : Nat) (h : pos < 9223372036854775808)
    (htarget : seekTarget fp.bytes.length fp.pos offset whence = pos) :
    LocalFile.uniFile.seek offset whence ⟨some fp⟩ = (0, ⟨some (fp.movedTo pos h)⟩) := by
  have hseek : fp.seek offset whence = (0, fp.movedTo pos h) := by
    have hrange : (0 : Int) ≤ pos ∧ (pos : Int) < 9223372036854775808 := by omega
    simp only [StdFile.seek, htarget, dif_pos hrange, Int.toNat_natCast, StdFile.movedTo]
  simp only [LocalFile.uniFile, LocalFile.seek, hseek, if_true]

theorem local_read (buf : List UInt8) :
    LocalFile.uniFile.read buf ⟨some fp⟩ = some (fp.avail buf.length,
      (fp.bytes.drop fp.pos).take (fp.avail buf.length) ++ buf.drop (fp.avail buf.length),
      ⟨some (fp.advance (fp.avail buf.length))⟩) := rfl

/-- What was read of a file from its start is told by the head of the file. -/
theorem filetypeOf_read (bytes rest : List UInt8) (n : Nat) (hn : n = min 512 bytes.length) :
    filetypeOf (bytes.take n ++ rest) n = filetypeOf (bytes.take 64) (min bytes.length 64) := by
  have hlen : (bytes.take n).length = n := by
    rw [List.length_take]
    omega
  have hmin : min n 64 = min bytes.length 64 := by omega
  rw [← filetypeOf_head (bytes.take n ++ rest), hmin, List.take_append_of_le_length (by omega),
    List.take_take, ← filetypeOf_head (bytes.take 64)]
  have h₁ : min (min bytes.length 64) n = min bytes.length 64 := by omega
  have h₂ : min (min bytes.length 64) 64 = min bytes.length 64 := by omega
  rw [h₁, h₂, List.take_take, h₂]

/-- The type of a local file is told by its head, and it stays at its position. -/
theorem filetype_local :
    filetype (some LocalFile.uniFile) ⟨some fp⟩ = some (fp.detected, ⟨some fp⟩) := by
  have htell : LocalFile.uniFile.tell ⟨some fp⟩ = ((fp.pos : Int), ⟨some fp⟩) := rfl
  have hgo : (fp.pos : Int) ≥ 0 := Int.natCast_nonneg _
  have hstart := local_seek fp 0 .SEEK_SET 0 (by decide) rfl
  set fp₀ := fp.movedTo 0 (by decide)
  have hread := local_read fp₀ zeroBuf
  have hzero : zeroBuf.length = 512 := List.length_replicate
  rw [hzero] at hread
  have hback : LocalFile.uniFile.seek fp.pos .SEEK_SET ⟨some (fp₀.advance (fp₀.avail 512))⟩ =
      (0, ⟨some fp⟩) := local_seek _ _ .SEEK_SET fp.pos fp.pos_lt rfl
  simp only [filetype, htell, hstart, hread, ne_eq, not_true_eq_false, if_false, if_pos hgo, hback]
  have havail : fp₀.avail 512 = if fp.canRead then min 512 fp.bytes.length else 0 := rfl
  rw [havail, StdFile.detected]
  cases hr : fp.canRead with
  | false => rfl
  | true =>
    simp only [if_true]
    split
    · rename_i hzero
      have hnil : fp.bytes = [] := List.eq_nil_of_length_eq_zero (by omega)
      rw [hnil]
      rfl
    · have hbytes : fp₀.bytes.drop fp₀.pos = fp.bytes := rfl
      rw [hbytes, filetypeOf_read fp.bytes _ _ rfl]

/-- A local file that can be read is read whole, from wherever it is. -/
theorem readFromUniFile_local (a : Arch) (fresh : Nat → UInt8) (hr : fp.canRead = true)
    (hpos : 0 < fp.bytes.length) (hsize : fp.bytes.length < 2 ^ a.bits) :
    ∃ g, readFromUniFile a fresh LocalFile.uniFile ⟨some fp⟩ =
      some (.OK, ⟨some fp.bytes, fp.bytes.length⟩, g) := by
  have hend := local_seek fp 0 .SEEK_END fp.bytes.length fp.length_lt (by simp [seekTarget])
  have hafter : afterEnd LocalFile.uniFile ⟨some fp⟩ =
      ⟨some (fp.movedTo fp.bytes.length fp.length_lt)⟩ := by
    rw [afterEnd, hend]
  have htell : (LocalFile.uniFile.tell (afterEnd LocalFile.uniFile ⟨some fp⟩)).1 =
      fp.bytes.length := by
    rw [hafter]
    rfl
  set fp₀ := fp.movedTo 0 (by decide)
  have hrewind : LocalFile.uniFile.seek 0 .SEEK_SET (afterTell LocalFile.uniFile ⟨some fp⟩) =
      (0, ⟨some fp₀⟩) := by
    rw [afterTell, hafter]
    exact local_seek _ 0 .SEEK_SET 0 (by decide) rfl
  have hlength : ((List.range (fp.bytes.length % 2 ^ a.bits)).map fresh).length =
      fp.bytes.length := by
    rw [List.length_map, List.length_range, Nat.mod_eq_of_lt hsize]
  have havail : fp₀.avail fp.bytes.length = fp.bytes.length := by
    have hmin : fp₀.avail fp.bytes.length = min fp.bytes.length (fp.bytes.length - 0) := if_pos hr
    omega
  have hbytes : fp₀.bytes.drop fp₀.pos = fp.bytes := rfl
  have hread := local_read fp₀ ((List.range (fp.bytes.length % 2 ^ a.bits)).map fresh)
  rw [hlength, havail, hbytes, List.take_length, List.drop_eq_nil_of_le (Nat.le_of_eq hlength),
    List.append_nil] at hread
  have hstart : afterStart LocalFile.uniFile ⟨some fp⟩ = ⟨some fp₀⟩ := by
    rw [afterStart, hrewind]
  rw [← hstart] at hread
  refine ⟨⟨some (fp₀.advance fp.bytes.length)⟩,
    (readFromUniFile_read a fresh ?_ htell hpos ?_ hread).trans ?_⟩
  · rw [hend]
  · rw [hrewind]
  · rw [Nat.mod_eq_of_lt hsize, if_pos rfl]

end Local

/-! ## Remote files -/

/-- The answers that can come. -/
def Reply.Valid : Reply → Prop
  | .tell r | .seek r => InInt64 r
  | .read _ _ => True

namespace Reply

def result : Reply → Int
  | .seek r => r
  | .tell pos => pos
  | .read _ _ => 0

def count : Reply → Nat
  | .read n _ => n
  | .seek _ | .tell _ => 0

def buf : Reply → List UInt8
  | .read _ buf => buf
  | .seek _ | .tell _ => []

end Reply

theorem inInt64_result {r : Reply} (h : r.Valid) : InInt64 r.result := by
  cases r with
  | seek r => exact h
  | tell pos => exact h
  | read n buf => exact inInt64_zero

/-- `filetype` as a dialogue with a file. -/
def filetypeDialogue : Dialogue Call Reply Str :=
  .ask .tell fun pos =>
    .ask (.seek 0 .SEEK_SET) fun r =>
      if r.result ≠ 0 then .done "UNK".toList
      else
        .ask (.read zeroBuf) fun got =>
          let name := if got.count = 0 then "UNK".toList else filetypeOf got.buf got.count
          if pos.result ≥ 0 then .ask (.seek pos.result .SEEK_SET) fun _ => .done name
          else .done name

/-- `readFromUniFile` as a dialogue. -/
def readDialogue (a : Arch) (fresh : Nat → UInt8) : Dialogue Call Reply (IM × FileBuf) :=
  .ask (.seek 0 .SEEK_END) fun r =>
    if r.result ≠ 0 then .done (.READFILE_ERR, {})
    else
      .ask .tell fun sz =>
        if sz.result ≤ 0 then .done (.READFILE_ERR, {})
        else
          let filesize := sz.result.toNat % 2 ^ a.bits
          .ask (.seek 0 .SEEK_SET) fun r =>
            if r.result ≠ 0 then .done (.READFILE_ERR, { filesize })
            else
              .ask (.read ((List.range filesize).map fresh)) fun got =>
                if got.count ≠ filesize then .done (.READFILE_ERR, { filesize })
                else .done (.OK, { filebuf := some got.buf, filesize })

section Dialogue

variable {W : Type} (f : UniFile W) (w : W)

theorem filetype_run : filetype (some f) w = filetypeDialogue.run f.call w := by
  by_cases hstart : (f.seek 0 .SEEK_SET (f.tell w).2).1 = 0
  · cases hread : f.read zeroBuf (f.seek 0 .SEEK_SET (f.tell w).2).2 with
    | none =>
      simp [filetype, filetypeDialogue, Dialogue.run, UniFile.call, Reply.result, hstart, hread]
    | some got =>
      obtain ⟨size, buf, w'⟩ := got
      by_cases hpos : 0 ≤ (f.tell w).1 <;> by_cases hsize : size = 0 <;>
        simp [filetype, filetypeDialogue, Dialogue.run, UniFile.call, Reply.result, Reply.count,
          Reply.buf, hstart, hread, hpos, hsize]
  · simp [filetype, filetypeDialogue, Dialogue.run, UniFile.call, Reply.result, hstart]

theorem readFromUniFile_run (a : Arch) (fresh : Nat → UInt8) :
    readFromUniFile a fresh f w =
      ((readDialogue a fresh).run f.call w).map fun (r, w) => (r.1, r.2, w) := by
  by_cases hend : (f.seek 0 .SEEK_END w).1 = 0
  · by_cases hsize : (f.tell (afterEnd f w)).1 ≤ 0
    · rw [readFromUniFile_no_size a fresh hend hsize]
      rw [afterEnd] at hsize
      simp [readDialogue, Dialogue.run, UniFile.call, Reply.result, hend, hsize, afterTell, afterEnd]
    · rw [afterEnd] at hsize
      by_cases hstart : (f.seek 0 .SEEK_SET (f.tell (f.seek 0 .SEEK_END w).2).2).1 = 0
      · cases hread : f.read ((List.range ((f.tell (f.seek 0 .SEEK_END w).2).1.toNat % 2 ^ a.bits)).map
            fresh) (f.seek 0 .SEEK_SET (f.tell (f.seek 0 .SEEK_END w).2).2).2 with
        | none =>
          simp [readFromUniFile, readDialogue, Dialogue.run, UniFile.call, Reply.result, hend, hsize,
            hstart, hread]
        | some got =>
          obtain ⟨n, buf, w'⟩ := got
          by_cases hall : n = (f.tell (f.seek 0 .SEEK_END w).2).1.toNat % 2 ^ a.bits
          · subst hall
            simp [readFromUniFile, readDialogue, Dialogue.run, UniFile.call, Reply.result,
              Reply.count, Reply.buf, hend, hsize, hstart, hread]
          · simp [readFromUniFile, readDialogue, Dialogue.run, UniFile.call, Reply.result,
              Reply.count, hend, hsize, hstart, hread, hall]
      · simp [readFromUniFile, readDialogue, Dialogue.run, UniFile.call, Reply.result, hend, hsize,
          hstart]
  · rw [readFromUniFile_no_end a fresh hend]
    simp [readDialogue, Dialogue.run, UniFile.call, Reply.result, hend, afterEnd]

end Dialogue

/-- The calls that read, among all of an open file. -/
def Call.toDisk : Call → DiskCall
  | .seek offset whence => .seek offset whence
  | .tell => .tell
  | .read buf => .read buf

def Reply.toDisk : Reply → DiskReply
  | .seek r => .seek r
  | .tell pos => .tell pos
  | .read n buf => .read n buf

theorem Reply.toDisk_injective {r r' : Reply} (h : r.toDisk = r'.toDisk) : r = r' := by
  cases r <;> cases r' <;> simp_all [Reply.toDisk]

theorem Call.toDisk_valid {a : Arch} {c : Call} (h : c.Valid a) : c.toDisk.Valid a := by
  cases c <;> exact h

theorem Call.clamp_toDisk (c : Call) : c.toDisk.clamp = c.toDisk := by
  cases c <;> rfl

theorem local_call (fclose : StdFile → Bool × List UInt8) (g : LocalFile) (c : Call) :
    ∃ r, LocalFile.uniFile.call g c = some (r, (g.call fclose c.toDisk).2) ∧
      g.call fclose c.toDisk = (r.toDisk, (g.call fclose c.toDisk).2) := by
  cases c with
  | seek offset whence => exact ⟨.seek (g.seek offset whence).1, rfl, rfl⟩
  | tell => exact ⟨.tell g.tell, rfl, rfl⟩
  | read buf => exact ⟨.read (g.read buf).1 (g.read buf).2.1, rfl, rfl⟩

theorem inInt64_neg_one : InInt64 (-1) := ⟨by decide, by decide⟩

theorem local_answers {g g' : LocalFile} {c : Call} {r : Reply}
    (h : LocalFile.uniFile.call g c = some (r, g')) : r.Valid := by
  cases c with
  | seek offset whence =>
    simp only [UniFile.call, Option.some.injEq, Prod.mk.injEq] at h
    rw [← h.1]
    change InInt64 (g.seek offset whence).1
    unfold LocalFile.seek
    split
    · exact inInt64_neg_one
    · simp only
      split
      · exact inInt64_zero
      · exact inInt64_neg_one
  | tell =>
    simp only [UniFile.call, Option.some.injEq, Prod.mk.injEq] at h
    rw [← h.1]
    change InInt64 g.tell
    unfold LocalFile.tell
    split
    · exact inInt64_neg_one
    · rename_i fp _
      have hlt := fp.pos_lt
      unfold InInt64
      omega
  | read buf =>
    simp only [UniFile.call, LocalFile.uniFile, Option.map_some, Option.some.injEq,
      Prod.mk.injEq] at h
    rw [← h.1]
    trivial

section Remote

variable {C : Type} {link : Link C} (server : DiskServer link) {a : Arch} {f : RemoteFile}

theorem remote_call (conn : Session C) (c : Call) : f.call a link conn c.toDisk =
    ((f.uniFile a link).call conn c).map fun (r, conn) => (r.toDisk, f, conn) := by
  cases c with
  | seek offset whence => rfl
  | tell => rfl
  | read buf =>
    simp only [Call.toDisk, RemoteFile.call, UniFile.call, RemoteFile.uniFile, Option.map_map]
    rfl

theorem call_same {conn : Session C} {g : LocalFile} (h : SameFile server conn f g) {c : DiskCall}
    (hc : c.Valid a) :
    ∃ r f' conn' g', f.call a link conn c = some (r, f', conn') ∧
      g.call server.fclose c.clamp = (r, g') ∧ SameFile server conn' f' g' := by
  obtain ⟨fp⟩ := g
  cases hclosed : f.closed with
  | true =>
    have hnone := h
    rw [SameFile, if_pos hclosed] at hnone
    simp only at hnone
    subst hnone
    obtain ⟨r, hcall, hlocal, -⟩ := call_closed (a := a) link conn hclosed server.fclose hc
    exact ⟨r, f, conn, ⟨none⟩, hcall, hlocal, h⟩
  | false =>
    rw [SameFile, if_neg (by simp [hclosed])] at h
    obtain ⟨fp', hfp, hkept⟩ := h
    simp only at hfp
    subst hfp
    obtain ⟨r, f', conn', g', hcall, hlocal, hsame, -⟩ := call_open server hclosed hkept hc
    exact ⟨r, f', conn', g', hcall, hlocal, hsame⟩

/-- **One call** has the same answer on both sides. -/
theorem uniFile_mirrors : Mirrors (Call.Valid a) (f.uniFile a link).call LocalFile.uniFile.call
    fun conn g => SameFile server conn f g := by
  intro conn g c hsame hc
  obtain ⟨r, f', conn', g', hcall, hlocal, hsame'⟩ := call_same server hsame (c.toDisk_valid hc)
  rw [remote_call] at hcall
  obtain ⟨⟨o, conn''⟩, ho, heq⟩ := Option.map_eq_some_iff.mp hcall
  simp only [Prod.mk.injEq] at heq
  obtain ⟨rfl, rfl, rfl⟩ := heq
  obtain ⟨o', ho', hr⟩ := local_call server.fclose g c
  rw [c.clamp_toDisk, hr, Prod.mk.injEq] at hlocal
  obtain ⟨heq, rfl⟩ := hlocal
  rw [Reply.toDisk_injective heq] at ho'
  exact ⟨o, conn'', _, ho, ho', hsame'⟩

theorem remote_answers {conn conn' : Session C} {g : LocalFile} {c : Call} {r : Reply}
    (h : SameFile server conn f g) (hc : c.Valid a)
    (hcall : (f.uniFile a link).call conn c = some (r, conn')) : r.Valid := by
  obtain ⟨o, conn'', g', hremote, hlocal, -⟩ := uniFile_mirrors server conn g c h hc
  rw [hremote, Option.some.injEq, Prod.mk.injEq] at hcall
  obtain ⟨rfl, -⟩ := hcall
  exact local_answers hlocal

theorem filetypeDialogue_asks (a : Arch) : filetypeDialogue.Asks (Call.Valid a) Reply.Valid := by
  have hzero : zeroBuf.length = 512 := List.length_replicate
  have hbuf : (Call.read zeroBuf).Valid a := by
    rw [Call.Valid, hzero]
    cases a <;> decide
  refine ⟨trivial, fun pos hpos => ⟨inInt64_zero, fun r _ => ?_⟩⟩
  refine .ite (fun _ => trivial) fun _ => ⟨hbuf, fun got _ => ?_⟩
  exact .ite (fun _ => ⟨inInt64_result hpos, fun _ _ => trivial⟩) fun _ => trivial

theorem readDialogue_asks (a : Arch) (fresh : Nat → UInt8) :
    (readDialogue a fresh).Asks (Call.Valid a) Reply.Valid := by
  refine ⟨inInt64_zero, fun r _ => .ite (fun _ => trivial) fun _ => ⟨trivial, fun sz _ => ?_⟩⟩
  refine .ite (fun _ => trivial) fun _ => ⟨inInt64_zero, fun r _ => .ite (fun _ => trivial) fun _ => ?_⟩
  refine ⟨?_, fun got _ => .ite (fun _ => trivial) fun _ => trivial⟩
  rw [Call.Valid, List.length_map, List.length_range]
  exact Nat.mod_lt _ (Nat.two_pow_pos _)

/-- **The type and the bytes of a file.** A file that can be read, on a server that keeps it or
local, is of the type that its first 64 bytes tell, and `filetype` leaves it at its position;
`readFromUniFile` then gets all its bytes, as many as `size_t` can state. What cannot be read is of
no type, and from a remote file `readFromUniFile` gets what it gets from a local one. -/
theorem detect_and_read (hopen : f.closed = false) {conn : Session C} {fp : StdFile}
    (hfp : server.files conn.conn f.handle = some fp) (fresh : Nat → UInt8) :
    ∃ conn' conn'' g im img,
      filetype (some (f.uniFile a link)) conn = some (fp.detected, conn') ∧
      server.files conn'.conn f.handle = some fp ∧
      filetype (some LocalFile.uniFile) ⟨some fp⟩ = some (fp.detected, ⟨some fp⟩) ∧
      readFromUniFile a fresh (f.uniFile a link) conn' = some (im, img, conn'') ∧
      readFromUniFile a fresh LocalFile.uniFile ⟨some fp⟩ = some (im, img, g) ∧
      (fp.canRead = true → 0 < fp.bytes.length → fp.bytes.length < 2 ^ a.bits →
        im = .OK ∧ img = ⟨some fp.bytes, fp.bytes.length⟩) := by
  have hmirrors := uniFile_mirrors server (a := a) (f := f)
  have hsame : SameFile server conn f ⟨some fp⟩ := by
    rw [SameFile, if_neg (by simp [hopen])]
    exact ⟨fp, rfl, hfp⟩
  have hcan : ∀ (s : Session C) (t : LocalFile) c o s', SameFile server s f t → Call.Valid a c →
      (f.uniFile a link).call s c = some (o, s') → o.Valid :=
    fun _ _ _ _ _ h hc hcall => remote_answers server h hc hcall
  -- the type
  obtain ⟨name, conn', g', hremote, hlocal, hsame'⟩ :=
    hmirrors.run hcan (filetypeDialogue_asks a) hsame
  rw [← filetype_run, filetype_local, Option.some.injEq, Prod.mk.injEq] at hlocal
  obtain ⟨rfl, rfl⟩ := hlocal
  rw [← filetype_run] at hremote
  have hkept := hsame'
  rw [SameFile, if_neg (by simp [hopen])] at hkept
  obtain ⟨fp', hfp', hkept⟩ := hkept
  rw [Option.some.injEq] at hfp'
  subst hfp'
  -- the bytes
  obtain ⟨⟨im, img⟩, conn'', g'', hread, hread', -⟩ :=
    hmirrors.run hcan (readDialogue_asks a fresh) hsame'
  have hreadLocal : readFromUniFile a fresh LocalFile.uniFile ⟨some fp⟩ = some (im, img, g'') := by
    rw [readFromUniFile_run, hread']
    rfl
  refine ⟨conn', conn'', g'', im, img, hremote, hkept, filetype_local fp, ?_, hreadLocal, ?_⟩
  · rw [readFromUniFile_run, hread]
    rfl
  · intro hr hpos hsize
    obtain ⟨g, hwhole⟩ := readFromUniFile_local fp a fresh hr hpos hsize
    rw [hreadLocal, Option.some.injEq, Prod.mk.injEq, Prod.mk.injEq] at hwhole
    exact ⟨hwhole.1, hwhole.2.1⟩

end Remote

/-- A PNG file, open at its byte 3. -/
def pngFile : StdFile :=
  ⟨magicBytes "\x89PNG\r\n\x1a\n" ++ [0, 0, 0, 13], 3, .read, by decide, by decide⟩

def pngTable : DiskTable where
  files h := if h = 7 then some pngFile else none
  left _ := none

theorem detect_and_read_png : ∃ conn' conn'',
    filetype (some ((⟨7, false⟩ : RemoteFile).uniFile .x64 (tableLink closeFour))) ⟨pngTable, []⟩ =
        some ("png".toList, conn') ∧
      readFromUniFile .x64 (fun _ => 0) ((⟨7, false⟩ : RemoteFile).uniFile .x64 (tableLink closeFour))
        conn' = some (.OK, ⟨some pngFile.bytes, 12⟩, conn'') := by
  have hsmall : 12 < 2 ^ Arch.x64.bits := by decide
  have hpng : pngFile.detected = "png".toList := by decide
  have hfp : (tableServer closeFour).files (⟨pngTable, []⟩ : Session DiskTable).conn 7 =
      some pngFile := rfl
  obtain ⟨conn', conn'', g, im, img, htype, -, -, hread, -, hwhole⟩ :=
    detect_and_read (tableServer closeFour) (f := ⟨7, false⟩) (a := .x64) rfl hfp fun _ => 0
  obtain ⟨rfl, rfl⟩ := hwhole (by decide) (by decide) hsmall
  rw [hpng] at htype
  exact ⟨conn', conn'', htype, hread⟩

end ObZrv
