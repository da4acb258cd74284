import ObZrv.Codec.Image
import ObZrv.Unifs.ScriptedServer

/-!
# Codec.ReadFile

`Image::readFromUniFile` of `Codec.h`, and what it gives on a `RemoteFile`.

* `readFromUniFile_file` : from the start of a whole file, either the bytes of the file, or an
  error with the buffer released.
* `reads_whole_iff`      : the bytes are the whole file exactly when `size_t` can state its length.
-/

namespace ObZrv

/-- The file buffer of an `Image`; a null `_filebuf` is `none`. -/
structure FileBuf where
  filebuf : Option (List UInt8) := none
  filesize : Nat := 0
deriving DecidableEq, Repr

/-- `readFromUniFile` on an image without a buffer; `fresh` is what memory from `new` holds. The
buffer is allocated, a `bad_alloc` is left out. -/
def readFromUniFile {W : Type} (a : Arch) (fresh : Nat → UInt8) (f : UniFile W) (w : W) :
    Option (IM × FileBuf × W) :=
  let (r, w) := f.seek 0 .SEEK_END w
  if r ≠ 0 then some (.READFILE_ERR, {}, w)
  else
    let (sz, w) := f.tell w
    if sz ≤ 0 then some (.READFILE_ERR, {}, w)
    else
      let filesize := sz.toNat % 2 ^ a.bits
      let filebuf := (List.range filesize).map fresh
      let (r, w) := f.seek 0 .SEEK_SET w
      if r ≠ 0 then some (.READFILE_ERR, { filesize }, w)
      else
        match f.read filebuf w with
        | none => none
        | some (got, filebuf, w) =>
          if got ≠ filesize then some (.READFILE_ERR, { filesize }, w)
          else some (.OK, { filebuf := some filebuf, filesize }, w)

section Stages

variable {W : Type} (a : Arch) (fresh : Nat → UInt8) (f : UniFile W) (w : W)

def afterEnd : W := (f.seek 0 .SEEK_END w).2

def afterTell : W := (f.tell (afterEnd f w)).2

def afterStart : W := (f.seek 0 .SEEK_SET (afterTell f w)).2

variable {f w}

theorem readFromUniFile_no_end (h : (f.seek 0 .SEEK_END w).1 ≠ 0) :
    readFromUniFile a fresh f w = some (.READFILE_ERR, {}, afterEnd f w) := by
  simp [readFromUniFile, h, afterEnd]

theorem readFromUniFile_no_size (hend : (f.seek 0 .SEEK_END w).1 = 0)
    (h : (f.tell (afterEnd f w)).1 ≤ 0) :
    readFromUniFile a fresh f w = some (.READFILE_ERR, {}, afterTell f w) := by
  rw [afterEnd] at h
  simp [readFromUniFile, hend, h, afterTell, afterEnd]

theorem readFromUniFile_no_start (hend : (f.seek 0 .SEEK_END w).1 = 0) {size : Nat}
    (hsize : (f.tell (afterEnd f w)).1 = size) (hpos : 0 < size)
    (h : (f.seek 0 .SEEK_SET (afterTell f w)).1 ≠ 0) :
    readFromUniFile a fresh f w =
      some (.READFILE_ERR, ⟨none, size % 2 ^ a.bits⟩, afterStart f w) := by
  rw [afterTell, afterEnd] at h
  rw [afterEnd] at hsize
  simp [readFromUniFile, hend, hsize, h, Nat.ne_of_gt hpos, afterStart, afterTell, afterEnd]

/-- With all three calls done, the outcome is that of the read. -/
theorem readFromUniFile_read (hend : (f.seek 0 .SEEK_END w).1 = 0) {size : Nat}
    (hsize : (f.tell (afterEnd f w)).1 = size) (hpos : 0 < size)
    (hstart : (f.seek 0 .SEEK_SET (afterTell f w)).1 = 0) {got : Nat} {buf : List UInt8} {w' : W}
    (hread : f.read ((List.range (size % 2 ^ a.bits)).map fresh) (afterStart f w) =
      some (got, buf, w')) :
    readFromUniFile a fresh f w =
      if got = size % 2 ^ a.bits then some (.OK, ⟨some buf, size % 2 ^ a.bits⟩, w')
      else some (.READFILE_ERR, ⟨none, size % 2 ^ a.bits⟩, w') := by
  rw [afterTell, afterEnd] at hstart
  rw [afterStart, afterTell, afterEnd] at hread
  rw [afterEnd] at hsize
  simp [readFromUniFile, hend, hsize, hstart, hread, Nat.ne_of_gt hpos]

end Stages

section

variable {C : Type} {link : Link C} {bytes : List UInt8}

theorem inInt64_zero : InInt64 0 := by
  unfold InInt64
  omega

theorem FileServer.not_steady_of_fails {handle : UInt32} (server : FileServer link handle bytes)
    {c : C} (h : server.fails c = true) : ¬ server.Steady := by
  intro hst
  rw [hst.fails] at h
  cases h

/-- From a whole file the bytes of the file are read, as many as `size_t` can state. If a request
fails or the file is cut meanwhile, it is an error, and the buffer is released. -/
theorem readFromUniFile_file (a : Arch) (fresh : Nat → UInt8) (f : RemoteFile)
    (server : FileServer link f.handle bytes) (hopen : f.closed = false) (conn : Session C)
    (hlen : 0 < bytes.length) (hcontent : server.content conn.conn = bytes)
    (hsize : bytes.length < 2 ^ a.bits ∨ server.Steady) :
    (∃ conn', readFromUniFile a fresh (f.uniFile a link) conn =
        some (.OK, ⟨some (bytes.take (bytes.length % 2 ^ a.bits)), bytes.length % 2 ^ a.bits⟩,
          conn') ∧ server.disturbed conn'.conn = server.disturbed conn.conn) ∨
      (¬ server.Steady ∧ ∃ filesize conn', readFromUniFile a fresh (f.uniFile a link) conn =
        some (.READFILE_ERR, ⟨none, filesize⟩, conn') ∧ server.disturbed conn'.conn = true) := by
  have hlt := server.length_lt
  have hcalm₀ : server.Calm (server.disturbed conn.conn) conn.conn := fun _ => rfl
  -- seek to the end
  by_cases hf₁ : server.fails conn.conn = true
  · obtain ⟨hr, hd⟩ := server.seek_fails f hopen conn hf₁ 0 .SEEK_END
    exact .inr ⟨server.not_steady_of_fails hf₁, _, _, readFromUniFile_no_end a fresh hr, hd⟩
  rw [Bool.not_eq_true] at hf₁
  obtain ⟨hend, hpos₁⟩ := server.seek_in_range f hopen conn hf₁ inInt64_zero .SEEK_END
    (Int.natCast_nonneg bytes.length) (by omega) (by rw [hcontent, seekTarget, Int.add_zero])
  have hcalm₁ := hcalm₀.serve server hf₁ ⟨CMD_FILE_SEEK, RemoteFile.seekRequest f.handle 0 .SEEK_END⟩
  rw [← (server.seek_eq f hopen conn 0 .SEEK_END).1] at hcalm₁
  change (server.pos (afterEnd (f.uniFile a link) conn).conn : Int) = _ at hpos₁
  -- tell
  by_cases hf₂ : server.fails (afterEnd (f.uniFile a link) conn).conn = true
  · obtain ⟨hr, hd⟩ := server.tell_fails f hopen _ hf₂
    have hle : ((f.uniFile a link).tell (afterEnd (f.uniFile a link) conn)).1 ≤ 0 :=
      Int.le_trans (Int.le_of_eq hr) (by decide)
    exact .inr ⟨server.not_steady_of_fails hf₂, _, _, readFromUniFile_no_size a fresh hend hle, hd⟩
  rw [Bool.not_eq_true] at hf₂
  obtain ⟨hsz, hpos₂⟩ := server.tell_served f hopen _ hf₂
  have hcalm₂ := hcalm₁.serve server hf₂ ⟨CMD_FILE_TELL, protoWriteU32 f.handle⟩
  rw [← server.tell_conn f hopen] at hcalm₂
  replace hsz := hsz.trans hpos₁
  -- seek to the start
  by_cases hf₃ : server.fails (afterTell (f.uniFile a link) conn).conn = true
  · obtain ⟨hr, hd⟩ := server.seek_fails f hopen _ hf₃ 0 .SEEK_SET
    exact .inr ⟨server.not_steady_of_fails hf₃, _, _,
      readFromUniFile_no_start a fresh hend hsz hlen hr, hd⟩
  rw [Bool.not_eq_true] at hf₃
  obtain ⟨hstart, hpos₃⟩ := server.seek_in_range f hopen _ hf₃ inInt64_zero .SEEK_SET
    Int.le_rfl (by decide) rfl
  have hcalm₃ := hcalm₂.serve server hf₃ ⟨CMD_FILE_SEEK, RemoteFile.seekRequest f.handle 0 .SEEK_SET⟩
  rw [← (server.seek_eq f hopen _ 0 .SEEK_SET).1] at hcalm₃
  change (server.pos (afterStart (f.uniFile a link) conn).conn : Int) = _ at hpos₃
  change server.Calm _ (afterStart (f.uniFile a link) conn).conn at hcalm₃
  -- read
  let buf := (List.range (bytes.length % 2 ^ a.bits)).map fresh
  have hbuf : buf.length = bytes.length % 2 ^ a.bits := by
    rw [List.length_map, List.length_range]
  have hw : bytes.length % 2 ^ a.bits < 2 ^ a.bits := Nat.mod_lt _ (Nat.two_pow_pos _)
  obtain ⟨s, hread, hn, hdone⟩ := server.read_file f hopen (afterStart (f.uniFile a link) conn)
    (⟨buf, hbuf.symm ▸ hw⟩ : Buffer a)
  rw [readFromUniFile_read a fresh hend hsz hlen hstart (RemoteFile.readInto_done hread)]
  simp only [hbuf, Int.natCast_eq_zero.mp hpos₃] at hn hdone
  rcases hdone with ⟨hall, hfilled, -, hdist⟩ | ⟨hns, hdist, hshort⟩
  · have hmod : bytes.length % 2 ^ a.bits ≤ bytes.length := Nat.mod_le _ _
    replace hall : s.total = bytes.length % 2 ^ a.bits := by omega
    have hempty : buf.drop (bytes.length % 2 ^ a.bits) = [] :=
      List.drop_eq_nil_of_le (Nat.le_of_eq hbuf)
    have hwhole : server.content (afterStart (f.uniFile a link) conn).conn = bytes := by
      rcases hsize with hsize | hst
      · rw [Nat.mod_eq_of_lt hsize] at hall
        exact (server.content_prefix _).eq_of_length_le (by omega)
      · exact hst.content _
    refine .inl ⟨s.conn, ?_, hdist.trans (hcalm₃ hwhole)⟩
    rw [if_pos hall, hfilled, hall, hempty, List.drop_zero, List.append_nil]
  · rcases hsize with hsize | hst
    · rw [Nat.mod_eq_of_lt hsize] at hshort ⊢
      have hlt := hshort (Nat.zero_add _)
      rw [if_neg (Nat.ne_of_lt hlt)]
      exact .inr ⟨hns, _, s.conn, rfl, hdist⟩
    · exact absurd hst hns

/-! ## Whole files -/

/-- Against a server without failures `read` gets the bytes from position `p` on, up to the size
of the buffer, and moves the position by as many. -/
def ReadsAll (a : Arch) (bytes : List UInt8) : Prop :=
  ∀ (C : Type) (link : Link C) (f : RemoteFile) (server : FileServer link f.handle bytes),
    server.Steady → f.closed = false → ∀ (conn : Session C) (buf : Buffer a),
      let p := server.pos conn.conn
      ∃ s, f.read link conn buf = .done s ∧
        s.total = min buf.bytes.length (bytes.length - p) ∧
        s.buf = (bytes.drop p).take s.total ++ buf.bytes.drop s.total ∧
        server.pos s.conn.conn = p + s.total

/-- `readFromUniFile` gets the file, or reports that something went wrong and keeps no buffer. -/
structure ReadsWhole (a : Arch) (bytes : List UInt8) : Prop where
  steady : ∀ (C : Type) (link : Link C) (f : RemoteFile) (server : FileServer link f.handle bytes),
    server.Steady → f.closed = false → ∀ (fresh : Nat → UInt8) (conn : Session C),
      ∃ conn', readFromUniFile a fresh (f.uniFile a link) conn =
        some (.OK, ⟨some bytes, bytes.length⟩, conn')
  disturbed : ∀ (C : Type) (link : Link C) (f : RemoteFile)
    (server : FileServer link f.handle bytes), f.closed = false →
      ∀ (fresh : Nat → UInt8) (conn : Session C), server.content conn.conn = bytes →
        server.disturbed conn.conn = false →
        ∃ im img conn', readFromUniFile a fresh (f.uniFile a link) conn = some (im, img, conn') ∧
          if server.disturbed conn'.conn = true then im = .READFILE_ERR ∧ img.filebuf = none
          else im = .OK ∧ img = ⟨some bytes, bytes.length⟩

theorem reads_all (a : Arch) (bytes : List UInt8) : ReadsAll a bytes := by
  intro C link f server hst hopen conn buf
  obtain ⟨s, hread, -, hall | ⟨hns, -⟩⟩ := server.read_file f hopen conn buf
  · exact ⟨s, hread, hall.1, hall.2.1, hall.2.2.1⟩
  · exact absurd hst hns

theorem reads_whole {a : Arch} {bytes : List UInt8} (hlen : 0 < bytes.length)
    (hsize : bytes.length < 2 ^ a.bits) : ReadsWhole a bytes where
  steady C link f server hst hopen fresh conn := by
    rcases readFromUniFile_file a fresh f server hopen conn hlen (hst.content _) (.inl hsize) with
      ⟨conn', hread, -⟩ | ⟨hns, -⟩
    · rw [Nat.mod_eq_of_lt hsize, List.take_length] at hread
      exact ⟨conn', hread⟩
    · exact absurd hst hns
  disturbed C link f server hopen fresh conn hcontent hd := by
    rcases readFromUniFile_file a fresh f server hopen conn hlen hcontent (.inl hsize) with
      ⟨conn', hread, hd'⟩ | ⟨-, filesize, conn', hread, hd'⟩
    · rw [Nat.mod_eq_of_lt hsize, List.take_length] at hread
      refine ⟨_, _, conn', hread, ?_⟩
      rw [hd', hd, if_neg Bool.false_ne_true]
      exact ⟨rfl, rfl⟩
    · refine ⟨_, _, conn', hread, ?_⟩
      rw [if_pos hd']
      exact ⟨rfl, rfl⟩

/-- A file longer than `size_t` can state is read in part, without an error. -/
theorem reads_part (a : Arch) {bytes : List UInt8} (hlen : 0 < bytes.length)
    (hlt : bytes.length < 9223372036854775808) (fresh : Nat → UInt8) (handle : UInt32) :
    ∃ conn', readFromUniFile a fresh
        ((⟨handle, false⟩ : RemoteFile).uniFile a (Script.calm bytes hlt).link)
        ⟨Script.start, []⟩ =
      some (.OK, ⟨some (bytes.take (bytes.length % 2 ^ a.bits)), bytes.length % 2 ^ a.bits⟩,
        conn') := by
  have hst := Script.calm_steady bytes hlt handle
  rcases readFromUniFile_file a fresh ⟨handle, false⟩ ((Script.calm bytes hlt).server handle) rfl
    ⟨Script.start, []⟩ hlen (hst.content _) (.inr hst) with ⟨conn', hread, -⟩ | ⟨hns, -⟩
  · exact ⟨conn', hread⟩
  · exact absurd hst hns

theorem ReadsWhole.length_lt {a : Arch} {bytes : List UInt8} (h : ReadsWhole a bytes)
    (hlen : 0 < bytes.length) (hlt : bytes.length < 9223372036854775808) :
    bytes.length < 2 ^ a.bits := by
  obtain ⟨conn₁, h₁⟩ := reads_part a hlen hlt (fun _ => 0) 0
  obtain ⟨conn₂, h₂⟩ := h.steady _ _ ⟨0, false⟩ ((Script.calm bytes hlt).server 0)
    (Script.calm_steady bytes hlt 0) rfl (fun _ => 0) ⟨Script.start, []⟩
  rw [h₁] at h₂
  simp only [Option.some.injEq, Prod.mk.injEq, FileBuf.mk.injEq] at h₂
  have hmod := Nat.mod_lt bytes.length (Nat.two_pow_pos a.bits)
  omega

/-- **A remote file is read whole** exactly when `size_t` can state its length: every `read` gets
the bytes at the position, and `readFromUniFile` gets the file or an error without a buffer. -/
theorem reads_whole_iff (a : Arch) (bytes : List UInt8) (hlt : bytes.length < 9223372036854775808) :
    (ReadsAll a bytes ∧ (0 < bytes.length → ReadsWhole a bytes)) ↔ bytes.length < 2 ^ a.bits := by
  constructor
  · rintro ⟨-, hwhole⟩
    rcases Nat.eq_zero_or_pos bytes.length with h0 | hpos
    · rw [h0]
      exact Nat.two_pow_pos _
    · exact (hwhole hpos).length_lt hpos hlt
  · intro hsize
    exact ⟨reads_all a bytes, fun hpos => reads_whole hpos hsize⟩

theorem reads_whole_iff_three :
    [1, 2, 3].length < 9223372036854775808 ∧
      ((ReadsAll .x86 [1, 2, 3] ∧ (0 < [1, 2, 3].length → ReadsWhole .x86 [1, 2, 3])) ↔
        [1, 2, 3].length < 2 ^ Arch.x86.bits) :=
  ⟨by decide, reads_whole_iff .x86 [1, 2, 3] (by decide)⟩

/-- A file of 4 GiB in the 32-bit build: the size is taken for 0, and the empty buffer for the
file. -/
theorem reads_nothing_of_4GiB :
    let bytes : List UInt8 := List.replicate 4294967296 0
    ∃ hlt : bytes.length < 9223372036854775808,
      (∃ conn', readFromUniFile .x86 (fun _ => 0)
          ((⟨1, false⟩ : RemoteFile).uniFile .x86 (Script.calm bytes hlt).link)
          ⟨Script.start, []⟩ = some (.OK, ⟨some [], 0⟩, conn')) ∧
        ¬ (ReadsAll .x86 bytes ∧ (0 < bytes.length → ReadsWhole .x86 bytes)) := by
  intro bytes
  have hlen : bytes.length = 4294967296 := List.length_replicate
  have hbits : 2 ^ Arch.x86.bits = 4294967296 := rfl
  have hlt : bytes.length < 9223372036854775808 := by omega
  have hpos : 0 < bytes.length := by omega
  refine ⟨hlt, ?_, ?_⟩
  · obtain ⟨conn', hread⟩ := reads_part .x86 hpos hlt (fun _ => 0) 1
    rw [hbits, hlen, Nat.mod_self, List.take_zero] at hread
    exact ⟨conn', hread⟩
  · rintro ⟨-, hwhole⟩
    have := (hwhole hpos).length_lt hpos hlt
    omega

end

end ObZrv
