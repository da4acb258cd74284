import Mathlib.Logic.Function.Basic
import ObZrv.Lib.Simulation
import ObZrv.Unifs.Handles
import ObZrv.Unifs.ScriptedServer

/-!
# Unifs.RemoteDisk

Local and remote files side by side: `LocalFile` of `unifs/local_file.cpp` on a file of the C library,
and `RemoteFile` on a server that keeps such a file for each handle.

* `read_disk`         : a remote read, in as many requests as it takes, is one read of the file.
* `disk_follows`      : one call, on one of the files.
* `remote_like_local` : no sequence of calls that C defines tells them apart, as long as writes fit a
  frame.
* `tableServer`       : a server that does what the protocol says.
-/

namespace ObZrv

open Lib

/-! ## Files of the C library -/

inductive FileAccess where
  | read
  | write
  | rdwr
  | append
deriving DecidableEq, Repr

/-- A `FILE` with the bytes of its file. Which order of calls C allows on it is left to
`DiskCall.defined`. -/
structure StdFile where
  bytes : List UInt8
  pos : Nat
  access : FileAccess
  length_lt : bytes.length < 9223372036854775808
  pos_lt : pos < 9223372036854775808

namespace StdFile

variable (f : StdFile)

def canRead : Bool := f.access = .read || f.access = .rdwr
def canWrite : Bool := !(f.access = .read)

/-- `fseek`. -/
def seek (offset : Int) (whence : Whence) : Int × StdFile :=
  let target := seekTarget f.bytes.length f.pos offset whence
  if h : 0 ≤ target ∧ target < 9223372036854775808 then
    (0, { f with pos := target.toNat, pos_lt := (Int.toNat_lt h.1).mpr h.2 })
  else (-1, f)

/-- How many bytes there are to read. -/
def avail (size : Nat) : Nat := if f.canRead then min size (f.bytes.length - f.pos) else 0

/-- The file with its position `n` bytes on, of those there are. -/
def advance (n : Nat) : StdFile where
  bytes := f.bytes
  pos := f.pos + min n (f.bytes.length - f.pos)
  access := f.access
  length_lt := f.length_lt
  pos_lt := by
    have hlen := f.length_lt
    have hpos := f.pos_lt
    omega

/-- `fread`: the count and the buffer. -/
def read (buf : List UInt8) : Nat × List UInt8 × StdFile :=
  let n := f.avail buf.length
  (n, (f.bytes.drop f.pos).take n ++ buf.drop n, f.advance n)

/-- Where the next write goes. -/
def writePos : Nat := if f.access = .append then f.bytes.length else f.pos

/-- How many bytes of `size` can be written. -/
def room (size : Nat) : Nat := if f.canWrite then min size (9223372036854775807 - f.writePos) else 0

theorem writePos_lt : f.writePos < 9223372036854775808 := by
  unfold writePos
  split
  · exact f.length_lt
  · exact f.pos_lt

/-- `fwrite`; behind the end of the file it fills up with zeros. -/
def write (data : List UInt8) : Nat × StdFile :=
  let n := f.room data.length
  if hn : n = 0 then (0, f)
  else
    let padded := f.bytes ++ List.replicate (f.writePos - f.bytes.length) 0
    (n,
      { bytes := padded.take f.writePos ++ data.take n ++ padded.drop (f.writePos + n)
        pos := f.writePos + n
        access := f.access
        length_lt := by
          have hlen := f.length_lt
          have hpos := f.writePos_lt
          simp only [n, room] at hn ⊢
          simp only [padded, List.length_append, List.length_take, List.length_drop,
            List.length_replicate]
          split <;> omega
        pos_lt := by
          have hpos := f.writePos_lt
          simp only [n, room]
          split <;> omega })

end StdFile

/-- `LocalFile`; `fp` is null after `close`. -/
structure LocalFile where
  fp : Option StdFile

namespace LocalFile

variable (f : LocalFile)

def seek (offset : Int) (whence : Whence) : Int × LocalFile :=
  match f.fp with
  | none => (-1, f)
  | some fp =>
    let (r, fp) := fp.seek offset whence
    (if r = 0 then 0 else -1, ⟨some fp⟩)

def tell : Int :=
  match f.fp with
  | none => -1
  | some fp => fp.pos

def read (buf : List UInt8) : Nat × List UInt8 × LocalFile :=
  match f.fp with
  | none => (0, buf, f)
  | some fp =>
    let (n, buf, fp) := fp.read buf
    (n, buf, ⟨some fp⟩)

def write (buf : List UInt8) : Nat × LocalFile :=
  match f.fp with
  | none => (0, f)
  | some fp =>
    let (n, fp) := fp.write buf
    (n, ⟨some fp⟩)

/-- `fclose` tells whether it succeeds, and what the file then holds. -/
def close (fclose : StdFile → Bool × List UInt8) : Int × LocalFile :=
  match f.fp with
  | none => (0, f)
  | some fp => (if (fclose fp).1 then 0 else -1, ⟨none⟩)

end LocalFile

/-! ## Calls on open files -/

inductive DiskCall where
  | seek (offset : Int) (whence : Whence)
  | tell
  | read (buf : List UInt8)
  | write (buf : List UInt8)
  | close

inductive DiskReply where
  | seek (r : Int)
  | tell (pos : Int)
  | read (n : Nat) (buf : List UInt8)
  | write (n : Nat)
  | close (r : Int)
deriving DecidableEq, Repr

/-- The arguments are values of their C++ types. -/
def DiskCall.Valid (a : Arch) : DiskCall → Prop
  | .seek offset _ => InInt64 offset
  | .tell | .close => True
  | .read buf | .write buf => buf.length < 2 ^ a.bits

/-- The call with no more to write than fits a frame. -/
def DiskCall.clamp : DiskCall → DiskCall
  | .write buf => .write (buf.take (MAX_PAYLOAD_SIZE - 8))
  | c => c

section

variable (fclose : StdFile → Bool × List UInt8)

def LocalFile.call (f : LocalFile) : DiskCall → DiskReply × LocalFile
  | .seek offset whence => let (r, f) := f.seek offset whence; (.seek r, f)
  | .tell => (.tell f.tell, f)
  | .read buf => let (n, buf, f) := f.read buf; (.read n buf, f)
  | .write buf => let (n, f) := f.write buf; (.write n, f)
  | .close => let (r, f) := f.close fclose; (.close r, f)

/-- What a call leaves on the disk of a file that it closes. -/
def LocalFile.leaves (f : LocalFile) : DiskCall → Option (List UInt8)
  | .close => f.fp.map fun fp => (fclose fp).2
  | _ => none

end

/-- The last call on a file since it was opened or positioned, or a read came to its end. -/
inductive LastCall where
  | none
  | read
  | write
deriving DecidableEq, Repr

/-- A call of no bytes leaves a `FILE` as it is. -/
def DiskCall.last (f : LocalFile) (before : LastCall) : DiskCall → LastCall
  | .seek offset whence => if (f.seek offset whence).1 = 0 then .none else before
  | .tell => before
  | .read buf =>
    if buf = [] then before else if (f.read buf).1 < buf.length then .none else .read
  | .write buf => if buf = [] then before else .write
  | .close => .none

/-- Whether C defines the call: a file that is open for reading and writing has to be positioned between
a write and a read, and between a read that did not come to the end and a write. -/
def DiskCall.defined (f : LocalFile) (before : LastCall) : DiskCall → Bool
  | .read buf => buf = [] || !(f.fp.any (fun fp => fp.access = .rdwr) && before = .write)
  | .write buf => buf = [] || !(f.fp.any (fun fp => fp.access = .rdwr) && before = .read)
  | .seek _ _ | .tell | .close => true

/-- Files of one process, the last call on each, and what those that were closed have left. -/
structure LocalDisk where
  files : List LocalFile
  last : Nat → LastCall
  left : Nat → Option (List UInt8)

/-- A call on one of the files; `none` where there is no such file, or C leaves the call undefined. -/
def localCall (fclose : StdFile → Bool × List UInt8) (d : LocalDisk) (c : Nat × DiskCall) :
    Option (DiskReply × LocalDisk) :=
  match d.files[c.1]? with
  | none => none
  | some f =>
    if c.2.defined f (d.last c.1) then
      let (r, f') := f.call fclose c.2
      some (r,
        { files := d.files.set c.1 f'
          last := Function.update d.last c.1 (c.2.last f (d.last c.1))
          left := Function.update d.left c.1 ((f.leaves fclose c.2).or (d.left c.1)) })
    else none

/-- The files that are open on one connection. -/
structure RemoteDisk (C : Type) where
  conn : Session C
  files : List RemoteFile

section

variable {C : Type} (a : Arch) (link : Link C)

/-- `none` where a read leaves its buffer. -/
def RemoteFile.call (f : RemoteFile) (conn : Session C) :
    DiskCall → Option (DiskReply × RemoteFile × Session C)
  | .seek offset whence =>
    let (r, conn) := f.seek link conn offset whence
    some (.seek r, f, conn)
  | .tell =>
    let (p, conn) := f.tell link conn
    some (.tell p, f, conn)
  | .read buf => (f.readInto a link buf conn).map fun (n, buf, conn) => (.read n buf, f, conn)
  | .write buf =>
    let (n, conn) := f.write link conn buf
    some (.write n, f, conn)
  | .close =>
    let (r, f, conn) := f.close link conn
    some (.close r, f, conn)

def remoteCall (d : RemoteDisk C) (c : Nat × DiskCall) : Option (DiskReply × RemoteDisk C) :=
  match d.files[c.1]? with
  | none => none
  | some f => (f.call a link d.conn c.2).map fun (r, f, conn) => (r, ⟨conn, d.files.set c.1 f⟩)

end

/-! ## A server with files -/

def RemoteFile.writeRequest (handle : UInt32) (data : List UInt8) : List UInt8 :=
  protoWriteU32 handle ++ (protoWriteU32 (UInt32.ofNat data.length) ++ data)

/-- A server that keeps a file for each handle and does on it what a request says. `left` is what the
file of a handle was left with when it was closed. -/
structure DiskServer {C : Type} (link : Link C) where
  files : C → UInt32 → Option StdFile
  left : C → UInt32 → Option (List UInt8)
  fclose : StdFile → Bool × List UInt8
  connected : ∀ c, link.connected c = true
  seek : ∀ c h f offset whence, files c h = some f → InInt64 offset →
    let r := link.serve c ⟨CMD_FILE_SEEK, RemoteFile.seekRequest h offset whence⟩
    (r.1.status = STATUS_OK ↔ (f.seek offset whence).1 = 0) ∧
      files r.2 = Function.update (files c) h (some (f.seek offset whence).2) ∧ left r.2 = left c
  tell : ∀ c h f, files c h = some f →
    let r := link.serve c ⟨CMD_FILE_TELL, protoWriteU32 h⟩
    r.1 = ⟨STATUS_OK, protoWriteI64 f.pos⟩ ∧ files r.2 = files c ∧ left r.2 = left c
  read : ∀ c h f k, files c h = some f → 4 + k.toNat ≤ MAX_PAYLOAD_SIZE →
    let n := f.avail k.toNat
    let r := link.serve c ⟨CMD_FILE_READ, RemoteFile.readRequest h k⟩
    (f.canRead = true →
      r.1 = ⟨STATUS_OK, protoWriteU32 (UInt32.ofNat n) ++ (f.bytes.drop f.pos).take n⟩) ∧
      (f.canRead = false → r.1.status ≠ STATUS_OK) ∧
      files r.2 = Function.update (files c) h (some (f.advance n)) ∧ left r.2 = left c
  write : ∀ c h f data, files c h = some f → 8 + data.length ≤ MAX_PAYLOAD_SIZE →
    let r := link.serve c ⟨CMD_FILE_WRITE, RemoteFile.writeRequest h data⟩
    (f.canWrite = true → r.1 = ⟨STATUS_OK, protoWriteU32 (UInt32.ofNat (f.write data).1)⟩) ∧
      (f.canWrite = false → r.1.status ≠ STATUS_OK) ∧
      files r.2 = Function.update (files c) h (some (f.write data).2) ∧ left r.2 = left c
  close : ∀ c h f, files c h = some f →
    let r := link.serve c ⟨CMD_FILE_CLOSE, protoWriteU32 h⟩
    (r.1.status = STATUS_OK ↔ (fclose f).1 = true) ∧
      files r.2 = Function.update (files c) h none ∧
      left r.2 = Function.update (left c) h (some (fclose f).2)

/-- What the server keeps for a remote file is the local one. -/
def SameFile {C : Type} {link : Link C} (server : DiskServer link) (conn : Session C)
    (f : RemoteFile) (g : LocalFile) : Prop :=
  if f.closed then g.fp = none
  else ∃ fp, g.fp = some fp ∧ server.files conn.conn f.handle = some fp

/-- The server keeps what a call has left of a file, if it has closed it. -/
def DiskServer.Leaves {C : Type} {link : Link C} (server : DiskServer link) (conn : Session C)
    (f' : RemoteFile) (conn' : Session C) : Option (List UInt8) → Prop
  | none => server.left conn'.conn = server.left conn.conn
  | some b => f'.closed = true ∧
    server.left conn'.conn = Function.update (server.left conn.conn) f'.handle (some b)

/-- A file that is open, or was closed in the sequence of calls. -/
def Live (d : LocalDisk) (i : Nat) (f : RemoteFile) : Prop := f.closed = false ∨ d.left i ≠ none

/-- The local files as the server keeps the remote ones with these handles, those closed left with the
same bytes, and no handle given out twice. -/
structure SameFiles {C : Type} {link : Link C} (server : DiskServer link) (handles : List UInt32)
    (d : RemoteDisk C) (l : LocalDisk) : Prop where
  remote : d.files.map RemoteFile.handle = handles
  «local» : l.files.length = handles.length
  same : ∀ (i : Nat) (f : RemoteFile) (g : LocalFile), d.files[i]? = some f → l.files[i]? = some g →
    SameFile server d.conn f g
  left : ∀ (i : Nat) (f : RemoteFile) (b : List UInt8), d.files[i]? = some f → l.left i = some b →
    f.closed = true ∧ server.left d.conn.conn f.handle = some b
  distinct : ∀ (i j : Nat) (f g : RemoteFile), d.files[i]? = some f → d.files[j]? = some g →
    Live l i f → Live l j g → f.handle = g.handle → i = j

theorem DiskServer.sendRequest_eq {C : Type} {link : Link C} (server : DiskServer link)
    (conn : Session C) (cmd : UInt8) (payload : List UInt8) :
    link.sendRequest conn cmd payload =
      ((link.serve conn.conn ⟨cmd, payload⟩).1,
        ⟨(link.serve conn.conn ⟨cmd, payload⟩).2, conn.sent ++ [⟨cmd, payload⟩]⟩) := by
  simp only [Link.sendRequest, server.connected, if_true]

/-! ## Reading -/

namespace StdFile

variable {f : StdFile}

@[simp] theorem advance_zero : f.advance 0 = f := by
  obtain ⟨bytes, pos, access, hlen, hpos⟩ := f
  simp [advance]

theorem advance_advance (m k : Nat) : (f.advance m).advance k = f.advance (m + k) := by
  have hpos : f.pos + min m (f.bytes.length - f.pos) +
      min k (f.bytes.length - (f.pos + min m (f.bytes.length - f.pos))) =
      f.pos + min (m + k) (f.bytes.length - f.pos) := by
    omega
  simp only [advance, hpos]

theorem advance_pos {n : Nat} (h : n ≤ f.bytes.length - f.pos) : (f.advance n).pos = f.pos + n := by
  simp only [advance, Nat.min_eq_left h]

end StdFile

section Read

variable {C : Type} {link : Link C} (server : DiskServer link) {a : Arch} {handle : UInt32}
  {f : StdFile} {table : UInt32 → Option StdFile} {left : UInt32 → Option (List UInt8)}
  {size n : Nat} {buf : List UInt8} {s : RemoteFile.ReadState C}

open RemoteFile

/-- `n` of `size` bytes of the file have been read. -/
structure Fetching (handle : UInt32) (f : StdFile) (table : UInt32 → Option StdFile)
    (left : UInt32 → Option (List UInt8)) (size : Nat) (buf : List UInt8) (n : Nat)
    (s : ReadState C) : Prop where
  dst : s.dst = n
  total : s.total = n
  rest : n + s.size = size
  length : buf.length = size
  read_le : n ≤ f.bytes.length - f.pos
  filled : s.buf = (f.bytes.drop f.pos).take n ++ buf.drop n
  files : server.files s.conn.conn = Function.update table handle (some (f.advance n))
  left : server.left s.conn.conn = left

/-- The reply to the next request, and the files after it. -/
theorem Fetching.reply (hr : f.canRead = true) (h : Fetching server handle f table left size buf n s) :
    let k := min (chunkOf s.size).toNat (f.bytes.length - f.pos - n)
    (exchange link handle s).1 =
        ⟨STATUS_OK, protoWriteU32 (UInt32.ofNat k) ++ (f.bytes.drop (f.pos + n)).take k⟩ ∧
      server.files (exchange link handle s).2.conn =
        Function.update table handle (some (f.advance (n + k))) ∧
      server.left (exchange link handle s).2.conn = left := by
  intro k
  have hmax : MAX_PAYLOAD_SIZE = 1048576 := rfl
  have hchunk := chunkOf_toNat s.size
  have hlimit : MAX_READ_CHUNK = MAX_PAYLOAD_SIZE - 4 := rfl
  have hkept : server.files s.conn.conn handle = some (f.advance n) := by
    rw [h.files, Function.update_self]
  have hserve := server.read s.conn.conn handle (f.advance n) (chunkOf s.size) hkept (by omega)
  have havail : (f.advance n).avail (chunkOf s.size).toNat = k := by
    have hpos := StdFile.advance_pos h.read_le
    have hcan : (f.advance n).canRead = true := hr
    rw [StdFile.avail, if_pos hcan, hpos]
    change min _ (f.bytes.length - (f.pos + n)) = min _ _
    rw [Nat.sub_sub]
  simp only [havail] at hserve
  obtain ⟨hok, -, hfiles, hleft⟩ := hserve
  have hok := hok hr
  rw [StdFile.advance_pos h.read_le] at hok
  rw [exchange, server.sendRequest_eq]
  refine ⟨hok, ?_, hleft.trans h.left⟩
  rw [hfiles, h.files, Function.update_idem, StdFile.advance_advance]

theorem Fetching.copied (hw : size < 2 ^ a.bits) (h : Fetching server handle f table left size buf n s)
    {resp : Response} {conn : Session C} {k : Nat} (hcount : (countOf resp).toNat = k)
    (hdata : (resp.payload.drop 4).take k = (f.bytes.drop (f.pos + n)).take k) (hsize : k ≤ s.size)
    (hrest : n + k ≤ f.bytes.length - f.pos)
    (hfiles : server.files conn.conn = Function.update table handle (some (f.advance (n + k))))
    (hleft : server.left conn.conn = left) :
    Fetching server handle f table left size buf (n + k) (s.copied a resp conn) := by
  have hall := h.rest
  refine ⟨?_, ?_, ?_, h.length, hrest, ?_, hfiles, hleft⟩
  · simp only [ReadState.copied, hcount, h.dst]
  · simp only [ReadState.copied, hcount, h.total]
    exact Nat.mod_eq_of_lt (by omega)
  · simp only [ReadState.copied, hcount]
    rw [show s.size + 2 ^ a.bits - k = s.size - k + 2 ^ a.bits by omega, Nat.add_mod_right,
      Nat.mod_eq_of_lt (by omega)]
    omega
  · -- what was read before, what the reply brought, and the rest of the buffer
    have hfront : ((f.bytes.drop f.pos).take n).length = n := by
      rw [List.length_take, List.length_drop]
      omega
    have hrest' : ((f.bytes.drop f.pos).take n ++ buf.drop n).drop (n + k) = buf.drop (n + k) := by
      rw [List.drop_append, hfront, List.drop_eq_nil_of_le (by omega), List.nil_append,
        List.drop_drop, Nat.add_sub_cancel_left]
    simp only [ReadState.copied, hcount, hdata, h.dst, h.filled]
    rw [List.take_left' hfront, hrest', ← List.drop_drop, ← List.take_add]

theorem Fetching.buf_length (h : Fetching server handle f table left size buf n s) :
    s.buf.length = size := by
  have hread := h.read_le
  have hall := h.rest
  rw [h.filled, List.length_append, List.length_take, List.length_drop, List.length_drop, h.length]
  omega

theorem Fetching.pass (hw : size < 2 ^ a.bits) (hr : f.canRead = true)
    (h : Fetching server handle f table left size buf n s) :
    let k := min (chunkOf s.size).toNat (f.bytes.length - f.pos - n)
    (k = 0 → ∃ s', Fetching server handle f table left size buf n s' ∧
      readPass a link handle s = .stop s') ∧
    (0 < k → ∃ s', Fetching server handle f table left size buf (n + k) s' ∧
      readPass a link handle s = if k < (chunkOf s.size).toNat then .stop s' else .again s') := by
  intro k
  obtain ⟨hresp, hfiles, hleft⟩ := h.reply server hr
  change _ = (⟨_, protoWriteU32 (UInt32.ofNat k) ++ List.take k _⟩ : Response) at hresp
  change _ = Function.update table handle (some (f.advance (n + k))) at hfiles
  have hmax : MAX_READ_CHUNK = 1048572 := rfl
  have hchunk := chunkOf_toNat s.size
  have hread := h.read_le
  have hall := h.rest
  have hk : k ≤ (chunkOf s.size).toNat ∧ k ≤ f.bytes.length - f.pos - n := by omega
  have hcount : (countOf (exchange link handle s).1).toNat = k := by
    rw [countOf, hresp, protoReadU32_write]
    have hsize : UInt32.size = 4294967296 := rfl
    exact UInt32.toNat_ofNat_of_lt' (by omega)
  constructor
  · intro h0
    refine ⟨{ s with conn := (exchange link handle s).2 },
      ⟨h.dst, h.total, h.rest, h.length, h.read_le, h.filled, ?_, hleft⟩, ?_⟩
    · rw [hfiles, h0, Nat.add_zero]
    · refine readPass_stop a link handle s fun hacc => hacc.2.2.1 ?_
      refine UInt32.toNat_inj.mp ?_
      rw [hcount, h0]
      rfl
  · intro hpos
    have hpayload : (exchange link handle s).1.payload.length = 4 + k := by
      rw [hresp]
      simp only [List.length_append, protoWriteU32_length, List.length_take, List.length_drop]
      omega
    have hacc : Accepted (exchange link handle s).1 := by
      refine ⟨by rw [hresp], by omega, fun h0 => ?_, ?_⟩
      · rw [h0] at hcount
        simp at hcount
        omega
      · rw [UInt32.toNat_add, hcount, hpayload]
        exact Nat.mod_le _ _
    have hpass := readPass_accepted a link handle s hacc
    simp only [hcount] at hpass
    rw [if_pos ⟨by omega, by rw [h.dst, h.buf_length]; omega⟩] at hpass
    refine ⟨s.copied a (exchange link handle s).1 (exchange link handle s).2, ?_, ?_⟩
    · refine h.copied server hw hcount ?_ (by omega) (by omega) hfiles hleft
      rw [hresp, List.drop_left' (protoWriteU32_length _), List.take_take, Nat.min_self]
    · rw [hpass]
      simp only [UInt32.lt_iff_toNat_lt, hcount]

/-- All that is there is read. The induction is on the requests: each full chunk takes a chunk off the
size. -/
theorem Fetching.loop (hw : size < 2 ^ a.bits) (hr : f.canRead = true) (fuel : Nat)
    (h : Fetching server handle f table left size buf n s) (hfuel : s.size < fuel) :
    ∃ s', readLoop a link handle fuel s = .done s' ∧
      Fetching server handle f table left size buf (min size (f.bytes.length - f.pos)) s' := by
  induction fuel generalizing n s with
  | zero => omega
  | succ fuel ih =>
    have hread := h.read_le
    have hall := h.rest
    have hchunk := chunkOf_toNat s.size
    have hmax : 0 < MAX_READ_CHUNK := by decide
    by_cases h0 : s.size = 0
    · have hn : n = min size (f.bytes.length - f.pos) := by omega
      refine ⟨s, ?_, hn ▸ h⟩
      rw [readLoop, if_pos h0]
    · obtain ⟨heof, hgets⟩ := h.pass server hw hr
      rcases Nat.eq_zero_or_pos (min (chunkOf s.size).toNat (f.bytes.length - f.pos - n)) with hk | hk
      · obtain ⟨s', hs', hpass⟩ := heof hk
        have hn : n = min size (f.bytes.length - f.pos) := by omega
        refine ⟨s', ?_, hn ▸ hs'⟩
        rw [readLoop, if_neg h0, hpass]
      · obtain ⟨s', hs', hpass⟩ := hgets hk
        by_cases hlast : min (chunkOf s.size).toNat (f.bytes.length - f.pos - n) < (chunkOf s.size).toNat
        · rw [if_pos hlast] at hpass
          have hn : n + min (chunkOf s.size).toNat (f.bytes.length - f.pos - n) =
              min size (f.bytes.length - f.pos) := by
            omega
          refine ⟨s', ?_, hn ▸ hs'⟩
          rw [readLoop, if_neg h0, hpass]
        · rw [if_neg hlast] at hpass
          have hall' := hs'.rest
          obtain ⟨s'', hloop, hdone⟩ := ih hs' (by omega)
          refine ⟨s'', ?_, hdone⟩
          rw [readLoop, if_neg h0, hpass]
          exact hloop

end Read

section Calls

variable {C : Type} {link : Link C} (server : DiskServer link) {a : Arch} {f : RemoteFile}
  {fp : StdFile} {conn : Session C}

theorem RemoteFile.readInto_at {buf : List UInt8} (hw : buf.length < 2 ^ a.bits) (s : ReadState C)
    (h : f.read link conn (⟨buf, hw⟩ : Buffer a) = .done s) :
    f.readInto a link buf conn = some (s.total, s.buf, s.conn) := RemoteFile.readInto_done h

/-- **A remote read is one read of the file.** -/
theorem read_disk (hopen : f.closed = false) (hfp : server.files conn.conn f.handle = some fp)
    {buf : List UInt8} (hw : buf.length < 2 ^ a.bits) :
    ∃ conn', f.readInto a link buf conn = some ((fp.read buf).1, (fp.read buf).2.1, conn') ∧
      server.files conn'.conn =
        Function.update (server.files conn.conn) f.handle (some (fp.read buf).2.2) ∧
      server.left conn'.conn = server.left conn.conn := by
  have hsame : Function.update (server.files conn.conn) f.handle (some fp) = server.files conn.conn := by
    rw [← hfp, Function.update_eq_self]
  by_cases h0 : buf.length = 0
  · -- nothing is asked for
    have hnil := List.eq_nil_of_length_eq_zero h0
    have hread : fp.read buf = (0, buf, fp) := by
      simp [StdFile.read, StdFile.avail, hnil]
    refine ⟨conn, ?_, by rw [hread, hsame], rfl⟩
    rw [RemoteFile.readInto_at hw (⟨conn, buf, 0, 0, buf.length, []⟩), hread]
    rw [RemoteFile.read, if_pos (.inr h0)]
  · have hnot : ¬ (f.closed = true ∨ buf.length = 0) := by simp [hopen, h0]
    cases hr : fp.canRead with
    | true =>
      have hstart : Fetching server f.handle fp (server.files conn.conn) (server.left conn.conn)
          buf.length buf 0 ⟨conn, buf, 0, 0, buf.length, []⟩ :=
        ⟨rfl, rfl, Nat.zero_add _, rfl, Nat.zero_le _, rfl, by rw [StdFile.advance_zero, hsame], rfl⟩
      obtain ⟨s', hloop, hdone⟩ := hstart.loop server hw hr _ (Nat.lt_succ_self _)
      have hread : fp.avail buf.length = min buf.length (fp.bytes.length - fp.pos) := if_pos hr
      refine ⟨s'.conn, ?_, ?_, hdone.left⟩
      · rw [RemoteFile.readInto_at hw (s')]
        · simp only [hdone.total, hdone.filled, StdFile.read, hread]
        · rw [RemoteFile.read, if_neg hnot]
          exact hloop
      · rw [hdone.files, StdFile.read, hread]
    | false =>
      have havail : ∀ k, fp.avail k = 0 := fun k => by simp [StdFile.avail, hr]
      have hread : fp.read buf = (0, buf, fp) := by simp [StdFile.read, havail]
      have hmax : RemoteFile.MAX_READ_CHUNK = MAX_PAYLOAD_SIZE - 4 := rfl
      have hmax' : MAX_PAYLOAD_SIZE = 1048576 := rfl
      have hchunk := RemoteFile.chunkOf_toNat buf.length
      have hserve := server.read conn.conn f.handle fp (RemoteFile.chunkOf buf.length) hfp (by omega)
      simp only [havail, StdFile.advance_zero] at hserve
      obtain ⟨-, hrefused, hfiles, hleft⟩ := hserve
      have hpass := RemoteFile.readPass_stop a link f.handle ⟨conn, buf, 0, 0, buf.length, []⟩
        (fun hacc => hrefused hr (by
          rw [RemoteFile.exchange, server.sendRequest_eq] at hacc
          exact hacc.1))
      refine ⟨(RemoteFile.exchange link f.handle ⟨conn, buf, 0, 0, buf.length, []⟩).2, ?_, ?_, ?_⟩
      · rw [hread, RemoteFile.readInto_at hw
          (⟨(RemoteFile.exchange link f.handle ⟨conn, buf, 0, 0, buf.length, []⟩).2, buf, 0, 0,
            buf.length, []⟩)]
        rw [RemoteFile.read, if_neg hnot, RemoteFile.readLoop, if_neg h0, hpass]
      · rw [hread, RemoteFile.exchange, server.sendRequest_eq]
        exact hfiles
      · rw [RemoteFile.exchange, server.sendRequest_eq]
        exact hleft

theorem write_disk (hopen : f.closed = false) (hfp : server.files conn.conn f.handle = some fp)
    (buf : List UInt8) :
    let data := buf.take (MAX_PAYLOAD_SIZE - 8)
    (f.write link conn buf).1 = (fp.write data).1 ∧
      server.files (f.write link conn buf).2.conn =
        Function.update (server.files conn.conn) f.handle (some (fp.write data).2) ∧
      server.left (f.write link conn buf).2.conn = server.left conn.conn := by
  intro data
  have hmax : MAX_PAYLOAD_SIZE = 1048576 := rfl
  have hsame : Function.update (server.files conn.conn) f.handle (some fp) = server.files conn.conn := by
    rw [← hfp, Function.update_eq_self]
  by_cases h0 : buf.length = 0
  · have hdata : data = [] := by simp [data, List.eq_nil_of_length_eq_zero h0]
    have hwrite : fp.write [] = (0, fp) := by simp [StdFile.write, StdFile.room]
    rw [RemoteFile.write, if_pos (.inr h0), hdata, hwrite]
    exact ⟨rfl, hsame.symm, rfl⟩
  · have hnot : ¬ (f.closed = true ∨ buf.length = 0) := by simp [hopen, h0]
    have hlen : data.length = if buf.length > MAX_PAYLOAD_SIZE - 8 then MAX_PAYLOAD_SIZE - 8
        else buf.length := by
      simp only [data, List.length_take]
      split <;> omega
    have htake : buf.take data.length = data := by
      simp only [data, List.length_take]
      rw [Nat.min_def]
      split
      · rfl
      · rw [List.take_length, List.take_of_length_le (by omega)]
    have hle : data.length ≤ MAX_PAYLOAD_SIZE - 8 := List.length_take_le _ _
    have hserve := server.write conn.conn f.handle fp data hfp (by omega)
    simp only [RemoteFile.writeRequest] at hserve
    obtain ⟨hok, hrefused, hfiles, hleft⟩ := hserve
    rw [RemoteFile.write, if_neg hnot]
    simp only [← hlen, htake, server.sendRequest_eq]
    have hroom : (fp.write data).1 = fp.room data.length := by
      rw [StdFile.write]
      split
      · rename_i hz
        exact hz.symm
      · rfl
    cases hwr : fp.canWrite with
    | true =>
      have hcount : fp.room data.length ≤ data.length := by
        simp only [StdFile.room, hwr, if_true]
        omega
      have hsize : UInt32.size = 4294967296 := rfl
      have hread := protoReadU32_write (UInt32.ofNat (fp.write data).1) []
      rw [List.append_nil] at hread
      rw [hok hwr]
      have hfour : ¬ (protoWriteU32 (UInt32.ofNat (fp.write data).1)).length < 4 := by simp
      simp only [ne_eq, not_true_eq_false, hfour, or_self, if_false, hread]
      exact ⟨UInt32.toNat_ofNat_of_lt' (by omega), hfiles, hleft⟩
    | false =>
      have hzero : (fp.write data).1 = 0 := by simp [hroom, StdFile.room, hwr]
      rw [if_pos (.inl (hrefused hwr))]
      exact ⟨hzero.symm, hfiles, hleft⟩

theorem seek_disk (hopen : f.closed = false) (hfp : server.files conn.conn f.handle = some fp)
    {offset : Int} (hin : InInt64 offset) (whence : Whence) :
    let r := f.seek link conn offset whence
    r.1 = (if (fp.seek offset whence).1 = 0 then 0 else -1) ∧
      server.files r.2.conn =
        Function.update (server.files conn.conn) f.handle (some (fp.seek offset whence).2) ∧
      server.left r.2.conn = server.left conn.conn := by
  obtain ⟨hok, hfiles, hleft⟩ := server.seek conn.conn f.handle fp offset whence hfp hin
  intro r
  have hr : r = (if (fp.seek offset whence).1 = 0 then 0 else -1, (link.sendRequest conn
      CMD_FILE_SEEK (RemoteFile.seekRequest f.handle offset whence)).2) := by
    unfold r
    rw [RemoteFile.seek, if_neg (by simp [hopen])]
    simp only [server.sendRequest_eq, hok]
  rw [hr, server.sendRequest_eq]
  exact ⟨rfl, hfiles, hleft⟩

theorem tell_disk (hopen : f.closed = false) (hfp : server.files conn.conn f.handle = some fp) :
    let r := f.tell link conn
    r.1 = (fp.pos : Int) ∧ server.files r.2.conn = server.files conn.conn ∧
      server.left r.2.conn = server.left conn.conn := by
  obtain ⟨hresp, hfiles, hleft⟩ := server.tell conn.conn f.handle fp hfp
  intro r
  have hpos := fp.pos_lt
  have hread := protoReadI64_write (v := fp.pos) (by omega) (by omega) []
  rw [List.append_nil] at hread
  have hlen : ¬ (protoWriteI64 (fp.pos : Int)).length < 8 := by simp [protoWriteI64]
  have hr : r = ((fp.pos : Int), (link.sendRequest conn CMD_FILE_TELL (protoWriteU32 f.handle)).2) := by
    unfold r
    rw [RemoteFile.tell, if_neg (by simp [hopen])]
    simp only [server.sendRequest_eq, hresp, ne_eq, not_true_eq_false, hlen, or_self, if_false, hread]
  rw [hr, server.sendRequest_eq]
  exact ⟨rfl, hfiles, hleft⟩

theorem close_disk (hopen : f.closed = false) (hfp : server.files conn.conn f.handle = some fp) :
    let r := f.close link conn
    r.1 = (if (server.fclose fp).1 then 0 else -1) ∧ r.2.1 = { f with closed := true } ∧
      server.files r.2.2.conn = Function.update (server.files conn.conn) f.handle none ∧
      server.left r.2.2.conn =
        Function.update (server.left conn.conn) f.handle (some (server.fclose fp).2) := by
  obtain ⟨hok, hfiles, hleft⟩ := server.close conn.conn f.handle fp hfp
  intro r
  have hr : r = (if (server.fclose fp).1 then 0 else -1, { f with closed := true },
      (link.sendRequest conn CMD_FILE_CLOSE (protoWriteU32 f.handle)).2) := by
    unfold r
    rw [RemoteFile.close, if_neg (by simp [hopen])]
    simp only [server.sendRequest_eq, hok]
  rw [hr, server.sendRequest_eq]
  exact ⟨rfl, rfl, hfiles, hleft⟩

/-- One call on an open file: the answer is that of the local file, and the server keeps what that has
become, or was left with. -/
theorem call_open (hopen : f.closed = false) (hfp : server.files conn.conn f.handle = some fp)
    {c : DiskCall} (hc : c.Valid a) :
    ∃ r f' conn' g', f.call a link conn c = some (r, f', conn') ∧
      (LocalFile.mk (some fp)).call server.fclose c.clamp = (r, g') ∧ SameFile server conn' f' g' ∧
      f'.handle = f.handle ∧
      server.files conn'.conn = Function.update (server.files conn.conn) f.handle g'.fp ∧
      server.Leaves conn f' conn' ((LocalFile.mk (some fp)).leaves server.fclose c.clamp) := by
  have hsame : Function.update (server.files conn.conn) f.handle (some fp) = server.files conn.conn := by
    rw [← hfp, Function.update_eq_self]
  -- a file that stays open
  have hstays : ∀ {conn' : Session C} {fp' : StdFile},
      server.files conn'.conn = Function.update (server.files conn.conn) f.handle (some fp') →
      SameFile server conn' f ⟨some fp'⟩ := by
    intro conn' fp' hfiles
    rw [SameFile, if_neg (by simp [hopen])]
    exact ⟨fp', rfl, by rw [hfiles, Function.update_self]⟩
  cases c with
  | seek offset whence =>
    obtain ⟨hr, hfiles, hleft⟩ := seek_disk server hopen hfp hc whence
    refine ⟨.seek (f.seek link conn offset whence).1, f, (f.seek link conn offset whence).2,
      ⟨some (fp.seek offset whence).2⟩, rfl, ?_, hstays hfiles, rfl, hfiles, hleft⟩
    rw [hr]
    rfl
  | tell =>
    obtain ⟨hr, hfiles, hleft⟩ := tell_disk server hopen hfp
    rw [← hsame] at hfiles
    refine ⟨.tell (f.tell link conn).1, f, (f.tell link conn).2, ⟨some fp⟩, rfl, ?_, hstays hfiles,
      rfl, hfiles, hleft⟩
    rw [hr]
    rfl
  | read buf =>
    obtain ⟨conn', hread, hconn, hleft⟩ := read_disk server hopen hfp hc
    refine ⟨.read (fp.read buf).1 (fp.read buf).2.1, f, conn', ⟨some (fp.read buf).2.2⟩, ?_, rfl,
      hstays hconn, rfl, hconn, hleft⟩
    rw [RemoteFile.call, hread]
    rfl
  | write buf =>
    obtain ⟨hr, hconn, hleft⟩ := write_disk server hopen hfp buf
    refine ⟨.write (f.write link conn buf).1, f, (f.write link conn buf).2,
      ⟨some (fp.write (buf.take (MAX_PAYLOAD_SIZE - 8))).2⟩, rfl, ?_, hstays hconn, rfl, hconn, hleft⟩
    simp only [DiskCall.clamp, LocalFile.call, LocalFile.write, hr]
  | close =>
    obtain ⟨hr, hclosed, hfiles, hleft⟩ := close_disk server hopen hfp
    refine ⟨.close (f.close link conn).1, (f.close link conn).2.1, (f.close link conn).2.2, ⟨none⟩,
      rfl, ?_, ?_, ?_, hfiles, ?_⟩
    · rw [hr]
      rfl
    · rw [hclosed, SameFile, if_pos rfl]
    · rw [hclosed]
    · rw [hclosed]
      exact ⟨rfl, hleft⟩

/-- A closed file answers without a request. -/
theorem call_closed (link : Link C) (conn : Session C) (hclosed : f.closed = true)
    (fclose : StdFile → Bool × List UInt8) {c : DiskCall} (hc : c.Valid a) :
    ∃ r, f.call a link conn c = some (r, f, conn) ∧
      (LocalFile.mk none).call fclose c.clamp = (r, ⟨none⟩) ∧
      (LocalFile.mk none).leaves fclose c.clamp = none := by
  cases c with
  | seek offset whence =>
    refine ⟨.seek (-1), ?_, rfl, rfl⟩
    simp only [RemoteFile.call, RemoteFile.seek, hclosed, if_true]
  | tell =>
    refine ⟨.tell (-1), ?_, rfl, rfl⟩
    simp only [RemoteFile.call, RemoteFile.tell, hclosed, if_true]
  | read buf =>
    refine ⟨.read 0 buf, ?_, rfl, rfl⟩
    rw [RemoteFile.call, RemoteFile.readInto_at hc (⟨conn, buf, 0, 0, buf.length, []⟩)]
    · rfl
    · rw [RemoteFile.read, if_pos (.inl hclosed)]
  | write buf =>
    refine ⟨.write 0, ?_, rfl, rfl⟩
    simp only [RemoteFile.call, RemoteFile.write, hclosed, true_or, if_true]
  | close =>
    refine ⟨.close 0, ?_, rfl, rfl⟩
    simp only [RemoteFile.call, RemoteFile.close, hclosed, if_true]

end Calls

/-! ## Sequences of calls -/

theorem set_of_getElem? {α : Type*} {l : List α} {i : Nat} {x : α} (h : l[i]? = some x) :
    l.set i x = l := by
  obtain ⟨hlt, rfl⟩ := List.getElem?_eq_some_iff.mp h
  exact List.set_getElem_self hlt

/-- An element of a list after another was put at `i`. -/
theorem getElem?_set_cases {α : Type*} {l : List α} {i j : Nat} {x y : α}
    (h : (l.set i x)[j]? = some y) : (i = j ∧ y = x) ∨ (i ≠ j ∧ l[j]? = some y) := by
  by_cases hij : i = j
  · subst hij
    have hlt := (List.getElem?_eq_some_iff.mp h).1
    rw [List.length_set] at hlt
    rw [List.getElem?_set_self hlt] at h
    exact .inl ⟨rfl, (Option.some.inj h).symm⟩
  · rw [List.getElem?_set_ne hij] at h
    exact .inr ⟨hij, h⟩

section Disk

variable {C : Type} {link : Link C} (server : DiskServer link) {a : Arch} {handles : List UInt32}

/-- The local files, with writes that fit a frame. -/
def clampedCall (fclose : StdFile → Bool × List UInt8) (d : LocalDisk) (c : Nat × DiskCall) :
    Option (DiskReply × LocalDisk) :=
  localCall fclose d (c.1, c.2.clamp)

theorem localCall_some {fclose : StdFile → Bool × List UInt8} {l l' : LocalDisk} {i : Nat}
    {c : DiskCall} {r : DiskReply} (h : localCall fclose l (i, c) = some (r, l')) :
    ∃ g, l.files[i]? = some g ∧ r = (g.call fclose c).1 ∧
      l'.files = l.files.set i (g.call fclose c).2 ∧
      l'.left = Function.update l.left i ((g.leaves fclose c).or (l.left i)) := by
  unfold localCall at h
  simp only at h
  split at h
  · cases h
  · rename_i g hg
    split at h
    · cases h
      exact ⟨g, hg, rfl, rfl, rfl⟩
    · cases h

/-- A closed file stays as it was. -/
theorem SameFiles.closed {d : RemoteDisk C} {l l' : LocalDisk} (h : SameFiles server handles d l)
    (hfiles : l'.files = l.files) (hleft : l'.left = l.left) : SameFiles server handles d l' := by
  refine ⟨h.remote, by rw [hfiles]; exact h.local, ?_, ?_, ?_⟩
  · rw [hfiles]
    exact h.same
  · rw [hleft]
    exact h.left
  · unfold Live
    rw [hleft]
    exact h.distinct

/-- What happens on one handle leaves the file on another one. -/
theorem SameFile.other {conn conn' : Session C} {f : RemoteFile} {g : LocalFile} {handle : UInt32}
    {file : Option StdFile} (h : SameFile server conn f g)
    (hne : f.closed = false → f.handle ≠ handle)
    (hkept : server.files conn'.conn = Function.update (server.files conn.conn) handle file) :
    SameFile server conn' f g := by
  cases hc : f.closed with
  | true =>
    rw [SameFile, if_pos hc] at h ⊢
    exact h
  | false =>
    rw [SameFile, if_neg (by simp [hc])] at h ⊢
    rw [hkept, Function.update_of_ne (hne hc)]
    exact h

theorem DiskServer.Leaves.other {conn conn' : Session C} {f : RemoteFile}
    {left : Option (List UInt8)} {handle : UInt32} (h : server.Leaves conn f conn' left)
    (hne : handle ≠ f.handle) : server.left conn'.conn handle = server.left conn.conn handle := by
  cases left with
  | none => exact congrFun h handle
  | some b => rw [h.2, Function.update_of_ne hne]

/-- An open file is called: the other ones stay as they were, on another handle each. -/
theorem SameFiles.called {d : RemoteDisk C} {l l' : LocalDisk} (h : SameFiles server handles d l)
    {i : Nat} {f f' : RemoteFile} {g' : LocalFile} {left : Option (List UInt8)} {conn' : Session C}
    (hf : d.files[i]? = some f) (hopen : f.closed = false) (hsame : SameFile server conn' f' g')
    (hhandle : f'.handle = f.handle)
    (hkept : server.files conn'.conn = Function.update (server.files d.conn.conn) f.handle g'.fp)
    (hleft : server.Leaves d.conn f' conn' left)
    (hl : l'.files = l.files.set i g') (hl' : l'.left = Function.update l.left i (left.or (l.left i))) :
    SameFiles server handles ⟨conn', d.files.set i f'⟩ l' := by
  have hnone : l.left i = none := by
    refine Option.eq_none_iff_forall_ne_some.mpr fun b hb => ?_
    rw [(h.left i f b hf hb).1] at hopen
    cases hopen
  rw [hnone, Option.or_none] at hl'
  have hother : ∀ {j : Nat} {f₁ : RemoteFile}, i ≠ j → d.files[j]? = some f₁ → Live l j f₁ →
      f₁.handle ≠ f.handle := by
    intro j f₁ hij hf₁ hlive heq
    exact hij (h.distinct i j f f₁ hf hf₁ (.inl hopen) hlive heq.symm)
  have hlive : ∀ {j : Nat} {f₁ : RemoteFile}, i ≠ j → Live l' j f₁ → Live l j f₁ := by
    intro j f₁ hij
    unfold Live
    rw [hl', Function.update_of_ne (Ne.symm hij)]
    exact id
  refine ⟨?_, by rw [hl, List.length_set]; exact h.local, ?_, ?_, ?_⟩
  · have hmap : (d.files.map RemoteFile.handle)[i]? = some f'.handle := by
      rw [List.getElem?_map, hf, hhandle]
      rfl
    rw [List.map_set, set_of_getElem? hmap]
    exact h.remote
  · intro j f₁ g₁ hf₁ hg₁
    rw [hl] at hg₁
    rcases getElem?_set_cases hf₁ with ⟨rfl, rfl⟩ | ⟨hij, hf₁⟩
    · rcases getElem?_set_cases hg₁ with ⟨-, rfl⟩ | ⟨hii, -⟩
      · exact hsame
      · exact absurd rfl hii
    · rcases getElem?_set_cases hg₁ with ⟨heq, -⟩ | ⟨-, hg₁⟩
      · exact absurd heq hij
      · exact (h.same j f₁ g₁ hf₁ hg₁).other server (fun hc₁ => hother hij hf₁ (.inl hc₁)) hkept
  · intro j f₁ b hf₁ hb
    rw [hl'] at hb
    rcases getElem?_set_cases hf₁ with ⟨rfl, rfl⟩ | ⟨hij, hf₁⟩
    · rw [Function.update_self] at hb
      subst hb
      exact ⟨hleft.1, by rw [hleft.2, Function.update_self]⟩
    · rw [Function.update_of_ne (Ne.symm hij)] at hb
      obtain ⟨hclosed, hold⟩ := h.left j f₁ b hf₁ hb
      have hne := hother hij hf₁ (.inr (by rw [hb]; exact Option.some_ne_none b))
      rw [← hhandle] at hne
      exact ⟨hclosed, (hleft.other server hne).trans hold⟩
  · intro j k f₁ f₂ hf₁ hf₂ hlive₁ hlive₂ heq
    rcases getElem?_set_cases hf₁ with ⟨rfl, rfl⟩ | ⟨hij, hg₁⟩
    · rcases getElem?_set_cases hf₂ with ⟨rfl, -⟩ | ⟨hik, hg₂⟩
      · rfl
      · exact absurd (heq.symm.trans hhandle) (hother hik hg₂ (hlive hik hlive₂))
    · rcases getElem?_set_cases hf₂ with ⟨rfl, rfl⟩ | ⟨hik, hg₂⟩
      · exact absurd (heq.trans hhandle) (hother hij hg₁ (hlive hij hlive₁))
      · exact h.distinct j k f₁ f₂ hg₁ hg₂ (hlive hij hlive₁) (hlive hik hlive₂) heq

/-- **One call** on one of the files that C defines has the same answer on both sides, and leaves the
other files as they were. -/
theorem disk_follows : Follows (fun c : Nat × DiskCall => c.2.Valid a)
    (remoteCall a link) (clampedCall server.fclose) (SameFiles server handles) := by
  rintro d l ⟨i, c⟩ r l' hR hc hlocal
  simp only at hc
  obtain ⟨g, hg, rfl, hfiles, hleft⟩ := localCall_some hlocal
  have hlt : i < d.files.length := by
    have hi := (List.getElem?_eq_some_iff.mp hg).1
    have hlength := congrArg List.length hR.remote
    rw [List.length_map] at hlength
    rwa [hR.local, ← hlength] at hi
  obtain ⟨f, hf⟩ : ∃ f, d.files[i]? = some f := ⟨_, List.getElem?_eq_getElem hlt⟩
  have hsame := hR.same i f g hf hg
  obtain ⟨fp⟩ := g
  cases hclosed : f.closed with
  | true =>
    rw [SameFile, if_pos hclosed] at hsame
    simp only at hsame
    subst hsame
    obtain ⟨r, hcall, hcall', hleaves⟩ := call_closed (a := a) link d.conn hclosed server.fclose hc
    have hset : d.files.set i f = d.files := set_of_getElem? hf
    rw [hcall', set_of_getElem? hg] at hfiles
    rw [hleaves, Option.none_or, Function.update_eq_self] at hleft
    refine ⟨d, ?_, hR.closed server hfiles hleft⟩
    simp only [remoteCall, hf, hcall, Option.map_some, hset, hcall']
  | false =>
    rw [SameFile, if_neg (by simp [hclosed])] at hsame
    obtain ⟨fp', hfp, hkept⟩ := hsame
    simp only at hfp
    subst hfp
    obtain ⟨r, f', conn', g', hcall, hcall', hsame', hhandle, hserved, hleaves⟩ :=
      call_open server hclosed hkept hc
    rw [hcall'] at hfiles
    refine ⟨⟨conn', d.files.set i f'⟩, ?_,
      hR.called server hf hclosed hsame' hhandle hserved hleaves hfiles hleft⟩
    simp only [remoteCall, hf, hcall, Option.map_some, hcall']

theorem answers_clamped (fclose : StdFile → Bool × List UInt8) (l : LocalDisk)
    (cs : List (Nat × DiskCall)) : answers (clampedCall fclose) l cs =
      answers (localCall fclose) l (cs.map fun c => (c.1, c.2.clamp)) := by
  induction cs generalizing l with
  | nil => rfl
  | cons c cs ih =>
    simp only [answers, List.map_cons, clampedCall]
    cases localCall fclose l (c.1, c.2.clamp) with
    | none => rfl
    | some r => simp only [ih]

theorem clamp_of_le {c : DiskCall} (h : ∀ buf, c = .write buf → buf.length ≤ MAX_PAYLOAD_SIZE - 8) :
    c.clamp = c := by
  cases c with
  | write buf => rw [DiskCall.clamp, List.take_of_length_le (h buf rfl)]
  | _ => rfl

theorem clamp_map {cs : List (Nat × DiskCall)}
    (h : ∀ c ∈ cs, ∀ buf, c.2 = .write buf → buf.length ≤ MAX_PAYLOAD_SIZE - 8) :
    cs.map (fun c => (c.1, c.2.clamp)) = cs := by
  refine (List.map_congr_left fun c hc => ?_).trans (List.map_id cs)
  rw [clamp_of_le (h c hc)]
  rfl

/-- **Remote files are like local ones.** Take any number of files, open or closed, with a handle each
on a server that keeps such files, and the same files open locally. Then any sequence of calls on
them, in any order that C defines, has on both sides the same answers and leaves the same files and
the same bytes in those that it closes, where a local write takes no more than fits a frame; so it is
for every sequence whose writes fit one. -/
theorem remote_like_local {d : RemoteDisk C} {l l' : LocalDisk} (hR : SameFiles server handles d l)
    (cs : List (Nat × DiskCall)) (hcs : ∀ c ∈ cs, c.2.Valid a) {replies : List DiskReply}
    (hlocal : answers (localCall server.fclose) l (cs.map fun c => (c.1, c.2.clamp)) =
      some (replies, l')) :
    ∃ d', answers (remoteCall a link) d cs = some (replies, d') ∧ SameFiles server handles d' l' ∧
      ((∀ c ∈ cs, ∀ buf, c.2 = .write buf → buf.length ≤ MAX_PAYLOAD_SIZE - 8) →
        answers (localCall server.fclose) l cs = some (replies, l')) := by
  rw [← answers_clamped] at hlocal
  obtain ⟨d', hremote, hR'⟩ := (disk_follows server).calls hR hcs hlocal
  refine ⟨d', hremote, hR', fun hfit => ?_⟩
  rwa [answers_clamped, clamp_map hfit] at hlocal

end Disk

/-! ## A server that does so -/

/-- The files of a server, by handle, and what those that were closed have left. -/
structure DiskTable where
  files : UInt32 → Option StdFile
  left : UInt32 → Option (List UInt8)

section Table

variable (fclose : StdFile → Bool × List UInt8)

/-- What a request does on the file it names. -/
def serveFile (f : StdFile) (r : Request) : Response × Option StdFile :=
  if r.cmd = CMD_FILE_SEEK then
    let (ret, f) := f.seek (protoReadI64 (r.payload.drop 4))
      (Script.whenceOf ((r.payload.drop 12).headD 0))
    (if ret = 0 then ⟨STATUS_OK, []⟩ else ⟨STATUS_ERR_GENERIC, []⟩, some f)
  else if r.cmd = CMD_FILE_TELL then (⟨STATUS_OK, protoWriteI64 f.pos⟩, some f)
  else if r.cmd = CMD_FILE_READ then
    let n := f.avail (min (protoReadU32 (r.payload.drop 4)).toNat RemoteFile.MAX_READ_CHUNK)
    (if f.canRead then ⟨STATUS_OK, protoWriteU32 (UInt32.ofNat n) ++ (f.bytes.drop f.pos).take n⟩
      else ⟨STATUS_ERR_GENERIC, []⟩, some (f.advance n))
  else if r.cmd = CMD_FILE_WRITE then
    let (n, f') := f.write (r.payload.drop 8)
    (if f.canWrite then ⟨STATUS_OK, protoWriteU32 (UInt32.ofNat n)⟩ else ⟨STATUS_ERR_GENERIC, []⟩, some f')
  else if r.cmd = CMD_FILE_CLOSE then
    (if (fclose f).1 then ⟨STATUS_OK, []⟩ else ⟨STATUS_ERR_GENERIC, []⟩, none)
  else (⟨STATUS_ERR_GENERIC, []⟩, some f)

def serveTable (table : DiskTable) (r : Request) : Response × DiskTable :=
  let h := protoReadU32 r.payload
  match table.files h with
  | none => (⟨STATUS_ERR_GENERIC, []⟩, table)
  | some f =>
    let (resp, f') := serveFile fclose f r
    (resp,
      { files := Function.update table.files h f'
        left := if f'.isSome then table.left else Function.update table.left h (some (fclose f).2) })

theorem serveFile_payload_le (f : StdFile) (r : Request) :
    (serveFile fclose f r).1.payload.length ≤ MAX_PAYLOAD_SIZE := by
  have hmax : MAX_PAYLOAD_SIZE = 1048576 := rfl
  have hchunk : RemoteFile.MAX_READ_CHUNK = 1048572 := rfl
  unfold serveFile
  split
  · simp only
    split <;> exact Nat.zero_le _
  split
  · simp [protoWriteI64, hmax]
  split
  · simp only
    split
    · simp only [List.length_append, protoWriteU32_length, List.length_take, StdFile.avail]
      split <;> omega
    · exact Nat.zero_le _
  split
  · simp only
    split
    · simp [hmax]
    · exact Nat.zero_le _
  split
  · simp only
    split <;> exact Nat.zero_le _
  · exact Nat.zero_le _

def tableLink : Link DiskTable where
  connected _ := true
  serve := serveTable fclose
  payload_le table r := by
    unfold serveTable
    simp only
    split
    · exact Nat.zero_le _
    · exact serveFile_payload_le _ _ _

variable {table : DiskTable} {h : UInt32} {f : StdFile}

/-- A request that names `h`. -/
theorem serveTable_eq (hf : table.files h = some f) (cmd : UInt8) (rest : List UInt8) :
    serveTable fclose table ⟨cmd, protoWriteU32 h ++ rest⟩ =
      ((serveFile fclose f ⟨cmd, protoWriteU32 h ++ rest⟩).1,
        { files := Function.update table.files h (serveFile fclose f ⟨cmd, protoWriteU32 h ++ rest⟩).2
          left := if (serveFile fclose f ⟨cmd, protoWriteU32 h ++ rest⟩).2.isSome then table.left
            else Function.update table.left h (some (fclose f).2) }) := by
  simp only [serveTable, protoReadU32_write, hf]

theorem table_seek (hf : table.files h = some f) {offset : Int} (hin : InInt64 offset)
    (whence : Whence) :
    let r := serveTable fclose table ⟨CMD_FILE_SEEK, RemoteFile.seekRequest h offset whence⟩
    (r.1.status = STATUS_OK ↔ (f.seek offset whence).1 = 0) ∧
      r.2.files = Function.update table.files h (some (f.seek offset whence).2) ∧
      r.2.left = table.left := by
  have hoffset := Script.seekRequest_offset h hin whence
  have hwhence := Script.seekRequest_whence h offset whence
  have hne : STATUS_ERR_GENERIC ≠ STATUS_OK := by decide
  simp only [RemoteFile.seekRequest] at hoffset hwhence ⊢
  rw [serveTable_eq fclose hf]
  simp only [serveFile, if_true, hoffset, hwhence, Option.isSome_some, and_true]
  by_cases hz : (f.seek offset whence).1 = 0
  · simp only [hz, if_true]
  · simp only [hz, if_false, hne]

theorem table_tell (hf : table.files h = some f) :
    serveTable fclose table ⟨CMD_FILE_TELL, protoWriteU32 h⟩ =
      (⟨STATUS_OK, protoWriteI64 f.pos⟩, table) := by
  have hserve := serveTable_eq fclose hf CMD_FILE_TELL []
  have hcmd : CMD_FILE_TELL ≠ CMD_FILE_SEEK := by decide
  have hsame : Function.update table.files h (some f) = table.files := by
    rw [← hf, Function.update_eq_self]
  rw [List.append_nil] at hserve
  rw [hserve, serveFile, if_neg hcmd, if_pos rfl, hsame, Option.isSome_some, if_pos rfl]

theorem table_read (hf : table.files h = some f) {k : UInt32}
    (hk : 4 + k.toNat ≤ MAX_PAYLOAD_SIZE) :
    serveTable fclose table ⟨CMD_FILE_READ, RemoteFile.readRequest h k⟩ =
      (if f.canRead then ⟨STATUS_OK, protoWriteU32 (UInt32.ofNat (f.avail k.toNat)) ++
          (f.bytes.drop f.pos).take (f.avail k.toNat)⟩
        else ⟨STATUS_ERR_GENERIC, []⟩,
        ⟨Function.update table.files h (some (f.advance (f.avail k.toNat))), table.left⟩) := by
  have hmax : RemoteFile.MAX_READ_CHUNK = MAX_PAYLOAD_SIZE - 4 := rfl
  have hseek : CMD_FILE_READ ≠ CMD_FILE_SEEK := by decide
  have htell : CMD_FILE_READ ≠ CMD_FILE_TELL := by decide
  have hmin : min k.toNat RemoteFile.MAX_READ_CHUNK = k.toNat := by omega
  have hsize : protoReadU32 ((protoWriteU32 h ++ protoWriteU32 k).drop 4) = k := by
    have hread := protoReadU32_write k []
    rw [List.append_nil] at hread
    rw [List.drop_left' (protoWriteU32_length h), hread]
  rw [RemoteFile.readRequest, serveTable_eq fclose hf, serveFile, if_neg hseek, if_neg htell, if_pos rfl]
  simp only [hsize, hmin, Option.isSome_some, if_true]

theorem table_write (hf : table.files h = some f) (data : List UInt8) :
    serveTable fclose table ⟨CMD_FILE_WRITE, RemoteFile.writeRequest h data⟩ =
      (if f.canWrite then ⟨STATUS_OK, protoWriteU32 (UInt32.ofNat (f.write data).1)⟩
        else ⟨STATUS_ERR_GENERIC, []⟩,
        ⟨Function.update table.files h (some (f.write data).2), table.left⟩) := by
  have hseek : CMD_FILE_WRITE ≠ CMD_FILE_SEEK := by decide
  have htell : CMD_FILE_WRITE ≠ CMD_FILE_TELL := by decide
  have hread : CMD_FILE_WRITE ≠ CMD_FILE_READ := by decide
  have hlen : (protoWriteU32 h ++ protoWriteU32 (UInt32.ofNat data.length)).length = 8 := by
    rw [List.length_append, protoWriteU32_length, protoWriteU32_length]
  have hdata : (protoWriteU32 h ++ (protoWriteU32 (UInt32.ofNat data.length) ++ data)).drop 8 =
      data := by
    rw [← List.append_assoc, List.drop_left' hlen]
  rw [RemoteFile.writeRequest, serveTable_eq fclose hf, serveFile, if_neg hseek, if_neg htell, if_neg hread,
    if_pos rfl]
  simp only [hdata, Option.isSome_some, if_true]

theorem table_close (hf : table.files h = some f) :
    serveTable fclose table ⟨CMD_FILE_CLOSE, protoWriteU32 h⟩ =
      (if (fclose f).1 then ⟨STATUS_OK, []⟩ else ⟨STATUS_ERR_GENERIC, []⟩,
        ⟨Function.update table.files h none, Function.update table.left h (some (fclose f).2)⟩) := by
  have hserve := serveTable_eq fclose hf CMD_FILE_CLOSE []
  have hseek : CMD_FILE_CLOSE ≠ CMD_FILE_SEEK := by decide
  have htell : CMD_FILE_CLOSE ≠ CMD_FILE_TELL := by decide
  have hread : CMD_FILE_CLOSE ≠ CMD_FILE_READ := by decide
  have hwrite : CMD_FILE_CLOSE ≠ CMD_FILE_WRITE := by decide
  rw [List.append_nil] at hserve
  rw [hserve, serveFile, if_neg hseek, if_neg htell, if_neg hread, if_neg hwrite, if_pos rfl]
  rfl

end Table

def tableServer (fclose : StdFile → Bool × List UInt8) : DiskServer (tableLink fclose) where
  files table := table.files
  left table := table.left
  fclose := fclose
  connected _ := rfl
  seek _ _ _ _ whence hf hin := table_seek fclose hf hin whence
  tell table h f hf := by
    have hserve : (tableLink fclose).serve table ⟨CMD_FILE_TELL, protoWriteU32 h⟩ = _ :=
      table_tell fclose hf
    rw [hserve]
    exact ⟨rfl, rfl, rfl⟩
  read table h f k hf hk := by
    have hserve : (tableLink fclose).serve table ⟨CMD_FILE_READ, RemoteFile.readRequest h k⟩ = _ :=
      table_read fclose hf hk
    have hne : STATUS_ERR_GENERIC ≠ STATUS_OK := by decide
    rw [hserve]
    refine ⟨fun hr => if_pos hr, fun hr => ?_, rfl, rfl⟩
    simp only [hr, Bool.false_eq_true, if_false]
    exact hne
  write table h f data hf _ := by
    have hserve : (tableLink fclose).serve table ⟨CMD_FILE_WRITE, RemoteFile.writeRequest h data⟩ = _ :=
      table_write fclose hf data
    have hne : STATUS_ERR_GENERIC ≠ STATUS_OK := by decide
    rw [hserve]
    refine ⟨fun hw => if_pos hw, fun hw => ?_, rfl, rfl⟩
    simp only [hw, Bool.false_eq_true, if_false]
    exact hne
  close table h f hf := by
    have hserve : (tableLink fclose).serve table ⟨CMD_FILE_CLOSE, protoWriteU32 h⟩ = _ :=
      table_close fclose hf
    have hne : STATUS_ERR_GENERIC ≠ STATUS_OK := by decide
    rw [hserve]
    refine ⟨?_, rfl, rfl⟩
    by_cases hclose : (fclose f).1 = true
    · simp only [hclose, if_true]
    · simp [hclose, hne]

def someBytes : List UInt8 := [1, 2, 3]

theorem someBytes_length : someBytes.length < 9223372036854775808 := by decide

theorem zero_lt_limit : 0 < 9223372036854775808 := by decide

def threeBytes (access : FileAccess) : StdFile :=
  ⟨someBytes, 0, access, someBytes_length, zero_lt_limit⟩

/-- `fclose` where a file can have no more than four bytes. -/
def closeFour (f : StdFile) : Bool × List UInt8 := (f.bytes.length ≤ 4, f.bytes.take 4)

/-- File 7 for reading and writing, file 9 for appending. -/
def twoFiles : DiskTable where
  files h :=
    if h = 7 then some (threeBytes .rdwr) else if h = 9 then some (threeBytes .append) else none
  left _ := none

def twoRemote : RemoteDisk DiskTable := ⟨⟨twoFiles, []⟩, [⟨7, false⟩, ⟨9, false⟩]⟩

def twoLocal : LocalDisk where
  files := [⟨some (threeBytes .rdwr)⟩, ⟨some (threeBytes .append)⟩]
  last _ := .none
  left _ := none

def twoCalls : List (Nat × DiskCall) :=
  [(0, .write [8]), (1, .write [5, 6]), (0, .seek 0 .SEEK_SET), (0, .read [0, 0]), (1, .tell),
    (1, .close)]

/-- The second file can not be closed with its five bytes, and is left with four on both sides. -/
theorem remote_like_local_two :
    ∃ d : RemoteDisk DiskTable,
      answers (remoteCall .x64 (tableLink closeFour)) twoRemote twoCalls =
        some ([.write 1, .write 2, .seek 0, .read 2 [8, 2], .tell 5, .close (-1)], d) ∧
      d.conn.conn.left 9 = some [1, 2, 3, 5] := by
  have hR : SameFiles (tableServer closeFour) [7, 9] twoRemote twoLocal := by
    refine ⟨rfl, rfl, ?_, ?_, ?_⟩
    · rintro (_ | _ | i) f g hf hg
      · cases hf
        cases hg
        exact ⟨_, rfl, rfl⟩
      · cases hf
        cases hg
        exact ⟨_, rfl, rfl⟩
      · cases hf
    · intro i f b hf hb
      cases hb
    · rintro (_ | _ | i) (_ | _ | j) f g hf hg - - heq
      all_goals cases hf <;> cases hg <;> first | rfl | exact absurd heq (by decide)
  have hsmall : 2 < 2 ^ Arch.x64.bits := by decide
  have hvalid : ∀ c ∈ twoCalls, c.2.Valid .x64 := by
    intro c hc
    simp only [twoCalls, List.mem_cons, List.not_mem_nil, or_false] at hc
    rcases hc with rfl | rfl | rfl | rfl | rfl | rfl
    · exact Nat.lt_of_succ_lt hsmall
    · exact hsmall
    · exact ⟨by decide, by decide⟩
    · exact hsmall
    · trivial
    · trivial
  obtain ⟨l', hlocal, hclosed⟩ : ∃ l', answers (localCall closeFour) twoLocal
      (twoCalls.map fun c => (c.1, c.2.clamp)) =
      some ([.write 1, .write 2, .seek 0, .read 2 [8, 2], .tell 5, .close (-1)], l') ∧
      l'.left 1 = some [1, 2, 3, 5] := ⟨_, rfl, rfl⟩
  obtain ⟨d, hremote, hR', -⟩ := remote_like_local (tableServer closeFour) hR twoCalls hvalid hlocal
  have hhandles := hR'.remote
  have hsecond : (d.files.map RemoteFile.handle)[1]? = some 9 := by rw [hhandles]; rfl
  rw [List.getElem?_map] at hsecond
  obtain ⟨f, hf, hhandle⟩ := Option.map_eq_some_iff.mp hsecond
  obtain ⟨-, hleft⟩ := hR'.left 1 f _ hf hclosed
  rw [hhandle] at hleft
  exact ⟨d, hremote, hleft⟩

end ObZrv
