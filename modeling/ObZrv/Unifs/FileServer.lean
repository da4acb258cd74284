import ObZrv.Unifs.RemoteFile

/-!
# Unifs.FileServer

`RemoteFile` against a server that follows the protocol: it holds a file, seeks and tells as stdio
does, and answers `FILE_READ` with the bytes at the position. Requests may fail, and between two
requests the file may be cut. A lost connection is a failure like any other, since `send_request`
gives an error response.

* `readLoop_file`  : what the loop of `read` gets from the server, whatever goes wrong.
* `read_file`      : the same of `read`.
* `FileServer.byteFile` : a server without failures makes a `RemoteFile` a file that holds the
  bytes of the server.
-/

namespace ObZrv

open Lib

def Whence.toByte : Whence → UInt8
  | .SEEK_SET => 0
  | .SEEK_CUR => 1
  | .SEEK_END => 2

namespace RemoteFile

/-- `file_handle:u32 + offset:i64 + whence:u8`. -/
def seekRequest (handle : UInt32) (offset : Int) (whence : Whence) : List UInt8 :=
  protoWriteU32 handle ++ (protoWriteI64 offset ++ [whence.toByte])

section

variable {C : Type} (f : RemoteFile) (link : Link C) (conn : Session C)

def seek (offset : Int) (whence : Whence) : Int × Session C :=
  if f.closed then (-1, conn)
  else
    let (resp, conn) := link.sendRequest conn CMD_FILE_SEEK (seekRequest f.handle offset whence)
    (if resp.status = STATUS_OK then 0 else -1, conn)

def tell : Int × Session C :=
  if f.closed then (-1, conn)
  else
    let (resp, conn) := link.sendRequest conn CMD_FILE_TELL (protoWriteU32 f.handle)
    if resp.status ≠ STATUS_OK ∨ resp.payload.length < 8 then (-1, conn)
    else (protoReadI64 resp.payload, conn)

end

/-- `read` on a buffer of any length a `size_t` can state. -/
def readInto {C : Type} (a : Arch) (f : RemoteFile) (link : Link C) (buf : List UInt8)
    (conn : Session C) : Option (Nat × List UInt8 × Session C) :=
  if h : buf.length < 2 ^ a.bits then
    match f.read link conn (⟨buf, h⟩ : Buffer a) with
    | .done s => some (s.total, s.buf, s.conn)
    | _ => none
  else none

theorem readInto_done {C : Type} {a : Arch} {f : RemoteFile} {link : Link C} {buf : List UInt8}
    {conn : Session C} {hw : buf.length < 2 ^ a.bits} {s : ReadState C}
    (h : f.read link conn (⟨buf, hw⟩ : Buffer a) = .done s) :
    f.readInto a link buf conn = some (s.total, s.buf, s.conn) := by
  rw [readInto, dif_pos hw, h]

def uniFile {C : Type} (a : Arch) (f : RemoteFile) (link : Link C) : UniFile (Session C) where
  seek offset whence conn := f.seek link conn offset whence
  tell conn := f.tell link conn
  read buf conn := f.readInto a link buf conn

end RemoteFile

/-- A server behind `link` that holds `bytes` as file `handle`. Requests for which `fails` holds are
refused, and after a request the file may be cut. `disturbed` tells whether a request has failed
or was served from a file that had been cut. -/
structure FileServer {C : Type} (link : Link C) (handle : UInt32) (bytes : List UInt8) where
  content : C → List UInt8
  pos : C → Nat
  fails : C → Bool
  disturbed : C → Bool
  length_lt : bytes.length < 9223372036854775808
  connected : ∀ c, link.connected c = true
  content_prefix : ∀ c, content c <+: bytes
  shrinks : ∀ c r, content (link.serve c r).2 <+: content c
  disturbed_serve : ∀ c r, disturbed (link.serve c r).2 = true ↔
    disturbed c = true ∨ fails c = true ∨ content c ≠ bytes
  refuses : ∀ c r, fails c = true → (link.serve c r).1.status ≠ STATUS_OK
  pos_lt : ∀ c, pos c < 9223372036854775808
  seek : ∀ c offset whence, fails c = false → InInt64 offset →
    let target := seekTarget (content c).length (pos c) offset whence
    let r := link.serve c ⟨CMD_FILE_SEEK, RemoteFile.seekRequest handle offset whence⟩
    if 0 ≤ target ∧ target < 9223372036854775808 then
      r.1.status = STATUS_OK ∧ (pos r.2 : Int) = target
    else r.1.status ≠ STATUS_OK ∧ pos r.2 = pos c
  tell : ∀ c, fails c = false →
    let r := link.serve c ⟨CMD_FILE_TELL, protoWriteU32 handle⟩
    r.1 = ⟨STATUS_OK, protoWriteI64 (pos c)⟩ ∧ pos r.2 = pos c
  read : ∀ c k, fails c = false → 4 + k.toNat ≤ MAX_PAYLOAD_SIZE →
    let part := ((content c).drop (pos c)).take k.toNat
    let r := link.serve c ⟨CMD_FILE_READ, RemoteFile.readRequest handle k⟩
    r.1 = ⟨STATUS_OK, protoWriteU32 (UInt32.ofNat part.length) ++ part⟩ ∧
      pos r.2 = pos c + part.length

namespace FileServer

variable {C : Type} {link : Link C} {handle : UInt32} {bytes : List UInt8}

/-- No request fails, and the file is never cut. -/
structure Steady (server : FileServer link handle bytes) : Prop where
  fails : ∀ c, server.fails c = false
  content : ∀ c, server.content c = bytes

variable (server : FileServer link handle bytes)

include server in
theorem sendRequest_eq (s : Session C) (cmd : UInt8) (payload : List UInt8) :
    link.sendRequest s cmd payload =
      ((link.serve s.conn ⟨cmd, payload⟩).1,
        { conn := (link.serve s.conn ⟨cmd, payload⟩).2, sent := s.sent ++ [⟨cmd, payload⟩] }) := by
  rw [Link.sendRequest, if_pos (server.connected s.conn)]

theorem length_le (c : C) : (server.content c).length ≤ bytes.length :=
  (server.content_prefix c).length_le

theorem length_lt_of_cut {c : C} (h : server.content c ≠ bytes) :
    (server.content c).length < bytes.length := by
  refine Nat.lt_of_le_of_ne (server.length_le c) fun heq => h ?_
  exact (server.content_prefix c).eq_of_length heq

/-- What is read of the file, cut or not, are bytes of `bytes`. -/
theorem part_eq (c : C) (k : Nat) :
    ((server.content c).drop (server.pos c)).take k =
      (bytes.drop (server.pos c)).take (min k ((server.content c).length - server.pos c)) := by
  have hcut : server.content c = bytes.take (server.content c).length :=
    List.prefix_iff_eq_take.mp (server.content_prefix c)
  conv_lhs => rw [hcut]
  rw [List.drop_take, List.take_take]

/-! ## Reading -/

section Reading

variable {a : Arch} {s : RemoteFile.ReadState C} {size p n : Nat} {buf : List UInt8}

open RemoteFile

/-- `n` of `size` bytes have been read from position `p` on. -/
structure Filled (size p : Nat) (buf : List UInt8) (n : Nat) (s : ReadState C) : Prop where
  dst : s.dst = n
  total : s.total = n
  left : n + s.size = size
  length : buf.length = size
  filled : s.buf = (bytes.drop p).take n ++ buf.drop n
  pos : server.pos s.conn.conn = p + n
  read_le : n ≤ bytes.length - p

theorem Filled.buf_length (h : server.Filled size p buf n s) : s.buf.length = size := by
  have := h.read_le
  have := h.left
  rw [h.filled, List.length_append, List.length_take, List.length_drop, List.length_drop, h.length]
  omega

/-- The bytes the next request gets. -/
def gets (s : ReadState C) : Nat :=
  min (chunkOf s.size).toNat ((server.content s.conn.conn).length - server.pos s.conn.conn)

/-- The server after the next request. -/
def after (link : Link C) (handle : UInt32) (s : ReadState C) : C :=
  (link.serve s.conn.conn ⟨CMD_FILE_READ, readRequest handle (chunkOf s.size)⟩).2

include server in
theorem exchange_conn (s : ReadState C) :
    (exchange link handle s).2.conn = after link handle s := by
  rw [exchange, server.sendRequest_eq]
  rfl

theorem readPass_fails (h : server.fails s.conn.conn = true) :
    readPass a link handle s = .stop { s with conn := (exchange link handle s).2 } := by
  refine readPass_stop a link handle s fun hacc => ?_
  rw [exchange, server.sendRequest_eq] at hacc
  exact server.refuses _ _ h hacc.1

theorem chunk_le (n : Nat) : 4 + (chunkOf n).toNat ≤ MAX_PAYLOAD_SIZE := by
  have hmax : MAX_READ_CHUNK = MAX_PAYLOAD_SIZE - 4 := rfl
  have hle : 4 ≤ MAX_PAYLOAD_SIZE := by decide
  rw [chunkOf_toNat]
  omega

theorem reply_eq (h : server.fails s.conn.conn = false) :
    (exchange link handle s).1 = ⟨STATUS_OK, protoWriteU32 (UInt32.ofNat (server.gets s)) ++
      (bytes.drop (server.pos s.conn.conn)).take (server.gets s)⟩ ∧
      server.pos (after link handle s) = server.pos s.conn.conn + server.gets s := by
  obtain ⟨hresp, hpos⟩ := server.read s.conn.conn (chunkOf s.size) h (chunk_le _)
  have hlen := server.length_le s.conn.conn
  have hpart : ((bytes.drop (server.pos s.conn.conn)).take (server.gets s)).length =
      server.gets s := by
    rw [List.length_take, List.length_drop, gets]
    omega
  rw [server.part_eq] at hresp hpos
  change _ = (⟨STATUS_OK, protoWriteU32 (UInt32.ofNat
    ((bytes.drop (server.pos s.conn.conn)).take (server.gets s)).length) ++ _⟩ : Response) at hresp
  change server.pos (after link handle s) = server.pos s.conn.conn +
    ((bytes.drop (server.pos s.conn.conn)).take (server.gets s)).length at hpos
  rw [hpart] at hresp hpos
  rw [exchange, server.sendRequest_eq]
  exact ⟨hresp, hpos⟩

theorem gets_lt (s : ReadState C) : server.gets s < 4294967296 := by
  have hchunk := chunk_le s.size
  have hmax : MAX_PAYLOAD_SIZE = 1048576 := rfl
  rw [gets]
  omega

theorem readPass_eof (h : server.fails s.conn.conn = false) (hgets : server.gets s = 0) :
    readPass a link handle s = .stop { s with conn := (exchange link handle s).2 } := by
  refine readPass_stop a link handle s fun hacc => hacc.2.2.1 ?_
  rw [countOf, (server.reply_eq h).1, protoReadU32_write, hgets]
  rfl

theorem Filled.copied (hw : size < 2 ^ a.bits) (hf : server.Filled size p buf n s)
    {resp : Response} {conn : Session C} {k : Nat} (hcount : (countOf resp).toNat = k)
    (hdata : (resp.payload.drop 4).take k = (bytes.drop (p + n)).take k) (hsize : k ≤ s.size)
    (hrest : k ≤ bytes.length - (p + n)) (hpos : server.pos conn.conn = p + n + k) :
    server.Filled size p buf (n + k) (s.copied a resp conn) := by
  have hleft := hf.left
  have hread := hf.read_le
  refine ⟨?_, ?_, ?_, hf.length, ?_, by rw [ReadState.copied, hpos]; omega, by omega⟩
  · simp only [ReadState.copied, hcount, hf.dst]
  · simp only [ReadState.copied, hcount, hf.total]
    exact Nat.mod_eq_of_lt (by omega)
  · simp only [ReadState.copied, hcount]
    rw [show s.size + 2 ^ a.bits - k = s.size - k + 2 ^ a.bits by omega,
      Nat.add_mod_right, Nat.mod_eq_of_lt (by omega)]
    omega
  · -- the bytes read so far, the new ones, and the rest of the buffer
    have hfront : ((bytes.drop p).take n).length = n := by
      rw [List.length_take, List.length_drop]
      omega
    have hback : (((bytes.drop p).take n) ++ buf.drop n).drop (n + k) = buf.drop (n + k) := by
      rw [List.drop_append, hfront, List.drop_eq_nil_of_le (by omega), List.nil_append,
        List.drop_drop, Nat.add_sub_cancel_left]
    simp only [ReadState.copied, hcount, hdata, hf.dst, hf.filled]
    rw [List.take_left' hfront, hback, ← List.drop_drop, ← List.take_add]

theorem readPass_gets (hw : size < 2 ^ a.bits) (hf : server.Filled size p buf n s)
    (h : server.fails s.conn.conn = false) (hgets : 0 < server.gets s) :
    ∃ s', server.Filled size p buf (n + server.gets s) s' ∧
      s'.conn.conn = after link handle s ∧
      readPass a link handle s =
        if server.gets s < (chunkOf s.size).toNat then .stop s' else .again s' := by
  obtain ⟨hresp, hpos⟩ := server.reply_eq h
  have hlt := server.gets_lt s
  have hcount : (countOf (exchange link handle s).1).toNat = server.gets s := by
    rw [countOf, hresp, protoReadU32_write]
    exact UInt32.toNat_ofNat_of_lt' hlt
  have hlen := server.length_le s.conn.conn
  have hchunk := chunkOf_toNat s.size
  have hsize : server.gets s ≤ s.size := by
    rw [gets]
    omega
  have hrest : server.gets s ≤ bytes.length - server.pos s.conn.conn := by
    rw [gets]
    omega
  have hpayload : (exchange link handle s).1.payload.length = 4 + server.gets s := by
    rw [hresp]
    simp only [List.length_append, protoWriteU32_length, List.length_take, List.length_drop]
    omega
  have hacc : Accepted (exchange link handle s).1 := by
    refine ⟨by rw [hresp], by omega, fun h0 => ?_, ?_⟩
    · rw [h0] at hcount
      simp at hcount
      omega
    · rw [UInt32.toNat_add, hcount, hpayload]
      exact Nat.mod_le _ _
  have hpass := readPass_accepted a link handle s hacc
  have hleft := hf.left
  simp only [hcount] at hpass
  rw [if_pos ⟨by omega, by rw [hf.dst, hf.buf_length]; omega⟩] at hpass
  refine ⟨s.copied a (exchange link handle s).1 (exchange link handle s).2, ?_, ?_, ?_⟩
  · rw [hf.pos] at hrest
    refine hf.copied server hw hcount ?_ hsize hrest ?_
    · rw [hresp, List.drop_left' (protoWriteU32_length _), List.take_take, Nat.min_self, hf.pos]
    · rw [server.exchange_conn, hpos, hf.pos]
  · exact server.exchange_conn s
  · rw [hpass]
    simp only [UInt32.lt_iff_toNat_lt, hcount]

/-- The loop has got all there is, and nothing went wrong on the way. -/
structure GotAll (size p : Nat) (buf : List UInt8) (s s' : ReadState C) : Prop where
  disturbed : server.disturbed s'.conn.conn = server.disturbed s.conn.conn
  filled : server.Filled size p buf (min size (bytes.length - p)) s'

/-- Something went wrong. A read that was to end where the file ends has come out short. -/
structure CutShort (size p : Nat) (s' : ReadState C) : Prop where
  not_steady : ¬ server.Steady
  disturbed : server.disturbed s'.conn.conn = true
  total_lt : p + size = bytes.length → s'.total < size

theorem disturbed_after (h : server.fails s.conn.conn = false)
    (hc : server.content s.conn.conn = bytes) :
    server.disturbed (after link handle s) = server.disturbed s.conn.conn := by
  rw [Bool.eq_iff_iff, after, server.disturbed_serve]
  simp [h, hc]

theorem disturbed_of_cut (hc : server.content s.conn.conn ≠ bytes) :
    server.disturbed (after link handle s) = true :=
  (server.disturbed_serve _ _).mpr (.inr (.inr hc))

/-- The bytes the next request gets are those up to the end of the file or a whole chunk. -/
theorem gets_eq (hc : server.content s.conn.conn = bytes) (hf : server.Filled size p buf n s) :
    server.gets s = min (chunkOf s.size).toNat (bytes.length - (p + n)) := by
  rw [gets, hc, hf.pos]

theorem Filled.le_content (hf : server.Filled size p buf n s) (hgets : 0 < server.gets s) :
    p + (n + server.gets s) ≤ (server.content s.conn.conn).length := by
  rw [gets, hf.pos] at *
  omega

/-- A reply below the chunk came at the end of the file, or the file has been cut. -/
theorem Filled.last {s' : ReadState C} (hf : server.Filled size p buf n s)
    (h : server.fails s.conn.conn = false)
    (hlast : server.gets s < (chunkOf s.size).toNat)
    (hf' : server.Filled size p buf (n + server.gets s) s')
    (hconn : s'.conn.conn = after link handle s) :
    server.GotAll size p buf s s' ∨ server.CutShort size p s' := by
  have hleft := hf.left
  have hread := hf'.read_le
  have hchunk := chunkOf_toNat s.size
  by_cases hc : server.content s.conn.conn = bytes
  · have hgets := server.gets_eq hc hf
    have hn : n + server.gets s = min size (bytes.length - p) := by omega
    refine .inl ⟨by rw [hconn, server.disturbed_after h hc], ?_⟩
    rw [← hn]
    exact hf'
  · refine .inr ⟨fun hst => hc (hst.content _), ?_, fun _ => ?_⟩
    · rw [hconn, server.disturbed_of_cut hc]
    · rw [hf'.total]
      omega

/-- The loop gets all the bytes there are up to the size asked for, unless a request fails or the
file is cut. The induction is on the passes: each full chunk takes a chunk off the size. -/
theorem readLoop_file (hw : size < 2 ^ a.bits) (fuel : Nat) (hf : server.Filled size p buf n s)
    (hfuel : s.size < fuel) :
    ∃ s', readLoop a link handle fuel s = .done s' ∧
      (s'.total = n ∨ p + s'.total ≤ (server.content s.conn.conn).length) ∧
      (server.GotAll size p buf s s' ∨ server.CutShort size p s') := by
  induction fuel generalizing n s with
  | zero => omega
  | succ fuel ih =>
    have hleft := hf.left
    rw [readLoop]
    by_cases h0 : s.size = 0
    · -- all that was asked for has been read
      have hread := hf.read_le
      have hn : n = min size (bytes.length - p) := by omega
      rw [if_pos h0]
      refine ⟨s, rfl, .inl hf.total, .inl ⟨rfl, ?_⟩⟩
      rw [← hn]
      exact hf
    rw [if_neg h0]
    cases hfails : server.fails s.conn.conn with
    | true =>
      rw [server.readPass_fails hfails]
      refine ⟨_, rfl, .inl hf.total, .inr ⟨fun hst => ?_, ?_, fun _ => ?_⟩⟩
      · rw [hst.fails] at hfails
        cases hfails
      · simp only [server.exchange_conn]
        exact (server.disturbed_serve _ _).mpr (.inr (.inl hfails))
      · simp only [hf.total]
        omega
    | false =>
      rcases Nat.eq_zero_or_pos (server.gets s) with hgets | hgets
      · -- end of file
        rw [server.readPass_eof hfails hgets]
        have hchunk := chunkOf_toNat s.size
        have hmax : MAX_READ_CHUNK = 1048572 := rfl
        have hpos := (server.reply_eq hfails).2
        refine ⟨_, rfl, .inl hf.total, hf.last server hfails (by omega) ?_ ?_⟩
        · rw [hgets] at hpos ⊢
          refine ⟨hf.dst, hf.total, hf.left, hf.length, hf.filled, ?_, hf.read_le⟩
          simp only [server.exchange_conn, hpos, hf.pos, Nat.add_zero]
        · exact server.exchange_conn s
      · obtain ⟨s', hf', hconn, hpass⟩ := server.readPass_gets hw hf hfails hgets
        have hle := hf.le_content server hgets
        rw [hpass]
        by_cases hlast : server.gets s < (chunkOf s.size).toNat
        · rw [if_pos hlast]
          refine ⟨s', rfl, .inr (by rw [hf'.total]; exact hle), ?_⟩
          exact hf.last server hfails hlast hf' hconn
        · -- a full chunk: the loop goes on
          rw [if_neg hlast]
          have hleft' := hf'.left
          obtain ⟨s'', hloop, htotal, hend⟩ := ih hf' (by omega)
          have hshrink : (server.content s'.conn.conn).length ≤
              (server.content s.conn.conn).length := by
            rw [hconn]
            exact (server.shrinks _ _).length_le
          have htotal' : p + s''.total ≤ (server.content s.conn.conn).length := by omega
          refine ⟨s'', hloop, .inr htotal', ?_⟩
          by_cases hc : server.content s.conn.conn = bytes
          · refine hend.imp_left fun hall => ⟨?_, hall.filled⟩
            rw [hall.disturbed, hconn, server.disturbed_after hfails hc]
          · -- once cut, the file stays too short
            have hcut := server.length_lt_of_cut hc
            have hdist := server.disturbed_of_cut hc
            refine .inr ⟨fun h => hc (h.content _), ?_, fun hend => by omega⟩
            rcases hend with hall | hshort
            · rw [hall.disturbed, hconn, hdist]
            · exact hshort.disturbed

end Reading

/-- As long as the file has not been cut, `disturbed` is what it was at the start. -/
def Calm (d : Bool) (c : C) : Prop := server.content c = bytes → server.disturbed c = d

theorem Calm.serve {d : Bool} {c : C} (h : server.Calm d c) (hfails : server.fails c = false)
    (r : Request) : server.Calm d (link.serve c r).2 := by
  intro hcontent
  have hlen := (server.shrinks c r).length_le
  have hc : server.content c = bytes :=
    (server.content_prefix c).eq_of_length_le (by rwa [hcontent] at hlen)
  rw [← h hc, Bool.eq_iff_iff, server.disturbed_serve]
  simp [hfails, hc]

end FileServer

/-! ## The operations of `RemoteFile` -/

namespace FileServer

variable {C : Type} {link : Link C} {bytes : List UInt8}

section Operations

variable (f : RemoteFile) (server : FileServer link f.handle bytes) (hopen : f.closed = false)
  (conn : Session C)

include server hopen

theorem seek_eq (offset : Int) (whence : Whence) :
    (f.seek link conn offset whence).2.conn = (link.serve conn.conn
        ⟨CMD_FILE_SEEK, RemoteFile.seekRequest f.handle offset whence⟩).2 ∧
      ((f.seek link conn offset whence).1 = 0 ↔ (link.serve conn.conn
        ⟨CMD_FILE_SEEK, RemoteFile.seekRequest f.handle offset whence⟩).1.status = STATUS_OK) := by
  rw [RemoteFile.seek, hopen, server.sendRequest_eq]
  refine ⟨rfl, ?_⟩
  simp only [Bool.false_eq_true, if_false]
  split
  · rename_i h
    exact iff_of_true rfl h
  · rename_i h
    exact iff_of_false (by decide) h

theorem seek_fails (h : server.fails conn.conn = true) (offset : Int) (whence : Whence) :
    (f.seek link conn offset whence).1 ≠ 0 ∧
      server.disturbed (f.seek link conn offset whence).2.conn = true := by
  obtain ⟨hconn, hok⟩ := seek_eq f server hopen conn offset whence
  constructor
  · rw [Ne, hok]
    exact server.refuses _ _ h
  · rw [hconn]
    exact (server.disturbed_serve _ _).mpr (.inr (.inl h))

theorem seek_served (h : server.fails conn.conn = false) {offset : Int} (hin : InInt64 offset)
    (whence : Whence) :
    let target := seekTarget (server.content conn.conn).length (server.pos conn.conn) offset whence
    let r := f.seek link conn offset whence
    if 0 ≤ target ∧ target < 9223372036854775808 then
      r.1 = 0 ∧ (server.pos r.2.conn : Int) = target
    else r.1 ≠ 0 ∧ server.pos r.2.conn = server.pos conn.conn := by
  obtain ⟨hconn, hok⟩ := seek_eq f server hopen conn offset whence
  have hseek := server.seek conn.conn offset whence h hin
  simp only [hconn, Ne, hok]
  exact hseek

theorem seek_in_range (h : server.fails conn.conn = false) {offset : Int} (hin : InInt64 offset)
    (whence : Whence) {target : Int} (hlo : 0 ≤ target) (hhi : target < 9223372036854775808)
    (ht : seekTarget (server.content conn.conn).length (server.pos conn.conn) offset whence =
      target) :
    (f.seek link conn offset whence).1 = 0 ∧
      (server.pos (f.seek link conn offset whence).2.conn : Int) = target := by
  have hseek := seek_served f server hopen conn h hin whence
  simp only [ht] at hseek
  rwa [if_pos ⟨hlo, hhi⟩] at hseek

theorem tell_conn : (f.tell link conn).2.conn =
    (link.serve conn.conn ⟨CMD_FILE_TELL, protoWriteU32 f.handle⟩).2 := by
  rw [RemoteFile.tell, hopen, server.sendRequest_eq]
  simp only [Bool.false_eq_true, if_false]
  split <;> rfl

theorem tell_fails (h : server.fails conn.conn = true) :
    (f.tell link conn).1 = -1 ∧ server.disturbed (f.tell link conn).2.conn = true := by
  constructor
  · rw [RemoteFile.tell, hopen, server.sendRequest_eq]
    have href := server.refuses conn.conn ⟨CMD_FILE_TELL, protoWriteU32 f.handle⟩ h
    simp [href]
  · rw [tell_conn f server hopen]
    exact (server.disturbed_serve _ _).mpr (.inr (.inl h))

theorem tell_served (h : server.fails conn.conn = false) :
    (f.tell link conn).1 = server.pos conn.conn ∧
      server.pos (f.tell link conn).2.conn = server.pos conn.conn := by
  obtain ⟨hresp, hpos⟩ := server.tell conn.conn h
  have hlt := server.pos_lt conn.conn
  have hread : protoReadI64 (protoWriteI64 (server.pos conn.conn) ++ []) =
      server.pos conn.conn := protoReadI64_write (by omega) (by omega) []
  rw [List.append_nil] at hread
  constructor
  · rw [RemoteFile.tell, hopen, server.sendRequest_eq]
    simp [hresp, protoWriteI64, protoWriteU64_length]
    exact hread
  · rw [tell_conn f server hopen]
    exact hpos

/-- `read` from position `p`: all there is up to the size of the buffer, or something went wrong,
and then a read up to the end of the file comes out short. -/
theorem read_file {a : Arch} (buf : Buffer a) :
    ∃ s, f.read link conn buf = .done s ∧
      (s.total = 0 ∨ server.pos conn.conn + s.total ≤ (server.content conn.conn).length) ∧
      ((s.total = min buf.bytes.length (bytes.length - server.pos conn.conn) ∧
          s.buf = (bytes.drop (server.pos conn.conn)).take s.total ++ buf.bytes.drop s.total ∧
          server.pos s.conn.conn = server.pos conn.conn + s.total ∧
          server.disturbed s.conn.conn = server.disturbed conn.conn) ∨
        (¬ server.Steady ∧ server.disturbed s.conn.conn = true ∧
          (server.pos conn.conn + buf.bytes.length = bytes.length →
            s.total < buf.bytes.length))) := by
  let s : RemoteFile.ReadState C := ⟨conn, buf.bytes, 0, 0, buf.bytes.length, []⟩
  have hstart : server.Filled buf.bytes.length (server.pos conn.conn) buf.bytes 0 s :=
    ⟨rfl, rfl, by simp [s], rfl, by simp [s], rfl, Nat.zero_le _⟩
  have hread : f.read link conn buf =
      RemoteFile.readLoop a link f.handle (buf.bytes.length + 1) s := by
    rw [RemoteFile.read]
    simp only [hopen, Bool.false_eq_true, false_or]
    split
    · rename_i h0
      rw [RemoteFile.readLoop, if_pos h0]
    · rfl
  obtain ⟨s', hloop, htotal, hend⟩ := server.readLoop_file buf.size_lt (buf.bytes.length + 1)
    hstart (Nat.lt_succ_self _)
  refine ⟨s', hread.trans hloop, htotal, ?_⟩
  refine hend.imp (fun hall => ?_) fun hcut => ⟨hcut.not_steady, hcut.disturbed, hcut.total_lt⟩
  have hn := hall.filled.total
  rw [hn]
  exact ⟨rfl, hall.filled.filled, hall.filled.pos, hall.disturbed⟩

end Operations

/-- A server without failures makes a `RemoteFile` a file that holds its bytes. -/
def byteFile (a : Arch) {f : RemoteFile} (server : FileServer link f.handle bytes)
    (hst : server.Steady) (hopen : f.closed = false) : ByteFile a (f.uniFile a link) bytes where
  inv _ := True
  pos conn := server.pos conn.conn
  pos_lt conn _ := server.pos_lt conn.conn
  tell conn _ := by
    obtain ⟨hr, hpos⟩ := tell_served f server hopen conn (hst.fails _)
    exact ⟨hr, hpos, trivial⟩
  seek offset whence conn _ hin := by
    have hseek := seek_served f server hopen conn (hst.fails _) hin whence
    simp only [hst.content] at hseek
    split at hseek
    · exact ⟨trivial, .inl hseek⟩
    · exact ⟨trivial, .inr hseek⟩
  read buf conn _ hw := by
    obtain ⟨s, hread, -, hend⟩ := read_file f server hopen conn (⟨buf, hw⟩ : Buffer a)
    rcases hend with ⟨hn, hbuf, hpos, -⟩ | ⟨hns, -⟩
    · simp only at hn hbuf
      refine ⟨s.total, s.conn, by omega, by omega, hpos, trivial, ?_⟩
      rw [← hbuf]
      exact RemoteFile.readInto_done hread
    · exact absurd hst hns

end FileServer
end ObZrv
