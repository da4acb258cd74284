import Mathlib.Data.List.TakeDrop
import ObZrv.Unifs.RemoteFile

/-!
# Unifs.RemoteFs

`RemoteFs` of `unifs/remote_fs.cpp`: the three requests that name a path, and the decoding of a
directory response.

* `decodePath_pathPayload` : what a server that follows the documented layout reads out of a
  request.
* `requests_carry_whole_path` : each call either fails with nothing sent or sends exactly its
  path, if and only if the path is shorter than 65536 bytes (or nothing can be sent at all).
-/

namespace ObZrv

open Lib

/-- The bytes of a C string. -/
structure CStr where
  bytes : List UInt8
  no_nul : 0 ∉ bytes
deriving DecidableEq

def CStr.strlen (s : CStr) : Nat := s.bytes.length

structure DirEntry where
  name : List UInt8
  type : UInt8
  size : UInt64
  ctime : UInt32
  mtime : UInt32
deriving DecidableEq, Repr

structure RemoteFs (C : Type) where
  conn : Session C
  lastStatus : UInt8

namespace RemoteFs

/-- `path_len:u16 + path:N`, with `path_len` the length cast to 16 bits. -/
def pathPayload (path : CStr) : List UInt8 :=
  let pathLen := UInt16.ofNat path.strlen
  protoWriteU16 pathLen ++ path.bytes.take pathLen.toNat

/-- `flags:u8 + path_len:u16 + path:N`. -/
def openPayload (flags : UInt8) (path : CStr) : List UInt8 := flags :: pathPayload path

/-- The flags byte of an `fopen` mode; other modes are not accepted. -/
def openFlags (mode : String) : Option UInt8 :=
  if mode = "r" ∨ mode = "rb" then some FILE_FLAG_READ
  else if mode = "w" ∨ mode = "wb" then some FILE_FLAG_WRITE
  else if mode = "r+" ∨ mode = "r+b" then some FILE_FLAG_RDWR
  else if mode = "a" ∨ mode = "ab" then some FILE_FLAG_APPEND
  else none

/-- `count` entries from the front of a directory response. -/
def decodeEntries : Nat → List UInt8 → Option (List DirEntry)
  | 0, _ => some []
  | count + 1, p =>
    if p.length < 19 then none
    else
      let nlen := (protoReadU16 (p.drop 17)).toNat
      let q := p.drop 19
      if q.length < nlen then none
      else
        let entry : DirEntry :=
          { name := q.take nlen
            type := p.headD 0
            size := protoReadU64 (p.drop 9)
            ctime := protoReadU32 (p.drop 1)
            mtime := protoReadU32 (p.drop 5) }
        (decodeEntries count (q.drop nlen)).map (entry :: ·)

section

variable {C : Type} (fs : RemoteFs C) (link : Link C)

/-- `send_request` on the connection of `fs`; `last_status_` keeps the status. -/
def request (cmd : UInt8) (payload : List UInt8) : Response × RemoteFs C :=
  let (resp, conn) := link.sendRequest fs.conn cmd payload
  (resp, { conn, lastStatus := resp.status })

/-- `readdir`; `none` is the invalid `DirIter`. -/
def readdir (path : CStr) : Option (List DirEntry) × RemoteFs C :=
  let (resp, fs) := fs.request link CMD_FS_READDIR (pathPayload path)
  if resp.status ≠ STATUS_OK ∨ resp.payload.length < 4 then (none, fs)
  else (decodeEntries (protoReadU32 resp.payload).toNat (resp.payload.drop 4), fs)

/-- `openfile`; `none` is the null pointer. -/
def openfile (path : CStr) (mode : String) : Option RemoteFile × RemoteFs C :=
  match openFlags mode with
  | none => (none, fs)
  | some flags =>
    let (resp, fs) := fs.request link CMD_FILE_OPEN (openPayload flags path)
    if resp.status ≠ STATUS_OK ∨ resp.payload.length < 4 then (none, fs)
    else (some { handle := protoReadU32 resp.payload, closed := false }, fs)

/-- `removefile`; 0 on success, -1 on failure. -/
def removefile (path : CStr) : Int × RemoteFs C :=
  let (resp, fs) := fs.request link CMD_FS_REMOVE (pathPayload path)
  (if resp.status = STATUS_OK then 0 else -1, fs)

end

/-! ## What the server reads

The decoders below follow the layout `protocol.hpp` documents. A payload is well formed only if
nothing is left over. -/

def decodePath (payload : List UInt8) : Option (List UInt8) :=
  if payload.length < 2 then none
  else if payload.length = 2 + (protoReadU16 payload).toNat then some (payload.drop 2)
  else none

def decodeOpen : List UInt8 → Option (UInt8 × List UInt8)
  | [] => none
  | flags :: payload => (decodePath payload).map (flags, ·)

/-- The server reads the path cut to its length modulo 2^16. -/
theorem decodePath_pathPayload (path : CStr) :
    decodePath (pathPayload path) = some (path.bytes.take (path.strlen % 65536)) := by
  have hlen : (UInt16.ofNat path.strlen).toNat = path.strlen % 65536 := by simp
  have htake : (path.bytes.take (path.strlen % 65536)).length = path.strlen % 65536 := by
    rw [List.length_take, CStr.strlen]
    exact Nat.min_eq_left (Nat.mod_le _ _)
  simp only [decodePath, pathPayload, protoReadU16_write, hlen, List.length_append,
    protoWriteU16_length, htake]
  rw [if_neg (by omega), if_pos trivial, List.drop_left' (protoWriteU16_length _)]

theorem decodeOpen_openPayload (flags : UInt8) (path : CStr) :
    decodeOpen (openPayload flags path) =
      some (flags, path.bytes.take (path.strlen % 65536)) := by
  simp [decodeOpen, openPayload, decodePath_pathPayload]

/-- Only a path that fits the 16-bit length survives. -/
theorem take_strlen_mod_iff (path : CStr) :
    path.bytes.take (path.strlen % 65536) = path.bytes ↔ path.strlen < 65536 := by
  rw [List.take_eq_self_iff, CStr.strlen]
  omega

section Requests

variable {C : Type} {fs : RemoteFs C} {link : Link C}

/-- Nothing was sent and the call failed, or one request was sent and its payload says the right
thing. -/
def SentOrFailed (cmd : UInt8) (good : List UInt8 → Prop) (fs fs' : RemoteFs C) (failed : Prop) :
    Prop :=
  (failed ∧ fs'.conn.sent = fs.conn.sent) ∨
    ∃ payload, fs'.conn.sent = fs.conn.sent ++ [⟨cmd, payload⟩] ∧ good payload

theorem request_closed (h : link.connected fs.conn.conn = false) (cmd : UInt8)
    (payload : List UInt8) :
    fs.request link cmd payload = (Response.err, { fs with lastStatus := STATUS_ERR_GENERIC }) := by
  simp only [request, link.sendRequest_closed h]
  rfl

theorem request_connected (h : link.connected fs.conn.conn = true) (cmd : UInt8)
    (payload : List UInt8) :
    (fs.request link cmd payload).2.conn.sent = fs.conn.sent ++ [⟨cmd, payload⟩] :=
  link.sendRequest_connected h cmd payload

theorem sentOrFailed_connected {cmd : UInt8} {payload : List UInt8} {fs' : RemoteFs C}
    (h : fs'.conn.sent = fs.conn.sent ++ [⟨cmd, payload⟩]) (good : List UInt8 → Prop)
    (failed : Prop) : SentOrFailed cmd good fs fs' failed ↔ good payload := by
  constructor
  · rintro (⟨-, hs⟩ | ⟨payload', hs, hgood⟩)
    · rw [h] at hs
      simp at hs
    · rw [h, List.append_cancel_left_eq] at hs
      cases hs
      exact hgood
  · exact fun hgood => .inr ⟨payload, h, hgood⟩

theorem readdir_closed (h : link.connected fs.conn.conn = false) (path : CStr) :
    fs.readdir link path = (none, { fs with lastStatus := STATUS_ERR_GENERIC }) := by
  simp [readdir, request_closed h, Response.err, STATUS_ERR_GENERIC, STATUS_OK]

theorem openfile_closed (h : link.connected fs.conn.conn = false) (path : CStr) {mode : String}
    {flags : UInt8} (hm : openFlags mode = some flags) :
    fs.openfile link path mode = (none, { fs with lastStatus := STATUS_ERR_GENERIC }) := by
  simp [openfile, hm, request_closed h, Response.err, STATUS_ERR_GENERIC, STATUS_OK]

theorem removefile_closed (h : link.connected fs.conn.conn = false) (path : CStr) :
    fs.removefile link path = (-1, { fs with lastStatus := STATUS_ERR_GENERIC }) := by
  simp [removefile, request_closed h, Response.err, STATUS_ERR_GENERIC, STATUS_OK]

theorem readdir_sent (path : CStr) :
    (fs.readdir link path).2 = (fs.request link CMD_FS_READDIR (pathPayload path)).2 := by
  simp only [readdir]
  split <;> rfl

theorem openfile_sent (path : CStr) {mode : String} {flags : UInt8}
    (hm : openFlags mode = some flags) :
    (fs.openfile link path mode).2 =
      (fs.request link CMD_FILE_OPEN (openPayload flags path)).2 := by
  simp only [openfile, hm]
  split <;> rfl

/-- **Requests carry the whole path.** Listing, opening (in every mode) and removing either fail
with nothing sent, or send a payload that decodes to exactly the path, just when the path is
shorter than 65536 bytes or no request is made. -/
theorem requests_carry_whole_path (fs : RemoteFs C) (link : Link C) (path : CStr) :
    (SentOrFailed CMD_FS_READDIR (fun p => decodePath p = some path.bytes) fs
        (fs.readdir link path).2 ((fs.readdir link path).1 = none) ↔
      link.connected fs.conn.conn = false ∨ path.strlen < 65536) ∧
    (∀ mode, SentOrFailed CMD_FILE_OPEN
        (fun p => ∃ flags, openFlags mode = some flags ∧ decodeOpen p = some (flags, path.bytes)) fs
        (fs.openfile link path mode).2 ((fs.openfile link path mode).1 = none) ↔
      link.connected fs.conn.conn = false ∨ openFlags mode = none ∨ path.strlen < 65536) ∧
    (SentOrFailed CMD_FS_REMOVE (fun p => decodePath p = some path.bytes) fs
        (fs.removefile link path).2 ((fs.removefile link path).1 = -1) ↔
      link.connected fs.conn.conn = false ∨ path.strlen < 65536) := by
  cases hc : link.connected fs.conn.conn with
  | false =>
    simp only [true_or, iff_true]
    refine ⟨.inl ?_, fun mode => .inl ?_, .inl ?_⟩
    · simp [readdir_closed hc]
    · cases hm : openFlags mode with
      | none => simp [openfile, hm]
      | some flags => simp [openfile_closed hc path hm]
    · simp [removefile_closed hc]
  | true =>
    have hpath : decodePath (pathPayload path) = some path.bytes ↔ path.strlen < 65536 := by
      rw [decodePath_pathPayload, Option.some.injEq, take_strlen_mod_iff]
    simp only [Bool.true_eq_false, false_or]
    refine ⟨?_, fun mode => ?_, ?_⟩
    · rw [readdir_sent, sentOrFailed_connected (request_connected hc _ _), hpath]
    · cases hm : openFlags mode with
      | none => simp [SentOrFailed, openfile, hm]
      | some flags =>
        rw [openfile_sent path hm, sentOrFailed_connected (request_connected hc _ _)]
        simp only [decodeOpen_openPayload, Option.some.injEq, Prod.mk.injEq, exists_eq_left',
          true_and, take_strlen_mod_iff, reduceCtorEq, false_or]
    · exact (sentOrFailed_connected (request_connected hc _ _) _ _).trans hpath

end Requests

/-- A path of 65537 letters on an open connection: the server is asked to list, open and remove
the file named by the first letter. -/
theorem requests_cut_path :
    let path : CStr := ⟨List.replicate 65537 97,
      fun h => absurd (List.eq_of_mem_replicate h) (by decide)⟩
    let fs : RemoteFs Unit := ⟨⟨(), []⟩, STATUS_OK⟩
    let link := Link.constantServer ⟨STATUS_OK, []⟩ (Nat.zero_le _)
    decodePath (pathPayload path) = some [97] ∧
      ¬ SentOrFailed CMD_FS_READDIR (fun p => decodePath p = some path.bytes) fs
        (fs.readdir link path).2 ((fs.readdir link path).1 = none) ∧
      ¬ SentOrFailed CMD_FILE_OPEN
        (fun p => ∃ flags, openFlags "rb" = some flags ∧ decodeOpen p = some (flags, path.bytes)) fs
        (fs.openfile link path "rb").2 ((fs.openfile link path "rb").1 = none) ∧
      ¬ SentOrFailed CMD_FS_REMOVE (fun p => decodePath p = some path.bytes) fs
        (fs.removefile link path).2 ((fs.removefile link path).1 = -1) := by
  intro path fs link
  have hlen : path.strlen = 65537 := List.length_replicate
  have hcut : ¬ path.bytes.take (path.strlen % 65536) = path.bytes := by
    rw [take_strlen_mod_iff, hlen]
    decide
  have hopen : openFlags "rb" = some FILE_FLAG_READ := by decide
  refine ⟨?_, ?_, ?_, ?_⟩
  · rw [decodePath_pathPayload, hlen]
    rfl
  · rw [readdir_sent, sentOrFailed_connected (request_connected rfl _ _), decodePath_pathPayload]
    simpa using hcut
  · rw [openfile_sent path hopen, sentOrFailed_connected (request_connected rfl _ _)]
    simpa [decodeOpen_openPayload, hopen] using hcut
  · intro h
    have hconn : link.connected fs.conn.conn = true := rfl
    have hname := (sentOrFailed_connected (request_connected hconn _ _) _ _).mp h
    rw [decodePath_pathPayload] at hname
    exact hcut (Option.some.inj hname)

end RemoteFs
end ObZrv
