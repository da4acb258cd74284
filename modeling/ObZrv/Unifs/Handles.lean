import Mathlib.Data.List.Perm.Basic
import Mathlib.Logic.Function.Basic
import ObZrv.Lib.Machine
import ObZrv.Unifs.FileServer
import ObZrv.Unifs.RemoteFs

/-!
# Unifs.Handles

The file handles of a server and the `RemoteFile` objects that stand for them. A client lists,
removes and opens files through one `RemoteFs`, which it may reconnect, and uses, closes and
destroys the files it has opened; a file keeps the connection it was opened on.

A `Ledger` at the server's end of a connection notes what goes over it: the handles that were given
out and not closed, and the requests that name any other handle.

* `request_names`, `readLoop_quiet` : the requests of an open file name its handle only.
* `kept_step`                       : what one step of the client keeps.
* `handles_are_kept`                : in every run the handles held are those of the open files.
-/

namespace ObZrv

open Lib

namespace RemoteFile

section

variable {C : Type} (f : RemoteFile) (link : Link C) (conn : Session C)

/-- `write`: one request of at most a frame. The count is what the server says. -/
def write (buf : List UInt8) : Nat × Session C :=
  if f.closed ∨ buf.length = 0 then (0, conn)
  else
    let dataLen := if buf.length > MAX_PAYLOAD_SIZE - 8 then MAX_PAYLOAD_SIZE - 8 else buf.length
    let payload := protoWriteU32 f.handle ++
      (protoWriteU32 (UInt32.ofNat dataLen) ++ buf.take dataLen)
    let (resp, conn) := link.sendRequest conn CMD_FILE_WRITE payload
    if resp.status ≠ STATUS_OK ∨ resp.payload.length < 4 then (0, conn)
    else ((protoReadU32 resp.payload).toNat, conn)

def close : Int × RemoteFile × Session C :=
  if f.closed then (0, f, conn)
  else
    let f := { f with closed := true }
    let (resp, conn) := link.sendRequest conn CMD_FILE_CLOSE (protoWriteU32 f.handle)
    (if resp.status = STATUS_OK then 0 else -1, f, conn)

end

end RemoteFile

/-! ## The ledger of a connection -/

structure Ledger where
  held : List UInt32 := []
  stray : List Request := []
deriving DecidableEq, Repr

/-- The handle a request names, for the commands whose payload starts with one. -/
def Request.handle (r : Request) : Option UInt32 :=
  if r.cmd = CMD_FILE_SEEK ∨ r.cmd = CMD_FILE_TELL ∨ r.cmd = CMD_FILE_READ ∨
      r.cmd = CMD_FILE_WRITE ∨ r.cmd = CMD_FILE_CLOSE then some (protoReadU32 r.payload)
  else none

def Ledger.note (ledger : Ledger) (r : Request) (resp : Response) : Ledger :=
  match r.handle with
  | some h =>
    if h ∉ ledger.held then { ledger with stray := ledger.stray ++ [r] }
    else if r.cmd = CMD_FILE_CLOSE then { ledger with held := ledger.held.erase h }
    else ledger
  | none =>
    if r.cmd = CMD_FILE_OPEN ∧ resp.status = STATUS_OK ∧ 4 ≤ resp.payload.length then
      { ledger with held := protoReadU32 resp.payload :: ledger.held }
    else ledger

/-- The link with a ledger at its other end. -/
def Link.audited {C : Type} (link : Link C) : Link (C × Ledger) where
  connected c := link.connected c.1
  serve c r := ((link.serve c.1 r).1, ((link.serve c.1 r).2, c.2.note r (link.serve c.1 r).1))
  payload_le c r := link.payload_le c.1 r

/-! ## The client -/

/-- The connections so far, of which the last is that of the `RemoteFs`, and the files with the
connection each was opened on. -/
structure Client (C : Type) where
  conns : Nat → Session (C × Ledger)
  current : Nat
  lastStatus : UInt8
  files : List (Nat × RemoteFile)

namespace Client

variable {C : Type}

/-- `RemoteFs::open`, with the server in state `c`. -/
def start (c : C) : Client C where
  conns _ := ⟨(c, {}), []⟩
  current := 0
  lastStatus := STATUS_OK
  files := []

variable (link : Link C) (a : Arch)

def fs (cl : Client C) : RemoteFs (C × Ledger) := ⟨cl.conns cl.current, cl.lastStatus⟩

/-- The client after a call on its `RemoteFs`. -/
def setFs (cl : Client C) (fs : RemoteFs (C × Ledger)) : Client C :=
  { cl with
    conns := Function.update cl.conns cl.current fs.conn
    lastStatus := fs.lastStatus }

/-- The client after a call on a file of connection `k`. -/
def setConn (cl : Client C) (k : Nat) (conn : Session (C × Ledger)) : Client C :=
  { cl with conns := Function.update cl.conns k conn }

inductive Op (C : Type) where
  | readdir (path : CStr)
  | removefile (path : CStr)
  | openfile (path : CStr) (mode : String)
  | seek (i : Nat) (offset : Int) (whence : Whence)
  | tell (i : Nat)
  | read (i : Nat) (buf : List UInt8)
  | write (i : Nat) (buf : List UInt8)
  | close (i : Nat)
  | destroy (i : Nat)
  | reconnect (c : C)
  | reconnectFails

/-- One call; `none` where there is no such file or a read leaves its buffer. -/
def exec (cl : Client C) : Op C → Option (Client C)
  | .readdir path => some (cl.setFs (cl.fs.readdir link.audited path).2)
  | .removefile path => some (cl.setFs (cl.fs.removefile link.audited path).2)
  | .openfile path mode =>
    let (file, fs) := cl.fs.openfile link.audited path mode
    let cl := cl.setFs fs
    match file with
    | none => some cl
    | some f => some { cl with files := cl.files ++ [(cl.current, f)] }
  | .seek i offset whence =>
    match cl.files[i]? with
    | none => none
    | some (k, f) => some (cl.setConn k (f.seek link.audited (cl.conns k) offset whence).2)
  | .tell i =>
    match cl.files[i]? with
    | none => none
    | some (k, f) => some (cl.setConn k (f.tell link.audited (cl.conns k)).2)
  | .read i buf =>
    match cl.files[i]? with
    | none => none
    | some (k, f) =>
      (f.readInto a link.audited buf (cl.conns k)).map fun (_, _, conn) => cl.setConn k conn
  | .write i buf =>
    match cl.files[i]? with
    | none => none
    | some (k, f) => some (cl.setConn k (f.write link.audited (cl.conns k) buf).2)
  | .close i =>
    match cl.files[i]? with
    | none => none
    | some (k, f) =>
      let (_, f, conn) := f.close link.audited (cl.conns k)
      some { cl.setConn k conn with files := cl.files.set i (k, f) }
  | .destroy i =>
    -- the destructor closes the file
    match cl.files[i]? with
    | none => none
    | some (k, f) =>
      let (_, _, conn) := f.close link.audited (cl.conns k)
      some { cl.setConn k conn with files := cl.files.eraseIdx i }
  | .reconnect c =>
    some { cl with
      conns := Function.update cl.conns (cl.current + 1) ⟨(c, {}), []⟩
      current := cl.current + 1
      lastStatus := STATUS_OK }
  | .reconnectFails => some { cl with lastStatus := STATUS_ERR_GENERIC }

def machine : Machine (Client C) (Op C) := .ofExec (fun cl => ∃ c, cl = start c) (exec link a)

/-- The handles of the open files of connection `k`. -/
def openHandles (k : Nat) (files : List (Nat × RemoteFile)) : List UInt32 :=
  (files.filter fun p => p.1 = k ∧ p.2.closed = false).map (·.2.handle)

end Client

/-! ## What the calls send -/

section Requests

variable {C : Type} {link : Link C} {s s' s'' : Session (C × Ledger)}

/-- The ledger is as before, and a closed connection has stayed closed. -/
structure Quiet (link : Link C) (s s' : Session (C × Ledger)) : Prop where
  ledger : s'.conn.2 = s.conn.2
  live : link.connected s'.conn.1 = true → link.connected s.conn.1 = true

theorem Quiet.refl : Quiet link s s := ⟨rfl, id⟩

theorem Quiet.trans (h₁ : Quiet link s s') (h₂ : Quiet link s' s'') : Quiet link s s'' :=
  ⟨h₂.ledger.trans h₁.ledger, fun h => h₁.live (h₂.live h)⟩

/-- While the connection is open the handle is in the ledger. -/
def Holds (link : Link C) (h : UInt32) (s : Session (C × Ledger)) : Prop :=
  link.connected s.conn.1 = true → h ∈ s.conn.2.held

theorem Holds.quiet {h : UInt32} (hs : Holds link h s) (hq : Quiet link s s') :
    Holds link h s' := by
  intro hc
  rw [hq.ledger]
  exact hs (hq.live hc)

theorem sendRequest_open (h : link.connected s.conn.1 = true) (cmd : UInt8)
    (payload : List UInt8) :
    (link.audited.sendRequest s cmd payload).1 = (link.serve s.conn.1 ⟨cmd, payload⟩).1 ∧
      (link.audited.sendRequest s cmd payload).2.conn.2 =
        s.conn.2.note ⟨cmd, payload⟩ (link.serve s.conn.1 ⟨cmd, payload⟩).1 := by
  have hc : link.audited.connected s.conn = true := h
  rw [Link.sendRequest, if_pos hc]
  exact ⟨rfl, rfl⟩

/-- A request that the ledger does not note, as long as the connection is open. -/
theorem quiet_of_note {cmd : UInt8} {payload : List UInt8}
    (h : link.connected s.conn.1 = true → ∀ resp, s.conn.2.note ⟨cmd, payload⟩ resp = s.conn.2) :
    Quiet link s (link.audited.sendRequest s cmd payload).2 := by
  cases hc : link.connected s.conn.1 with
  | false =>
    rw [link.audited.sendRequest_closed hc]
    exact .refl
  | true => exact ⟨by rw [(sendRequest_open hc cmd payload).2, h hc], fun _ => hc⟩

/-- The commands that use a file and leave it open. -/
def UsesFile (cmd : UInt8) : Prop :=
  cmd = CMD_FILE_SEEK ∨ cmd = CMD_FILE_TELL ∨ cmd = CMD_FILE_READ ∨ cmd = CMD_FILE_WRITE

theorem request_names {cmd : UInt8} {h : UInt32} {rest : List UInt8} (hcmd : UsesFile cmd)
    (hs : Holds link h s) :
    Quiet link s (link.audited.sendRequest s cmd (protoWriteU32 h ++ rest)).2 := by
  refine quiet_of_note fun hc resp => ?_
  have hmem := hs hc
  have hhandle : (Request.mk cmd (protoWriteU32 h ++ rest)).handle = some h := by
    rw [Request.handle, if_pos, protoReadU32_write]
    rcases hcmd with rfl | rfl | rfl | rfl <;> simp
  have hclose : cmd ≠ CMD_FILE_CLOSE := by
    rcases hcmd with rfl | rfl | rfl | rfl <;> decide
  rw [Ledger.note, hhandle]
  simp only [hmem, not_true_eq_false, if_false, hclose]

/-- Listing and removing name no handle. -/
theorem request_of_path {cmd : UInt8} (hcmd : cmd = CMD_FS_READDIR ∨ cmd = CMD_FS_REMOVE)
    (payload : List UInt8) : Quiet link s (link.audited.sendRequest s cmd payload).2 := by
  refine quiet_of_note fun _ resp => ?_
  rcases hcmd with rfl | rfl <;> rfl

theorem close_ledger {h : UInt32} (hs : Holds link h s)
    (hc : link.connected s.conn.1 = true) :
    (link.audited.sendRequest s CMD_FILE_CLOSE (protoWriteU32 h)).2.conn.2 =
      { s.conn.2 with held := s.conn.2.held.erase h } := by
  have hhandle : (Request.mk CMD_FILE_CLOSE (protoWriteU32 h)).handle = some h := by
    have hread := protoReadU32_write h []
    rw [List.append_nil] at hread
    rw [Request.handle, if_pos (by simp), hread]
  rw [(sendRequest_open hc _ _).2, Ledger.note, hhandle]
  simp only [hs hc, not_true_eq_false, if_false, if_true]

theorem open_ledger (hc : link.connected s.conn.1 = true) (payload : List UInt8) :
    let resp := (link.audited.sendRequest s CMD_FILE_OPEN payload).1
    (link.audited.sendRequest s CMD_FILE_OPEN payload).2.conn.2 =
      if resp.status = STATUS_OK ∧ 4 ≤ resp.payload.length then
        { s.conn.2 with held := protoReadU32 resp.payload :: s.conn.2.held }
      else s.conn.2 := by
  intro resp
  have hhandle : (Request.mk CMD_FILE_OPEN payload).handle = none := rfl
  rw [(sendRequest_open hc _ _).2, Ledger.note, hhandle]
  simp only [true_and, resp, (sendRequest_open hc _ _).1]

/-! The calls of a file. A closed file sends nothing. -/

variable {f : RemoteFile}

theorem seek_quiet (h : f.closed = false → Holds link f.handle s) (offset : Int)
    (whence : Whence) : Quiet link s (f.seek link.audited s offset whence).2 := by
  cases hc : f.closed with
  | true => simpa [RemoteFile.seek, hc] using Quiet.refl
  | false =>
    simp only [RemoteFile.seek, hc, Bool.false_eq_true, if_false]
    exact request_names (.inl rfl) (h hc)

theorem tell_quiet (h : f.closed = false → Holds link f.handle s) :
    Quiet link s (f.tell link.audited s).2 := by
  cases hc : f.closed with
  | true => simpa [RemoteFile.tell, hc] using Quiet.refl
  | false =>
    have hq : Quiet link s
        (link.audited.sendRequest s CMD_FILE_TELL (protoWriteU32 f.handle ++ [])).2 :=
      request_names (.inr (.inl rfl)) (h hc)
    rw [List.append_nil] at hq
    simp only [RemoteFile.tell, hc, Bool.false_eq_true, if_false]
    split <;> exact hq

theorem write_quiet (h : f.closed = false → Holds link f.handle s) (buf : List UInt8) :
    Quiet link s (f.write link.audited s buf).2 := by
  unfold RemoteFile.write
  split
  · exact .refl
  · rename_i hc
    have hopen : f.closed = false := by simpa using fun h => hc (.inl h)
    simp only
    generalize (if buf.length > MAX_PAYLOAD_SIZE - 8 then MAX_PAYLOAD_SIZE - 8 else buf.length) = n
    split <;> exact request_names (.inr (.inr (.inr rfl))) (h hopen)

theorem readPass_conn {a : Arch} {h : UInt32} {r r' : RemoteFile.ReadState (C × Ledger)}
    (hp : RemoteFile.readPass a link.audited h r = .stop r' ∨
      RemoteFile.readPass a link.audited h r = .again r') :
    r'.conn = (RemoteFile.exchange link.audited h r).2 := by
  unfold RemoteFile.readPass at hp
  simp only at hp
  split at hp
  · rcases hp with hp | hp <;> cases hp
    rfl
  split at hp
  · rcases hp with hp | hp <;> cases hp
    rfl
  split at hp
  · rcases hp with hp | hp <;> cases hp
    rfl
  split at hp
  · split at hp <;> rcases hp with hp | hp <;> cases hp <;> rfl
  · rcases hp with hp | hp <;> cases hp

/-- However many requests a read makes, they name its file. -/
theorem readLoop_quiet {a : Arch} {h : UInt32} {fuel : Nat} {r r' : RemoteFile.ReadState (C × Ledger)}
    (hs : Holds link h r.conn) (hr : RemoteFile.readLoop a link.audited h fuel r = .done r') :
    Quiet link r.conn r'.conn := by
  induction fuel generalizing r with
  | zero => cases hr
  | succ fuel ih =>
    rw [RemoteFile.readLoop] at hr
    have hpass : Quiet link r.conn (RemoteFile.exchange link.audited h r).2 :=
      request_names (.inr (.inr (.inl rfl))) hs
    split at hr
    · cases hr
      exact .refl
    · split at hr
      · rename_i hp
        cases hr
        rw [readPass_conn (.inl hp)]
        exact hpass
      · rename_i r₁ hp
        rw [← readPass_conn (.inr hp)] at hpass
        exact hpass.trans (ih (hs.quiet hpass) hr)
      · cases hr

theorem read_quiet {a : Arch} (h : f.closed = false → Holds link f.handle s) {buf buf' : List UInt8}
    {n : Nat} (hr : f.readInto a link.audited buf s = some (n, buf', s')) : Quiet link s s' := by
  unfold RemoteFile.readInto at hr
  split at hr
  · split at hr
    · rename_i r hread
      cases hr
      unfold RemoteFile.read at hread
      simp only at hread
      split at hread
      · cases hread
        exact .refl
      · rename_i hc
        have hopen : f.closed = false := by simpa using fun h => hc (.inl h)
        exact readLoop_quiet (h hopen) hread
    · cases hr
  · cases hr

end Requests

/-! ## What a step keeps -/

namespace Client

variable {C : Type} {link : Link C} {a : Arch} {cl cl' : Client C}

/-- Nothing stray has been sent on connection `k`, and while it is open its ledger holds the
handles of the open files. -/
structure Kept (link : Link C) (s : Session (C × Ledger)) (handles : List UInt32) : Prop where
  stray : s.conn.2.stray = []
  held : link.connected s.conn.1 = true → s.conn.2.held.Perm handles

/-- Every file is of a connection made so far. -/
structure Accounted (link : Link C) (cl : Client C) : Prop where
  conn_le : ∀ p ∈ cl.files, p.1 ≤ cl.current
  kept : ∀ k, Kept link (cl.conns k) (openHandles k cl.files)

theorem Kept.quiet {s s' : Session (C × Ledger)} {handles : List UInt32}
    (h : Kept link s handles) (hq : Quiet link s s') : Kept link s' handles := by
  refine ⟨by rw [hq.ledger]; exact h.stray, fun hc => ?_⟩
  rw [hq.ledger]
  exact h.held (hq.live hc)

theorem mem_openHandles {k : Nat} {f : RemoteFile} {files : List (Nat × RemoteFile)}
    (hf : (k, f) ∈ files) (hc : f.closed = false) : f.handle ∈ openHandles k files := by
  refine List.mem_map.mpr ⟨(k, f), List.mem_filter.mpr ⟨hf, ?_⟩, rfl⟩
  simp [hc]

/-- An open file's handle is in the ledger. -/
theorem Accounted.holds (h : Accounted link cl) {k : Nat} {f : RemoteFile}
    (hf : (k, f) ∈ cl.files) (hc : f.closed = false) : Holds link f.handle (cl.conns k) :=
  fun hconn => ((h.kept k).held hconn).mem_iff.mpr (mem_openHandles hf hc)

/-- Calls that note nothing leave the files as they are. -/
theorem Accounted.setConn (h : Accounted link cl) {k : Nat} {s : Session (C × Ledger)}
    (hq : Quiet link (cl.conns k) s) : Accounted link (cl.setConn k s) := by
  refine ⟨h.conn_le, fun j => ?_⟩
  simp only [Client.setConn]
  by_cases hj : j = k
  · subst hj
    rw [Function.update_self]
    exact (h.kept j).quiet hq
  · rw [Function.update_of_ne hj]
    exact h.kept j

theorem Accounted.setFs (h : Accounted link cl) {fs : RemoteFs (C × Ledger)}
    (hq : Quiet link (cl.conns cl.current) fs.conn) : Accounted link (cl.setFs fs) :=
  ⟨(h.setConn hq).conn_le, (h.setConn hq).kept⟩

theorem readdir_conn (fs : RemoteFs (C × Ledger)) (path : CStr) :
    (fs.readdir link.audited path).2.conn =
      (link.audited.sendRequest fs.conn CMD_FS_READDIR (RemoteFs.pathPayload path)).2 := by
  simp only [RemoteFs.readdir]
  split <;> rfl

/-- Either nothing is sent, or the reply decides whether there is a file. -/
theorem openfile_cases (fs : RemoteFs (C × Ledger)) (path : CStr) (mode : String) :
    fs.openfile link.audited path mode = (none, fs) ∨
      ∃ payload r, link.audited.sendRequest fs.conn CMD_FILE_OPEN payload = r ∧
        fs.openfile link.audited path mode =
          if r.1.status = STATUS_OK ∧ 4 ≤ r.1.payload.length then
            (some { handle := protoReadU32 r.1.payload, closed := false }, ⟨r.2, r.1.status⟩)
          else (none, ⟨r.2, r.1.status⟩) := by
  unfold RemoteFs.openfile
  split
  · exact .inl rfl
  · rename_i flags _
    let payload := RemoteFs.openPayload flags path
    refine .inr ⟨payload, _, rfl, ?_⟩
    by_cases hgood : (link.audited.sendRequest fs.conn CMD_FILE_OPEN payload).1.status = STATUS_OK ∧
        4 ≤ (link.audited.sendRequest fs.conn CMD_FILE_OPEN payload).1.payload.length
    · have hnot := hgood
      rw [← not_not (a := _ ∧ _), not_and_or, Nat.not_le] at hnot
      rw [if_pos hgood]
      exact if_neg hnot
    · have hbad := hgood
      rw [not_and_or, Nat.not_le] at hbad
      rw [if_neg hgood]
      exact if_pos hbad

/-! The open handles of a list of files. -/

/-- What one file adds to the open handles of connection `k`. -/
def openHandle (k : Nat) (p : Nat × RemoteFile) : List UInt32 :=
  if p.1 = k ∧ p.2.closed = false then [p.2.handle] else []

theorem openHandles_cons (k : Nat) (p : Nat × RemoteFile) (files : List (Nat × RemoteFile)) :
    openHandles k (p :: files) = openHandle k p ++ openHandles k files := by
  unfold openHandle
  by_cases hp : p.1 = k ∧ p.2.closed = false
  · rw [if_pos hp, openHandles, List.filter_cons_of_pos (by simpa using hp)]
    rfl
  · rw [if_neg hp, openHandles, List.filter_cons_of_neg (by simpa using hp)]
    rfl

theorem openHandles_perm {files files' : List (Nat × RemoteFile)} (h : files.Perm files')
    (k : Nat) : (openHandles k files).Perm (openHandles k files') :=
  (h.filter _).map _

theorem openHandles_split {i : Nat} {p : Nat × RemoteFile} {files : List (Nat × RemoteFile)}
    (hp : files[i]? = some p) (k : Nat) :
    (openHandles k files).Perm (openHandle k p ++ openHandles k (files.eraseIdx i)) := by
  obtain ⟨hi, rfl⟩ := List.getElem?_eq_some_iff.mp hp
  rw [← openHandles_cons]
  exact openHandles_perm (List.getElem_cons_eraseIdx_perm hi).symm k

/-- A closed file counts as little as one that is gone. -/
theorem openHandles_set_closed {i : Nat} {k : Nat} {f : RemoteFile}
    {files : List (Nat × RemoteFile)} (hi : i < files.length) (hc : f.closed = true) (j : Nat) :
    (openHandles j (files.set i (k, f))).Perm (openHandles j (files.eraseIdx i)) := by
  have hnone : openHandle j (k, f) = [] := by simp [openHandle, hc]
  have hperm := openHandles_perm (List.set_perm_cons_eraseIdx hi (k, f)) j
  rwa [openHandles_cons, hnone, List.nil_append] at hperm

theorem Accounted.openfile (h : Accounted link cl) (path : CStr) (mode : String) {cl' : Client C}
    (hs : exec link a cl (.openfile path mode) = some cl') : Accounted link cl' := by
  simp only [exec] at hs
  rcases openfile_cases cl.fs path mode with hnone | ⟨payload, r, hr, hfile⟩
  · rw [hnone] at hs
    cases hs
    exact h.setFs .refl
  rw [hfile] at hs
  have hledger : link.connected (cl.conns cl.current).conn.1 = true → r.2.conn.2 =
      if r.1.status = STATUS_OK ∧ 4 ≤ r.1.payload.length then
        { (cl.conns cl.current).conn.2 with
          held := protoReadU32 r.1.payload :: (cl.conns cl.current).conn.2.held }
      else (cl.conns cl.current).conn.2 := by
    intro hc
    have hopen := open_ledger (s := cl.fs.conn) hc payload
    rw [hr] at hopen
    exact hopen
  have hclosed : link.connected (cl.conns cl.current).conn.1 = false →
      r = (Response.err, cl.conns cl.current) := by
    intro hc
    rw [← hr]
    exact link.audited.sendRequest_closed hc _ _
  by_cases hgood : r.1.status = STATUS_OK ∧ 4 ≤ r.1.payload.length
  · -- the connection was open, and the handle goes to the ledger and to the list of files
    rw [if_pos hgood] at hs
    cases hs
    have hc : link.connected (cl.conns cl.current).conn.1 = true := by
      by_contra hc
      rw [hclosed (by simpa using hc)] at hgood
      exact Nat.not_lt_zero 3 hgood.2
    have hled := hledger hc
    rw [if_pos hgood] at hled
    refine ⟨?_, fun j => ?_⟩
    · intro p hp
      rcases List.mem_append.mp hp with hp | hp
      · exact h.conn_le p hp
      · obtain rfl := List.mem_singleton.mp hp
        exact Nat.le_refl _
    · have hperm := openHandles_perm (List.perm_append_singleton
        (cl.current, (⟨protoReadU32 r.1.payload, false⟩ : RemoteFile)) cl.files) j
      rw [openHandles_cons] at hperm
      simp only [Client.setFs]
      by_cases hj : j = cl.current
      · subst hj
        rw [Function.update_self]
        refine ⟨?_, fun _ => ?_⟩
        · simp only [hled]
          exact (h.kept cl.current).stray
        · simp only [hled]
          refine List.Perm.trans ?_ hperm.symm
          simpa [openHandle] using ((h.kept cl.current).held hc)
      · rw [Function.update_of_ne hj]
        refine ⟨(h.kept j).stray, fun hcj => ((h.kept j).held hcj).trans ?_⟩
        have hne : cl.current ≠ j := fun he => hj he.symm
        simpa [openHandle, hne] using hperm.symm
  · rw [if_neg hgood] at hs
    cases hs
    refine h.setFs ?_
    cases hc : link.connected (cl.conns cl.current).conn.1 with
    | false =>
      rw [hclosed hc]
      exact .refl
    | true =>
      have hled := hledger hc
      rw [if_neg hgood] at hled
      exact ⟨hled, fun _ => hc⟩

/-- A file is closed and then kept or dropped. -/
theorem Accounted.close (h : Accounted link cl) {i k : Nat} {f : RemoteFile}
    (hf : cl.files[i]? = some (k, f)) {files : List (Nat × RemoteFile)}
    (hfiles : ∀ j, (openHandles j files).Perm (openHandles j (cl.files.eraseIdx i)))
    (hle : ∀ p ∈ files, p.1 ≤ cl.current) :
    Accounted link { cl.setConn k (f.close link.audited (cl.conns k)).2.2 with files } := by
  have hmem : (k, f) ∈ cl.files := List.mem_of_getElem? hf
  have hsplit := fun j => openHandles_split hf j
  refine ⟨hle, fun j => ?_⟩
  simp only [Client.setConn]
  by_cases hj : j = k
  · subst hj
    rw [Function.update_self]
    cases hc : f.closed with
    | true =>
      have hsame : openHandle j (j, f) = [] := by simp [openHandle, hc]
      have hrest := hsplit j
      rw [hsame, List.nil_append] at hrest
      simp only [RemoteFile.close, hc, if_true]
      exact ⟨(h.kept j).stray, fun hcj => ((h.kept j).held hcj).trans (hrest.trans (hfiles j).symm)⟩
    | false =>
      have hone : openHandle j (j, f) = [f.handle] := by simp [openHandle, hc]
      have hrest := hsplit j
      rw [hone] at hrest
      simp only [RemoteFile.close, hc, Bool.false_eq_true, if_false]
      cases hconn : link.connected (cl.conns j).conn.1 with
      | false =>
        rw [link.audited.sendRequest_closed hconn]
        refine ⟨(h.kept j).stray, fun hcj => ?_⟩
        rw [hconn] at hcj
        cases hcj
      | true =>
        have hled := close_ledger (h.holds hmem hc) hconn
        refine ⟨?_, fun _ => ?_⟩
        · rw [hled]
          exact (h.kept j).stray
        · rw [hled]
          have hheld := (((h.kept j).held hconn).trans hrest).erase f.handle
          rw [List.singleton_append, List.erase_cons_head] at hheld
          exact hheld.trans (hfiles j).symm
  · rw [Function.update_of_ne hj]
    have hne : k ≠ j := fun he => hj he.symm
    have hsame : openHandle j (k, f) = [] := by simp [openHandle, hne]
    have hrest := hsplit j
    rw [hsame, List.nil_append] at hrest
    exact ⟨(h.kept j).stray, fun hcj => ((h.kept j).held hcj).trans (hrest.trans (hfiles j).symm)⟩

theorem kept_step (h : Accounted link cl) {op : Op C} (hs : (machine link a).step cl op cl') :
    Accounted link cl' := by
  have hs : exec link a cl op = some cl' := hs
  have hopen : ∀ {i k : Nat} {f : RemoteFile}, cl.files[i]? = some (k, f) → f.closed = false →
      Holds link f.handle (cl.conns k) := fun hf hc => h.holds (List.mem_of_getElem? hf) hc
  cases op with
  | readdir path =>
    cases hs
    refine h.setFs ?_
    rw [readdir_conn]
    exact request_of_path (.inl rfl) _
  | removefile path =>
    cases hs
    exact h.setFs (request_of_path (.inr rfl) _)
  | openfile path mode => exact h.openfile path mode hs
  | seek i offset whence =>
    simp only [exec] at hs
    split at hs
    · cases hs
    · rename_i k f hf
      cases hs
      exact h.setConn (seek_quiet (hopen hf) offset whence)
  | tell i =>
    simp only [exec] at hs
    split at hs
    · cases hs
    · rename_i k f hf
      cases hs
      exact h.setConn (tell_quiet (hopen hf))
  | read i buf =>
    simp only [exec] at hs
    split at hs
    · cases hs
    · rename_i k f hf
      obtain ⟨⟨n, buf', conn⟩, hread, rfl⟩ := Option.map_eq_some_iff.mp hs
      exact h.setConn (read_quiet (hopen hf) hread)
  | write i buf =>
    simp only [exec] at hs
    split at hs
    · cases hs
    · rename_i k f hf
      cases hs
      exact h.setConn (write_quiet (hopen hf) buf)
  | close i =>
    simp only [exec] at hs
    split at hs
    · cases hs
    · rename_i k f hf
      cases hs
      have hi := (List.getElem?_eq_some_iff.mp hf).1
      have hclosed : (f.close link.audited (cl.conns k)).2.1.closed = true := by
        unfold RemoteFile.close
        split
        · assumption
        · rfl
      refine h.close hf (openHandles_set_closed hi hclosed) ?_
      intro p hp
      rcases List.mem_or_eq_of_mem_set hp with hp | rfl
      · exact h.conn_le p hp
      · exact h.conn_le (k, f) (List.mem_of_getElem? hf)
  | destroy i =>
    simp only [exec] at hs
    split at hs
    · cases hs
    · rename_i k f hf
      cases hs
      exact h.close hf (fun _ => .refl _) fun p hp => h.conn_le p (List.mem_of_mem_eraseIdx hp)
  | reconnect c =>
    cases hs
    refine ⟨fun p hp => Nat.le_succ_of_le (h.conn_le p hp), fun j => ?_⟩
    by_cases hj : j = cl.current + 1
    · -- no file is of the new connection yet
      subst hj
      have hnone : openHandles (cl.current + 1) cl.files = [] := by
        rw [openHandles, List.map_eq_nil_iff, List.filter_eq_nil_iff]
        intro p hp
        have hle := h.conn_le p hp
        have hne : p.1 ≠ cl.current + 1 := by omega
        simp [hne]
      simp only [Function.update_self, hnone]
      exact ⟨rfl, fun _ => .refl _⟩
    · simp only [Function.update_of_ne hj]
      exact h.kept j
  | reconnectFails =>
    cases hs
    exact ⟨h.conn_le, h.kept⟩

/-- **Handles are kept.** Whatever the servers answer, in every run of a client: no request has
named a handle the server had not given out or that had been closed, and the handles an open
connection has given out and not got back are, one for one, those of the open files of that
connection. Once they are closed or destroyed the server holds none. -/
theorem handles_are_kept (link : Link C) (a : Arch) {cl : Client C}
    (h : (machine link a).Reach Machine.always cl) (k : Nat) :
    (cl.conns k).conn.2.stray = [] ∧
      (link.connected (cl.conns k).conn.1 = true →
        (cl.conns k).conn.2.held.Perm (openHandles k cl.files) ∧
          ((∀ p ∈ cl.files, p.1 = k → p.2.closed = true) → (cl.conns k).conn.2.held = [])) := by
  have hacc : Accounted link cl := by
    refine h.holds (P := Accounted link) ?_ fun h _ hs => kept_step h hs
    rintro cl ⟨c, rfl⟩
    exact ⟨by simp [start], fun _ => ⟨rfl, fun _ => .refl _⟩⟩
  refine ⟨(hacc.kept k).stray, fun hc => ?_⟩
  have hperm := (hacc.kept k).held hc
  refine ⟨hperm, fun hall => ?_⟩
  have hnone : openHandles k cl.files = [] := by
    rw [openHandles, List.map_eq_nil_iff, List.filter_eq_nil_iff]
    intro p hp
    by_cases hpk : p.1 = k
    · simp [hall p hp hpk]
    · simp [hpk]
  rw [hnone] at hperm
  exact hperm.eq_nil

/-- A server that gives out one and the same handle. Of two files opened one is closed, told and
destroyed. -/
theorem handles_are_kept_twice : ∃ cl : Client Unit,
    openHandles 0 cl.files = [7] ∧ (cl.conns 0).conn.2.stray = [] ∧
      (cl.conns 0).conn.2.held.Perm (openHandles 0 cl.files) := by
  let link : Link Unit := Link.constantServer ⟨STATUS_OK, [7, 0, 0, 0]⟩ (by decide)
  let path : CStr := ⟨[47, 97], by decide⟩
  have hrun : (machine link .x64).Run Machine.always (start ())
      [.openfile path "rb", .openfile path "rb", .close 0, .tell 0, .destroy 0] _ :=
    Machine.run_of_execAll rfl
  have h := handles_are_kept link .x64 ⟨_, _, ⟨(), rfl⟩, hrun⟩ 0
  exact ⟨_, rfl, h.1, (h.2 rfl).1⟩

end Client

end ObZrv
