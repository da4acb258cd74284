import ObZrv.Unifs.FileServer

/-!
# Unifs.ScriptedServer

A server for one file that refuses requests and cuts its file by a script, so that every pattern of
failures has a server. `Script.server` shows that it follows the protocol.
-/

namespace ObZrv

/-- `fails i` refuses the `i`-th request; after it at most `keep i` bytes of the file are left. -/
structure Script where
  bytes : List UInt8
  length_lt : bytes.length < 9223372036854775808
  fails : Nat → Bool
  keep : Nat → Nat

namespace Script

structure State where
  served : Nat
  pos : Nat
  disturbed : Bool
  pos_lt : pos < 9223372036854775808

def whenceOf (b : UInt8) : Whence :=
  if b = 0 then .SEEK_SET else if b = 1 then .SEEK_CUR else .SEEK_END

theorem whenceOf_toByte (w : Whence) : whenceOf w.toByte = w := by
  cases w <;> rfl

variable (script : Script)

/-- How much of the file is left after `n` requests. -/
def left : Nat → Nat
  | 0 => script.bytes.length
  | n + 1 => min (left n) (script.keep n)

def content (c : State) : List UInt8 := script.bytes.take (script.left c.served)

/-- The state after a request that leaves the position at `pos`. -/
def next (c : State) (pos : Nat) (h : pos < 9223372036854775808) : State where
  served := c.served + 1
  pos := pos
  disturbed := c.disturbed || script.fails c.served || decide (script.content c ≠ script.bytes)
  pos_lt := h

def readPart (c : State) (payload : List UInt8) : List UInt8 :=
  ((script.content c).drop c.pos).take
    (min (protoReadU32 (payload.drop 4)).toNat RemoteFile.MAX_READ_CHUNK)

theorem readPart_pos_lt (c : State) (payload : List UInt8) :
    c.pos + (script.readPart c payload).length < 9223372036854775808 := by
  have hpos := c.pos_lt
  have hlen := script.length_lt
  have hcut : (script.content c).length ≤ script.bytes.length := by
    rw [content, List.length_take]
    omega
  rw [readPart, List.length_take, List.length_drop]
  omega

def serve (c : State) (r : Request) : Response × State :=
  if script.fails c.served then (⟨STATUS_ERR_GENERIC, []⟩, script.next c c.pos c.pos_lt)
  else if r.cmd = CMD_FILE_SEEK then
    let target := seekTarget (script.content c).length c.pos (protoReadI64 (r.payload.drop 4))
      (whenceOf ((r.payload.drop 12).headD 0))
    if h : 0 ≤ target ∧ target < 9223372036854775808 then
      (⟨STATUS_OK, []⟩, script.next c target.toNat ((Int.toNat_lt h.1).mpr h.2))
    else (⟨STATUS_ERR_GENERIC, []⟩, script.next c c.pos c.pos_lt)
  else if r.cmd = CMD_FILE_TELL then
    (⟨STATUS_OK, protoWriteI64 c.pos⟩, script.next c c.pos c.pos_lt)
  else
    let part := script.readPart c r.payload
    (⟨STATUS_OK, protoWriteU32 (UInt32.ofNat part.length) ++ part⟩,
      script.next c (c.pos + part.length) (script.readPart_pos_lt c r.payload))

theorem serve_next (c : State) (r : Request) : ∃ pos h, (script.serve c r).2 = script.next c pos h ∧
    (script.serve c r).1.payload.length ≤ MAX_PAYLOAD_SIZE := by
  have hmax : MAX_PAYLOAD_SIZE = 1048576 := rfl
  unfold serve
  split
  · exact ⟨_, c.pos_lt, rfl, Nat.zero_le _⟩
  · split
    · dsimp only
      split
      · rename_i ht
        exact ⟨_, (Int.toNat_lt ht.1).mpr ht.2, rfl, Nat.zero_le _⟩
      · exact ⟨_, c.pos_lt, rfl, Nat.zero_le _⟩
    · split
      · refine ⟨_, c.pos_lt, rfl, ?_⟩
        simp [protoWriteI64, hmax]
      · refine ⟨_, script.readPart_pos_lt c r.payload, rfl, ?_⟩
        have hchunk : RemoteFile.MAX_READ_CHUNK = 1048572 := rfl
        simp only [List.length_append, protoWriteU32_length, readPart, List.length_take]
        omega

def link : Link State where
  connected _ := true
  serve := script.serve
  payload_le c r := by
    obtain ⟨_, _, -, hle⟩ := script.serve_next c r
    exact hle

/-- What is read is at the position, since a chunk is below the limit of the server. -/
theorem readPart_request (handle k : UInt32) (c : State) (h : 4 + k.toNat ≤ MAX_PAYLOAD_SIZE) :
    script.readPart c (RemoteFile.readRequest handle k) =
      ((script.content c).drop c.pos).take k.toNat := by
  have hchunk : RemoteFile.MAX_READ_CHUNK = MAX_PAYLOAD_SIZE - 4 := rfl
  have hread := protoReadU32_write k []
  rw [List.append_nil] at hread
  rw [readPart, RemoteFile.readRequest, List.drop_left' (protoWriteU32_length _), hread,
    Nat.min_eq_left (by omega)]

theorem seekRequest_offset (handle : UInt32) {offset : Int} (h : InInt64 offset) (w : Whence) :
    protoReadI64 ((RemoteFile.seekRequest handle offset w).drop 4) = offset := by
  rw [RemoteFile.seekRequest, List.drop_left' (protoWriteU32_length _)]
  exact protoReadI64_write h.1 h.2 _

theorem seekRequest_whence (handle : UInt32) (offset : Int) (w : Whence) :
    whenceOf (((RemoteFile.seekRequest handle offset w).drop 12).headD 0) = w := by
  have hlen : (protoWriteU32 handle ++ protoWriteI64 offset).length = 12 := by
    simp [protoWriteI64]
  rw [RemoteFile.seekRequest, ← List.append_assoc, List.drop_left' hlen]
  exact whenceOf_toByte w

/-- The scripted server follows the protocol. -/
def server (handle : UInt32) : FileServer script.link handle script.bytes where
  content := script.content
  pos c := c.pos
  fails c := script.fails c.served
  disturbed c := c.disturbed
  length_lt := script.length_lt
  connected _ := rfl
  content_prefix c := List.take_prefix _ _
  shrinks c r := by
    obtain ⟨pos, h, hnext, -⟩ := script.serve_next c r
    change script.content (script.serve c r).2 <+: script.content c
    rw [hnext]
    exact List.take_prefix_take_left (Nat.min_le_left _ _)
  disturbed_serve c r := by
    obtain ⟨pos, h, hnext, -⟩ := script.serve_next c r
    change (script.serve c r).2.disturbed = true ↔ _
    rw [hnext]
    simp [next, or_assoc]
  refuses c r h := by
    change (script.serve c r).1.status ≠ STATUS_OK
    rw [serve, if_pos h]
    exact (by decide : STATUS_ERR_GENERIC ≠ STATUS_OK)
  pos_lt c := c.pos_lt
  seek c offset whence h hin := by
    simp only [link, serve, h, Bool.false_eq_true, if_false, if_true,
      seekRequest_offset handle hin, seekRequest_whence]
    split
    · rename_i ht
      exact ⟨rfl, Int.toNat_of_nonneg ht.1⟩
    · exact ⟨(by decide : STATUS_ERR_GENERIC ≠ STATUS_OK), rfl⟩
  tell c h := by
    have hcmd : CMD_FILE_TELL ≠ CMD_FILE_SEEK := by decide
    simp only [link, serve, h, Bool.false_eq_true, if_false, if_true, hcmd]
    exact ⟨trivial, rfl⟩
  read c k h hk := by
    have hseek : CMD_FILE_READ ≠ CMD_FILE_SEEK := by decide
    have htell : CMD_FILE_READ ≠ CMD_FILE_TELL := by decide
    simp only [link, serve, h, Bool.false_eq_true, if_false, hseek, htell,
      script.readPart_request handle k c hk]
    exact ⟨trivial, rfl⟩

def start : State where
  served := 0
  pos := 0
  disturbed := false
  pos_lt := by decide

/-- The script of a server that never fails. -/
def calm (bytes : List UInt8) (h : bytes.length < 9223372036854775808) : Script :=
  ⟨bytes, h, fun _ => false, fun _ => bytes.length⟩

theorem calm_left (bytes : List UInt8) (h : bytes.length < 9223372036854775808) (n : Nat) :
    (calm bytes h).left n = bytes.length := by
  induction n with
  | zero => rfl
  | succ n ih =>
    rw [left, ih]
    exact Nat.min_self _

theorem calm_steady (bytes : List UInt8) (h : bytes.length < 9223372036854775808)
    (handle : UInt32) : ((calm bytes h).server handle).Steady where
  fails _ := rfl
  content c := by
    change bytes.take ((calm bytes h).left c.served) = bytes
    rw [calm_left, List.take_length]

end Script
end ObZrv
