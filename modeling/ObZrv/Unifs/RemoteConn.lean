import Mathlib.Data.List.AList
import Mathlib.Logic.Function.Iterate
import ObZrv.Lib.Machine
import ObZrv.Unifs.Protocol

/-!
# Unifs.RemoteConn

The request side of `unifs/remote_conn.cpp` as a machine whose steps are the mutex-protected
sections. Any number of user threads run `send_request`; one activation of it is a `Call`. Its
steps are `register` (the section that checks `connected_`, allocates the id and inserts the
promise), `enqueue` (the frame is built and handed to `enqueue_write`), and one of `finish` and
`timeout`. The IO thread runs `transmit`, `complete` and `disconnect`; the server answers any
transmitted frame with that frame's request id, in any order.

Frames and replies carry the call they belong to as a ghost value. Nothing the code does looks
at it; the theorems use it to say whose response a call was given.
-/

namespace ObZrv
namespace RemoteConn

open Lib

/-- One activation of `send_request`, numbered in the order of registration. -/
abbrev Call := Nat

/-- What a promise is set to: a response the server sent (with the call whose frame it answers),
or the error response of `on_disconnect`. -/
inductive Answer where
  | server (resp : Response) (call : Option Call)
  | dropped
deriving DecidableEq, Repr

def Answer.response : Answer → Response
  | .server resp _ => resp
  | .dropped => Response.err

/-- `std::promise<Response>` with its shared state. `sets` counts the `set_value` calls; `broken`
is set when the promise is destroyed with no value. -/
structure Promise where
  sets : Nat := 0
  value : Option Answer := none
  broken : Bool := false
deriving DecidableEq, Repr

/-- A second `set_value` throws and leaves the first value. -/
def Promise.setValue (p : Promise) (a : Answer) : Promise :=
  { p with sets := p.sets + 1, value := p.value <|> some a }

def Promise.destroy (p : Promise) : Promise :=
  { p with broken := p.broken || p.value.isNone }

/-- How `send_request` ends: `fut.get()` of a set promise, `err_resp` (not connected, or timed
out), or the exception of a broken promise. -/
inductive Result where
  | response (a : Answer)
  | errResp
  | brokenPromise
deriving DecidableEq, Repr

inductive Phase where
  | idle
  | registered
  | waiting
  | returned (r : Result)
deriving DecidableEq, Repr

/-- A request frame in the write queue or on its way to the server. -/
structure Frame where
  bytes : List UInt8
  call : Option Call
deriving DecidableEq, Repr

/-- The request id the server reads out of a frame. -/
def Frame.reqId (f : Frame) : UInt16 := protoReadU16 (f.bytes.drop 4)

/-- A response frame on the stream to the client. -/
structure Reply where
  reqId : UInt16
  resp : Response
  call : Option Call
deriving DecidableEq, Repr

structure State where
  connected : Bool
  nextReqId : UInt16
  pending : AList fun _ : UInt16 => Call
  promise : Call → Promise
  phase : Call → Phase
  reqId : Call → Option UInt16
  args : Call → UInt8 × List UInt8
  nextCall : Call
  writeQueue : List Frame
  wire : List Frame
  inbox : List Reply

/-- `RemoteConn::RemoteConn()`. -/
def State.ctor : State where
  connected := false
  nextReqId := 1
  pending := ∅
  promise := fun _ => {}
  phase := fun _ => .idle
  reqId := fun _ => none
  args := fun _ => (0, [])
  nextCall := 0
  writeQueue := []
  wire := []
  inbox := []

/-- `RemoteConn::connect` after a successful `asio::connect`. -/
def State.connect (s : State) : State := { s with connected := true }

/-- `alloc_req_id_locked`: the id given out and the next one; 0 is skipped. -/
def allocReqIdLocked (next : UInt16) : UInt16 × UInt16 :=
  (next, if next + 1 = 0 then 1 else next + 1)

/-- `pending_[req_id] = std::move(prom)` destroys the promise that was under the id. -/
def overwritten (s : State) (id : UInt16) : Call → Promise :=
  match s.pending.lookup id with
  | none => s.promise
  | some c => Function.update s.promise c (s.promise c).destroy

/-- The locked section of `send_request`. -/
def State.register (s : State) (cmd : UInt8) (payload : List UInt8) : State :=
  let c := s.nextCall
  if s.connected then
    let (id, next) := allocReqIdLocked s.nextReqId
    { s with
      nextReqId := next
      pending := s.pending.insert id c
      promise := Function.update (overwritten s id) c {}
      phase := Function.update s.phase c .registered
      reqId := Function.update s.reqId c (some id)
      args := Function.update s.args c (cmd, payload)
      nextCall := c + 1 }
  else
    { s with
      phase := Function.update s.phase c (.returned .errResp)
      nextCall := c + 1 }

/-- The frame `send_request` builds. -/
def buildFrame (id : UInt16) (cmd : UInt8) (payload : List UInt8) : List UInt8 :=
  protoWriteU32 (UInt32.ofNat (FRAME_HEADER_SIZE + payload.length)) ++
    (protoWriteU16 id ++ cmd :: payload)

/-- The queue part of `enqueue_write`. -/
def State.enqueueWrite (s : State) (f : Frame) : State :=
  { s with writeQueue := s.writeQueue ++ [f] }

def State.completeResponse (s : State) (r : Reply) : State :=
  if r.reqId = 0 then s
  else
    match s.pending.lookup r.reqId with
    | none => s
    | some c =>
      { s with
        promise := Function.update s.promise c ((s.promise c).setValue (.server r.resp r.call))
        pending := s.pending.erase r.reqId }

/-- How many entries of `pending_` hold the promise of call `c`. -/
def State.held (s : State) (c : Call) : Nat := (s.pending.entries.map (·.2)).count c

/-- The locked section of `on_disconnect`: every promise in the map is set, then the map is
cleared. -/
def State.onDisconnect (s : State) : State :=
  { s with
    connected := false
    promise := fun c => Nat.iterate (Promise.setValue · .dropped) (s.held c) (s.promise c)
    pending := ∅ }

inductive Label where
  | register (cmd : UInt8) (payload : List UInt8)
  | enqueue (c : Call)
  | finish (c : Call)
  | timeout (c : Call)
  | heartbeat
  | transmit
  | answer (i : Nat) (resp : Response)
  | complete
  | disconnect
deriving DecidableEq, Repr

/-- One step; `none` where the step is not enabled. -/
def exec (s : State) : Label → Option State
  | .register cmd payload => some (s.register cmd payload)
  | .enqueue c =>
    match s.phase c, s.reqId c with
    | .registered, some id =>
      let (cmd, payload) := s.args c
      some { s.enqueueWrite ⟨buildFrame id cmd payload, some c⟩ with
        phase := Function.update s.phase c .waiting }
    | _, _ => none
  | .finish c =>
    match s.phase c, (s.promise c).value, (s.promise c).broken with
    | .waiting, some a, _ =>
      some { s with phase := Function.update s.phase c (.returned (.response a)) }
    | .waiting, none, true =>
      some { s with phase := Function.update s.phase c (.returned .brokenPromise) }
    | _, _, _ => none
  | .timeout c =>
    match s.phase c, (s.promise c).value, (s.promise c).broken with
    | .waiting, none, false =>
      some { s with phase := Function.update s.phase c (.returned .errResp) }
    | _, _, _ => none
  | .heartbeat => some (s.enqueueWrite ⟨buildFrame 0 CMD_HEARTBEAT [], none⟩)
  | .transmit =>
    match s.writeQueue with
    | [] => none
    | f :: q => some { s with writeQueue := q, wire := s.wire ++ [f] }
  | .answer i resp =>
    match s.wire[i]? with
    | none => none
    | some f =>
      some { s with wire := s.wire.eraseIdx i, inbox := s.inbox ++ [⟨f.reqId, resp, f.call⟩] }
  | .complete =>
    match s.inbox with
    | [] => none
    | r :: rest => some ({ s with inbox := rest }.completeResponse r)
  | .disconnect => some s.onDisconnect

/-- The connection from the moment `connect` hands it out. -/
def conn : Machine State Label := .ofExec (· = State.ctor.connect) exec

/-- The id about to be allocated is not still in `pending_`. -/
def IdFree (s : State) : Label → Prop
  | .register _ _ => s.connected = true → s.pending.lookup s.nextReqId = none
  | _ => True

instance (s : State) (l : Label) : Decidable (IdFree s l) := by
  cases l <;> unfold IdFree <;> infer_instance

/-! ## What each section does -/

theorem allocReqIdLocked_snd_ne_zero (next : UInt16) : (allocReqIdLocked next).2 ≠ 0 := by
  simp only [allocReqIdLocked]
  split
  · decide
  · assumption

theorem buildFrame_reqId (id : UInt16) (cmd : UInt8) (payload : List UInt8) (oc : Option Call) :
    (Frame.mk (buildFrame id cmd payload) oc).reqId = id := by
  have hlen : (protoWriteU32 (UInt32.ofNat (FRAME_HEADER_SIZE + payload.length))).length = 4 :=
    protoWriteU32_length _
  rw [Frame.reqId, buildFrame, List.drop_left' hlen, protoReadU16_write]

@[simp] theorem setValue_fresh (a : Answer) :
    ({} : Promise).setValue a = { sets := 1, value := some a, broken := false } := rfl

theorem register_closed {s : State} (h : s.connected = false) (cmd : UInt8)
    (payload : List UInt8) :
    s.register cmd payload =
      { s with
        phase := Function.update s.phase s.nextCall (.returned .errResp)
        nextCall := s.nextCall + 1 } := by
  simp [State.register, h]

theorem register_open {s : State} (h : s.connected = true)
    (hfree : s.pending.lookup s.nextReqId = none) (cmd : UInt8) (payload : List UInt8) :
    s.register cmd payload =
      { s with
        nextReqId := (allocReqIdLocked s.nextReqId).2
        pending := s.pending.insert s.nextReqId s.nextCall
        promise := Function.update s.promise s.nextCall {}
        phase := Function.update s.phase s.nextCall .registered
        reqId := Function.update s.reqId s.nextCall (some s.nextReqId)
        args := Function.update s.args s.nextCall (cmd, payload)
        nextCall := s.nextCall + 1 } := by
  simp [State.register, h, overwritten, allocReqIdLocked, hfree]

theorem register_taken {s : State} (h : s.connected = true) {c : Call}
    (htaken : s.pending.lookup s.nextReqId = some c) (cmd : UInt8) (payload : List UInt8) :
    s.register cmd payload =
      { s with
        nextReqId := (allocReqIdLocked s.nextReqId).2
        pending := s.pending.insert s.nextReqId s.nextCall
        promise :=
          Function.update (Function.update s.promise c (s.promise c).destroy) s.nextCall {}
        phase := Function.update s.phase s.nextCall .registered
        reqId := Function.update s.reqId s.nextCall (some s.nextReqId)
        args := Function.update s.args s.nextCall (cmd, payload)
        nextCall := s.nextCall + 1 } := by
  simp [State.register, h, overwritten, allocReqIdLocked, htaken]

/-- What `complete_response` does with a reply: nothing, or it sets one promise and erases its
entry. -/
theorem completeResponse_cases (s : State) (r : Reply) :
    s.completeResponse r = s ∨
      ∃ c, r.reqId ≠ 0 ∧ s.pending.lookup r.reqId = some c ∧
        s.completeResponse r =
          { s with
            promise := Function.update s.promise c ((s.promise c).setValue (.server r.resp r.call))
            pending := s.pending.erase r.reqId } := by
  by_cases h0 : r.reqId = 0
  · exact .inl (by simp [State.completeResponse, h0])
  · cases hl : s.pending.lookup r.reqId with
    | none => exact .inl (by simp [State.completeResponse, h0, hl])
    | some c => exact .inr ⟨c, h0, rfl, by simp [State.completeResponse, h0, hl]⟩

section Held

variable {s : State} (hreg : ∀ id c, s.pending.lookup id = some c → s.reqId c = some id)
include hreg

/-- When the map agrees with the ids the calls were given, no call is in it twice. -/
theorem held_nodup : (s.pending.entries.map (·.2)).Nodup := by
  have hmem : ∀ id c, (⟨id, c⟩ : Sigma fun _ : UInt16 => Call) ∈ s.pending.entries →
      s.reqId c = some id := fun id c h => hreg id c (AList.mem_lookup_iff.mpr h)
  refine s.pending.nodupKeys.nodup.map_on ?_
  rintro ⟨i, x⟩ hx ⟨j, y⟩ hy (rfl : x = y)
  cases (hmem i x hx).symm.trans (hmem j x hy)
  rfl

theorem held_one {id : UInt16} {c : Call} (h : s.pending.lookup id = some c) : s.held c = 1 := by
  refine List.count_eq_one_of_mem (held_nodup hreg) ?_
  exact List.mem_map.mpr ⟨⟨id, c⟩, AList.mem_lookup_iff.mp h, rfl⟩

end Held

theorem held_zero {s : State} {c : Call} (h : ∀ id, s.pending.lookup id ≠ some c) :
    s.held c = 0 := by
  refine List.count_eq_zero.mpr ?_
  intro hm
  obtain ⟨⟨id, x⟩, hx, rfl⟩ := List.mem_map.mp hm
  exact h id (AList.mem_lookup_iff.mpr hx)

end RemoteConn
end ObZrv
