import ObZrv.Unifs.FrameReader
import ObZrv.Unifs.Link
import ObZrv.Unifs.Replies

/-!
# Unifs.Served

A connection seen from both of its ends. `Watch` adds to the state of `RemoteConn` what passes
them: the requests handed to `send_request`, the frames given to the socket and the calls the
server has answered. The server is any relation between requests and responses; it reads a request
out of the bytes of its frame, and answers a frame at most once and under its id.

* `wired_step`    : the frames say what was asked, and no call is sent or served twice.
* `answered_step` : a response on its way, in a promise or returned answers its own request.
* `calls_are_served_once` : what the two invariants say of the byte stream and of the callers.
-/

namespace ObZrv
namespace RemoteConn

open Lib FrameReader

structure Watch where
  conn : State
  asked : List Request := []
  sent : List Frame := []
  served : List Call := []

/-- The bytes on the socket so far. -/
def Watch.stream (w : Watch) : List UInt8 := (w.sent.map Frame.bytes).flatten

/-- What the server reads out of a frame. -/
def Frame.decoded (f : Frame) : ResponseFrame := firstFrame f.bytes

def Frame.request (f : Frame) : Request := ⟨f.decoded.status, f.decoded.payload⟩

def watch (w : Watch) (l : Label) : Option Watch :=
  (exec w.conn l).map fun conn =>
    match l with
    | .register cmd payload => { w with conn, asked := w.asked ++ [⟨cmd, payload⟩] }
    | .transmit => { w with conn, sent := w.sent ++ w.conn.writeQueue.take 1 }
    | .answer i _ => { w with conn, served := w.served ++ (w.conn.wire[i]?.bind Frame.call).toList }
    | _ => { w with conn }

def watched : Machine Watch Label := .ofExec (· = { conn := State.ctor.connect }) watch

/-- Ids are free when they are allocated, requests fit a frame, and the server answers what it
reads. -/
def Serves (answers : Request → Response → Prop) (w : Watch) (l : Label) : Prop :=
  IdFree w.conn l ∧
    match l with
    | .register _ payload => payload.length ≤ MAX_PAYLOAD_SIZE
    | .answer i resp => ∀ f ∈ w.conn.wire[i]?, answers f.request resp
    | _ => True

instance {answers : Request → Response → Prop} [∀ r resp, Decidable (answers r resp)] (w : Watch)
    (l : Label) : Decidable (Serves answers w l) :=
  match l with
  | .register cmd payload =>
    inferInstanceAs (Decidable (IdFree w.conn (.register cmd payload) ∧
      payload.length ≤ MAX_PAYLOAD_SIZE))
  | .answer i resp =>
    inferInstanceAs (Decidable (IdFree w.conn (.answer i resp) ∧
      ∀ f ∈ w.conn.wire[i]?, answers f.request resp))
  | .enqueue c => inferInstanceAs (Decidable (IdFree w.conn (.enqueue c) ∧ True))
  | .finish c => inferInstanceAs (Decidable (IdFree w.conn (.finish c) ∧ True))
  | .timeout c => inferInstanceAs (Decidable (IdFree w.conn (.timeout c) ∧ True))
  | .heartbeat => inferInstanceAs (Decidable (IdFree w.conn .heartbeat ∧ True))
  | .transmit => inferInstanceAs (Decidable (IdFree w.conn .transmit ∧ True))
  | .complete => inferInstanceAs (Decidable (IdFree w.conn .complete ∧ True))
  | .disconnect => inferInstanceAs (Decidable (IdFree w.conn .disconnect ∧ True))

/-! ## Frames and what was asked -/

theorem firstFrame_of_encode {f : ResponseFrame} (h : f.Legal) : firstFrame f.encode = f := by
  have hlen : (protoReadU32 f.encode).toNat = 7 + f.payload.length := by
    rw [ResponseFrame.encode, protoReadU32_write, UInt32.toNat_ofNat_of_lt']
    have hmax : f.payload.length ≤ 1048576 := h
    simp only [UInt32.size]
    omega
  have hid : f.encode.drop 4 = protoWriteU16 f.reqId ++ ([f.status] ++ f.payload) :=
    List.drop_left' (protoWriteU32_length _)
  have hstatus : f.encode.drop 6 = [f.status] ++ f.payload := by
    rw [show 6 = 4 + 2 from rfl, ← List.drop_drop, hid, List.drop_left' (protoWriteU16_length _)]
  have hpayload : f.encode.drop 7 = f.payload := by
    rw [show 7 = 6 + 1 from rfl, ← List.drop_drop, hstatus]
    rfl
  rw [firstFrame, hid, hstatus, hpayload, hlen, protoReadU16_write, Nat.add_sub_cancel_left,
    List.take_length]
  rfl

/-- The frame of a call carries the id the call was given and the request it was made with; any
other frame is a heartbeat. -/
def Says (w : Watch) (f : Frame) : Prop :=
  match f.call with
  | none => f.bytes = buildFrame 0 CMD_HEARTBEAT []
  | some c => ∃ id r, w.conn.reqId c = some id ∧ w.asked[c]? = some r ∧
      r.payload.length ≤ MAX_PAYLOAD_SIZE ∧ f.bytes = buildFrame id r.cmd r.payload

theorem Says.decoded {w : Watch} {f : Frame} (h : Says w f) :
    f.decoded.Legal ∧ f.bytes = f.decoded.encode ∧
      ∀ c, f.call = some c → ∃ id, w.conn.reqId c = some id ∧ f.decoded.reqId = id ∧
        w.asked[c]? = some f.request := by
  unfold Says at h
  cases hc : f.call with
  | none =>
    rw [hc] at h
    have hlegal : (ResponseFrame.mk 0 CMD_HEARTBEAT []).Legal := Nat.zero_le _
    have hdec : f.decoded = ⟨0, CMD_HEARTBEAT, []⟩ := by
      rw [Frame.decoded, h, buildFrame_eq, firstFrame_of_encode hlegal]
    rw [hdec]
    exact ⟨hlegal, h, fun c hc => by cases hc⟩
  | some c =>
    rw [hc] at h
    obtain ⟨id, r, hid, hr, hlen, hbytes⟩ := h
    have hlegal : (ResponseFrame.mk id r.cmd r.payload).Legal := hlen
    have hdec : f.decoded = ⟨id, r.cmd, r.payload⟩ := by
      rw [Frame.decoded, hbytes, buildFrame_eq, firstFrame_of_encode hlegal]
    have hreq : f.request = r := by rw [Frame.request, hdec]
    rw [hdec, hreq]
    refine ⟨hlegal, hbytes, ?_⟩
    intro c' hc'
    cases hc'
    exact ⟨id, hid, rfl, hr⟩

/-- Ids and requests that a call has are kept. -/
structure Later (w w' : Watch) : Prop where
  asked : w.asked <+: w'.asked
  reqId : ∀ c id, w.conn.reqId c = some id → w'.conn.reqId c = some id

theorem Later.asked_of_some {w w' : Watch} (h : Later w w') {c : Call} {r : Request}
    (hr : w.asked[c]? = some r) : w'.asked[c]? = some r := by
  obtain ⟨rest, hrest⟩ := h.asked
  obtain ⟨hlt, -⟩ := List.getElem?_eq_some_iff.mp hr
  rw [← hrest, List.getElem?_append_left hlt, hr]

theorem Says.later {w w' : Watch} {f : Frame} (h : Says w f) (hl : Later w w') : Says w' f := by
  unfold Says at h ⊢
  cases hc : f.call with
  | none =>
    rw [hc] at h
    exact h
  | some c =>
    rw [hc] at h
    obtain ⟨id, r, hid, hr, hlen, hbytes⟩ := h
    exact ⟨id, r, hl.reqId c id hid, hl.asked_of_some hr, hlen, hbytes⟩

/-- What the frames in the queue, on the wire and already served have to do with the calls. -/
structure Wired (w : Watch) : Prop where
  asked_length : w.asked.length = w.conn.nextCall
  args : ∀ c id, w.conn.reqId c = some id → ∃ r, w.asked[c]? = some r ∧
    w.conn.args c = (r.cmd, r.payload) ∧ r.payload.length ≤ MAX_PAYLOAD_SIZE
  frames : ∀ f ∈ w.sent ++ w.conn.writeQueue, Says w f
  wire : ∀ f ∈ w.conn.wire, f ∈ w.sent
  once : ((w.sent ++ w.conn.writeQueue).filterMap Frame.call).Nodup
  begun : ∀ c ∈ (w.sent ++ w.conn.writeQueue).filterMap Frame.call,
    w.conn.phase c ≠ .idle ∧ w.conn.phase c ≠ .registered
  served : (w.served ++ w.conn.wire.filterMap Frame.call).Perm (w.sent.filterMap Frame.call)

theorem wired_init : Wired { conn := State.ctor.connect } where
  asked_length := rfl
  args := by simp [State.connect, State.ctor]
  frames := by simp [State.connect, State.ctor]
  wire := by simp [State.connect, State.ctor]
  once := by simp [State.connect, State.ctor]
  begun := by simp [State.connect, State.ctor]
  served := by simp [State.connect, State.ctor]

section Wired

variable {w : Watch}

/-- A step that leaves queue, wire and requests alone. -/
theorem Wired.keep (h : Wired w) {conn : State} (hn : conn.nextCall = w.conn.nextCall)
    (hr : conn.reqId = w.conn.reqId) (ha : conn.args = w.conn.args)
    (hq : conn.writeQueue = w.conn.writeQueue) (hw : conn.wire = w.conn.wire)
    (hp : ∀ c, w.conn.phase c ≠ .idle → w.conn.phase c ≠ .registered →
      conn.phase c ≠ .idle ∧ conn.phase c ≠ .registered) : Wired { w with conn } := by
  have hl : Later w { w with conn } := ⟨List.prefix_rfl, fun c id hid => by rw [hr]; exact hid⟩
  refine ⟨?_, ?_, ?_, ?_, ?_, ?_, ?_⟩
  · rw [hn]; exact h.asked_length
  · rw [hr, ha]; exact h.args
  · intro f hf
    rw [hq] at hf
    exact (h.frames f hf).later hl
  · rw [hw]; exact h.wire
  · rw [hq]; exact h.once
  · intro c hc
    rw [hq] at hc
    exact hp c (h.begun c hc).1 (h.begun c hc).2
  · rw [hw]; exact h.served

theorem update_begun {phase : Call → Phase} {c : Call} {p : Phase} (hi : p ≠ .idle)
    (hr : p ≠ .registered) (x : Call) (hx : phase x ≠ .idle) (hx' : phase x ≠ .registered) :
    Function.update phase c p x ≠ .idle ∧ Function.update phase c p x ≠ .registered := by
  by_cases hc : x = c
  · subst hc
    rw [Function.update_self]
    exact ⟨hi, hr⟩
  · rw [Function.update_of_ne hc]
    exact ⟨hx, hx'⟩

theorem Wired.asked_lt (h : Wired w) (cmd : UInt8) (payload : List UInt8) :
    (w.asked ++ [(⟨cmd, payload⟩ : Request)])[w.conn.nextCall]? = some ⟨cmd, payload⟩ := by
  rw [← h.asked_length]
  simp

theorem Wired.register (h : Wired w) (hm : Matched w.conn) (cmd : UInt8) {payload : List UInt8}
    (hlen : payload.length ≤ MAX_PAYLOAD_SIZE)
    (hfree : w.conn.connected = true → w.conn.pending.lookup w.conn.nextReqId = none) :
    Wired { w with
      conn := w.conn.register cmd payload
      asked := w.asked ++ [⟨cmd, payload⟩] } := by
  have hidle := hm.fresh w.conn.nextCall le_rfl
  have hne : ∀ c ∈ (w.sent ++ w.conn.writeQueue).filterMap Frame.call, c ≠ w.conn.nextCall := by
    rintro c hc rfl
    exact (h.begun _ hc).1 hidle
  have hgiven : ∀ c id, w.conn.reqId c = some id → c ≠ w.conn.nextCall := by
    rintro c id hid rfl
    exact absurd (hm.settled.given _ _ hid).2 (Nat.lt_irrefl _)
  cases hc : w.conn.connected with
  | false =>
    rw [register_closed hc]
    have hl : Later w { w with
        conn := { w.conn with
          phase := Function.update w.conn.phase w.conn.nextCall (.returned .errResp)
          nextCall := w.conn.nextCall + 1 }
        asked := w.asked ++ [⟨cmd, payload⟩] } := ⟨List.prefix_append _ _, fun _ _ => id⟩
    refine ⟨by simp [h.asked_length], ?_, ?_, h.wire, h.once, ?_, h.served⟩
    · intro c id hid
      obtain ⟨r, hr, hargs⟩ := h.args c id hid
      exact ⟨r, hl.asked_of_some hr, hargs⟩
    · exact fun f hf => (h.frames f hf).later hl
    · exact fun c hc => update_begun (by simp) (by simp) c (h.begun c hc).1 (h.begun c hc).2
  | true =>
    rw [register_open hc (hfree hc)]
    have hl : Later w { w with
        conn := { w.conn with
          nextReqId := (allocReqIdLocked w.conn.nextReqId).2
          pending := w.conn.pending.insert w.conn.nextReqId w.conn.nextCall
          promise := Function.update w.conn.promise w.conn.nextCall {}
          phase := Function.update w.conn.phase w.conn.nextCall .registered
          reqId := Function.update w.conn.reqId w.conn.nextCall (some w.conn.nextReqId)
          args := Function.update w.conn.args w.conn.nextCall (cmd, payload)
          nextCall := w.conn.nextCall + 1 }
        asked := w.asked ++ [⟨cmd, payload⟩] } := by
      refine ⟨List.prefix_append _ _, fun c id hid => ?_⟩
      simp only [Function.update_of_ne (hgiven c id hid)]
      exact hid
    refine ⟨by simp [h.asked_length], ?_, ?_, h.wire, h.once, ?_, h.served⟩
    · intro c id hid
      by_cases hcn : c = w.conn.nextCall
      · subst hcn
        exact ⟨⟨cmd, payload⟩, h.asked_lt cmd payload, by simp, hlen⟩
      · simp only [Function.update_of_ne hcn] at hid ⊢
        obtain ⟨r, hr, hargs⟩ := h.args c id hid
        exact ⟨r, hl.asked_of_some hr, hargs⟩
    · exact fun f hf => (h.frames f hf).later hl
    · intro c hc
      simp only [Function.update_of_ne (hne c hc)]
      exact h.begun c hc

/-- The frame of a registered call joins the queue. -/
theorem Wired.enqueue (h : Wired w) {c : Call} {id : UInt16} {cmd : UInt8} {payload : List UInt8}
    (hp : w.conn.phase c = .registered) (hid : w.conn.reqId c = some id)
    (hargs : w.conn.args c = (cmd, payload)) :
    Wired { w with conn := { w.conn.enqueueWrite ⟨buildFrame id cmd payload, some c⟩ with
      phase := Function.update w.conn.phase c .waiting } } := by
  have hnew : c ∉ (w.sent ++ w.conn.writeQueue).filterMap Frame.call := fun hc =>
    (h.begun c hc).2 hp
  have hcalls : (w.sent ++ (w.conn.writeQueue ++
      [Frame.mk (buildFrame id cmd payload) (some c)])).filterMap Frame.call =
      (w.sent ++ w.conn.writeQueue).filterMap Frame.call ++ [c] := by
    rw [← List.append_assoc, List.filterMap_append]
    rfl
  refine ⟨h.asked_length, h.args, ?_, h.wire, ?_, ?_, h.served⟩
  · intro f hf
    rw [State.enqueueWrite, ← List.append_assoc, List.mem_append, List.mem_singleton] at hf
    rcases hf with hf | rfl
    · exact (h.frames f hf).later ⟨List.prefix_rfl, fun _ _ hr => hr⟩
    · obtain ⟨r, hr, hr', hlen⟩ := h.args c id hid
      rw [hargs] at hr'
      cases hr'
      exact ⟨id, r, hid, hr, hlen, rfl⟩
  · rw [State.enqueueWrite, hcalls, List.nodup_append_comm]
    exact List.nodup_cons.mpr ⟨hnew, h.once⟩
  · intro x hx
    rw [State.enqueueWrite, hcalls, List.mem_append, List.mem_singleton] at hx
    rcases hx with hx | rfl
    · exact update_begun (by simp) (by simp) x (h.begun x hx).1 (h.begun x hx).2
    · simp

theorem Wired.heartbeat (h : Wired w) :
    Wired { w with conn := w.conn.enqueueWrite ⟨buildFrame 0 CMD_HEARTBEAT [], none⟩ } := by
  have hcalls : (w.sent ++ (w.conn.writeQueue ++
      [Frame.mk (buildFrame 0 CMD_HEARTBEAT []) none])).filterMap Frame.call =
      (w.sent ++ w.conn.writeQueue).filterMap Frame.call := by
    rw [← List.append_assoc, List.filterMap_append]
    exact List.append_nil _
  refine ⟨h.asked_length, h.args, ?_, h.wire, ?_, ?_, h.served⟩
  · intro f hf
    rw [State.enqueueWrite, ← List.append_assoc, List.mem_append, List.mem_singleton] at hf
    rcases hf with hf | rfl
    · exact (h.frames f hf).later ⟨List.prefix_rfl, fun _ _ => id⟩
    · rfl
  · rw [State.enqueueWrite, hcalls]
    exact h.once
  · intro c hc
    rw [State.enqueueWrite, hcalls] at hc
    exact h.begun c hc

theorem Wired.transmit (h : Wired w) {f : Frame} {q : List Frame} (hq : w.conn.writeQueue = f :: q) :
    Wired { w with
      conn := { w.conn with writeQueue := q, wire := w.conn.wire ++ [f] }
      sent := w.sent ++ [f] } := by
  have happ : w.sent ++ [f] ++ q = w.sent ++ w.conn.writeQueue := by
    rw [hq, List.append_assoc, List.singleton_append]
  refine ⟨h.asked_length, h.args, ?_, ?_, ?_, ?_, ?_⟩
  · intro g hg
    rw [happ] at hg
    exact (h.frames g hg).later ⟨List.prefix_rfl, fun _ _ => id⟩
  · intro g hg
    rcases List.mem_append.mp hg with hg | hg
    · exact List.mem_append_left _ (h.wire g hg)
    · exact List.mem_append_right _ hg
  · rw [happ]
    exact h.once
  · intro c hc
    rw [happ] at hc
    exact h.begun c hc
  · rw [List.filterMap_append, List.filterMap_append, ← List.append_assoc]
    exact h.served.append_right _

theorem Wired.answer (h : Wired w) {f : Frame} {i : Nat} (hf : w.conn.wire[i]? = some f)
    (resp : Response) :
    Wired { w with
      conn := { w.conn with
        wire := w.conn.wire.eraseIdx i
        inbox := w.conn.inbox ++ [⟨f.reqId, resp, f.call⟩] }
      served := w.served ++ f.call.toList } := by
  obtain ⟨hi, rfl⟩ := List.getElem?_eq_some_iff.mp hf
  have hperm : (w.conn.wire[i] :: w.conn.wire.eraseIdx i).Perm w.conn.wire :=
    List.getElem_cons_eraseIdx_perm hi
  refine ⟨h.asked_length, h.args, ?_, ?_, h.once, h.begun, ?_⟩
  · exact fun g hg => (h.frames g hg).later ⟨List.prefix_rfl, fun _ _ => id⟩
  · exact fun g hg => h.wire g (List.mem_of_mem_eraseIdx hg)
  · have hcalls := hperm.filterMap Frame.call
    rw [← List.singleton_append, List.filterMap_append] at hcalls
    rw [List.append_assoc]
    refine ((List.Perm.append_left _ ?_).trans h.served)
    refine List.Perm.trans ?_ hcalls
    rw [List.filterMap_cons, List.filterMap_nil]
    cases w.conn.wire[i].call <;> exact .refl _

end Wired

theorem wired_step {w w' : Watch} {l : Label} {answers : Request → Response → Prop} (h : Wired w)
    (hm : Matched w.conn) (hok : Serves answers w l) (hs : watched.step w l w') : Wired w' := by
  obtain ⟨conn, hconn, rfl⟩ := Option.map_eq_some_iff.mp hs
  cases l with
  | register cmd payload =>
    cases hconn
    exact h.register hm cmd hok.2 hok.1
  | enqueue c =>
    simp only [exec] at hconn
    split at hconn
    · rename_i id hp hid
      cases hconn
      exact h.enqueue hp hid rfl
    · cases hconn
  | finish c =>
    simp only [exec] at hconn
    split at hconn <;> cases hconn <;>
      exact h.keep rfl rfl rfl rfl rfl (update_begun (by simp) (by simp))
  | timeout c =>
    simp only [exec] at hconn
    split at hconn <;> cases hconn
    exact h.keep rfl rfl rfl rfl rfl (update_begun (by simp) (by simp))
  | heartbeat =>
    cases hconn
    exact h.heartbeat
  | transmit =>
    simp only [exec] at hconn
    split at hconn
    · cases hconn
    · rename_i f q hq
      cases hconn
      have htake : w.conn.writeQueue.take 1 = [f] := by rw [hq]; rfl
      rw [htake]
      exact h.transmit hq
  | answer i resp =>
    simp only [exec] at hconn
    split at hconn
    · cases hconn
    · rename_i f hf
      cases hconn
      simpa only [hf, Option.bind_some] using h.answer hf resp
  | complete =>
    simp only [exec] at hconn
    split at hconn
    · cases hconn
    · rename_i r rest hin
      cases hconn
      rcases completeResponse_cases { w.conn with inbox := rest } r with he | ⟨c, -, -, he⟩
      · rw [he]
        exact h.keep rfl rfl rfl rfl rfl fun _ => And.intro
      · rw [he]
        exact h.keep rfl rfl rfl rfl rfl fun _ => And.intro
  | disconnect =>
    cases hconn
    exact h.keep rfl rfl rfl rfl rfl fun _ => And.intro

/-! ## Responses -/

/-- The response answers the request that call `c` was made with. -/
def AnswersCall (answers : Request → Response → Prop) (w : Watch) (c : Call) (resp : Response) :
    Prop := ∃ r, w.asked[c]? = some r ∧ answers r resp

structure Answered (answers : Request → Response → Prop) (w : Watch) : Prop where
  replies : ∀ r ∈ w.conn.inbox, ∀ c, r.call = some c → AnswersCall answers w c r.resp
  values : ∀ c resp oc, (w.conn.promise c).value = some (.server resp oc) →
    AnswersCall answers w c resp
  results : ∀ c resp oc, w.conn.phase c = .returned (.response (.server resp oc)) →
    AnswersCall answers w c resp

section Answered

variable {answers : Request → Response → Prop} {w : Watch}

theorem AnswersCall.later {w' : Watch} {c : Call} {resp : Response}
    (h : AnswersCall answers w c resp) (hl : w.asked <+: w'.asked) :
    AnswersCall answers w' c resp := by
  obtain ⟨r, hr, ha⟩ := h
  obtain ⟨rest, hrest⟩ := hl
  obtain ⟨hlt, -⟩ := List.getElem?_eq_some_iff.mp hr
  exact ⟨r, by rw [← hrest, List.getElem?_append_left hlt, hr], ha⟩

/-- Every response of the new state is one of the old state, or has been seen to answer. -/
theorem Answered.of_old (h : Answered answers w) {w' : Watch} (hl : w.asked <+: w'.asked)
    (hi : ∀ r ∈ w'.conn.inbox, r ∈ w.conn.inbox ∨
      ∀ c, r.call = some c → AnswersCall answers w c r.resp)
    (hv : ∀ c resp oc, (w'.conn.promise c).value = some (.server resp oc) →
      (w.conn.promise c).value = some (.server resp oc) ∨ AnswersCall answers w c resp)
    (hp : ∀ c resp oc, w'.conn.phase c = .returned (.response (.server resp oc)) →
      w.conn.phase c = .returned (.response (.server resp oc)) ∨
        (w.conn.promise c).value = some (.server resp oc)) : Answered answers w' := by
  refine ⟨?_, ?_, ?_⟩
  · intro r hr c hc
    rcases hi r hr with hold | hnew
    · exact (h.replies r hold c hc).later hl
    · exact (hnew c hc).later hl
  · intro c resp oc hval
    rcases hv c resp oc hval with hold | hnew
    · exact (h.values c resp oc hold).later hl
    · exact hnew.later hl
  · intro c resp oc hph
    rcases hp c resp oc hph with hold | hold
    · exact (h.results c resp oc hold).later hl
    · exact (h.values c resp oc hold).later hl

theorem answered_init : Answered answers { conn := State.ctor.connect } where
  replies := by simp [State.connect, State.ctor]
  values := by simp [State.connect, State.ctor]
  results := by simp [State.connect, State.ctor]

/-- A phase that has just been set is not a server response, or it is the promise's value. -/
theorem update_returned {phase : Call → Phase} {promise : Call → Promise} {c : Call} {p : Phase}
    (hp : ∀ resp oc, p = .returned (.response (.server resp oc)) →
      (promise c).value = some (.server resp oc)) (x : Call) (resp : Response) (oc : Option Call)
    (hx : Function.update phase c p x = .returned (.response (.server resp oc))) :
    phase x = .returned (.response (.server resp oc)) ∨
      (promise x).value = some (.server resp oc) := by
  by_cases hxc : x = c
  · subst hxc
    rw [Function.update_self] at hx
    exact .inr (hp resp oc hx)
  · rw [Function.update_of_ne hxc] at hx
    exact .inl hx

/-- Only the phase of one call moves, and to no response but its own. -/
theorem Answered.moved (h : Answered answers w) {conn : State} (hi : conn.inbox = w.conn.inbox)
    (hv : conn.promise = w.conn.promise) {c : Call} {p : Phase}
    (hphase : conn.phase = Function.update w.conn.phase c p)
    (hp : ∀ resp oc, p = .returned (.response (.server resp oc)) →
      (w.conn.promise c).value = some (.server resp oc)) :
    Answered answers { w with conn } := by
  refine h.of_old List.prefix_rfl ?_ ?_ ?_
  · rw [hi]
    exact fun _ => .inl
  · rw [hv]
    exact fun _ _ _ => .inl
  · rw [hphase]
    exact update_returned hp

theorem Answered.register (h : Answered answers w) (cmd : UInt8) (payload : List UInt8)
    (hfree : w.conn.connected = true → w.conn.pending.lookup w.conn.nextReqId = none) :
    Answered answers { w with
      conn := w.conn.register cmd payload
      asked := w.asked ++ [⟨cmd, payload⟩] } := by
  cases hc : w.conn.connected with
  | false =>
    rw [register_closed hc]
    exact h.of_old (List.prefix_append _ _) (fun _ => .inl) (fun _ _ _ => .inl)
      (update_returned (by simp))
  | true =>
    rw [register_open hc (hfree hc)]
    refine h.of_old (List.prefix_append _ _) (fun _ => .inl) ?_ (update_returned (by simp))
    intro c resp oc hv
    by_cases hcn : c = w.conn.nextCall
    · subst hcn
      simp at hv
    · simp only [Function.update_of_ne hcn] at hv
      exact .inl hv

/-- The server answers what it read, which is what the call asked. -/
theorem Answered.answer (h : Answered answers w) (hw : Wired w) {f : Frame} {i : Nat}
    (hf : w.conn.wire[i]? = some f) {resp : Response} (hresp : answers f.request resp)
    (served : List Call) :
    Answered answers { w with
      conn := { w.conn with
        wire := w.conn.wire.eraseIdx i
        inbox := w.conn.inbox ++ [⟨f.reqId, resp, f.call⟩] }
      served := served } := by
  refine h.of_old List.prefix_rfl ?_ (fun _ _ _ => .inl) (fun _ _ _ => .inl)
  intro r hr
  rcases List.mem_append.mp hr with hr | hr
  · exact .inl hr
  · obtain rfl := List.mem_singleton.mp hr
    refine .inr fun c hc => ?_
    have hsent : f ∈ w.sent := hw.wire f (List.mem_of_getElem? hf)
    obtain ⟨-, -, hcall⟩ := (hw.frames f (List.mem_append_left _ hsent)).decoded
    obtain ⟨id, -, -, hasked⟩ := hcall c hc
    exact ⟨f.request, hasked, hresp⟩

/-- The response taken off the stream goes to the call whose frame it answers. -/
theorem Answered.complete (h : Answered answers w) (hm : Matched w.conn) {r : Reply}
    {rest : List Reply} (hin : w.conn.inbox = r :: rest) :
    Answered answers { w with conn := { w.conn with inbox := rest }.completeResponse r } := by
  have hm' := hm.complete hin
  have hrest : ∀ x ∈ rest, x ∈ w.conn.inbox := fun x hx => by
    rw [hin]
    exact List.mem_cons_of_mem _ hx
  have hkeep : Answered answers { w with conn := { w.conn with inbox := rest } } :=
    h.of_old List.prefix_rfl (fun x hx => .inl (hrest x hx)) (fun _ _ _ => .inl)
      (fun _ _ _ => .inl)
  rcases completeResponse_cases { w.conn with inbox := rest } r with he | ⟨c, -, hl, he⟩
  · rw [he]
    exact hkeep
  · rw [he] at hm' ⊢
    have hheld : w.conn.promise c = {} := hm.settled.held _ _ hl
    refine h.of_old List.prefix_rfl (fun x hx => .inl (hrest x hx)) ?_ (fun _ _ _ => .inl)
    intro x resp oc hv
    by_cases hx : x = c
    · subst hx
      have hcall := hm'.values x resp oc hv
      simp only [Function.update_self, hheld, setValue_fresh, Option.some.injEq,
        Answer.server.injEq] at hv
      obtain ⟨rfl, rfl⟩ := hv
      exact .inr (h.replies r (by rw [hin]; exact List.mem_cons_self) x hcall)
    · simp only [Function.update_of_ne hx] at hv
      exact .inl hv

end Answered

theorem answered_step {w w' : Watch} {l : Label} {answers : Request → Response → Prop}
    (h : Answered answers w) (hw : Wired w) (hm : Matched w.conn) (hok : Serves answers w l)
    (hs : watched.step w l w') : Answered answers w' := by
  obtain ⟨conn, hconn, rfl⟩ := Option.map_eq_some_iff.mp hs
  cases l with
  | register cmd payload =>
    cases hconn
    exact h.register cmd payload hok.1
  | enqueue c =>
    simp only [exec] at hconn
    split at hconn
    · cases hconn
      exact h.moved rfl rfl rfl (by simp)
    · cases hconn
  | finish c =>
    simp only [exec] at hconn
    split at hconn
    · rename_i a _ hp hv
      cases hconn
      refine h.moved rfl rfl rfl ?_
      intro resp oc hr
      cases hr
      exact hv
    · cases hconn
      exact h.moved rfl rfl rfl (by simp)
    · cases hconn
  | timeout c =>
    simp only [exec] at hconn
    split at hconn <;> cases hconn
    exact h.moved rfl rfl rfl (by simp)
  | heartbeat =>
    cases hconn
    exact h.of_old List.prefix_rfl (fun _ => .inl) (fun _ _ _ => .inl) (fun _ _ _ => .inl)
  | transmit =>
    simp only [exec] at hconn
    split at hconn <;> cases hconn
    exact h.of_old List.prefix_rfl (fun _ => .inl) (fun _ _ _ => .inl) (fun _ _ _ => .inl)
  | answer i resp =>
    simp only [exec] at hconn
    split at hconn
    · cases hconn
    · rename_i f hf
      cases hconn
      exact h.answer hw hf (hok.2 f hf) _
  | complete =>
    simp only [exec] at hconn
    split at hconn
    · cases hconn
    · rename_i r rest hin
      cases hconn
      exact h.complete hm hin
  | disconnect =>
    cases hconn
    refine h.of_old List.prefix_rfl (fun _ => .inl) ?_ (fun _ _ _ => .inl)
    intro c resp oc hv
    rcases hm.settled.onDisconnect_promise c with ⟨_, _, hp⟩ | ⟨_, hp⟩
    · rw [hp] at hv
      simp at hv
    · rw [hp] at hv
      exact .inl hv

/-! ## Runs -/

structure Exchange (answers : Request → Response → Prop) (w : Watch) : Prop where
  matched : Matched w.conn
  wired : Wired w
  answered : Answered answers w

theorem exchange_reach {answers : Request → Response → Prop} {w : Watch}
    (h : watched.Reach (Serves answers) w) : Exchange answers w := by
  refine h.holds (P := Exchange answers) ?_ ?_
  · rintro w rfl
    exact ⟨matched_init, wired_init, answered_init⟩
  · intro w l w' hw hok hs
    obtain ⟨conn, hconn, hw'⟩ := Option.map_eq_some_iff.mp hs
    have hm : Matched conn := matched_step hw.matched hok.1 hconn
    have he : w'.conn = conn := by
      subst hw'
      cases l <;> rfl
    refine ⟨by rw [he]; exact hm, ?_, ?_⟩
    · exact wired_step hw.wired hw.matched hok hs
    · exact answered_step hw.answered hw.wired hw.matched hok hs

theorem Wired.stream_eq {w : Watch} (h : Wired w) :
    w.stream = encodeFrames (w.sent.map Frame.decoded) := by
  have hbytes : w.sent.map Frame.bytes =
      (w.sent.map Frame.decoded).map ResponseFrame.encode := by
    rw [List.map_map]
    refine List.map_congr_left fun f hf => ?_
    exact (h.frames f (List.mem_append_left _ hf)).decoded.2.1
  rw [Watch.stream, hbytes, encodeFrames]

/-- **Every call is served at most once and returns an answer to what it asked.** The server answers
each frame at most once and under the id of the frame, whatever it likes. In every run that allocates
only free ids, with requests that fit a frame: a frame reader at the other end of the socket gets the
frames sent, each with the id and the request of its own call; no two of them are of one call; no call
is answered twice; the frames of the answers on their way, if they are legal, are read as these; and a
call that returns a response of the server returns an answer to the request it was made with. -/
theorem calls_are_served_once (answers : Request → Response → Prop) {w : Watch}
    (h : watched.Reach (Serves answers) w) :
    (∀ headerBuf, (readStream (.start headerBuf) w.stream).1.delivered =
        w.sent.map Frame.decoded) ∧
      (∀ f ∈ w.sent, ∀ c, f.call = some c →
        w.conn.reqId c = some f.decoded.reqId ∧ w.asked[c]? = some f.request) ∧
      (w.sent.filterMap Frame.call).Nodup ∧
      w.served.Nodup ∧ (∀ c ∈ w.served, ∃ f ∈ w.sent, f.call = some c) ∧
      (∀ headerBuf, (∀ r ∈ w.conn.inbox, r.resp.payload.length ≤ MAX_PAYLOAD_SIZE) →
        (readStream (.start headerBuf) (encodeFrames (w.conn.inbox.map replyFrame))).1.delivered =
          w.conn.inbox.map replyFrame) ∧
      ∀ c resp oc, w.conn.phase c = .returned (.response (.server resp oc)) →
        ∃ r, w.asked[c]? = some r ∧ answers r resp := by
  obtain ⟨hm, hw, ha⟩ := exchange_reach h
  have hsent : ∀ f ∈ w.sent, Says w f := fun f hf => hw.frames f (List.mem_append_left _ hf)
  have honce : (w.sent.filterMap Frame.call).Nodup :=
    hw.once.sublist ((List.sublist_append_left _ _).filterMap _)
  have hserved : (w.served ++ w.conn.wire.filterMap Frame.call).Nodup :=
    hw.served.nodup_iff.mpr honce
  refine ⟨?_, ?_, honce, hserved.of_append_left, ?_, fun headerBuf => inbox_delivered headerBuf,
    ha.results⟩
  · intro headerBuf
    have hlegal : ∀ f ∈ w.sent.map Frame.decoded, f.Legal :=
      List.forall_mem_map.mpr fun f hf => (hsent f hf).decoded.1
    have hnone : Incomplete [] := .inl (by decide)
    rw [hw.stream_eq]
    simpa using (readStream_of_split headerBuf hlegal (.inr hnone)).delivered
  · intro f hf c hc
    obtain ⟨id, hid, rfl, hr⟩ := (hsent f hf).decoded.2.2 c hc
    exact ⟨hid, hr⟩
  · intro c hc
    have hmem := hw.served.mem_iff.mp (List.mem_append_left _ hc)
    exact List.mem_filterMap.mp hmem

/-- A server that gives back the payload it was sent, answering in the opposite order. -/
theorem calls_are_served_once_echo : ∃ w : Watch,
    w.served = [1, 0] ∧ w.conn.phase 0 = .returned (.response (.server ⟨0, [5]⟩ (some 0))) ∧
      ∀ c resp oc, w.conn.phase c = .returned (.response (.server resp oc)) →
        ∃ r, w.asked[c]? = some r ∧ resp = ⟨0, r.payload⟩ := by
  have hrun : watched.Run (Serves fun r resp => resp = ⟨0, r.payload⟩)
      { conn := State.ctor.connect }
      [.register CMD_FILE_TELL [5], .register CMD_FILE_READ [6], .enqueue 0, .enqueue 1, .transmit,
        .transmit, .answer 1 ⟨0, [6]⟩, .answer 0 ⟨0, [5]⟩, .complete, .complete, .finish 0] _ :=
    Machine.run_of_execAll rfl
  obtain ⟨-, -, -, -, -, -, hresults⟩ := calls_are_served_once _ ⟨_, _, rfl, hrun⟩
  exact ⟨_, rfl, rfl, hresults⟩

end RemoteConn
end ObZrv
