import Mathlib.Data.List.Perm.Basic
import ObZrv.Unifs.Pending

/-!
# Unifs.Replies

Whose response a call is given.

A request is in flight from the moment its frame is queued until its response has been taken off
the stream. The invariant `Matched` says that while the connection is open every request in flight
is still in the pending map under its own id, and that no request is in flight twice. A response
then finds the promise of its own call (`replies_reach_their_calls`), as long as no id is
allocated while it is still in the map. When one is, the older call loses its promise at once and
its response goes to the younger call (`replies_mixed_up`).
-/

namespace ObZrv
namespace RemoteConn

open Lib

/-- A request in flight: the id its frame or response carries, and its call. -/
abbrev Token := UInt16 × Option Call

def Frame.token (f : Frame) : Token := (f.reqId, f.call)

def Reply.token (r : Reply) : Token := (r.reqId, r.call)

def State.flight (s : State) : List Token :=
  (s.writeQueue ++ s.wire).map Frame.token ++ s.inbox.map Reply.token

/-- A token carries the id its call was given, and an open connection has it in the map. Tokens
of no call are heartbeats. -/
def TokenOk (s : State) : Token → Prop
  | (id, none) => id = 0
  | (id, some c) =>
    s.reqId c = some id ∧ s.phase c ≠ .idle ∧ s.phase c ≠ .registered ∧
      (s.connected = true → s.pending.lookup id = some c)

structure Matched (s : State) : Prop where
  settled : Settled s
  tokens : ∀ t ∈ s.flight, TokenOk s t
  nodup : (s.flight.filterMap (·.2)).Nodup
  registered : ∀ c, s.phase c = .registered → ∃ id, s.reqId c = some id ∧
    (s.connected = true → s.pending.lookup id = some c)
  fresh : ∀ c, s.nextCall ≤ c → s.phase c = .idle
  values : ∀ c resp oc, (s.promise c).value = some (.server resp oc) → oc = some c
  results : ∀ c resp oc, s.phase c = .returned (.response (.server resp oc)) → oc = some c

theorem matched_init : Matched State.ctor.connect where
  settled := settled_init
  tokens := by simp [State.flight, State.connect, State.ctor]
  nodup := by simp [State.flight, State.connect, State.ctor]
  registered := by simp [State.connect, State.ctor]
  fresh := by simp [State.connect, State.ctor]
  values := by simp [State.connect, State.ctor]
  results := by simp [State.connect, State.ctor]

section Steps

variable {s : State}

theorem Matched.not_in_flight (h : Matched s) {c : Call}
    (hp : s.phase c = .idle ∨ s.phase c = .registered) : c ∉ s.flight.filterMap (·.2) := by
  intro hc
  obtain ⟨⟨id, oc⟩, ht, rfl⟩ := List.mem_filterMap.mp hc
  obtain ⟨_, hi, hr, _⟩ := h.tokens _ ht
  exact hp.elim hi hr

/-- A call that changes its phase and does not become registered. -/
theorem Matched.update_registered (h : Matched s) {c : Call} {p : Phase} (hp : p ≠ .registered) :
    ∀ x, Function.update s.phase c p x = .registered → ∃ id, s.reqId x = some id ∧
      (s.connected = true → s.pending.lookup id = some x) := by
  refine (Function.forall_update_iff s.phase fun x p => p = .registered → ∃ id,
    s.reqId x = some id ∧ (s.connected = true → s.pending.lookup id = some x)).mpr ⟨?_, ?_⟩
  · intro he
    exact absurd he hp
  · intro x _
    exact h.registered x

/-- A call that changes its phase was given its number before. -/
theorem Matched.update_fresh (h : Matched s) {c : Call} {n : Nat} (hn : s.nextCall ≤ n) (hc : c < n)
    (p : Phase) : ∀ x, n ≤ x → Function.update s.phase c p x = .idle := by
  refine (Function.forall_update_iff s.phase fun x p => n ≤ x → p = .idle).mpr ⟨?_, ?_⟩
  · intro hle
    exact absurd hc (Nat.not_lt.mpr hle)
  · intro x _ hle
    exact h.fresh x (Nat.le_trans hn hle)

theorem Matched.update_results (h : Matched s) {c : Call} {p : Phase}
    (hp : ∀ resp oc, p = .returned (.response (.server resp oc)) → oc = some c) :
    ∀ x resp oc, Function.update s.phase c p x = .returned (.response (.server resp oc)) →
      oc = some x := by
  refine (Function.forall_update_iff s.phase fun x p => ∀ resp oc,
    p = .returned (.response (.server resp oc)) → oc = some x).mpr ⟨hp, ?_⟩
  intro x _
  exact h.results x

theorem Matched.lt_nextCall (h : Matched s) {c : Call} (hp : s.phase c ≠ .idle) :
    c < s.nextCall := by
  by_contra hle
  exact hp (h.fresh c (Nat.not_lt.mp hle))

/-- Two tokens of one call are one token. -/
theorem Matched.head_call_ne {t : Token} {ts : List Token} {c c' : Call} {id : UInt16}
    (hn : ((t :: ts).filterMap (·.2)).Nodup) (ht : t.2 = some c) (hm : (id, some c') ∈ ts) :
    c' ≠ c := by
  rintro rfl
  rw [List.filterMap_cons_some ht, List.nodup_cons] at hn
  exact hn.1 (List.mem_filterMap.mpr ⟨_, hm, rfl⟩)

theorem Matched.register (h : Matched s) (cmd : UInt8) (payload : List UInt8)
    (hfree : s.connected = true → s.pending.lookup s.nextReqId = none) :
    Matched (s.register cmd payload) := by
  have hidle := h.fresh s.nextCall le_rfl
  -- no call in flight is the one that registers
  have hne : ∀ id c, (id, some c) ∈ s.flight → c ≠ s.nextCall := by
    rintro id c ht rfl
    exact (h.tokens _ ht).2.1 hidle
  cases hc : s.connected with
  | false =>
    have hset := h.settled.register cmd payload hfree
    rw [register_closed hc] at hset ⊢
    refine ⟨hset, ?_, h.nodup, ?_, ?_, h.values, ?_⟩
    · rintro ⟨id, _ | c⟩ ht
      · exact h.tokens (id, none) ht
      · have hcn := hne id c ht
        simpa only [TokenOk, Function.update_of_ne hcn] using h.tokens (id, some c) ht
    · exact h.update_registered (by simp)
    · exact h.update_fresh (Nat.le_succ _) (Nat.lt_succ_self _) _
    · exact h.update_results (by simp)
  | true =>
    have hfree' := hfree hc
    have hset := h.settled.register cmd payload hfree
    rw [register_open hc hfree'] at hset ⊢
    have hkeep : ∀ id c, s.pending.lookup id = some c →
        (s.pending.insert s.nextReqId s.nextCall).lookup id = some c := by
      intro id c hl
      have hid : id ≠ s.nextReqId := by
        rintro rfl
        rw [hfree'] at hl
        cases hl
      rw [AList.lookup_insert_ne hid]
      exact hl
    refine ⟨hset, ?_, h.nodup, ?_, ?_, ?_, ?_⟩
    · rintro ⟨id, _ | c⟩ ht
      · exact h.tokens (id, none) ht
      · have hcn := hne id c ht
        obtain ⟨hr, hi, hg, hl⟩ := h.tokens (id, some c) ht
        simp only [TokenOk, Function.update_of_ne hcn]
        exact ⟨hr, hi, hg, fun _ => hkeep id c (hl hc)⟩
    · intro c hp
      by_cases hcn : c = s.nextCall
      · subst hcn
        exact ⟨s.nextReqId, by simp, fun _ => AList.lookup_insert _⟩
      · simp only [Function.update_of_ne hcn] at hp ⊢
        obtain ⟨id, hr, hl⟩ := h.registered c hp
        exact ⟨id, hr, fun _ => hkeep id c (hl hc)⟩
    · exact h.update_fresh (Nat.le_succ _) (Nat.lt_succ_self _) _
    · intro c resp oc hv
      by_cases hcn : c = s.nextCall
      · subst hcn
        simp at hv
      · simp only [Function.update_of_ne hcn] at hv
        exact h.values c resp oc hv
    · exact h.update_results (by simp)

/-- The response at the front of the stream meets the promise of its own call, or none. -/
theorem Matched.complete (h : Matched s) {r : Reply} {rest : List Reply}
    (hin : s.inbox = r :: rest) : Matched ({ s with inbox := rest }.completeResponse r) := by
  have hperm : s.flight.Perm (r.token :: State.flight { s with inbox := rest }) := by
    simp only [State.flight, hin, List.map_cons]
    exact List.perm_middle
  have hn : ((r.token :: State.flight { s with inbox := rest }).filterMap (·.2)).Nodup :=
    (hperm.filterMap _).nodup_iff.mp h.nodup
  have htok : ∀ t ∈ State.flight { s with inbox := rest }, TokenOk s t := fun t ht =>
    h.tokens t (hperm.mem_iff.mpr (List.mem_cons_of_mem _ ht))
  have hrest : ((State.flight { s with inbox := rest }).filterMap (·.2)).Nodup :=
    hn.sublist ((List.sublist_cons_self _ _).filterMap _)
  have hread : Settled { s with inbox := rest } := h.settled.congr ⟨rfl, rfl, rfl, rfl, rfl, rfl⟩
  have hset := hread.completeResponse r
  rcases completeResponse_cases { s with inbox := rest } r with he | ⟨c, h0, hl, he⟩
  · rw [he] at hset ⊢
    exact ⟨hset, htok, hrest, h.registered, h.fresh, h.values, h.results⟩
  · rw [he] at hset ⊢
    have hl : s.pending.lookup r.reqId = some c := hl
    have hopen : s.connected = true := by
      by_contra hc
      rw [h.settled.drained (by simpa using hc)] at hl
      cases hl
    -- the token of `r` says whose promise is under its id
    have hcall : r.call = some c := by
      have ht := h.tokens r.token (hperm.mem_iff.mpr List.mem_cons_self)
      cases hrc : r.call with
      | none =>
        rw [Reply.token, hrc] at ht
        exact absurd ht h0
      | some c' =>
        rw [Reply.token, hrc] at ht
        rw [← hl, ← ht.2.2.2 hopen]
    have hid : ∀ id x, x ≠ c → s.pending.lookup id = some x →
        (s.pending.erase r.reqId).lookup id = some x := by
      intro id x hx hlx
      have hne : id ≠ r.reqId := by
        rintro rfl
        exact hx (Option.some.inj (hlx.symm.trans hl))
      rw [AList.lookup_erase_ne hne]
      exact hlx
    refine ⟨hset, ?_, hrest, ?_, h.fresh, ?_, h.results⟩
    · rintro ⟨id, _ | x⟩ ht
      · exact htok (id, none) ht
      · have hx : x ≠ c := Matched.head_call_ne hn hcall ht
        obtain ⟨hr, hi, hg, hlx⟩ := htok (id, some x) ht
        exact ⟨hr, hi, hg, fun _ => hid id x hx (hlx hopen)⟩
    · intro x hp
      have hx : x ≠ c := by
        rintro rfl
        refine h.not_in_flight (.inr hp) ?_
        exact List.mem_filterMap.mpr
          ⟨r.token, hperm.mem_iff.mpr List.mem_cons_self, hcall⟩
      obtain ⟨id, hr, hlx⟩ := h.registered x hp
      exact ⟨id, hr, fun _ => hid id x hx (hlx hopen)⟩
    · intro x resp oc hv
      by_cases hx : x = c
      · subst hx
        simp only [Function.update_self, h.settled.held _ _ hl, setValue_fresh,
          Option.some.injEq, Answer.server.injEq] at hv
        rw [← hv.2, hcall]
      · simp only [Function.update_of_ne hx] at hv
        exact h.values x resp oc hv

theorem Matched.onDisconnect (h : Matched s) : Matched s.onDisconnect := by
  refine ⟨h.settled.onDisconnect, ?_, h.nodup, ?_, h.fresh, ?_, h.results⟩
  · rintro ⟨id, _ | c⟩ ht
    · exact h.tokens (id, none) ht
    · obtain ⟨hr, hi, hg, _⟩ := h.tokens (id, some c) ht
      exact ⟨hr, hi, hg, fun hc => by cases hc⟩
  · intro c hp
    obtain ⟨id, hr, _⟩ := h.registered c hp
    exact ⟨id, hr, fun hc => by cases hc⟩
  · intro c resp oc hv
    rcases h.settled.onDisconnect_promise c with ⟨_, _, hp⟩ | ⟨_, hp⟩ <;> rw [hp] at hv
    · simp at hv
    · exact h.values c resp oc hv

/-- Steps that only move tokens between queue, wire and stream. -/
theorem Matched.move (h : Matched s) {s' : State} (e : SameCore s s') (hp : s'.phase = s.phase)
    (hf : s'.flight.Perm s.flight) : Matched s' := by
  refine ⟨h.settled.congr e, ?_, ?_, ?_, ?_, ?_, ?_⟩
  · rintro ⟨id, _ | c⟩ ht
    · exact h.tokens (id, none) (hf.mem_iff.mp ht)
    · have := h.tokens (id, some c) (hf.mem_iff.mp ht)
      simpa only [TokenOk, e.reqId, e.connected, e.pending, hp] using this
  · exact (hf.filterMap _).nodup_iff.mpr h.nodup
  all_goals simp only [hp, e.reqId, e.connected, e.pending, e.nextCall, e.promise]
  exacts [h.registered, h.fresh, h.values, h.results]

theorem flight_enqueueWrite (s : State) (f : Frame) :
    (s.enqueueWrite f).flight.Perm (f.token :: s.flight) := by
  simp only [State.flight, State.enqueueWrite, List.append_assoc, List.map_append, List.map_cons,
    List.singleton_append]
  exact List.perm_middle

theorem flight_transmit {f : Frame} {q : List Frame} (hq : s.writeQueue = f :: q) :
    (State.flight { s with writeQueue := q, wire := s.wire ++ [f] }).Perm s.flight := by
  refine List.Perm.append_right _ (List.Perm.map _ ?_)
  rw [hq, ← List.append_assoc]
  exact List.perm_append_comm

theorem flight_answer {f : Frame} {i : Nat} (hf : s.wire[i]? = some f) (resp : Response) :
    (State.flight { s with
      wire := s.wire.eraseIdx i
      inbox := s.inbox ++ [⟨f.reqId, resp, f.call⟩] }).Perm s.flight := by
  have hwire : s.wire.Perm (f :: s.wire.eraseIdx i) := by
    obtain ⟨hi, rfl⟩ := List.getElem?_eq_some_iff.mp hf
    exact (List.getElem_cons_eraseIdx_perm hi).symm
  have hmap := hwire.map Frame.token
  rw [List.map_cons] at hmap
  have htoken : (Reply.mk f.reqId resp f.call).token = f.token := rfl
  simp only [State.flight, List.map_append, List.map_cons, List.map_nil, htoken, List.append_assoc]
  refine List.Perm.append_left _ ?_
  refine (List.perm_append_comm.append_left _).trans ?_
  rw [List.singleton_append]
  exact List.perm_middle.trans (List.Perm.append_right _ hmap.symm)

theorem Matched.enqueue (h : Matched s) {c : Call} {id : UInt16} {cmd : UInt8}
    {payload : List UInt8} (hp : s.phase c = .registered) (hr : s.reqId c = some id) :
    Matched { s.enqueueWrite ⟨buildFrame id cmd payload, some c⟩ with
      phase := Function.update s.phase c .waiting } := by
  have hnew : (Frame.mk (buildFrame id cmd payload) (some c)).token = (id, some c) := by
    rw [Frame.token, buildFrame_reqId]
  have hperm := flight_enqueueWrite s ⟨buildFrame id cmd payload, some c⟩
  rw [hnew] at hperm
  have hc := h.not_in_flight (.inr hp)
  have hreg := h.registered c hp
  refine ⟨h.settled.congr ⟨rfl, rfl, rfl, rfl, rfl, rfl⟩, ?_, ?_, ?_, ?_, h.values, ?_⟩
  · intro t ht
    rcases List.mem_cons.mp (hperm.mem_iff.mp ht) with rfl | hold
    · obtain ⟨id', hr', hl⟩ := hreg
      cases hr.symm.trans hr'
      exact ⟨hr, by simp, by simp, hl⟩
    · obtain ⟨id', _ | x⟩ := t
      · exact h.tokens (id', none) hold
      · have hx : x ≠ c := by
          rintro rfl
          exact hc (List.mem_filterMap.mpr ⟨(id', some x), hold, rfl⟩)
        simp only [TokenOk, Function.update_of_ne hx]
        exact h.tokens (id', some x) hold
  · refine (hperm.filterMap _).nodup_iff.mpr ?_
    exact List.nodup_cons.mpr ⟨hc, h.nodup⟩
  · exact h.update_registered (by simp)
  · exact h.update_fresh le_rfl (h.lt_nextCall (by simp [hp])) _
  · exact h.update_results (by simp)

/-- A waiting call returns; its result is its promise's value if it is a server response. -/
theorem Matched.ret (h : Matched s) {c : Call} {res : Result} (hp : s.phase c = .waiting)
    (hres : ∀ a, res = .response a → (s.promise c).value = some a) :
    Matched { s with phase := Function.update s.phase c (.returned res) } := by
  refine ⟨h.settled.congr ⟨rfl, rfl, rfl, rfl, rfl, rfl⟩, ?_, h.nodup, ?_, ?_, h.values, ?_⟩
  · rintro ⟨id, _ | x⟩ ht
    · exact h.tokens (id, none) ht
    · obtain ⟨hr, hi, hg, hl⟩ := h.tokens (id, some x) ht
      by_cases hxc : x = c
      · subst hxc
        exact ⟨hr, by simp, by simp, hl⟩
      · simp only [TokenOk, Function.update_of_ne hxc]
        exact ⟨hr, hi, hg, hl⟩
  · exact h.update_registered (by simp)
  · exact h.update_fresh le_rfl (h.lt_nextCall (by simp [hp])) _
  · refine h.update_results ?_
    intro resp oc hx
    exact h.values c resp oc (hres _ (Phase.returned.inj hx))

end Steps

theorem matched_step {s s' : State} {l : Label} (h : Matched s) (hfree : IdFree s l)
    (hs : conn.step s l s') : Matched s' := by
  have hs : exec s l = some s' := hs
  cases l with
  | register cmd payload =>
    cases hs
    exact h.register cmd payload hfree
  | enqueue c =>
    simp only [exec] at hs
    split at hs
    · rename_i id hp hr
      cases hs
      exact h.enqueue hp hr
    · cases hs
  | finish c =>
    simp only [exec] at hs
    split at hs
    · rename_i a _ hp hv
      cases hs
      exact h.ret hp fun _ he => by cases he; exact hv
    · rename_i hp _ _
      cases hs
      exact h.ret hp fun _ he => by cases he
    · cases hs
  | timeout c =>
    simp only [exec] at hs
    split at hs
    · rename_i hp _ _
      cases hs
      exact h.ret hp fun _ he => by cases he
    · cases hs
  | heartbeat =>
    cases hs
    have hperm := flight_enqueueWrite s ⟨buildFrame 0 CMD_HEARTBEAT [], none⟩
    have htoken : (Frame.mk (buildFrame 0 CMD_HEARTBEAT []) none).token = (0, none) := by
      rw [Frame.token, buildFrame_reqId]
    rw [htoken] at hperm
    refine ⟨h.settled.congr ⟨rfl, rfl, rfl, rfl, rfl, rfl⟩, ?_, ?_, h.registered, h.fresh,
      h.values, h.results⟩
    · intro t ht
      rcases List.mem_cons.mp (hperm.mem_iff.mp ht) with rfl | ht
      · rfl
      · exact h.tokens t ht
    · exact (hperm.filterMap _).nodup_iff.mpr h.nodup
  | transmit =>
    simp only [exec] at hs
    split at hs
    · cases hs
    · rename_i f q hq
      cases hs
      exact h.move ⟨rfl, rfl, rfl, rfl, rfl, rfl⟩ rfl (flight_transmit hq)
  | answer i resp =>
    simp only [exec] at hs
    split at hs
    · cases hs
    · rename_i f hf
      cases hs
      exact h.move ⟨rfl, rfl, rfl, rfl, rfl, rfl⟩ rfl (flight_answer hf resp)
  | complete =>
    simp only [exec] at hs
    split at hs
    · cases hs
    · rename_i r rest hin
      cases hs
      exact h.complete hin
  | disconnect =>
    cases hs
    exact h.onDisconnect

theorem matched_reach {s : State} (h : conn.Reach IdFree s) : Matched s := by
  refine h.holds (P := Matched) ?_ matched_step
  rintro s rfl
  exact matched_init

theorem Settled.not_broken {s : State} (h : Settled s) (c : Call) :
    (s.promise c).broken = false := by
  cases hr : s.reqId c with
  | none => rw [h.unused c hr]
  | some id =>
    by_cases hl : s.pending.lookup id = some c
    · rw [h.held id c hl]
    · exact (h.erased c id hr hl).kept

/-- **Every response reaches the request it answers**, in every run that allocates only ids that
are not in the map: ids are not 0, a call whose promise is not set is in the map under its own id,
two calls in the map have different ids, no promise is lost, and a call that returns a server
response returns the one to its own frame. A step that allocates an id still in the map destroys
the unset promise of the call that holds it. -/
theorem replies_reach_their_calls {s : State} (h : conn.Reach IdFree s) :
    (∀ c id, s.reqId c = some id → id ≠ 0) ∧
      (∀ c id, s.reqId c = some id → (s.promise c).value = none → s.pending.lookup id = some c) ∧
      (∀ c c' i i', s.pending.lookup i = some c → s.pending.lookup i' = some c' →
        s.reqId c = s.reqId c' → c = c') ∧
      (∀ c, (s.promise c).broken = false) ∧
      (∀ c resp oc, s.phase c = .returned (.response (.server resp oc)) → oc = some c) ∧
      ∀ s' l, conn.step s l s' → ¬ IdFree s l →
        ∃ c, s.pending.lookup s.nextReqId = some c ∧ (s'.promise c).broken = true := by
  have hm := matched_reach h
  refine ⟨fun c id hr => (hm.settled.given c id hr).1, ?_, ?_, hm.settled.not_broken, hm.results, ?_⟩
  · intro c id hr hv
    by_contra hl
    have := (hm.settled.erased c id hr hl).ready
    rw [hv] at this
    cases this
  · intro c c' i i' hl hl' hid
    rw [hm.settled.owner _ _ hl, hm.settled.owner _ _ hl'] at hid
    cases hid
    exact Option.some.inj (hl.symm.trans hl')
  · intro s' l hs hl
    cases l with
    | register cmd payload =>
      cases hs
      simp only [IdFree, Classical.not_imp] at hl
      obtain ⟨hopen, htaken⟩ := hl
      obtain ⟨c, hc⟩ := Option.ne_none_iff_exists'.mp htaken
      have hset := settled_reach h
      have hne := hset.lookup_ne_nextCall hc
      refine ⟨c, hc, ?_⟩
      rw [register_taken hopen hc]
      simp only [Function.update_of_ne hne, Function.update_self, hset.held _ _ hc]
      rfl
    | _ => exact absurd trivial hl

/-- Two requests registered one after the other and answered in the opposite order: each returns
the response to its own frame. -/
theorem replies_reach_their_calls_two : ∃ s : State,
    s.phase 0 = .returned (.response (.server ⟨0, [1]⟩ (some 0))) ∧
      s.phase 1 = .returned (.response (.server ⟨0, [2]⟩ (some 1))) ∧
      ∀ c resp oc, s.phase c = .returned (.response (.server resp oc)) → oc = some c := by
  have hrun : conn.Run IdFree State.ctor.connect
      [.register CMD_FILE_TELL [], .register CMD_FILE_READ [], .enqueue 0, .enqueue 1, .transmit,
        .transmit, .answer 1 ⟨0, [2]⟩, .answer 0 ⟨0, [1]⟩, .complete, .complete, .finish 0,
        .finish 1] _ := Machine.run_of_execAll rfl
  obtain ⟨-, -, -, -, hresults, -⟩ := replies_reach_their_calls ⟨_, _, rfl, hrun⟩
  exact ⟨_, rfl, rfl, hresults⟩

/-! ## Reuse of an id

`alloc_req_id_locked` does not look at the map, so after 65535 registrations the counter is back
at an id that may still be waiting for its response. -/

/-- After `k` registrations with nothing sent. -/
structure Registered (k : Nat) (s : State) : Prop where
  connected : s.connected = true
  nextCall : s.nextCall = k
  next : s.nextReqId = if k = 65535 then 1 else UInt16.ofNat (k + 1)
  lookup : ∀ id : UInt16, s.pending.lookup id =
    if 1 ≤ id.toNat ∧ id.toNat ≤ k then some (id.toNat - 1) else none
  phase : ∀ c, c < k → s.phase c = .registered
  reqId : ∀ c, c < k → s.reqId c = some (UInt16.ofNat (c + 1))
  promise : ∀ c, c < k → s.promise c = {}
  queue : s.writeQueue = []
  wire : s.wire = []
  inbox : s.inbox = []

theorem Registered.step {k : Nat} (hk : k < 65535) {s : State} (h : Registered k s)
    (cmd : UInt8) (payload : List UInt8) : Registered (k + 1) (s.register cmd payload) := by
  have hnext : s.nextReqId = UInt16.ofNat (k + 1) := by
    rw [h.next, if_neg (by omega)]
  have hval : (UInt16.ofNat (k + 1)).toNat = k + 1 := by
    rw [UInt16.toNat_ofNat']
    omega
  have hfree : s.pending.lookup s.nextReqId = none := by
    rw [h.lookup, hnext, hval, if_neg (by omega)]
  rw [register_open h.connected hfree]
  refine ⟨h.connected, by simp [h.nextCall], ?_, ?_, ?_, ?_, ?_, h.queue, h.wire, h.inbox⟩
  · simp only [hnext, allocReqIdLocked]
    have hsucc : UInt16.ofNat (k + 1) + 1 = UInt16.ofNat (k + 1 + 1) := by
      apply UInt16.toNat_inj.mp
      simp
    rw [hsucc]
    by_cases hlast : k + 1 = 65535
    · rw [if_pos hlast, hlast]
      rfl
    · have hne : UInt16.ofNat (k + 1 + 1) ≠ 0 := by
        intro he
        have := congrArg UInt16.toNat he
        rw [UInt16.toNat_ofNat'] at this
        simp at this
        omega
      rw [if_neg hne, if_neg hlast]
  · intro id
    by_cases hid : id = s.nextReqId
    · subst hid
      rw [AList.lookup_insert, hnext, hval, if_pos (by omega), h.nextCall]
      rfl
    · have hne : id.toNat ≠ k + 1 := by
        intro he
        refine hid (UInt16.toNat_inj.mp ?_)
        rw [he, hnext, hval]
      rw [AList.lookup_insert_ne hid, h.lookup]
      simp only [show (1 ≤ id.toNat ∧ id.toNat ≤ k + 1) ↔ (1 ≤ id.toNat ∧ id.toNat ≤ k) by omega]
  all_goals
    intro c hc
    by_cases hcn : c = s.nextCall
    · subst hcn
      simp [hnext, h.nextCall]
    · have hlt : c < k := by rw [h.nextCall] at hcn; omega
      simp only [Function.update_of_ne hcn, h.phase c hlt, h.reqId c hlt, h.promise c hlt]

theorem register_many : ∀ k, k ≤ 65535 → ∃ s,
    conn.Reach Machine.always s ∧ Registered k s := by
  intro k
  induction k with
  | zero =>
    intro _
    refine ⟨_, .of_init rfl, rfl, rfl, rfl, ?_, ?_, ?_, ?_, rfl, rfl, rfl⟩
    · intro id
      rw [if_neg (by omega)]
      rfl
    all_goals exact fun c hc => absurd hc (Nat.not_lt_zero c)
  | succ k ih =>
    intro hk
    obtain ⟨s, hs, hreg⟩ := ih (by omega)
    exact ⟨s.register CMD_FILE_READ [], hs.step (l := .register CMD_FILE_READ []) trivial rfl,
      hreg.step (by omega) _ _⟩

/-- Two calls with one id: the response to the frame of `c` is returned by `c'`, which holds the
entry in the map. -/
theorem response_to_other_call {s : State} (c c' : Call) {id : UInt16} (hne : c' ≠ c)
    (hid : id ≠ 0) (hp : s.phase c = .registered) (hp' : s.phase c' = .registered)
    (hr : s.reqId c = some id) (hr' : s.reqId c' = some id)
    (hl : s.pending.lookup id = some c') (hv : s.promise c' = {}) (hq : s.writeQueue = [])
    (hw : s.wire = []) (hi : s.inbox = []) (resp : Response) :
    ∃ s', Machine.execAll exec Machine.always s
        [.enqueue c, .enqueue c', .transmit, .answer 0 resp, .complete, .finish c'] = some s' ∧
      s'.phase c' = .returned (.response (.server resp (some c))) ∧
      s'.promise c = s.promise c := by
  simp [Machine.execAll, Machine.always, exec, State.enqueueWrite, State.completeResponse,
    buildFrame_reqId, Promise.setValue, Function.update_of_ne, *, hne.symm]

/-- 65536 requests are registered before the first one is answered. The last one is given the id
of the first one, whose promise is destroyed; the response to the first frame is then returned by
the last call. -/
theorem replies_mixed_up : ∃ s, conn.Reach Machine.always s ∧ (s.promise 0).broken = true ∧
    s.phase 65535 = .returned (.response (.server ⟨STATUS_OK, [7]⟩ (some 0))) := by
  obtain ⟨s, hs, h⟩ := register_many 65535 le_rfl
  have hnext : s.nextReqId = 1 := by simp [h.next]
  have hcall : s.nextCall = 65535 := h.nextCall
  have hold : s.pending.lookup 1 = some 0 := by simp [h.lookup]
  have htaken : s.pending.lookup s.nextReqId = some 0 := by rw [hnext]; exact hold
  have hs₁ : conn.Reach Machine.always (s.register CMD_FILE_READ []) :=
    hs.step (l := Label.register CMD_FILE_READ []) trivial rfl
  have e₁ := register_taken h.connected htaken CMD_FILE_READ []
  rw [hcall, hnext, h.promise 0 (by decide)] at e₁
  rw [e₁] at hs₁
  obtain ⟨s', hrun, hphase, hpromise⟩ := response_to_other_call 0 65535
    (s := { s with
      nextReqId := (allocReqIdLocked 1).2
      pending := s.pending.insert 1 65535
      promise := Function.update (Function.update s.promise 0 ({} : Promise).destroy) 65535 {}
      phase := Function.update s.phase 65535 .registered
      reqId := Function.update s.reqId 65535 (some 1)
      args := Function.update s.args 65535 (CMD_FILE_READ, [])
      nextCall := 65535 + 1 })
    (by decide) (by decide) (h.phase 0 (by decide)) (by simp) (h.reqId 0 (by decide)) (by simp)
    (AList.lookup_insert _) (by simp) h.queue h.wire h.inbox ⟨STATUS_OK, [7]⟩
  refine ⟨s', hs₁.extend (Machine.run_of_execAll hrun), ?_, hphase⟩
  rw [hpromise]
  rfl

end RemoteConn
end ObZrv
