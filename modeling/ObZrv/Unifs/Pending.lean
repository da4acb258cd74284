import ObZrv.Unifs.RemoteConn

/-!
# Unifs.Pending

What the mutex-protected sections of `RemoteConn` keep between `connected_`, the pending map and
the promises, as long as no id is allocated while it is still in the map (`IdFree`).

* `Settled`           : the invariant. A registered call is either in the map under its own id
  with an untouched promise, or its promise has been set exactly once; a closed connection has an
  empty map.
* `settled_step`      : every step keeps it.
* `disconnect_releases_callers` : after `on_disconnect` the map stays empty, the flag stays false
  and every call registered before it has its answer.
-/

namespace ObZrv
namespace RemoteConn

open Lib

/-- Set exactly once, and not destroyed before. -/
structure Promise.Fulfilled (p : Promise) : Prop where
  once : p.sets = 1
  ready : p.value.isSome
  kept : p.broken = false

theorem Promise.fulfilled_setValue_fresh (a : Answer) : (({} : Promise).setValue a).Fulfilled :=
  ⟨rfl, rfl, rfl⟩

/-- The link between flag, map and promises. -/
structure Settled (s : State) : Prop where
  next_ne : s.nextReqId ≠ 0
  drained : s.connected = false → s.pending = ∅
  given : ∀ c id, s.reqId c = some id → id ≠ 0 ∧ c < s.nextCall
  owner : ∀ id c, s.pending.lookup id = some c → s.reqId c = some id
  held : ∀ id c, s.pending.lookup id = some c → s.promise c = {}
  erased : ∀ c id, s.reqId c = some id → s.pending.lookup id ≠ some c → (s.promise c).Fulfilled
  unused : ∀ c, s.reqId c = none → s.promise c = {}

theorem settled_init : Settled State.ctor.connect where
  next_ne := by decide
  drained := by simp [State.connect]
  given := by simp [State.connect, State.ctor]
  owner := by simp [State.connect, State.ctor]
  held := by simp [State.connect, State.ctor]
  erased := by simp [State.connect, State.ctor]
  unused := by simp [State.connect, State.ctor]

section Sections

variable {s : State}

theorem Settled.reqId_nextCall (h : Settled s) : s.reqId s.nextCall = none := by
  cases hr : s.reqId s.nextCall with
  | none => rfl
  | some id => exact absurd (h.given _ _ hr).2 (Nat.lt_irrefl _)

theorem Settled.lookup_ne_nextCall (h : Settled s) {id : UInt16} {c : Call}
    (hl : s.pending.lookup id = some c) : c ≠ s.nextCall := by
  rintro rfl
  have := h.owner _ _ hl
  rw [h.reqId_nextCall] at this
  cases this

theorem Settled.register (h : Settled s) (cmd : UInt8) (payload : List UInt8)
    (hfree : s.connected = true → s.pending.lookup s.nextReqId = none) :
    Settled (s.register cmd payload) := by
  cases hc : s.connected with
  | false =>
    rw [register_closed hc]
    exact ⟨h.next_ne, h.drained, fun c id hr => ⟨(h.given c id hr).1,
      Nat.lt_succ_of_lt (h.given c id hr).2⟩, h.owner, h.held, h.erased, h.unused⟩
  | true =>
    have hfree := hfree hc
    rw [register_open hc hfree]
    -- the new entry is `nextReqId ↦ nextCall`; every other entry is as before
    have hother : ∀ id c, c ≠ s.nextCall →
        (s.pending.insert s.nextReqId s.nextCall).lookup id = some c →
        s.pending.lookup id = some c := by
      intro id c hne hl
      by_cases hid : id = s.nextReqId
      · subst hid
        rw [AList.lookup_insert] at hl
        exact absurd (Option.some.inj hl).symm hne
      · rwa [AList.lookup_insert_ne hid] at hl
    have hnew : ∀ id, (s.pending.insert s.nextReqId s.nextCall).lookup id = some s.nextCall →
        id = s.nextReqId := by
      intro id hl
      by_contra hid
      rw [AList.lookup_insert_ne hid] at hl
      exact h.lookup_ne_nextCall hl rfl
    refine ⟨allocReqIdLocked_snd_ne_zero _, ?_, ?_, ?_, ?_, ?_, ?_⟩
    · simp [hc]
    · intro c id hr
      by_cases hcn : c = s.nextCall
      · subst hcn
        simp only [Function.update_self, Option.some.injEq] at hr
        exact ⟨hr ▸ h.next_ne, Nat.lt_succ_self _⟩
      · simp only [Function.update_of_ne hcn] at hr
        exact ⟨(h.given c id hr).1, Nat.lt_succ_of_lt (h.given c id hr).2⟩
    · intro id c hl
      by_cases hcn : c = s.nextCall
      · subst hcn
        simp only [Function.update_self, hnew id hl]
      · simp only [Function.update_of_ne hcn]
        exact h.owner id c (hother id c hcn hl)
    · intro id c hl
      by_cases hcn : c = s.nextCall
      · subst hcn
        simp only [Function.update_self]
      · simp only [Function.update_of_ne hcn]
        exact h.held id c (hother id c hcn hl)
    · intro c id hr hl
      by_cases hcn : c = s.nextCall
      · subst hcn
        simp only [Function.update_self, Option.some.injEq] at hr
        subst hr
        exact absurd (AList.lookup_insert _) hl
      · simp only [Function.update_of_ne hcn] at hr ⊢
        refine h.erased c id hr fun hold => hl ?_
        have hid : id ≠ s.nextReqId := by
          rintro rfl
          rw [hfree] at hold
          cases hold
        rw [AList.lookup_insert_ne hid]
        exact hold
    · intro c hr
      by_cases hcn : c = s.nextCall
      · subst hcn
        simp only [Function.update_self]
      · simp only [Function.update_of_ne hcn] at hr ⊢
        exact h.unused c hr

theorem Settled.completeResponse (h : Settled s) (r : Reply) :
    Settled (s.completeResponse r) := by
  rcases completeResponse_cases s r with he | ⟨c, _, hl, he⟩
  · rw [he]; exact h
  · rw [he]
    have hreq := h.owner _ _ hl
    -- the map loses exactly the entry of `c`
    have hsub : ∀ id x, (s.pending.erase r.reqId).lookup id = some x →
        id ≠ r.reqId ∧ s.pending.lookup id = some x := by
      intro id x hx
      by_cases hid : id = r.reqId
      · subst hid
        rw [AList.lookup_erase] at hx
        cases hx
      · exact ⟨hid, by rwa [AList.lookup_erase_ne hid] at hx⟩
    have hne : ∀ id x, (s.pending.erase r.reqId).lookup id = some x → x ≠ c := by
      rintro id x hx rfl
      obtain ⟨hid, hx⟩ := hsub id _ hx
      exact hid (Option.some.inj ((h.owner _ _ hx).symm.trans hreq))
    refine ⟨h.next_ne, ?_, h.given, ?_, ?_, ?_, ?_⟩
    · intro hc
      rw [h.drained hc] at hl
      cases hl
    · intro id x hx
      exact h.owner id x (hsub id x hx).2
    · intro id x hx
      simp only [Function.update_of_ne (hne id x hx)]
      exact h.held id x (hsub id x hx).2
    · intro x id hx hlx
      by_cases hxc : x = c
      · subst hxc
        simp only [Function.update_self, h.held _ _ hl]
        exact Promise.fulfilled_setValue_fresh _
      · simp only [Function.update_of_ne hxc]
        refine h.erased x id hx fun hold => hlx ?_
        have hid : id ≠ r.reqId := by
          rintro rfl
          exact hxc (Option.some.inj (hold.symm.trans hl))
        rw [AList.lookup_erase_ne hid]
        exact hold
    · intro x hx
      have hxc : x ≠ c := by
        rintro rfl
        rw [hreq] at hx
        cases hx
      simp only [Function.update_of_ne hxc]
      exact h.unused x hx

theorem Settled.onDisconnect_promise (h : Settled s) (c : Call) :
    (∃ id, s.pending.lookup id = some c ∧
        s.onDisconnect.promise c = ({} : Promise).setValue .dropped) ∨
      (∀ id, s.pending.lookup id ≠ some c) ∧ s.onDisconnect.promise c = s.promise c := by
  by_cases hc : ∃ id, s.pending.lookup id = some c
  · obtain ⟨id, hl⟩ := hc
    refine .inl ⟨id, hl, ?_⟩
    simp only [State.onDisconnect, held_one h.owner hl, h.held id c hl]
    rfl
  · have hc : ∀ id, s.pending.lookup id ≠ some c := fun id hl => hc ⟨id, hl⟩
    refine .inr ⟨hc, ?_⟩
    simp only [State.onDisconnect, held_zero hc]
    rfl

theorem Settled.onDisconnect (h : Settled s) : Settled s.onDisconnect := by
  refine ⟨h.next_ne, fun _ => rfl, h.given, ?_, ?_, ?_, ?_⟩
  · intro id c hl
    cases hl
  · intro id c hl
    cases hl
  · intro c id hr _
    rcases h.onDisconnect_promise c with ⟨_, _, hp⟩ | ⟨hno, hp⟩
    · rw [hp]; exact Promise.fulfilled_setValue_fresh _
    · rw [hp]; exact h.erased c id hr (hno id)
  · intro c hr
    rcases h.onDisconnect_promise c with ⟨id, hl, _⟩ | ⟨_, hp⟩
    · have := h.owner id c hl
      rw [show s.reqId c = none from hr] at this
      cases this
    · rw [hp]; exact h.unused c hr

end Sections

/-! ## Steps -/

/-- The fields the pending invariant speaks about are the same. -/
structure SameCore (s s' : State) : Prop where
  connected : s'.connected = s.connected
  nextReqId : s'.nextReqId = s.nextReqId
  pending : s'.pending = s.pending
  promise : s'.promise = s.promise
  reqId : s'.reqId = s.reqId
  nextCall : s'.nextCall = s.nextCall

theorem Settled.congr {s s' : State} (h : Settled s) (e : SameCore s s') : Settled s' := by
  refine ⟨?_, ?_, ?_, ?_, ?_, ?_, ?_⟩ <;>
    simp only [e.connected, e.nextReqId, e.pending, e.promise, e.reqId, e.nextCall]
  exacts [h.next_ne, h.drained, h.given, h.owner, h.held, h.erased, h.unused]

/-- The steps other than the three locked sections leave flag, map and promises alone. -/
theorem exec_cases {s s' : State} {l : Label} (h : exec s l = some s') :
    (∃ cmd payload, l = .register cmd payload ∧ s' = s.register cmd payload) ∨
      (∃ r rest, l = .complete ∧ s.inbox = r :: rest ∧
        s' = ({ s with inbox := rest }.completeResponse r)) ∨
      (l = .disconnect ∧ s' = s.onDisconnect) ∨ SameCore s s' := by
  cases l with
  | register cmd payload => cases h; exact .inl ⟨cmd, payload, rfl, rfl⟩
  | disconnect => cases h; exact .inr (.inr (.inl ⟨rfl, rfl⟩))
  | complete =>
    simp only [exec] at h
    split at h
    · cases h
    · rename_i r rest hin
      cases h
      exact .inr (.inl ⟨r, rest, rfl, hin, rfl⟩)
  | heartbeat =>
    cases h
    exact .inr (.inr (.inr ⟨rfl, rfl, rfl, rfl, rfl, rfl⟩))
  | enqueue c | finish c | timeout c | transmit | answer i resp =>
    simp only [exec] at h
    split at h <;> cases h <;> exact .inr (.inr (.inr ⟨rfl, rfl, rfl, rfl, rfl, rfl⟩))

theorem settled_step {s s' : State} {l : Label} (h : Settled s) (hfree : IdFree s l)
    (hs : conn.step s l s') : Settled s' := by
  rcases exec_cases hs with ⟨cmd, payload, rfl, rfl⟩ | ⟨r, rest, rfl, _, rfl⟩ | ⟨rfl, rfl⟩ | e
  · exact h.register cmd payload hfree
  · have : Settled { s with inbox := rest } := h.congr ⟨rfl, rfl, rfl, rfl, rfl, rfl⟩
    exact this.completeResponse r
  · exact h.onDisconnect
  · exact h.congr e

theorem settled_reach {s : State} (h : conn.Reach IdFree s) : Settled s := by
  refine h.holds (P := Settled) ?_ settled_step
  rintro s rfl
  exact settled_init

/-! ## After a disconnect -/

/-- A closed connection is never opened again, and a call keeps its id. -/
theorem closed_step {s s' : State} {l : Label} (hs : conn.step s l s')
    (hc : s.connected = false) :
    s'.connected = false ∧ ∀ c id, s.reqId c = some id → s'.reqId c = some id := by
  rcases exec_cases hs with ⟨cmd, payload, rfl, rfl⟩ | ⟨r, rest, rfl, _, rfl⟩ | ⟨rfl, rfl⟩ | e
  · rw [register_closed hc]
    exact ⟨hc, fun _ _ hr => hr⟩
  · rcases completeResponse_cases { s with inbox := rest } r with he | ⟨c, _, _, he⟩ <;>
      rw [he] <;> exact ⟨hc, fun _ _ hr => hr⟩
  · exact ⟨rfl, fun _ _ hr => hr⟩
  · rw [e.connected, e.reqId]
    exact ⟨hc, fun _ _ hr => hr⟩

theorem closed_run {s s' : State} {ls : List Label} (hr : conn.Run IdFree s ls s')
    (h : Settled s) (hc : s.connected = false) :
    Settled s' ∧ s'.connected = false ∧ ∀ c id, s.reqId c = some id → s'.reqId c = some id := by
  induction hr with
  | nil => exact ⟨h, hc, fun _ _ hr => hr⟩
  | cons hok hs _ ih =>
    obtain ⟨hc₁, hk₁⟩ := closed_step hs hc
    obtain ⟨h', hc', hk'⟩ := ih (settled_step h hok hs) hc₁
    exact ⟨h', hc', fun c id hr => hk' c id (hk₁ c id hr)⟩

/-- In a settled closed state every call that was given an id has its answer. -/
theorem Settled.fulfilled_of_closed {s : State} (h : Settled s) (hc : s.connected = false)
    {c : Call} {id : UInt16} (hr : s.reqId c = some id) : (s.promise c).Fulfilled := by
  refine h.erased c id hr ?_
  rw [h.drained hc]
  simp

/-- **No caller is left waiting on a dead connection.** In every state reached, a promise that is
no longer in the map has been fulfilled exactly once. Once `on_disconnect` has run, the flag is
false and the map empty for the rest of the run, and every call that had registered by then has
its answer, which it keeps. -/
theorem disconnect_releases_callers :
    (∀ s, conn.Reach IdFree s → ∀ c id, s.reqId c = some id → s.pending.lookup id ≠ some c →
      (s.promise c).Fulfilled) ∧
    (∀ s s₁ s₂ ls, conn.Reach IdFree s → conn.step s .disconnect s₁ → conn.Run IdFree s₁ ls s₂ →
      s₂.connected = false ∧ s₂.pending = ∅ ∧
        ∀ c id, s.reqId c = some id → (s₁.promise c).Fulfilled ∧ (s₂.promise c).Fulfilled) := by
  refine ⟨fun s h => (settled_reach h).erased, ?_⟩
  intro s s₁ s₂ ls h hd hr
  obtain rfl : s.onDisconnect = s₁ := Option.some.inj hd
  have h₁ := (settled_reach h).onDisconnect
  obtain ⟨h₂, hc₂, hkeep⟩ := closed_run hr h₁ rfl
  refine ⟨hc₂, h₂.drained hc₂, fun c id hid => ⟨?_, ?_⟩⟩
  · exact h₁.fulfilled_of_closed rfl hid
  · exact h₂.fulfilled_of_closed hc₂ (hkeep c id hid)

/-- Two calls wait when the connection goes down. -/
theorem disconnect_releases_callers_two :
    let s := (State.ctor.connect.register CMD_FILE_READ []).register CMD_FILE_TELL []
    (s.onDisconnect.promise 0).Fulfilled ∧ (s.onDisconnect.promise 1).Fulfilled ∧
      s.onDisconnect.onDisconnect.pending = ∅ ∧
      (s.onDisconnect.onDisconnect.promise 0).Fulfilled ∧
      (s.onDisconnect.onDisconnect.promise 1).Fulfilled := by
  have hreach : conn.Reach IdFree
      ((State.ctor.connect.register CMD_FILE_READ []).register CMD_FILE_TELL []) :=
    ((Machine.Reach.of_init rfl).step (l := .register CMD_FILE_READ []) (fun _ => rfl) rfl).step
      (l := .register CMD_FILE_TELL []) (fun _ => by decide) rfl
  have hdrop : ∀ s, conn.Run IdFree s [Label.disconnect] s.onDisconnect :=
    fun _ => .single (l := Label.disconnect) trivial rfl
  obtain ⟨-, hpending, hkept⟩ := disconnect_releases_callers.2 _ _ _ _ hreach rfl (hdrop _)
  have hdown := disconnect_releases_callers.1 _ (hreach.extend (hdrop _))
  exact ⟨hdown 0 1 rfl (by decide), hdown 1 2 rfl (by decide), hpending, (hkept 0 1 rfl).2,
    (hkept 1 2 rfl).2⟩

end RemoteConn
end ObZrv
