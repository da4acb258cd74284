import ObZrv.Unifs.RemoteConn

/-!
# Unifs.WriteQueue

The write queue of `unifs/remote_conn.cpp`: `enqueue_write` on any thread, `do_write` and the
completion handler of `async_write` on the IO thread. The steps of the IO thread are cut at
`write_mutex_`, so a frame can be enqueued between any two of them.

A queue element is named by its serial number, in the order of `push_back`. The buffer of an
`async_write` is such a number, as a pointer to the element, and its bytes are read when they are
handed to the socket.

* `good_step`              : what a step without a write error keeps.
* `frames_written_in_order` : the queue writes every frame once, in order, and strands none.
* `step_simulates`         : the queue of `RemoteConn` with its step `transmit` is this one.
-/

namespace ObZrv
namespace WriteQueue

open Lib

/-- Where the IO thread is: outside the write code, in `do_write` before its locked section, past
it with a pointer to the front, or in the completion handler before its locked section. -/
inductive IoThread where
  | idle
  | doWrite
  | front (buf : Nat)
  | written
deriving DecidableEq, Repr

structure Write where
  buf : Nat
  sent : Nat
deriving DecidableEq, Repr

structure State where
  queue : List (List UInt8) := []
  popped : Nat := 0
  writing : Bool := false
  posted : Nat := 0
  io : IoThread := .idle
  inFlight : List Write := []
  socket : List UInt8 := []
deriving DecidableEq, Repr

/-- The queue element of a serial number; `none` once it has been popped. -/
def State.element (s : State) (buf : Nat) : Option (List UInt8) :=
  if buf < s.popped then none else s.queue[buf - s.popped]?

def State.enqueueWrite (s : State) (frame : List UInt8) : State :=
  if s.writing then { s with queue := s.queue ++ [frame] }
  else { s with queue := s.queue ++ [frame], writing := true, posted := s.posted + 1 }

inductive Label where
  | enqueue (frame : List UInt8)
  | dispatch
  | lock
  | start
  | transfer (i n : Nat)
  | complete (i : Nat)
  | pop
  | error (i : Nat)
deriving DecidableEq, Repr

/-- One step; `none` where the step is not enabled. A handler is only entered when the IO thread is
idle, and `async_write` completes when its whole buffer has been handed over. -/
def exec (s : State) : Label → Option State
  | .enqueue frame => some (s.enqueueWrite frame)
  | .dispatch =>
    if s.io = .idle ∧ 0 < s.posted then
      some { s with posted := s.posted - 1, io := .doWrite }
    else none
  | .lock =>
    match s.io, s.queue with
    | .doWrite, [] => some { s with writing := false, io := .idle }
    | .doWrite, _ :: _ => some { s with io := .front s.popped }
    | _, _ => none
  | .start =>
    match s.io with
    | .front buf => some { s with io := .idle, inFlight := s.inFlight ++ [⟨buf, 0⟩] }
    | _ => none
  | .transfer i n =>
    match s.inFlight[i]? with
    | none => none
    | some w =>
      match s.element w.buf with
      | none => none
      | some frame =>
        if 0 < n ∧ w.sent + n ≤ frame.length then
          some { s with
            inFlight := s.inFlight.set i { w with sent := w.sent + n }
            socket := s.socket ++ (frame.drop w.sent).take n }
        else none
  | .complete i =>
    match s.io, s.inFlight[i]? with
    | .idle, some w =>
      match s.element w.buf with
      | none => none
      | some frame =>
        if w.sent = frame.length then
          some { s with io := .written, inFlight := s.inFlight.eraseIdx i }
        else none
    | _, _ => none
  | .pop =>
    match s.io, s.queue with
    | .written, _ :: queue =>
      some { s with queue, popped := s.popped + 1, io := .doWrite }
    | _, _ => none
  | .error i =>
    match s.io, s.inFlight[i]? with
    | .idle, some _ => some { s with inFlight := s.inFlight.eraseIdx i }
    | _, _ => none

def writer : Machine State Label := .ofExec (· = {}) exec

/-- The steps before the first write error. -/
def NoError (_ : State) : Label → Prop
  | .error _ => False
  | _ => True

instance (s : State) : (l : Label) → Decidable (NoError s l)
  | .error _ => .isFalse id
  | .enqueue _ | .dispatch | .lock | .start | .transfer _ _ | .complete _ | .pop => .isTrue trivial

def Label.enqueued : Label → Option (List UInt8)
  | .enqueue frame => some frame
  | _ => none

/-- The steps of the IO thread and the socket before the first write error. -/
def OnlyIo (s : State) (l : Label) : Prop := NoError s l ∧ l.enqueued = none

/-! ## The invariant -/

def State.doWriteRuns (s : State) : Prop := s.io = .doWrite ∨ ∃ buf, s.io = .front buf

/-- The bytes of the front that the socket has been given. -/
def State.handed (s : State) : List UInt8 :=
  match s.inFlight with
  | w :: _ => (s.queue.headD []).take w.sent
  | [] => if s.io = .written then s.queue.headD [] else []

/-- Who has the turn: the flag stands for one posted handler, one activity of the IO thread or one
write in flight, and the last two are about the front. -/
inductive Turn (s : State) : Prop where
  | quiet (writing : s.writing = false) (posted : s.posted = 0) (io : s.io = .idle)
      (inFlight : s.inFlight = []) (queue : s.queue = [])
  | posted (writing : s.writing = true) (posted : s.posted = 1) (io : s.io = .idle)
      (inFlight : s.inFlight = [])
  | doWrite (writing : s.writing = true) (posted : s.posted = 0) (io : s.io = .doWrite)
      (inFlight : s.inFlight = [])
  | front (writing : s.writing = true) (posted : s.posted = 0) (io : s.io = .front s.popped)
      (inFlight : s.inFlight = []) (queue : s.queue ≠ [])
  | inFlight (n : Nat) (writing : s.writing = true) (posted : s.posted = 0) (io : s.io = .idle)
      (inFlight : s.inFlight = [⟨s.popped, n⟩]) (queue : s.queue ≠ [])
      (sent : n ≤ (s.queue.headD []).length)
  | written (writing : s.writing = true) (posted : s.posted = 0) (io : s.io = .written)
      (inFlight : s.inFlight = []) (queue : s.queue ≠ [])

/-- The state after the frames `frames` have been enqueued. -/
structure Good (frames : List (List UInt8)) (s : State) : Prop where
  turn : Turn s
  popped_le : s.popped ≤ frames.length
  queue : s.queue = frames.drop s.popped
  socket : s.socket = (frames.take s.popped).flatten ++ s.handed

variable {frames : List (List UInt8)} {s s' : State}

theorem good_init : Good [] {} := ⟨.quiet rfl rfl rfl rfl rfl, by simp, rfl, rfl⟩

theorem enqueueWrite_eq (s : State) (frame : List UInt8) :
    s.enqueueWrite frame = { s with
      queue := s.queue ++ [frame]
      writing := true
      posted := if s.writing then s.posted else s.posted + 1 } := by
  unfold State.enqueueWrite
  cases s.writing <;> simp

theorem headD_append {queue : List (List UInt8)} (h : queue ≠ []) (frame : List UInt8) :
    (queue ++ [frame]).headD [] = queue.headD [] := by
  cases queue with
  | nil => exact absurd rfl h
  | cons f rest => rfl

theorem Turn.enqueue (h : Turn s) (frame : List UInt8) : Turn (s.enqueueWrite frame) := by
  rw [enqueueWrite_eq]
  have hne : s.queue ++ [frame] ≠ [] := by simp
  cases h with
  | quiet writing posted io inFlight queue =>
    exact .posted rfl (by simp [writing, posted]) io inFlight
  | posted writing posted io inFlight =>
    exact .posted rfl (by simp [writing, posted]) io inFlight
  | doWrite writing posted io inFlight =>
    exact .doWrite rfl (by simp [writing, posted]) io inFlight
  | front writing posted io inFlight queue =>
    exact .front rfl (by simp [writing, posted]) io inFlight hne
  | inFlight n writing posted io inFlight queue sent =>
    refine .inFlight n rfl (by simp [writing, posted]) io inFlight hne ?_
    rwa [headD_append queue]
  | written writing posted io inFlight queue =>
    exact .written rfl (by simp [writing, posted]) io inFlight hne

theorem Turn.handed_enqueue (h : Turn s) (frame : List UInt8) :
    (s.enqueueWrite frame).handed = s.handed := by
  rw [enqueueWrite_eq]
  cases h with
  | quiet writing posted io inFlight queue => simp [State.handed, inFlight, io]
  | posted writing posted io inFlight => simp [State.handed, inFlight, io]
  | doWrite writing posted io inFlight => simp [State.handed, inFlight, io]
  | front writing posted io inFlight queue => simp [State.handed, inFlight, io]
  | inFlight n writing posted io inFlight queue sent =>
    simp only [State.handed, inFlight, headD_append queue]
  | written writing posted io inFlight queue =>
    simp only [State.handed, inFlight, io, headD_append queue]

theorem Good.enqueue (h : Good frames s) (frame : List UInt8) :
    Good (frames ++ [frame]) (s.enqueueWrite frame) := by
  refine ⟨h.turn.enqueue frame, ?_, ?_, ?_⟩
  · rw [enqueueWrite_eq, List.length_append]
    exact Nat.le_add_right_of_le h.popped_le
  · rw [enqueueWrite_eq, List.drop_append_of_le_length h.popped_le, h.queue]
  · rw [h.turn.handed_enqueue, enqueueWrite_eq, List.take_append_of_le_length h.popped_le]
    exact h.socket

theorem Turn.of_getElem (h : Turn s) {i : Nat} {w : Write} (hw : s.inFlight[i]? = some w) :
    i = 0 ∧ s.writing = true ∧ s.posted = 0 ∧ s.io = .idle ∧ w.buf = s.popped ∧
      s.inFlight = [⟨s.popped, w.sent⟩] ∧ ∃ f rest, s.queue = f :: rest ∧ s.element w.buf = some f := by
  have hempty : s.inFlight ≠ [] := by
    rintro h
    simp [h] at hw
  cases h with
  | inFlight n writing posted io inFlight queue sent =>
    obtain ⟨f, rest, hq⟩ := List.exists_cons_of_ne_nil queue
    rw [inFlight] at hw
    obtain ⟨rfl, rfl⟩ : i = 0 ∧ w = ⟨s.popped, n⟩ := by
      cases i with
      | zero => exact ⟨rfl, (Option.some.inj hw).symm⟩
      | succ i => simp at hw
    exact ⟨rfl, writing, posted, io, rfl, inFlight, f, rest, hq, by simp [State.element, hq]⟩
  | quiet writing posted io inFlight queue => exact absurd inFlight hempty
  | posted writing posted io inFlight => exact absurd inFlight hempty
  | doWrite writing posted io inFlight => exact absurd inFlight hempty
  | front writing posted io inFlight queue => exact absurd inFlight hempty
  | written writing posted io inFlight queue => exact absurd inFlight hempty

/-- What the IO thread and the socket can do, with what is known of the state before. -/
inductive Move (s : State) : Label → State → Prop where
  | dispatch (writing : s.writing = true) (posted : s.posted = 1) (io : s.io = .idle)
      (inFlight : s.inFlight = []) : Move s .dispatch { s with posted := 0, io := .doWrite }
  | stop (posted : s.posted = 0) (io : s.io = .doWrite) (inFlight : s.inFlight = [])
      (queue : s.queue = []) : Move s .lock { s with writing := false, io := .idle }
  | take (writing : s.writing = true) (posted : s.posted = 0) (io : s.io = .doWrite)
      (inFlight : s.inFlight = []) (queue : s.queue ≠ []) :
      Move s .lock { s with io := .front s.popped }
  | start (writing : s.writing = true) (posted : s.posted = 0) (io : s.io = .front s.popped)
      (inFlight : s.inFlight = []) (queue : s.queue ≠ []) :
      Move s .start { s with io := .idle, inFlight := [⟨s.popped, 0⟩] }
  | transfer (n k : Nat) (f : List UInt8) (rest : List (List UInt8)) (writing : s.writing = true)
      (posted : s.posted = 0) (io : s.io = .idle) (inFlight : s.inFlight = [⟨s.popped, n⟩])
      (queue : s.queue = f :: rest) (pos : 0 < k) (sent : n + k ≤ f.length) :
      Move s (.transfer 0 k)
        { s with inFlight := [⟨s.popped, n + k⟩], socket := s.socket ++ (f.drop n).take k }
  | complete (f : List UInt8) (rest : List (List UInt8)) (writing : s.writing = true)
      (posted : s.posted = 0) (io : s.io = .idle) (inFlight : s.inFlight = [⟨s.popped, f.length⟩])
      (queue : s.queue = f :: rest) :
      Move s (.complete 0) { s with io := .written, inFlight := [] }
  | pop (f : List UInt8) (rest : List (List UInt8)) (writing : s.writing = true)
      (posted : s.posted = 0) (io : s.io = .written) (inFlight : s.inFlight = [])
      (queue : s.queue = f :: rest) :
      Move s .pop { s with queue := rest, popped := s.popped + 1, io := .doWrite }

/-- Whatever has the turn, a step of the IO thread or the socket is one of the moves. -/
theorem Turn.move {l : Label} (h : Turn s) (hok : OnlyIo s l) (hs : exec s l = some s') :
    Move s l s' := by
  cases l with
  | enqueue frame => cases hok.2
  | error i => exact absurd hok.1 id
  | dispatch =>
    simp only [exec, Option.ite_none_right_eq_some, Option.some.injEq] at hs
    obtain ⟨⟨hio, hpos⟩, rfl⟩ := hs
    cases h with
    | posted writing posted io inFlight =>
      rw [show s.posted - 1 = 0 by omega]
      exact .dispatch writing posted io inFlight
    | quiet writing posted io inFlight queue => omega
    | doWrite writing posted io inFlight => omega
    | front writing posted io inFlight queue => omega
    | inFlight n writing posted io inFlight queue sent => omega
    | written writing posted io inFlight queue => omega
  | lock =>
    cases h with
    | doWrite writing posted io inFlight =>
      cases hq : s.queue with
      | nil =>
        obtain rfl : s' = { s with writing := false, io := .idle } := by
          simpa [exec, io, hq] using hs.symm
        exact .stop posted io inFlight hq
      | cons f rest =>
        obtain rfl : s' = { s with io := .front s.popped } := by
          simpa [exec, io, hq] using hs.symm
        exact .take writing posted io inFlight (by simp [hq])
    | quiet writing posted io inFlight queue => simp [exec, io] at hs
    | posted writing posted io inFlight => simp [exec, io] at hs
    | front writing posted io inFlight queue => simp [exec, io] at hs
    | inFlight n writing posted io inFlight queue sent => simp [exec, io] at hs
    | written writing posted io inFlight queue => simp [exec, io] at hs
  | start =>
    cases h with
    | front writing posted io inFlight queue =>
      obtain rfl : s' = { s with io := .idle, inFlight := [⟨s.popped, 0⟩] } := by
        simpa [exec, io, inFlight] using hs.symm
      exact .start writing posted io inFlight queue
    | quiet writing posted io inFlight queue => simp [exec, io] at hs
    | posted writing posted io inFlight => simp [exec, io] at hs
    | doWrite writing posted io inFlight => simp [exec, io] at hs
    | inFlight n writing posted io inFlight queue sent => simp [exec, io] at hs
    | written writing posted io inFlight queue => simp [exec, io] at hs
  | transfer i k =>
    simp only [exec] at hs
    cases hw : s.inFlight[i]? with
    | none => simp [hw] at hs
    | some w =>
      obtain ⟨rfl, hwriting, hposted, hio, hbuf, hflight, f, rest, hq, helem⟩ := h.of_getElem hw
      simp only [hw, helem, Option.ite_none_right_eq_some, Option.some.injEq] at hs
      obtain ⟨⟨hpos, hle⟩, rfl⟩ := hs
      rw [hflight, List.set_cons_zero, hbuf]
      exact .transfer w.sent k f rest hwriting hposted hio hflight hq hpos hle
  | complete i =>
    simp only [exec] at hs
    cases hw : s.inFlight[i]? with
    | none => simp [hw] at hs
    | some w =>
      obtain ⟨rfl, hwriting, hposted, hio, -, hflight, f, rest, hq, helem⟩ := h.of_getElem hw
      simp only [hw, hio, helem, Option.ite_none_right_eq_some, Option.some.injEq] at hs
      obtain ⟨hsent, rfl⟩ := hs
      rw [hflight, List.eraseIdx_cons_zero]
      exact .complete f rest hwriting hposted hio (by rw [hflight, hsent]) hq
  | pop =>
    cases h with
    | written writing posted io inFlight queue =>
      obtain ⟨f, rest, hq⟩ := List.exists_cons_of_ne_nil queue
      obtain rfl : s' = { s with queue := rest, popped := s.popped + 1, io := .doWrite } := by
        simpa [exec, io, hq] using hs.symm
      exact .pop f rest writing posted io inFlight hq
    | quiet writing posted io inFlight queue => simp [exec, io] at hs
    | posted writing posted io inFlight => simp [exec, io] at hs
    | doWrite writing posted io inFlight => simp [exec, io] at hs
    | front writing posted io inFlight queue => simp [exec, io] at hs
    | inFlight n writing posted io inFlight queue sent => simp [exec, io] at hs

theorem Good.move {l : Label} (h : Good frames s) (hm : Move s l s') : Good frames s' := by
  have hsocket := h.socket
  cases hm with
  | dispatch writing posted io inFlight =>
    refine ⟨.doWrite writing rfl rfl inFlight, h.popped_le, h.queue, ?_⟩
    simpa [State.handed, inFlight, io] using hsocket
  | stop posted io inFlight queue =>
    refine ⟨.quiet rfl posted rfl inFlight queue, h.popped_le, h.queue, ?_⟩
    simpa [State.handed, inFlight, io] using hsocket
  | take writing posted io inFlight queue =>
    refine ⟨.front writing posted rfl inFlight queue, h.popped_le, h.queue, ?_⟩
    simpa [State.handed, inFlight, io] using hsocket
  | start writing posted io inFlight queue =>
    refine ⟨.inFlight 0 writing posted rfl rfl queue (Nat.zero_le _), h.popped_le, h.queue, ?_⟩
    simpa [State.handed, inFlight, io] using hsocket
  | transfer n k f rest writing posted io inFlight queue pos sent =>
    refine ⟨.inFlight (n + k) writing posted io rfl (by simp [queue]) (by simpa [queue] using sent),
      h.popped_le, h.queue, ?_⟩
    simp only [State.handed, inFlight, queue, List.headD_cons] at hsocket ⊢
    rw [hsocket, List.append_assoc, List.take_add]
  | complete f rest writing posted io inFlight queue =>
    refine ⟨.written writing posted rfl rfl (by simp [queue]), h.popped_le, h.queue, ?_⟩
    simpa [State.handed, inFlight, queue] using hsocket
  | pop f rest writing posted io inFlight queue =>
    have hdrop : frames.drop s.popped = f :: rest := h.queue.symm.trans queue
    have hlt : s.popped < frames.length := by
      by_contra hge
      rw [List.drop_eq_nil_of_le (Nat.le_of_not_lt hge)] at hdrop
      cases hdrop
    rw [List.drop_eq_getElem_cons hlt] at hdrop
    obtain ⟨hget, hrest⟩ := List.cons.inj hdrop
    refine ⟨.doWrite writing posted rfl inFlight, hlt, hrest.symm, ?_⟩
    simp only [State.handed, inFlight, io, queue, if_true, List.headD_cons] at hsocket
    simp only [State.handed, inFlight, reduceCtorEq, if_false, List.append_nil]
    rw [hsocket, List.take_succ_eq_append_getElem hlt, List.flatten_append, hget]
    simp

/-- **Every step before the first write error keeps the invariant.** -/
theorem good_step {l : Label} (h : Good frames s) (hok : NoError s l)
    (hs : exec s l = some s') : Good (frames ++ l.enqueued.toList) s' := by
  cases hl : l.enqueued with
  | none => simpa using h.move (h.turn.move ⟨hok, hl⟩ hs)
  | some frame =>
    cases l with
    | enqueue f =>
      obtain rfl := Option.some.inj hl
      obtain rfl := Option.some.inj hs
      exact h.enqueue f
    | _ => cases hl

theorem good_run {ls : List Label} (h : writer.Run NoError {} ls s) :
    Good (ls.filterMap Label.enqueued) s := by
  have hrun := h.holds_with (P := fun ls s => Good (ls.filterMap Label.enqueued) s) ?_ [] good_init
  · simpa using hrun
  · intro ls s l s' hgood hok hs
    rw [List.filterMap_append]
    exact good_step hgood hok hs

/-! ## No frame is stranded -/

/-- How far the turn is from the next `do_write`. -/
def State.rank (s : State) : Nat :=
  if s.posted ≠ 0 then 6
  else if s.inFlight ≠ [] then 3
  else
    match s.io with
    | .doWrite => 5
    | .front _ => 4
    | .written => 1
    | .idle => 0

/-- The work left for the IO thread and the socket. -/
def State.work (s : State) : Nat :=
  6 * s.queue.length + (s.queue.flatten.length - s.handed.length) + s.rank

theorem Move.work_lt {l : Label} (h : Move s l s') : s'.work < s.work := by
  cases h with
  | dispatch writing posted io inFlight =>
    simp [State.work, State.rank, State.handed, posted, io, inFlight]
  | stop posted io inFlight queue =>
    simp [State.work, State.rank, State.handed, posted, io, inFlight, queue]
  | take writing posted io inFlight queue =>
    simp [State.work, State.rank, State.handed, posted, io, inFlight]
  | start writing posted io inFlight queue =>
    simp [State.work, State.rank, State.handed, posted, io, inFlight]
  | transfer n k f rest writing posted io inFlight queue pos sent =>
    simp [State.work, State.rank, State.handed, posted, inFlight, queue]
    omega
  | complete f rest writing posted io inFlight queue =>
    simp [State.work, State.rank, State.handed, posted, inFlight, queue]
  | pop f rest writing posted io inFlight queue =>
    simp [State.work, State.rank, State.handed, posted, io, inFlight, queue]
    omega

theorem Turn.progress (h : Turn s) (hw : s.writing = true) :
    ∃ l, OnlyIo s l ∧ (exec s l).isSome := by
  cases h with
  | quiet writing posted io inFlight queue => simp [hw] at writing
  | posted writing posted io inFlight => exact ⟨.dispatch, ⟨trivial, rfl⟩, by simp [exec, io, posted]⟩
  | doWrite writing posted io inFlight =>
    refine ⟨.lock, ⟨trivial, rfl⟩, ?_⟩
    cases hq : s.queue <;> simp [exec, io, hq]
  | front writing posted io inFlight queue => exact ⟨.start, ⟨trivial, rfl⟩, by simp [exec, io]⟩
  | inFlight n writing posted io inFlight queue sent =>
    obtain ⟨f, rest, hq⟩ := List.exists_cons_of_ne_nil queue
    have helem : s.element s.popped = some f := by simp [State.element, hq]
    simp only [hq, List.headD_cons] at sent
    rcases Nat.eq_or_lt_of_le sent with heq | hlt
    · exact ⟨.complete 0, ⟨trivial, rfl⟩, by simp [exec, io, inFlight, helem, heq]⟩
    · have hrest : 0 < f.length - n ∧ n + (f.length - n) ≤ f.length := by omega
      exact ⟨.transfer 0 (f.length - n), ⟨trivial, rfl⟩, by simp [exec, inFlight, helem, hrest]⟩
  | written writing posted io inFlight queue =>
    obtain ⟨f, rest, hq⟩ := List.exists_cons_of_ne_nil queue
    exact ⟨.pop, ⟨trivial, rfl⟩, by simp [exec, io, hq]⟩

theorem Good.drain (h : Good frames s) :
    ∃ ls s', writer.Run OnlyIo s ls s' ∧ Good frames s' ∧ s'.writing = false := by
  refine Machine.Run.exists_done (P := Good frames) State.work ?_ s h
  intro s hgood
  cases hw : s.writing with
  | false => exact .inl rfl
  | true =>
    obtain ⟨l, hok, hsome⟩ := hgood.turn.progress hw
    obtain ⟨s', hs⟩ := Option.isSome_iff_exists.mp hsome
    have hm := hgood.turn.move hok hs
    exact .inr ⟨l, s', hok, hs, hgood.move hm, hm.work_lt⟩

/-! ## The main result -/

theorem Turn.writing_eq_false_iff (h : Turn s) :
    s.writing = false ↔ s.queue = [] ∧ s.posted = 0 ∧ ¬ s.doWriteRuns ∧ s.inFlight = [] := by
  cases h with
  | quiet writing posted io inFlight queue =>
    simp [writing, posted, io, inFlight, queue, State.doWriteRuns]
  | posted writing posted io inFlight => simp [writing, posted]
  | doWrite writing posted io inFlight => simp [writing, io, State.doWriteRuns]
  | front writing posted io inFlight queue => simp [writing, queue]
  | inFlight n writing posted io inFlight queue sent => simp [writing, queue]
  | written writing posted io inFlight queue => simp [writing, queue]

theorem Turn.popped_eq {l : Label} (h : Turn s) (hflight : s.inFlight ≠ []) (hok : NoError s l)
    (hs : exec s l = some s') : s'.popped = s.popped := by
  cases hl : l.enqueued with
  | some frame =>
    cases l with
    | enqueue f =>
      obtain rfl := Option.some.inj hs
      rw [enqueueWrite_eq]
    | _ => cases hl
  | none =>
    cases h.move ⟨hok, hl⟩ hs with
    | pop f rest writing posted io inFlight queue => exact absurd inFlight hflight
    | _ => rfl

theorem Turn.handed_prefix (h : Turn s) : s.handed <+: s.queue.headD [] := by
  cases h with
  | quiet writing posted io inFlight queue => simp [State.handed, inFlight, io]
  | posted writing posted io inFlight => simp [State.handed, inFlight, io]
  | doWrite writing posted io inFlight => simp [State.handed, inFlight, io]
  | front writing posted io inFlight queue => simp [State.handed, inFlight, io]
  | inFlight n writing posted io inFlight queue sent =>
    simp only [State.handed, inFlight]
    exact List.take_prefix _ _
  | written writing posted io inFlight queue => simp [State.handed, inFlight, io]

theorem Good.socket_eq (h : Good frames s) (hw : s.writing = false) : s.socket = frames.flatten := by
  obtain ⟨hq, -, -, hflight⟩ := h.turn.writing_eq_false_iff.mp hw
  have hhanded : s.handed = [] := by
    have hpre := h.turn.handed_prefix
    rw [hq] at hpre
    exact List.prefix_nil.mp hpre
  have hall : frames.length ≤ s.popped := List.drop_eq_nil_iff.mp (h.queue.symm.trans hq)
  rw [h.socket, hhanded, List.take_of_length_le hall, List.append_nil]

/-- **The queue writes every frame once, in order.** After any interleaving without a write error,
`frames` being what has been enqueued: there is at most one write in flight; the flag is off exactly
when the queue is empty and nothing is posted, running or in flight; the buffer in flight is the
front, which stays until its completion; the socket has been given the frames popped so far and a
part of the front; and the IO thread alone gets to the state where it has been given them all. -/
theorem frames_written_in_order {ls : List Label} {s : State} (h : writer.Run NoError {} ls s) :
    let frames := ls.filterMap Label.enqueued
    s.inFlight.length ≤ 1 ∧
      (s.writing = false ↔ s.queue = [] ∧ s.posted = 0 ∧ ¬ s.doWriteRuns ∧ s.inFlight = []) ∧
      (∀ w ∈ s.inFlight, w.buf = s.popped ∧ s.element w.buf = s.queue.head? ∧ s.queue ≠ [] ∧
        ∀ l s', NoError s l → exec s l = some s' → s'.popped = s.popped) ∧
      s.queue = frames.drop s.popped ∧
      s.socket = (frames.take s.popped).flatten ++ s.handed ∧ s.handed <+: s.queue.headD [] ∧
      (s.writing = false → s.socket = frames.flatten) ∧
      ∃ ls' s', writer.Run OnlyIo s ls' s' ∧ s'.writing = false ∧ s'.socket = frames.flatten := by
  intro frames
  have hgood : Good frames s := good_run h
  have hwrite : ∀ w ∈ s.inFlight, s.inFlight.length = 1 ∧ w.buf = s.popped ∧
      s.element w.buf = s.queue.head? ∧ s.queue ≠ [] := by
    intro w hw
    obtain ⟨i, hi⟩ := List.mem_iff_getElem?.mp hw
    obtain ⟨-, -, -, -, hbuf, hflight, f, rest, hq, helem⟩ := hgood.turn.of_getElem hi
    exact ⟨by rw [hflight]; rfl, hbuf, by rw [helem, hq]; rfl, by simp [hq]⟩
  refine ⟨?_, hgood.turn.writing_eq_false_iff, ?_, hgood.queue, hgood.socket,
    hgood.turn.handed_prefix, hgood.socket_eq, ?_⟩
  · cases hflight : s.inFlight with
    | nil => exact Nat.zero_le _
    | cons w ws =>
      rw [← hflight]
      exact Nat.le_of_eq (hwrite w (by simp [hflight])).1
  · intro w hw
    obtain ⟨-, hbuf, helem, hq⟩ := hwrite w hw
    exact ⟨hbuf, helem, hq, fun l s' => hgood.turn.popped_eq (List.ne_nil_of_mem hw)⟩
  · obtain ⟨ls', s', hrun, hgood', hoff⟩ := hgood.drain
    exact ⟨ls', s', hrun, hoff, hgood'.socket_eq hoff⟩

/-- Two frames, the second one enqueued between the locked section of `do_write` and its
`async_write`; the first has been written and the second is in flight. -/
theorem frames_written_in_order_two : ∃ s : State,
    s.socket = [1, 2, 3] ∧ s.inFlight = [⟨1, 1⟩] ∧
      ∃ ls' s', writer.Run OnlyIo s ls' s' ∧ s'.writing = false ∧ s'.socket = [1, 2, 3, 4] := by
  have hrun : writer.Run NoError {}
      [.enqueue [1, 2], .dispatch, .lock, .enqueue [3, 4], .start, .transfer 0 1, .transfer 0 1,
        .complete 0, .pop, .lock, .start, .transfer 0 1] _ := Machine.run_of_execAll rfl
  obtain ⟨-, -, -, -, -, -, -, hdrain⟩ := frames_written_in_order hrun
  exact ⟨_, rfl, rfl, hdrain⟩

/-! ## The queue as `RemoteConn` sees it -/

/-- The write queue of the connection holds the frames of this one. -/
def Carries (r : RemoteConn.State) (s : State) : Prop := r.writeQueue.map (·.bytes) = s.queue

/-- Every step is one of the queue of `RemoteConn`, or none: a frame is queued as it is there, and
popping one is `transmit`. -/
theorem step_simulates {r : RemoteConn.State} {l : Label} (h : Turn s) (hc : Carries r s)
    (hok : NoError s l) (hs : exec s l = some s') :
    (∃ f, l = .enqueue f ∧ ∀ oc, Carries (r.enqueueWrite ⟨f, oc⟩) s') ∨
      (∃ r', RemoteConn.exec r .transmit = some r' ∧ Carries r' s') ∨ Carries r s' := by
  cases hl : l.enqueued with
  | some frame =>
    cases l with
    | enqueue f =>
      obtain rfl := Option.some.inj hs
      refine .inl ⟨f, rfl, fun oc => ?_⟩
      rw [Carries] at hc
      simp [Carries, enqueueWrite_eq, RemoteConn.State.enqueueWrite, hc]
    | _ => cases hl
  | none =>
    cases h.move ⟨hok, hl⟩ hs with
    | pop f rest writing posted io inFlight queue =>
      rw [Carries, queue] at hc
      obtain ⟨g, q, hq, -, hrest⟩ := List.map_eq_cons_iff.mp hc
      refine .inr (.inl ⟨{ r with writeQueue := q, wire := r.wire ++ [g] }, ?_, hrest⟩)
      simp [RemoteConn.exec, hq]
    | _ => exact .inr (.inr hc)

end WriteQueue
end ObZrv
