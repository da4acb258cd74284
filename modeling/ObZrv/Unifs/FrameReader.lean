import ObZrv.Unifs.RemoteConn

/-!
# Unifs.FrameReader

The read pipeline of `unifs/remote_conn.cpp`: `start_read`, `on_header` and the payload handler, with
the header and the payload buffer they share. `async_read` is taken to deliver exactly the bytes
asked for, off the front of the stream; as long as there are fewer the read stays pending.

* `run_frame`, `step_bad` : what is read where a frame, or a bad header, is next.
* `exists_frames`         : every stream is frames, with a rest that is incomplete or bad.
* `readStream_of_split`   : what the reader makes of frames with such a rest.
* `reader_inverts_frames` : the pipeline hands on exactly the frames on the stream, up to the first
  bad length.
-/

namespace ObZrv

open Lib

/-- A frame from the server, or what `complete_response` is called with. -/
structure ResponseFrame where
  reqId : UInt16
  status : UInt8
  payload : List UInt8
deriving DecidableEq, Repr

namespace ResponseFrame

/-- `[len:u32][req_id:u16][status:u8][payload]`. -/
def encode (f : ResponseFrame) : List UInt8 :=
  protoWriteU32 (UInt32.ofNat (7 + f.payload.length)) ++
    (protoWriteU16 f.reqId ++ ([f.status] ++ f.payload))

def Legal (f : ResponseFrame) : Prop := f.payload.length ≤ MAX_PAYLOAD_SIZE

instance (f : ResponseFrame) : Decidable f.Legal := inferInstanceAs (Decidable (_ ≤ _))

end ResponseFrame

/-- The frames of a stream one after the other. -/
def encodeFrames (frames : List ResponseFrame) : List UInt8 :=
  (frames.map ResponseFrame.encode).flatten

namespace FrameReader

/-- The `async_read` that is pending; none after a bad length. -/
inductive Awaiting where
  | header
  | payload (reqId : UInt16) (status : UInt8)
  | nothing
deriving DecidableEq, Repr

/-- The buffers of the connection, the calls of `complete_response` and `on_disconnect`, and the
sizes that `payload_buf_` was given. -/
structure Reader where
  awaiting : Awaiting
  headerBuf : List UInt8
  payloadBuf : List UInt8
  delivered : List ResponseFrame
  disconnects : Nat
  allocated : List Nat
deriving DecidableEq, Repr

def resize (buf : List UInt8) (n : Nat) : List UInt8 :=
  buf.take n ++ List.replicate (n - buf.length) 0

namespace Reader

/-- The first `start_read`; the header buffer is not initialised. -/
def start (headerBuf : List UInt8) : Reader :=
  { awaiting := .header, headerBuf, payloadBuf := [], delivered := [], disconnects := 0,
    allocated := [] }

variable (r : Reader)

def onDisconnect : Reader := { r with awaiting := .nothing, disconnects := r.disconnects + 1 }

def completeResponse (reqId : UInt16) (status : UInt8) (data : List UInt8) : Reader :=
  { r with delivered := r.delivered ++ [⟨reqId, status, data⟩] }

def startRead : Reader := { r with awaiting := .header }

def onHeader : Reader :=
  let len := protoReadU32 r.headerBuf
  let reqId := protoReadU16 (r.headerBuf.drop 4)
  let status := (r.headerBuf.drop 6).headD 0
  if len < UInt32.ofNat FRAME_HEADER_SIZE then r.onDisconnect
  else
    let plen := len - UInt32.ofNat FRAME_HEADER_SIZE
    if plen > UInt32.ofNat MAX_PAYLOAD_SIZE then r.onDisconnect
    else
      let r := { r with
        payloadBuf := resize r.payloadBuf plen.toNat
        allocated := r.allocated ++ [plen.toNat] }
      if plen = 0 then (r.completeResponse reqId status []).startRead
      else { r with awaiting := .payload reqId status }

/-- How many bytes the pending read asks for. -/
def wanted : Option Nat :=
  match r.awaiting with
  | .header => some FRAME_HEADER_SIZE
  | .payload _ _ => some r.payloadBuf.length
  | .nothing => none

/-- The completion of the pending read. -/
def onRead (bytes : List UInt8) : Reader :=
  match r.awaiting with
  | .header => { r with headerBuf := bytes }.onHeader
  | .payload reqId status =>
    ({ r with payloadBuf := bytes }.completeResponse reqId status bytes).startRead
  | .nothing => r

end Reader

/-- One completed read, if the stream has the bytes. -/
def step (r : Reader) (stream : List UInt8) : Option (Reader × List UInt8) :=
  match r.wanted with
  | none => none
  | some n => if stream.length < n then none else some (r.onRead (stream.take n), stream.drop n)

def readAll : Nat → Reader → List UInt8 → Reader × List UInt8
  | 0, r, stream => (r, stream)
  | fuel + 1, r, stream =>
    match step r stream with
    | none => (r, stream)
    | some (r', rest) => readAll fuel r' rest

/-- The reads until one stays pending. Each takes a byte off the stream at least. -/
def readStream (r : Reader) (stream : List UInt8) : Reader × List UInt8 :=
  readAll (stream.length + 1) r stream

/-- The reads one at a time. -/
def reads : Machine (Reader × List UInt8) Unit :=
  .ofExec (fun s => ∃ headerBuf, s.1 = .start headerBuf) fun s _ => step s.1 s.2

/-- A header on the stream that `on_header` does not accept. -/
def BadHeader (stream : List UInt8) : Prop :=
  7 ≤ stream.length ∧
    ((protoReadU32 stream).toNat < 7 ∨ MAX_PAYLOAD_SIZE < (protoReadU32 stream).toNat - 7)

/-- The stream stops within a header, or within a frame whose header is accepted. -/
def Incomplete (stream : List UInt8) : Prop :=
  stream.length < 7 ∨ ¬ BadHeader stream ∧ stream.length < (protoReadU32 stream).toNat

/-! ## The header -/

section Header

variable (r : Reader)

theorem plen_toNat {len : UInt32} (h : 7 ≤ len.toNat) :
    (len - UInt32.ofNat FRAME_HEADER_SIZE).toNat = len.toNat - 7 :=
  UInt32.toNat_sub_of_le _ _ (UInt32.le_iff_toNat_le.mpr h)

theorem onHeader_bad (h : (protoReadU32 r.headerBuf).toNat < 7 ∨
    MAX_PAYLOAD_SIZE < (protoReadU32 r.headerBuf).toNat - 7) : r.onHeader = r.onDisconnect := by
  unfold Reader.onHeader
  simp only
  by_cases hlt : (protoReadU32 r.headerBuf).toNat < 7
  · rw [if_pos (UInt32.lt_iff_toNat_lt.mpr hlt)]
  · have hge := Nat.le_of_not_lt hlt
    have hbig := h.resolve_left hlt
    rw [if_neg (fun h => hlt (UInt32.lt_iff_toNat_lt.mp h)), if_pos]
    rw [gt_iff_lt, UInt32.lt_iff_toNat_lt, plen_toNat hge]
    exact hbig

/-- The state in which a payload of `n` bytes is read, or none is needed. -/
def Reader.resized (n : Nat) : Reader :=
  { r with payloadBuf := resize r.payloadBuf n, allocated := r.allocated ++ [n] }

theorem onHeader_good (hge : 7 ≤ (protoReadU32 r.headerBuf).toNat)
    (hle : (protoReadU32 r.headerBuf).toNat - 7 ≤ MAX_PAYLOAD_SIZE) :
    r.onHeader =
      let n := (protoReadU32 r.headerBuf).toNat - 7
      let reqId := protoReadU16 (r.headerBuf.drop 4)
      let status := (r.headerBuf.drop 6).headD 0
      if n = 0 then ((r.resized n).completeResponse reqId status []).startRead
      else { r.resized n with awaiting := .payload reqId status } := by
  have hlt : ¬ protoReadU32 r.headerBuf < UInt32.ofNat FRAME_HEADER_SIZE :=
    fun h => Nat.not_lt.mpr hge (UInt32.lt_iff_toNat_lt.mp h)
  have hbig : ¬ protoReadU32 r.headerBuf - UInt32.ofNat FRAME_HEADER_SIZE >
      UInt32.ofNat MAX_PAYLOAD_SIZE := by
    rw [gt_iff_lt, UInt32.lt_iff_toNat_lt, plen_toNat hge]
    exact Nat.not_lt.mpr hle
  have hzero : protoReadU32 r.headerBuf - UInt32.ofNat FRAME_HEADER_SIZE = 0 ↔
      (protoReadU32 r.headerBuf).toNat - 7 = 0 := by
    rw [← UInt32.toNat_inj, plen_toNat hge]
    rfl
  unfold Reader.onHeader
  simp only [hlt, if_false, hbig, hzero, plen_toNat hge]
  rfl

end Header

/-! ## Single reads -/

variable {r r' : Reader} {stream rest : List UInt8}

theorem resize_length (buf : List UInt8) (n : Nat) : (resize buf n).length = n := by
  rw [resize, List.length_append, List.length_take, List.length_replicate]
  omega

/-- Every read asks for one byte at least. -/
def Ready (r : Reader) : Prop := ∀ n, r.wanted = some n → 0 < n

theorem onHeader_ready (r : Reader) : Ready r.onHeader := by
  by_cases hbad : (protoReadU32 r.headerBuf).toNat < 7 ∨
      MAX_PAYLOAD_SIZE < (protoReadU32 r.headerBuf).toNat - 7
  · rw [onHeader_bad r hbad]
    intro n hn
    cases hn
  · rw [not_or, Nat.not_lt, Nat.not_lt] at hbad
    rw [onHeader_good r hbad.1 hbad.2]
    intro n hn
    simp only at hn
    split at hn
    · cases hn
      decide
    · rename_i hne
      simp only [Reader.wanted, Reader.resized, resize_length, Option.some.injEq] at hn
      omega

theorem onRead_ready (h : Ready r) (bytes : List UInt8) : Ready (r.onRead bytes) := by
  unfold Reader.onRead
  split
  · exact onHeader_ready _
  · intro n hn
    cases hn
    decide
  · exact h

theorem step_ready (h : Ready r) (hs : step r stream = some (r', rest)) :
    Ready r' ∧ rest.length < stream.length := by
  unfold step at hs
  split at hs
  · cases hs
  · rename_i n hn
    split at hs
    · cases hs
    · obtain ⟨rfl, rfl⟩ := Prod.mk.inj (Option.some.inj hs)
      refine ⟨onRead_ready h _, ?_⟩
      have := h n hn
      rw [List.length_drop]
      omega

theorem readAll_of_run {s s' : Reader × List UInt8} {ls : List Unit} {fuel : Nat}
    (h : reads.Run Machine.always s ls s') (hready : Ready s.1) (hend : step s'.1 s'.2 = none)
    (hfuel : s.2.length < fuel) : readAll fuel s.1 s.2 = s' := by
  induction h generalizing fuel with
  | nil =>
    cases fuel with
    | zero => omega
    | succ fuel => rw [readAll, hend]
  | cons _ hst _ ih =>
    cases fuel with
    | zero => omega
    | succ fuel =>
      obtain ⟨hready', hlt⟩ := step_ready hready hst
      rw [readAll, show step _ _ = some _ from hst]
      exact ih hready' hend (by omega)

/-! ## Frames -/

section Frames

variable {f : ResponseFrame}

/-- The seven bytes in front of the payload. -/
def header (f : ResponseFrame) : List UInt8 :=
  protoWriteU32 (UInt32.ofNat (7 + f.payload.length)) ++ (protoWriteU16 f.reqId ++ [f.status])

theorem encode_eq (f : ResponseFrame) : f.encode = header f ++ f.payload := by
  simp only [ResponseFrame.encode, header, List.append_assoc]

theorem header_length (f : ResponseFrame) : (header f).length = 7 := by simp [header]

theorem header_len (hf : f.Legal) : (protoReadU32 (header f)).toNat = 7 + f.payload.length := by
  have hmax : f.payload.length ≤ 1048576 := hf
  rw [header, protoReadU32_write]
  exact UInt32.toNat_ofNat_of_lt' (by simp only [UInt32.size]; omega)

theorem header_reqId (f : ResponseFrame) : protoReadU16 ((header f).drop 4) = f.reqId := by
  rw [header, List.drop_left' (protoWriteU32_length _), protoReadU16_write]

theorem header_status (f : ResponseFrame) : ((header f).drop 6).headD 0 = f.status := by
  rw [header, ← List.append_assoc, List.drop_left' (by simp)]
  rfl

/-- What the reader is left with by frames: it waits for the next header. -/
structure Took (frames : List ResponseFrame) (r r' : Reader) : Prop where
  awaiting : r'.awaiting = .header
  delivered : r'.delivered = r.delivered ++ frames
  disconnects : r'.disconnects = r.disconnects
  allocated : r'.allocated = r.allocated ++ frames.map (·.payload.length)

theorem step_header (hr : r.awaiting = .header) (h : 7 ≤ stream.length) :
    step r stream =
      some ({ r with headerBuf := stream.take 7 }.onHeader, stream.drop 7) := by
  have hlt : ¬ stream.length < FRAME_HEADER_SIZE := Nat.not_lt.mpr h
  simp only [step, Reader.wanted, hr, hlt, if_false, Reader.onRead]
  rfl

theorem step_payload {reqId : UInt16} {status : UInt8} (hr : r.awaiting = .payload reqId status)
    {payload : List UInt8} (hlen : r.payloadBuf.length = payload.length) (rest : List UInt8) :
    step r (payload ++ rest) =
      some (({ r with payloadBuf := payload }.completeResponse reqId status payload).startRead,
        rest) := by
  simp [step, Reader.wanted, hr, hlen, Reader.onRead]

theorem run_frame (hr : r.awaiting = .header) (hf : f.Legal) (rest : List UInt8) :
    ∃ ls r', reads.Run Machine.always (r, f.encode ++ rest) ls (r', rest) ∧ Took [f] r r' := by
  have hlen := header_len hf
  have hmax : f.payload.length ≤ MAX_PAYLOAD_SIZE := hf
  have htake : (f.encode ++ rest).take 7 = header f := by
    rw [encode_eq, List.append_assoc, List.take_left' (header_length f)]
  have hdrop : (f.encode ++ rest).drop 7 = f.payload ++ rest := by
    rw [encode_eq, List.append_assoc, List.drop_left' (header_length f)]
  have hlong : 7 ≤ (f.encode ++ rest).length := by
    rw [encode_eq, List.append_assoc, List.length_append, header_length]
    omega
  have hfirst := step_header hr hlong
  rw [htake, hdrop, onHeader_good _ (by rw [hlen]; omega) (by rw [hlen]; omega)] at hfirst
  simp only [hlen, header_reqId, header_status, Nat.add_sub_cancel_left] at hfirst
  by_cases hpayload : f.payload.length = 0
  · rw [if_pos hpayload] at hfirst
    have hnil := List.eq_nil_of_length_eq_zero hpayload
    rw [hnil, List.nil_append, ← hnil] at hfirst
    exact ⟨[()], _, .single trivial hfirst, rfl, rfl, rfl, rfl⟩
  · rw [if_neg hpayload] at hfirst
    have hsecond := step_payload (r := { Reader.resized { r with headerBuf := header f }
      f.payload.length with awaiting := .payload f.reqId f.status }) rfl (resize_length _ _) rest
    exact ⟨[(), ()], _, .cons trivial hfirst (.single trivial hsecond), rfl, rfl, rfl, rfl⟩

theorem run_frames {frames : List ResponseFrame} (hf : ∀ f ∈ frames, f.Legal) (rest : List UInt8)
    (hr : r.awaiting = .header) :
    ∃ ls r', reads.Run Machine.always (r, encodeFrames frames ++ rest) ls (r', rest) ∧
      Took frames r r' := by
  induction frames generalizing r with
  | nil => exact ⟨[], r, .nil, hr, by simp, rfl, by simp⟩
  | cons f frames ih =>
    obtain ⟨ls₁, r₁, hrun₁, htook₁⟩ :=
      run_frame (f := f) hr (hf f (by simp)) (encodeFrames frames ++ rest)
    obtain ⟨ls₂, r₂, hrun₂, htook₂⟩ := ih (fun g hg => hf g (by simp [hg])) htook₁.awaiting
    have hstream : encodeFrames (f :: frames) ++ rest =
        f.encode ++ (encodeFrames frames ++ rest) := by
      simp [encodeFrames]
    rw [hstream]
    refine ⟨_, r₂, hrun₁.trans hrun₂, htook₂.awaiting, ?_, ?_, ?_⟩
    · rw [htook₂.delivered, htook₁.delivered, List.append_assoc, List.singleton_append]
    · rw [htook₂.disconnects, htook₁.disconnects]
    · rw [htook₂.allocated, htook₁.allocated, List.append_assoc]
      rfl

end Frames

/-! ## Whole streams -/

section Streams

/-- The frame a stream starts with. -/
def firstFrame (stream : List UInt8) : ResponseFrame where
  reqId := protoReadU16 (stream.drop 4)
  status := (stream.drop 6).headD 0
  payload := (stream.drop 7).take ((protoReadU32 stream).toNat - 7)

theorem firstFrame_encode (hbad : ¬ BadHeader stream) (hinc : ¬ Incomplete stream) :
    (firstFrame stream).Legal ∧
      (firstFrame stream).encode ++ stream.drop (protoReadU32 stream).toNat = stream := by
  simp only [Incomplete, not_or, not_and, Nat.not_lt] at hinc
  obtain ⟨hlong, hlen⟩ := hinc
  have hlen := hlen hbad
  simp only [BadHeader, not_and, not_or, Nat.not_lt] at hbad
  obtain ⟨hge, hle⟩ := hbad hlong
  generalize hn : (protoReadU32 stream).toNat = n at hlen hge hle
  have hpayload : (firstFrame stream).payload.length = n - 7 := by
    rw [firstFrame, hn, List.length_take, List.length_drop]
    omega
  refine ⟨by rw [ResponseFrame.Legal, hpayload]; exact hle, ?_⟩
  have hlenField : UInt32.ofNat (7 + (firstFrame stream).payload.length) = protoReadU32 stream := by
    rw [hpayload, show 7 + (n - 7) = n by omega, ← hn, UInt32.ofNat_toNat]
  have hid : protoWriteU16 (firstFrame stream).reqId = (stream.drop 4).take 2 :=
    protoWriteU16_read (by rw [List.length_drop]; omega)
  have hstatus : [(firstFrame stream).status] = (stream.drop 6).take 1 := by
    rw [firstFrame]
    cases h : stream.drop 6 with
    | nil =>
      have := congrArg List.length h
      rw [List.length_drop, List.length_nil] at this
      omega
    | cons b bs => rfl
  rw [ResponseFrame.encode, hlenField, protoWriteU32_read (by omega), hid, hstatus]
  -- the pieces are consecutive: 4, 2, 1 and `n - 7` bytes, and what comes behind them
  have htail : (firstFrame stream).payload ++ stream.drop n = stream.drop 7 := by
    rw [firstFrame, hn, show n = 7 + (n - 7) by omega, ← List.drop_drop,
      show 7 + (n - 7) - 7 = n - 7 by omega, List.take_append_drop]
  have h6 : (stream.drop 6).take 1 ++ stream.drop 7 = stream.drop 6 := by
    rw [show 7 = 6 + 1 from rfl, ← List.drop_drop, List.take_append_drop]
  have h4 : (stream.drop 4).take 2 ++ stream.drop 6 = stream.drop 4 := by
    rw [show 6 = 4 + 2 from rfl, ← List.drop_drop, List.take_append_drop]
  rw [List.append_assoc, List.append_assoc, List.append_assoc, htail, h6, h4, List.take_append_drop]

/-- Every stream is a list of frames and a rest that is bad or incomplete. -/
theorem exists_frames (stream : List UInt8) : ∃ frames rest,
    (∀ f ∈ frames, f.Legal) ∧ stream = encodeFrames frames ++ rest ∧
      (BadHeader rest ∨ Incomplete rest) := by
  induction hk : stream.length using Nat.strongRecOn generalizing stream with
  | ind k ih =>
    by_cases hbad : BadHeader stream
    · exact ⟨[], stream, nofun, rfl, .inl hbad⟩
    by_cases hinc : Incomplete stream
    · exact ⟨[], stream, nofun, rfl, .inr hinc⟩
    obtain ⟨hlegal, henc⟩ := firstFrame_encode hbad hinc
    have hpos : 0 < (firstFrame stream).encode.length := by
      rw [encode_eq, List.length_append, header_length]
      omega
    have hlt : (stream.drop (protoReadU32 stream).toNat).length < k := by
      have := congrArg List.length henc
      rw [List.length_append] at this
      omega
    obtain ⟨frames, rest, hframes, hrest, hend⟩ := ih _ hlt _ rfl
    refine ⟨firstFrame stream :: frames, rest, ?_, ?_, hend⟩
    · exact List.forall_mem_cons.mpr ⟨hlegal, hframes⟩
    · rw [hrest] at henc
      simpa [encodeFrames] using henc.symm

/-- Where the stream is incomplete, all there is left is a pending read. -/
theorem readStream_incomplete (hr : r.awaiting = .header) (h : Incomplete rest) :
    ∃ ls r' rest', reads.Run Machine.always (r, rest) ls (r', rest') ∧ step r' rest' = none ∧
      r'.awaiting ≠ .nothing ∧ r'.delivered = r.delivered ∧ r'.disconnects = r.disconnects ∧
      ∀ n ∈ r'.allocated, n ∈ r.allocated ∨ n ≤ MAX_PAYLOAD_SIZE := by
  by_cases hshort : rest.length < 7
  · have hend : step r rest = none := by
      simp [step, Reader.wanted, hr, FRAME_HEADER_SIZE, hshort]
    exact ⟨[], r, rest, .nil, hend, by simp [hr], rfl, rfl, fun n hn => .inl hn⟩
  · obtain ⟨hbad, hlen⟩ := h.resolve_left hshort
    rw [Nat.not_lt] at hshort
    simp only [BadHeader, not_and, not_or, Nat.not_lt] at hbad
    obtain ⟨hge, hle⟩ := hbad hshort
    have hlenField : protoReadU32 (rest.take 7) = protoReadU32 rest := by
      simp [protoReadU32, List.take_take]
    have hstep := step_header hr hshort
    rw [onHeader_good _ (by rw [hlenField]; exact hge) (by rw [hlenField]; exact hle)] at hstep
    simp only [hlenField] at hstep
    rw [if_neg (by omega)] at hstep
    refine ⟨[()], _, _, .single trivial hstep, ?_, Awaiting.noConfusion, rfl, rfl, ?_⟩
    · simp only [step, Reader.wanted, Reader.resized, resize_length]
      rw [if_pos (by rw [List.length_drop]; omega)]
    · intro n hn
      rcases List.mem_append.mp hn with hn | hn
      · exact .inl hn
      · obtain rfl := List.mem_singleton.mp hn
        exact .inr hle

theorem step_bad (hr : r.awaiting = .header) (h : BadHeader rest) :
    step r rest = some ({ r with headerBuf := rest.take 7 }.onDisconnect, rest.drop 7) := by
  have hlenField : protoReadU32 (rest.take 7) = protoReadU32 rest := by
    simp [protoReadU32, List.take_take]
  have hstep := step_header hr h.1
  rwa [onHeader_bad _ (by rw [hlenField]; exact h.2)] at hstep

end Streams

/-- What the reads of a stream end in: the frames before `rest` have been delivered, and a bad header
closed the connection. -/
structure ReadTo (frames : List ResponseFrame) (rest : List UInt8) (r : Reader) : Prop where
  delivered : r.delivered = frames
  bad : BadHeader rest → r.disconnects = 1 ∧ r.awaiting = .nothing
  incomplete : Incomplete rest → r.disconnects = 0 ∧ r.awaiting ≠ .nothing
  allocated : ∀ n ∈ r.allocated, n ≤ MAX_PAYLOAD_SIZE

theorem readStream_of_split (headerBuf : List UInt8) {frames : List ResponseFrame}
    (hf : ∀ f ∈ frames, f.Legal) {rest : List UInt8} (hrest : BadHeader rest ∨ Incomplete rest) :
    ReadTo frames rest (readStream (.start headerBuf) (encodeFrames frames ++ rest)).1 := by
  have hready : Ready (.start headerBuf) := by
    intro n hn
    cases hn
    decide
  obtain ⟨ls, r, hrun, htook⟩ := run_frames (r := .start headerBuf) hf rest rfl
  have hdelivered : r.delivered = frames := htook.delivered
  have hdisconnects : r.disconnects = 0 := htook.disconnects
  have hallocated : ∀ n ∈ r.allocated, n ≤ MAX_PAYLOAD_SIZE := by
    intro n hn
    rw [htook.allocated] at hn
    obtain ⟨f, hmem, rfl⟩ := List.mem_map.mp hn
    exact hf f hmem
  rcases hrest with hbad | hinc
  · have hend : step ({ r with headerBuf := rest.take 7 }.onDisconnect) (rest.drop 7) = none := rfl
    have hread := readAll_of_run
      (hrun.trans (.single (l := ()) trivial (step_bad htook.awaiting hbad))) hready hend
      (Nat.lt_succ_self _)
    rw [readStream, hread]
    refine ⟨hdelivered, fun _ => ⟨?_, rfl⟩, ?_, hallocated⟩
    · rw [← Nat.zero_add 1, ← hdisconnects]
      rfl
    · rintro (h | h)
      · exact absurd hbad.1 (Nat.not_le.mpr h)
      · exact absurd hbad h.1
  · obtain ⟨ls', r', rest', hrun', hend, hawait, hdel, hdis, halloc⟩ :=
      readStream_incomplete htook.awaiting hinc
    have hread := readAll_of_run (hrun.trans hrun') hready hend (Nat.lt_succ_self _)
    rw [readStream, hread]
    refine ⟨hdel.trans hdelivered, ?_, fun _ => ⟨hdis.trans hdisconnects, hawait⟩, ?_⟩
    · intro hbad
      rcases hinc with h | h
      · exact absurd hbad.1 (Nat.not_le.mpr h)
      · exact absurd hbad h.1
    · exact fun n hn => (halloc n hn).elim (hallocated n) id

theorem buildFrame_eq (id : UInt16) (cmd : UInt8) (payload : List UInt8) :
    RemoteConn.buildFrame id cmd payload = (ResponseFrame.mk id cmd payload).encode := rfl

/-- **The reader inverts the frame format.** A stream of frames is delivered frame by frame. Every
stream is such a list of frames with a rest, which is incomplete or starts with a bad header; the
frames are what is delivered, a bad header closes the connection, and no payload buffer is larger
than the maximum. The frame `send_request` builds is read as what it was built from. -/
theorem reader_inverts_frames (headerBuf : List UInt8) :
    (∀ frames, (∀ f ∈ frames, f.Legal) →
        (readStream (.start headerBuf) (encodeFrames frames)).1.delivered = frames ∧
          (readStream (.start headerBuf) (encodeFrames frames)).1.disconnects = 0) ∧
      (∀ stream, ∃ frames rest, (∀ f ∈ frames, f.Legal) ∧ stream = encodeFrames frames ++ rest ∧
        (BadHeader rest ∨ Incomplete rest)) ∧
      (∀ frames rest, (∀ f ∈ frames, f.Legal) → BadHeader rest ∨ Incomplete rest →
        ReadTo frames rest (readStream (.start headerBuf) (encodeFrames frames ++ rest)).1) ∧
      ∀ id cmd payload, payload.length ≤ MAX_PAYLOAD_SIZE →
        (readStream (.start headerBuf) (RemoteConn.buildFrame id cmd payload)).1.delivered =
          [⟨id, cmd, payload⟩] := by
  have hnil : Incomplete [] := .inl (by decide)
  have hframes : ∀ frames, (∀ f ∈ frames, f.Legal) →
      ReadTo frames [] (readStream (.start headerBuf) (encodeFrames frames)).1 := by
    intro frames hf
    simpa using readStream_of_split headerBuf hf (.inr hnil)
  refine ⟨fun frames hf => ?_, exists_frames, fun frames rest hf hrest => ?_, ?_⟩
  · exact ⟨(hframes frames hf).delivered, ((hframes frames hf).incomplete hnil).1⟩
  · exact readStream_of_split headerBuf hf hrest
  · intro id cmd payload hlen
    have hone : encodeFrames [⟨id, cmd, payload⟩] = RemoteConn.buildFrame id cmd payload := by
      rw [buildFrame_eq]
      simp [encodeFrames]
    have hread := hframes [⟨id, cmd, payload⟩] (by simpa [ResponseFrame.Legal] using hlen)
    rw [hone] at hread
    exact hread.delivered

/-- A frame with a payload, an empty one, a header of length 3, and one more frame. -/
theorem reader_inverts_frames_bad :
    let frames : List ResponseFrame := [⟨1, 0, [5, 6]⟩, ⟨2, 1, []⟩]
    let rest : List UInt8 := [3, 0, 0, 0, 9, 0, 0] ++ (ResponseFrame.mk 3 0 [7]).encode
    (readStream (.start []) (encodeFrames frames ++ rest)).1.delivered = frames ∧
      (readStream (.start []) (encodeFrames frames ++ rest)).1.disconnects = 1 := by
  intro frames rest
  have hbad : BadHeader rest := ⟨by decide, .inl (by decide)⟩
  have hread := (reader_inverts_frames []).2.2.1 frames rest (by decide) (.inl hbad)
  exact ⟨hread.delivered, (hread.bad hbad).1⟩

/-! ## The inbox of the connection

`RemoteConn` keeps the responses on the way to the client as a list and takes one off in each
`complete`. -/

def replyFrame (r : RemoteConn.Reply) : ResponseFrame := ⟨r.reqId, r.resp.status, r.resp.payload⟩

theorem inbox_delivered (headerBuf : List UInt8) {inbox : List RemoteConn.Reply}
    (h : ∀ r ∈ inbox, r.resp.payload.length ≤ MAX_PAYLOAD_SIZE) :
    (readStream (.start headerBuf) (encodeFrames (inbox.map replyFrame))).1.delivered =
      inbox.map replyFrame := by
  have hlegal : ∀ f ∈ inbox.map replyFrame, f.Legal := List.forall_mem_map.mpr h
  have hnone : Incomplete [] := .inl (by decide)
  simpa using (readStream_of_split headerBuf hlegal (.inr hnone)).delivered

end FrameReader
end ObZrv
