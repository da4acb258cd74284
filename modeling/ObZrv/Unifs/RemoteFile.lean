import ObZrv.Unifs.Link
import ObZrv.Unifs.UniFile

/-!
# Unifs.RemoteFile

`RemoteFile::read` of `unifs/remote_file.cpp`, with the memory it touches. The caller's buffer is
a byte list and `dst` an offset into it; `memcpy` is checked, and a copy that would read behind
the payload or write behind the buffer ends the run in a `fault`. Every copy done is recorded.

* `read_stays_in_buffer` : for every server, `read` ends with all its accesses in range exactly
  when no accepted reply carries more bytes than were asked for.
-/

namespace ObZrv

/-- A caller's buffer; its length is the `size` argument, so it fits in a `size_t`. -/
structure Buffer (a : Arch) where
  bytes : List UInt8
  size_lt : bytes.length < 2 ^ a.bits

structure RemoteFile where
  handle : UInt32
  closed : Bool
deriving DecidableEq, Repr

namespace RemoteFile

/-- Maximum bytes requested per `FILE_READ` message. -/
def MAX_READ_CHUNK : Nat := MAX_PAYLOAD_SIZE - 4

/-- One `memcpy` of `read`: where it writes, how many bytes, the payload it reads from (the copy
starts at its offset 4), and the bytes still wanted before it. -/
structure Copy where
  offset : Nat
  count : Nat
  avail : Nat
  left : Nat
deriving DecidableEq, Repr

/-- The copy stays inside the payload and inside a buffer of `cap` bytes, and `size -= n` does not
wrap. -/
structure Copy.Safe (cap : Nat) (m : Copy) : Prop where
  dst : m.offset + m.count ≤ cap
  src : 4 + m.count ≤ m.avail
  left : m.count ≤ m.left

/-- The local variables of `read`, the buffer and the connection. -/
structure ReadState (C : Type) where
  conn : Session C
  buf : List UInt8
  dst : Nat
  total : Nat
  size : Nat
  copies : List Copy

/-- How one iteration leaves the loop body. -/
inductive Pass (C : Type) where
  | stop (s : ReadState C)
  | again (s : ReadState C)
  | fault (m : Copy)

inductive Outcome (C : Type) where
  | done (s : ReadState C)
  | fault (m : Copy)
  | outOfFuel

def chunkOf (size : Nat) : UInt32 :=
  if size > MAX_READ_CHUNK then UInt32.ofNat MAX_READ_CHUNK else UInt32.ofNat size

def readRequest (handle chunk : UInt32) : List UInt8 := protoWriteU32 handle ++ protoWriteU32 chunk

def countOf (resp : Response) : UInt32 := protoReadU32 resp.payload

/-- The reply passes the tests of the loop, so its bytes are copied. -/
def Accepted (resp : Response) : Prop :=
  resp.status = STATUS_OK ∧ 4 ≤ resp.payload.length ∧ countOf resp ≠ 0 ∧
    (4 + countOf resp).toNat ≤ resp.payload.length

instance (resp : Response) : Decidable (Accepted resp) :=
  inferInstanceAs (Decidable (_ ∧ _))

section

variable {C : Type} (a : Arch) (link : Link C) (handle : UInt32)

/-- The loop body. -/
def readPass (s : ReadState C) : Pass C :=
  let chunk := chunkOf s.size
  let (resp, conn) := link.sendRequest s.conn CMD_FILE_READ (readRequest handle chunk)
  let s := { s with conn }
  if resp.status ≠ STATUS_OK ∨ resp.payload.length < 4 then .stop s
  else
    let n := countOf resp
    if n = 0 then .stop s
    -- `4 + n` is a 32-bit sum
    else if resp.payload.length < (4 + n).toNat then .stop s
    else
      let m : Copy := ⟨s.dst, n.toNat, resp.payload.length, s.size⟩
      if 4 + n.toNat ≤ resp.payload.length ∧ s.dst + n.toNat ≤ s.buf.length then
        let s := { s with
          buf := s.buf.take s.dst ++ (resp.payload.drop 4).take n.toNat ++
            s.buf.drop (s.dst + n.toNat)
          dst := s.dst + n.toNat
          total := (s.total + n.toNat) % 2 ^ a.bits
          size := (s.size + 2 ^ a.bits - n.toNat) % 2 ^ a.bits
          copies := s.copies ++ [m] }
        if n < chunk then .stop s else .again s
      else .fault m

def readLoop : Nat → ReadState C → Outcome C
  | 0, _ => .outOfFuel
  | fuel + 1, s =>
    if s.size = 0 then .done s
    else
      match readPass a link handle s with
      | .stop s' => .done s'
      | .again s' => readLoop fuel s'
      | .fault m => .fault m

end

/-- `RemoteFile::read`. -/
def read {C : Type} {a : Arch} (f : RemoteFile) (link : Link C) (conn : Session C)
    (buf : Buffer a) : Outcome C :=
  let size := buf.bytes.length
  let s : ReadState C := { conn, buf := buf.bytes, dst := 0, total := 0, size, copies := [] }
  if f.closed ∨ size = 0 then .done s
  else readLoop a link f.handle (size + 1) s

/-! ## The replies

The requests of the loop are fixed in advance: as long as every reply brings the whole chunk, the
`i`-th asks for what is left after `i` chunks. -/

section Replies

variable {C : Type} (link : Link C) (handle : UInt32) (conn : Session C) (size : Nat)

def chunkAt (i : Nat) : UInt32 := chunkOf (size - i * MAX_READ_CHUNK)

def connAt : Nat → Session C
  | 0 => conn
  | i + 1 =>
    (link.sendRequest (connAt i) CMD_FILE_READ (readRequest handle (chunkAt size i))).2

def replyAt (i : Nat) : Response :=
  (link.sendRequest (connAt link handle conn size i) CMD_FILE_READ
    (readRequest handle (chunkAt size i))).1

/-- The `i`-th request is made: bytes are still wanted, and every reply before was accepted with
exactly the chunk asked for. -/
def Asked (i : Nat) : Prop :=
  i * MAX_READ_CHUNK < size ∧ ∀ j < i, Accepted (replyAt link handle conn size j) ∧
    countOf (replyAt link handle conn size j) = chunkAt size j

/-- No accepted reply states more bytes than its request asked for. -/
def CountsFit : Prop :=
  ∀ i, Asked link handle conn size i → Accepted (replyAt link handle conn size i) →
    countOf (replyAt link handle conn size i) ≤ chunkAt size i

end Replies

/-! ## One pass -/

theorem chunkOf_toNat (size : Nat) : (chunkOf size).toNat = min size MAX_READ_CHUNK := by
  unfold chunkOf
  split
  · rw [UInt32.toNat_ofNat_of_lt' (by decide)]
    omega
  · have : size < 2 ^ 32 := by
      simp only [MAX_READ_CHUNK, MAX_PAYLOAD_SIZE] at *
      omega
    rw [UInt32.toNat_ofNat_of_lt' this]
    omega

section Pass

variable {C : Type} {a : Arch} {link : Link C} {handle : UInt32} {s : ReadState C}

/-- The reply and the connection of the pass that starts in `s`. -/
abbrev exchange (link : Link C) (handle : UInt32) (s : ReadState C) : Response × Session C :=
  link.sendRequest s.conn CMD_FILE_READ (readRequest handle (chunkOf s.size))

theorem readPass_stop (a : Arch) (link : Link C) (handle : UInt32) (s : ReadState C)
    (h : ¬ Accepted (exchange link handle s).1) :
    readPass a link handle s = .stop { s with conn := (exchange link handle s).2 } := by
  simp only [Accepted, not_and_or, Nat.not_le] at h
  unfold readPass
  rcases h with h | h | h | h
  · simp [h]
  · simp [h]
  · simp only [ne_eq, not_not] at h
    simp [h]
  · simp only [ne_eq, h, if_true]
    split
    · rfl
    · split <;> rfl

/-- The state after `m.count` bytes of the reply have been copied. -/
def ReadState.copied (a : Arch) (s : ReadState C) (resp : Response) (conn : Session C) :
    ReadState C :=
  let n := (countOf resp).toNat
  { conn
    buf := s.buf.take s.dst ++ (resp.payload.drop 4).take n ++ s.buf.drop (s.dst + n)
    dst := s.dst + n
    total := (s.total + n) % 2 ^ a.bits
    size := (s.size + 2 ^ a.bits - n) % 2 ^ a.bits
    copies := s.copies ++ [⟨s.dst, n, resp.payload.length, s.size⟩] }

theorem readPass_accepted (a : Arch) (link : Link C) (handle : UInt32) (s : ReadState C)
    (h : Accepted (exchange link handle s).1) :
    readPass a link handle s =
      let resp := (exchange link handle s).1
      let n := (countOf resp).toNat
      if 4 + n ≤ resp.payload.length ∧ s.dst + n ≤ s.buf.length then
        let s' := s.copied a resp (exchange link handle s).2
        if countOf resp < chunkOf s.size then .stop s' else .again s'
      else .fault ⟨s.dst, n, resp.payload.length, s.size⟩ := by
  obtain ⟨hok, hlen, hn, hsum⟩ := h
  have hlen' := Nat.not_lt.mpr hlen
  have hsum' := Nat.not_lt.mpr hsum
  unfold readPass
  simp only [ne_eq, hok, not_true_eq_false, hlen', or_self, if_false, hn, hsum']
  rfl

end Pass

/-! ## The loop -/

section Loop

variable {C : Type} {a : Arch} {link : Link C} {handle : UInt32} {conn : Session C} {size : Nat}

/-- What a run of `read` must end in: nothing written outside the buffer, nothing read outside a
payload, the remaining size never below zero. -/
structure InRange (size : Nat) (s : ReadState C) : Prop where
  total_le : s.total ≤ size
  length_eq : s.buf.length = size
  copies : ∀ m ∈ s.copies, m.Safe size

/-- The loop invariant: `i` full chunks have been read. -/
structure AtChunk (link : Link C) (handle : UInt32) (conn : Session C) (size i : Nat)
    (s : ReadState C) : Prop where
  session : s.conn = connAt link handle conn size i
  left : s.size = size - i * MAX_READ_CHUNK
  dst : s.dst + s.size = size
  total : s.total = s.dst
  length : s.buf.length = size
  safe : ∀ m ∈ s.copies, m.Safe size
  full : ∀ j < i, Accepted (replyAt link handle conn size j) ∧
    countOf (replyAt link handle conn size j) = chunkAt size j

variable {i : Nat} {s : ReadState C}

theorem AtChunk.inRange (h : AtChunk link handle conn size i s) : InRange size s where
  total_le := by
    have := h.dst
    rw [h.total]
    omega
  length_eq := h.length
  copies := h.safe

theorem AtChunk.exchange_eq (h : AtChunk link handle conn size i s) :
    exchange link handle s =
      (replyAt link handle conn size i, connAt link handle conn size (i + 1)) := by
  simp only [exchange, h.session, h.left, replyAt, connAt, chunkAt]

theorem AtChunk.copied (h : AtChunk link handle conn size i s) (hw : size < 2 ^ a.bits)
    {resp : Response} (hsrc : 4 + (countOf resp).toNat ≤ resp.payload.length)
    (hle : (countOf resp).toNat ≤ s.size) (conn' : Session C) :
    (s.copied a resp conn').size = s.size - (countOf resp).toNat ∧
      (s.copied a resp conn').dst + (s.copied a resp conn').size = size ∧
      (s.copied a resp conn').total = (s.copied a resp conn').dst ∧
      InRange size (s.copied a resp conn') := by
  have hdst := h.dst
  have hsize : (s.size + 2 ^ a.bits - (countOf resp).toNat) % 2 ^ a.bits =
      s.size - (countOf resp).toNat := by
    rw [show s.size + 2 ^ a.bits - (countOf resp).toNat =
      s.size - (countOf resp).toNat + 2 ^ a.bits by omega, Nat.add_mod_right]
    exact Nat.mod_eq_of_lt (by omega)
  have htotal : (s.total + (countOf resp).toNat) % 2 ^ a.bits = s.dst + (countOf resp).toNat := by
    rw [h.total]
    exact Nat.mod_eq_of_lt (by omega)
  refine ⟨hsize, ?_, htotal, ?_, ?_, ?_⟩
  · simp only [ReadState.copied, hsize]
    omega
  · simp only [ReadState.copied, htotal]
    omega
  · have hlen := h.length
    simp only [ReadState.copied, List.length_append, List.length_take, List.length_drop]
    omega
  · intro m hm
    rcases List.mem_append.mp hm with hm | hm
    · exact h.safe m hm
    · obtain rfl := List.mem_singleton.mp hm
      exact ⟨by simp only; omega, hsrc, hle⟩

theorem countOf_pos {resp : Response} (h : Accepted resp) : 0 < (countOf resp).toNat := by
  refine Nat.pos_of_ne_zero fun h0 => h.2.2.1 ?_
  exact UInt32.toNat_inj.mp h0

/-- With a count up to the chunk the sum `4 + n` does not wrap. -/
theorem accepted_src {resp : Response} (h : Accepted resp)
    (hle : countOf resp ≤ chunkAt size i) : 4 + (countOf resp).toNat ≤ resp.payload.length := by
  have hchunk := UInt32.le_iff_toNat_le.mp hle
  rw [chunkAt, chunkOf_toNat] at hchunk
  have hmax : MAX_READ_CHUNK = 1048572 := rfl
  have hsum := h.2.2.2
  rw [UInt32.toNat_add, show (4 : UInt32).toNat = 4 from rfl, Nat.mod_eq_of_lt (by omega)] at hsum
  exact hsum

/-- A count above the chunk does not pass the checked copy: either the buffer is too short, or the
payload is. -/
theorem AtChunk.not_in_range (h : AtChunk link handle conn size i s)
    (hlt : chunkAt size i < countOf (replyAt link handle conn size i)) :
    ¬ (4 + (countOf (replyAt link handle conn size i)).toNat ≤
        (replyAt link handle conn size i).payload.length ∧
      s.dst + (countOf (replyAt link handle conn size i)).toNat ≤ s.buf.length) := by
  rintro ⟨hsrc, hdst⟩
  have hmax := link.sendRequest_payload_le (connAt link handle conn size i) CMD_FILE_READ
    (readRequest handle (chunkAt size i))
  have hchunk := chunkOf_toNat (size - i * MAX_READ_CHUNK)
  have hlt' := UInt32.lt_iff_toNat_lt.mp hlt
  have h₁ := h.dst
  have h₂ := h.left
  rw [h.length] at hdst
  rw [chunkAt, hchunk] at hlt'
  change (replyAt link handle conn size i).payload.length ≤ MAX_PAYLOAD_SIZE at hmax
  have : MAX_READ_CHUNK = MAX_PAYLOAD_SIZE - 4 := rfl
  omega

/-- From the `i`-th pass on no reply states too many bytes. -/
def FitFrom (link : Link C) (handle : UInt32) (conn : Session C) (size i : Nat) : Prop :=
  ∀ j, i ≤ j → Asked link handle conn size j → Accepted (replyAt link handle conn size j) →
    countOf (replyAt link handle conn size j) ≤ chunkAt size j

/-- After a reply that ends the loop nothing more is asked. -/
theorem fitFrom_of_last (hle : Accepted (replyAt link handle conn size i) →
      countOf (replyAt link handle conn size i) ≤ chunkAt size i)
    (hlast : ¬ (Accepted (replyAt link handle conn size i) ∧
      countOf (replyAt link handle conn size i) = chunkAt size i)) :
    FitFrom link handle conn size i := by
  intro j hj hasked hacc
  rcases Nat.eq_or_lt_of_le hj with rfl | hij
  · exact hle hacc
  · exact absurd (hasked.2 i hij) hlast

theorem fitFrom_succ_iff (hle : countOf (replyAt link handle conn size i) ≤ chunkAt size i) :
    FitFrom link handle conn size i ↔ FitFrom link handle conn size (i + 1) := by
  constructor
  · exact fun h j hj => h j (Nat.le_of_succ_le hj)
  · intro h j hj
    rcases Nat.eq_or_lt_of_le hj with rfl | hij
    · exact fun _ _ => hle
    · exact h j hij

theorem sub_mul_succ (n i k : Nat) : n - (i + 1) * k = n - i * k - min (n - i * k) k := by
  rw [Nat.succ_mul]
  omega

theorem AtChunk.next (h : AtChunk link handle conn size i s) (hw : size < 2 ^ a.bits)
    (hacc : Accepted (replyAt link handle conn size i))
    (heq : countOf (replyAt link handle conn size i) = chunkAt size i) :
    AtChunk link handle conn size (i + 1)
      (s.copied a (replyAt link handle conn size i) (connAt link handle conn size (i + 1))) := by
  have hc := chunkOf_toNat s.size
  have hchunk : chunkAt size i = chunkOf s.size := by rw [chunkAt, h.left]
  have hn : (countOf (replyAt link handle conn size i)).toNat ≤ s.size := by
    rw [heq, hchunk, hc]
    omega
  obtain ⟨hsize, hdst, htotal, hin⟩ :=
    h.copied hw (accepted_src hacc (UInt32.le_of_eq heq)) hn (connAt link handle conn size (i + 1))
  refine ⟨rfl, ?_, hdst, htotal, hin.length_eq, hin.copies, ?_⟩
  · rw [hsize, heq, hchunk, hc, h.left, sub_mul_succ]
  · intro j hj
    rcases Nat.lt_succ_iff_lt_or_eq.mp hj with hj | rfl
    · exact h.full j hj
    · exact ⟨hacc, heq⟩

/-- The loop from its `i`-th pass on: it ends in range, or with a copy out of range, according to
the replies to come. Each pass without a fault takes a byte off the size, so `size + 1` passes are
enough. -/
theorem readLoop_spec (hw : size < 2 ^ a.bits) (fuel : Nat)
    (h : AtChunk link handle conn size i s) (hfuel : s.size < fuel) :
    ((∃ s', readLoop a link handle fuel s = .done s' ∧ InRange size s') ∧
        FitFrom link handle conn size i) ∨
      ((∃ m, readLoop a link handle fuel s = .fault m ∧ ¬ m.Safe size) ∧
        ¬ FitFrom link handle conn size i) := by
  induction fuel generalizing i s with
  | zero => omega
  | succ fuel ih =>
    rw [readLoop]
    by_cases h0 : s.size = 0
    · -- everything has been read: no further request is made
      rw [if_pos h0]
      refine .inl ⟨⟨s, rfl, h.inRange⟩, fun j hj hasked => ?_⟩
      have hmul := Nat.mul_le_mul_right MAX_READ_CHUNK hj
      have := hasked.1
      have := h.left
      omega
    rw [if_neg h0]
    have hx := h.exchange_eq
    have hchunk : chunkOf s.size = chunkAt size i := by rw [chunkAt, h.left]
    by_cases hacc : Accepted (replyAt link handle conn size i)
    · have hpass := readPass_accepted a link handle s (by rw [hx]; exact hacc)
      simp only [hx, hchunk] at hpass
      rw [hpass]
      by_cases hle : countOf (replyAt link handle conn size i) ≤ chunkAt size i
      · have hn : (countOf (replyAt link handle conn size i)).toNat ≤ s.size := by
          have h₁ := UInt32.le_iff_toNat_le.mp hle
          rw [← hchunk, chunkOf_toNat] at h₁
          omega
        have hsrc := accepted_src hacc hle
        obtain ⟨hsize, -, -, hin⟩ := h.copied hw hsrc hn (connAt link handle conn size (i + 1))
        rw [if_pos ⟨hsrc, by have := h.dst; rw [h.length]; omega⟩]
        by_cases hlt : countOf (replyAt link handle conn size i) < chunkAt size i
        · -- a partial read: the loop ends
          rw [if_pos hlt]
          refine .inl ⟨⟨_, rfl, hin⟩, fitFrom_of_last (fun _ => hle) fun hfull => ?_⟩
          rw [hfull.2] at hlt
          exact UInt32.lt_irrefl _ hlt
        · -- a full chunk: the next pass is the `i + 1`-st
          rw [if_neg hlt, fitFrom_succ_iff hle]
          have heq : countOf (replyAt link handle conn size i) = chunkAt size i :=
            UInt32.le_antisymm hle (UInt32.not_lt.mp hlt)
          have hpos := countOf_pos hacc
          exact ih (h.next hw hacc heq) (by rw [hsize]; omega)
      · -- more bytes than asked for: the copy leaves the payload or the buffer
        have hout := h.not_in_range (UInt32.not_le.mp hle)
        rw [if_neg hout]
        refine .inr ⟨⟨_, rfl, fun hsafe => hout ⟨hsafe.src, ?_⟩⟩, fun hfit => hle ?_⟩
        · rw [h.length]
          exact hsafe.dst
        · exact hfit i (Nat.le_refl i) ⟨by have := h.left; omega, h.full⟩ hacc
    · -- the reply ends the loop
      have hpass := readPass_stop a link handle s (by rw [hx]; exact hacc)
      rw [hpass]
      refine .inl ⟨⟨_, rfl, h.inRange.1, h.inRange.2, h.inRange.3⟩, ?_⟩
      exact fitFrom_of_last (fun h => absurd h hacc) fun h => hacc h.1

/-- **`read` stays in its buffer** and ends, for every server, requested size and build, exactly
when no reply it accepts states more bytes than the request asked for. Otherwise it does a copy
out of range. -/
theorem read_stays_in_buffer (f : RemoteFile) (link : Link C) (conn : Session C) (buf : Buffer a) :
    ((∃ s, f.read link conn buf = .done s ∧ InRange buf.bytes.length s) ↔
      f.closed = true ∨ CountsFit link f.handle conn buf.bytes.length) ∧
    (¬ (f.closed = true ∨ CountsFit link f.handle conn buf.bytes.length) →
      ∃ m, f.read link conn buf = .fault m ∧ ¬ m.Safe buf.bytes.length) := by
  have hstart : AtChunk link f.handle conn buf.bytes.length 0
      ⟨conn, buf.bytes, 0, 0, buf.bytes.length, []⟩ :=
    ⟨rfl, by simp, by simp, rfl, rfl, by simp, by simp⟩
  have hfit : FitFrom link f.handle conn buf.bytes.length 0 ↔
      CountsFit link f.handle conn buf.bytes.length :=
    ⟨fun h i => h i (Nat.zero_le i), fun h i _ => h i⟩
  unfold read
  by_cases hc : f.closed = true ∨ buf.bytes.length = 0
  · have hcond : f.closed = true ∨ CountsFit link f.handle conn buf.bytes.length := by
      refine hc.imp_right fun h0 i hi => ?_
      have := hi.1
      omega
    rw [if_pos hc]
    exact ⟨iff_of_true ⟨_, rfl, hstart.inRange⟩ hcond, fun hn => absurd hcond hn⟩
  · rw [if_neg hc]
    rw [not_or] at hc
    rcases readLoop_spec buf.size_lt _ hstart (Nat.lt_succ_self _) with ⟨hin, hf⟩ | ⟨hout, hf⟩
    · have hcond := Or.inr (a := f.closed = true) (hfit.mp hf)
      exact ⟨iff_of_true hin hcond, fun hn => absurd hcond hn⟩
    · have hcond : ¬ (f.closed = true ∨ CountsFit link f.handle conn buf.bytes.length) :=
        fun h => h.elim hc.1 fun h => hf (hfit.mpr h)
      refine ⟨iff_of_false ?_ hcond, fun _ => hout⟩
      rintro ⟨s, hs, -⟩
      obtain ⟨m, hm, -⟩ := hout
      rw [hm] at hs
      cases hs

/-- One byte is asked for. A reply with five bytes overruns the buffer; a reply that states
`0xFFFFFFFF` bytes and brings none passes the 32-bit length test and is read behind its end. -/
theorem read_leaves_buffer :
    let f : RemoteFile := ⟨1, false⟩
    let buf : Buffer .x64 := ⟨[0], by decide⟩
    let conn : Session Unit := ⟨(), []⟩
    let long := Link.constantServer ⟨STATUS_OK, [5, 0, 0, 0, 1, 2, 3, 4, 5]⟩ (by decide)
    let wrap := Link.constantServer ⟨STATUS_OK, [255, 255, 255, 255]⟩ (by decide)
    (¬ ∃ s, f.read long conn buf = .done s ∧ InRange 1 s) ∧
      (¬ ∃ s, f.read wrap conn buf = .done s ∧ InRange 1 s) := by
  constructor
  · rintro ⟨s, hs, -⟩
    cases hs
  · rintro ⟨s, hs, -⟩
    cases hs

end Loop

end RemoteFile
end ObZrv
