import ObZrv.Unifs.ScriptedServer

/-!
# Unifs.FallibleFile

Files whose `seek` and `tell` may fail at any call. A seek that fails may leave the position
anywhere: on a remote file it may be the reply that is lost.

* `ByteFile.fallible`       : a file that holds bytes is one on which `tell` never fails.
* `FileServer.fallibleFile` : a server that refuses requests makes a `RemoteFile` one.
-/

namespace ObZrv

/-- `f` reads the bytes at its position, which `tell` gives and a seek moves, unless they fail. -/
structure FallibleFile {W : Type} (a : Arch) (f : UniFile W) (bytes : List UInt8) where
  inv : W → Prop
  pos : W → Nat
  pos_lt : ∀ w, inv w → pos w < 9223372036854775808
  tell : ∀ w, inv w → inv (f.tell w).2 ∧ pos (f.tell w).2 = pos w ∧
    ((f.tell w).1 = pos w ∨ (f.tell w).1 < 0)
  seek : ∀ offset whence w, inv w → InInt64 offset → inv (f.seek offset whence w).2 ∧
    ((f.seek offset whence w).1 = 0 →
      (pos (f.seek offset whence w).2 : Int) = seekTarget bytes.length (pos w) offset whence)
  read : ∀ buf w, inv w → buf.length < 2 ^ a.bits →
    ∃ n w', n ≤ buf.length ∧ n ≤ bytes.length - pos w ∧ pos w' = pos w + n ∧ inv w' ∧
      f.read buf w = some (n, (bytes.drop (pos w)).take n ++ buf.drop n, w')

/-- The inner calls of a seek that goes on to ask for the position: one of them fails. -/
def UniFile.SeekFails {W : Type} (f : UniFile W) (offset : Int) (whence : Whence) (w : W) : Prop :=
  (f.seek offset whence w).1 ≠ 0 ∨ (f.tell (f.seek offset whence w).2).1 < 0

def ByteFile.fallible {W : Type} {a : Arch} {f : UniFile W} {bytes : List UInt8}
    (file : ByteFile a f bytes) : FallibleFile a f bytes where
  inv := file.inv
  pos := file.pos
  pos_lt := file.pos_lt
  tell w hw := by
    obtain ⟨hr, hpos, hinv⟩ := file.tell w hw
    exact ⟨hinv, hpos, .inl hr⟩
  seek offset whence w hw hin := by
    obtain ⟨hinv, h⟩ := file.seek offset whence w hw hin
    refine ⟨hinv, ?_⟩
    intro hr
    rcases h with h | h
    · exact h.2
    · exact absurd hr h.1
  read := file.read

namespace FileServer

variable {C : Type} {link : Link C} {handle : UInt32} {bytes : List UInt8}

/-- The file is never cut, and a request that is refused leaves the position. -/
structure Refusing (server : FileServer link handle bytes) : Prop where
  content : ∀ c, server.content c = bytes
  pos : ∀ c r, server.fails c = true → server.pos (link.serve c r).2 = server.pos c

section Reading

variable {a : Arch} {s : RemoteFile.ReadState C} {size p n : Nat} {buf : List UInt8}
  {server : FileServer link handle bytes}

open RemoteFile

/-- A pass that gets nothing only leaves the connection used. -/
theorem Filled.exchanged (hf : server.Filled size p buf n s)
    (hpos : server.pos (after link handle s) = server.pos s.conn.conn) :
    server.Filled size p buf n { s with conn := (exchange link handle s).2 } := by
  refine ⟨hf.dst, hf.total, hf.left, hf.length, hf.filled, ?_, hf.read_le⟩
  simp only [server.exchange_conn, hpos, hf.pos]

/-- However many requests are refused, what has been read are the bytes from the start on. -/
theorem Refusing.readLoop (href : server.Refusing) (hw : size < 2 ^ a.bits) (fuel : Nat)
    (hf : server.Filled size p buf n s) (hfuel : s.size < fuel) :
    ∃ n' s', RemoteFile.readLoop a link handle fuel s = .done s' ∧
      server.Filled size p buf n' s' := by
  induction fuel generalizing n s with
  | zero => omega
  | succ fuel ih =>
    have hleft := hf.left
    rw [RemoteFile.readLoop]
    by_cases h0 : s.size = 0
    · rw [if_pos h0]
      exact ⟨n, s, rfl, hf⟩
    rw [if_neg h0]
    cases hfails : server.fails s.conn.conn with
    | true =>
      rw [server.readPass_fails hfails]
      exact ⟨n, _, rfl, hf.exchanged (href.pos _ _ hfails)⟩
    | false =>
      rcases Nat.eq_zero_or_pos (server.gets s) with hgets | hgets
      · -- end of file
        have hpos := (server.reply_eq hfails).2
        rw [server.readPass_eof hfails hgets]
        rw [hgets, Nat.add_zero] at hpos
        exact ⟨n, _, rfl, hf.exchanged hpos⟩
      · obtain ⟨s', hf', -, hpass⟩ := server.readPass_gets hw hf hfails hgets
        have hleft' := hf'.left
        rw [hpass]
        by_cases hlast : server.gets s < (chunkOf s.size).toNat
        · rw [if_pos hlast]
          exact ⟨_, s', rfl, hf'⟩
        · rw [if_neg hlast]
          exact ih hf' (by omega)

end Reading

section Calls

variable {f : RemoteFile} (server : FileServer link f.handle bytes)

theorem fallible_pos (conn : Session C) (_ : True) :
    server.pos conn.conn + 1 ≤ 9223372036854775808 :=
  server.pos_lt conn.conn

theorem fallible_tell (href : server.Refusing) (hopen : f.closed = false) (conn : Session C)
    (_ : True) : True ∧ server.pos (f.tell link conn).2.conn = server.pos conn.conn ∧
      ((f.tell link conn).1 = server.pos conn.conn ∨ (f.tell link conn).1 < 0) := by
  refine ⟨trivial, ?_⟩
  cases hfails : server.fails conn.conn with
  | true =>
    refine ⟨?_, .inr ?_⟩
    · rw [tell_conn f server hopen]
      exact href.pos _ _ hfails
    · rw [(tell_fails f server hopen conn hfails).1]
      decide
  | false =>
    obtain ⟨hr, hpos⟩ := tell_served f server hopen conn hfails
    exact ⟨hpos, .inl hr⟩

theorem fallible_seek (href : server.Refusing) (hopen : f.closed = false) (offset : Int)
    (whence : Whence) (conn : Session C) (_ : True) (hin : InInt64 offset) :
    True ∧ ((f.seek link conn offset whence).1 = 0 →
      (server.pos (f.seek link conn offset whence).2.conn : Int) =
        seekTarget bytes.length (server.pos conn.conn) offset whence) := by
  refine ⟨trivial, ?_⟩
  intro hr
  cases hfails : server.fails conn.conn with
  | true => exact absurd hr (seek_fails f server hopen conn hfails offset whence).1
  | false =>
    have hseek := seek_served f server hopen conn hfails hin whence
    simp only [href.content] at hseek
    split at hseek
    · exact hseek.2
    · exact absurd hr hseek.1

theorem fallible_read (a : Arch) (href : server.Refusing) (hopen : f.closed = false)
    (buf : List UInt8) (conn : Session C) (_ : True) (hw : buf.length < 2 ^ a.bits) :
    ∃ n conn', n ≤ buf.length ∧ n ≤ bytes.length - server.pos conn.conn ∧
      server.pos conn'.conn = server.pos conn.conn + n ∧ True ∧
      (f.uniFile a link).read buf conn =
        some (n, (bytes.drop (server.pos conn.conn)).take n ++ buf.drop n, conn') := by
  have hstart : server.Filled buf.length (server.pos conn.conn) buf 0
      ⟨conn, buf, 0, 0, buf.length, []⟩ :=
    ⟨rfl, rfl, by simp, rfl, by simp, rfl, Nat.zero_le _⟩
  obtain ⟨n, s, hloop, hf⟩ := href.readLoop hw (buf.length + 1) hstart (Nat.lt_succ_self _)
  have hread : f.read link conn (⟨buf, hw⟩ : Buffer a) = .done s := by
    rw [← hloop, RemoteFile.read]
    simp only [hopen, Bool.false_eq_true, false_or]
    split
    · rename_i h0
      rw [RemoteFile.readLoop, if_pos h0]
    · rfl
  have hleft := hf.left
  refine ⟨n, s.conn, by omega, hf.read_le, hf.pos, trivial, ?_⟩
  have hdone := RemoteFile.readInto_done hread
  rw [hf.total, hf.filled] at hdone
  exact hdone

end Calls

/-- A server that refuses requests makes a `RemoteFile` a file that may fail. -/
def fallibleFile (a : Arch) {f : RemoteFile} (server : FileServer link f.handle bytes)
    (href : server.Refusing) (hopen : f.closed = false) :
    FallibleFile a (f.uniFile a link) bytes where
  inv _ := True
  pos conn := server.pos conn.conn
  pos_lt := server.fallible_pos
  tell := server.fallible_tell href hopen
  seek := server.fallible_seek href hopen
  read := server.fallible_read a href hopen

end FileServer

/-- A scripted server that never cuts its file. -/
theorem Script.refusing (script : Script) (handle : UInt32)
    (hkeep : ∀ i, script.bytes.length ≤ script.keep i) : (script.server handle).Refusing where
  content c := by
    have hleft : ∀ n, script.left n = script.bytes.length := by
      intro n
      induction n with
      | zero => rfl
      | succ n ih =>
        rw [Script.left, ih]
        exact Nat.min_eq_left (hkeep n)
    change script.bytes.take (script.left c.served) = script.bytes
    rw [hleft, List.take_length]
  pos c r h := by
    change (script.serve c r).2.pos = c.pos
    change script.fails c.served = true at h
    rw [Script.serve, if_pos h]
    rfl

end ObZrv
