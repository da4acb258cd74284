import Mathlib.Data.List.TakeDrop
import Mathlib.Tactic.Common
import Mathlib.Algebra.Group.Nat.Defs

/-!
# Unifs.UniFile

The interface `UniFile` of `unifs/unifile.hpp`, as far as files are read through it, and what it
means for an object to behave as a file that holds given bytes.

`W` is everything a call can change: the object itself and what lies behind it. A buffer is a byte
list whose length is the `size` argument.
-/

namespace ObZrv

/-- The two builds of obZrv; they differ in the width of `size_t`. -/
inductive Arch where
  | x86
  | x64
deriving DecidableEq, Repr

def Arch.bits : Arch → Nat
  | .x86 => 32
  | .x64 => 64

/-- What `int64_t` holds. -/
def InInt64 (x : Int) : Prop := -9223372036854775808 ≤ x ∧ x < 9223372036854775808

/-- `whence` of `fseek`. -/
inductive Whence where
  | SEEK_SET
  | SEEK_CUR
  | SEEK_END
deriving DecidableEq, Repr

structure UniFile (W : Type) where
  /-- 0 on success. -/
  seek : Int → Whence → W → Int × W
  /-- Negative on failure. -/
  tell : W → Int × W
  /-- The number of bytes read and the buffer with them at its front; `none` if the call touches
  memory outside the buffer. -/
  read : List UInt8 → W → Option (Nat × List UInt8 × W)

/-- Where a seek leads in a file of `len` bytes, from position `pos`. -/
def seekTarget (len pos : Nat) (offset : Int) : Whence → Int
  | .SEEK_SET => offset
  | .SEEK_CUR => pos + offset
  | .SEEK_END => len + offset

/-- `f` behaves as a file that holds `bytes`, as long as `inv` holds: it has a position that `tell`
gives and a seek may move; a read gives the bytes at the position, any number of them up to the
size asked for. -/
structure ByteFile {W : Type} (a : Arch) (f : UniFile W) (bytes : List UInt8) where
  inv : W → Prop
  pos : W → Nat
  pos_lt : ∀ w, inv w → pos w < 9223372036854775808
  tell : ∀ w, inv w → (f.tell w).1 = pos w ∧ pos (f.tell w).2 = pos w ∧ inv (f.tell w).2
  seek : ∀ offset whence w, inv w → InInt64 offset → inv (f.seek offset whence w).2 ∧
    ((f.seek offset whence w).1 = 0 ∧
        (pos (f.seek offset whence w).2 : Int) = seekTarget bytes.length (pos w) offset whence ∨
      (f.seek offset whence w).1 ≠ 0 ∧ pos (f.seek offset whence w).2 = pos w)
  read : ∀ buf w, inv w → buf.length < 2 ^ a.bits →
    ∃ n w', n ≤ buf.length ∧ n ≤ bytes.length - pos w ∧ pos w' = pos w + n ∧ inv w' ∧
      f.read buf w = some (n, (bytes.drop (pos w)).take n ++ buf.drop n, w')

/-! ## Sequences of calls -/

inductive Call where
  | seek (offset : Int) (whence : Whence)
  | tell
  | read (buf : List UInt8)

inductive Reply where
  | seek (r : Int)
  | tell (pos : Int)
  | read (n : Nat) (buf : List UInt8)

def UniFile.call {W : Type} (f : UniFile W) (w : W) : Call → Option (Reply × W)
  | .seek offset whence =>
    let (r, w) := f.seek offset whence w
    some (.seek r, w)
  | .tell =>
    let (p, w) := f.tell w
    some (.tell p, w)
  | .read buf => (f.read buf w).map fun (n, buf, w) => (.read n buf, w)

def UniFile.calls {W : Type} (f : UniFile W) : W → List Call → Option (List Reply × W)
  | w, [] => some ([], w)
  | w, c :: cs =>
    match f.call w c with
    | none => none
    | some (r, w) => (f.calls w cs).map fun (rs, w) => (r :: rs, w)

/-- The arguments are values of their C++ types. -/
def Call.Valid (a : Arch) : Call → Prop
  | .seek offset _ => InInt64 offset
  | .tell => True
  | .read buf => buf.length < 2 ^ a.bits

/-- What a file that holds `bytes` may answer at position `p`, and where it is afterwards. -/
inductive Answers (bytes : List UInt8) (p : Nat) : Call → Reply → Nat → Prop where
  | seek {offset : Int} {whence : Whence} {q : Nat}
      (h : (q : Int) = seekTarget bytes.length p offset whence) :
      Answers bytes p (.seek offset whence) (.seek 0) q
  | seekFails {offset : Int} {whence : Whence} {r : Int} (h : r ≠ 0) :
      Answers bytes p (.seek offset whence) (.seek r) p
  | tell : Answers bytes p .tell (.tell p) p
  | read {buf : List UInt8} {n : Nat} (hn : n ≤ buf.length) (hp : n ≤ bytes.length - p) :
      Answers bytes p (.read buf) (.read n ((bytes.drop p).take n ++ buf.drop n)) (p + n)

/-- A sequence of calls and answers from position `p` on. -/
inductive AnsweredFrom (bytes : List UInt8) : Nat → List Call → List Reply → Prop where
  | nil {p : Nat} : AnsweredFrom bytes p [] []
  | cons {p q : Nat} {c : Call} {r : Reply} {cs : List Call} {rs : List Reply} :
      Answers bytes p c r q → AnsweredFrom bytes q cs rs → AnsweredFrom bytes p (c :: cs) (r :: rs)

namespace ByteFile

variable {W : Type} {a : Arch} {f : UniFile W} {bytes : List UInt8}

theorem answers (file : ByteFile a f bytes) {w : W} (hw : file.inv w) {c : Call} (hc : c.Valid a) :
    ∃ r w', f.call w c = some (r, w') ∧ file.inv w' ∧ Answers bytes (file.pos w) c r (file.pos w') := by
  cases c with
  | seek offset whence =>
    obtain ⟨hinv, h | h⟩ := file.seek offset whence w hw hc
    · refine ⟨_, _, rfl, hinv, ?_⟩
      rw [h.1]
      exact .seek h.2
    · refine ⟨_, _, rfl, hinv, ?_⟩
      rw [h.2]
      exact .seekFails h.1
  | tell =>
    obtain ⟨hr, hpos, hinv⟩ := file.tell w hw
    refine ⟨_, _, rfl, hinv, ?_⟩
    rw [hr, hpos]
    exact .tell
  | read buf =>
    obtain ⟨n, w', hn, hp, hpos, hinv, hread⟩ := file.read buf w hw hc
    refine ⟨.read n ((bytes.drop (file.pos w)).take n ++ buf.drop n), w', ?_, hinv, ?_⟩
    · rw [UniFile.call, hread]
      rfl
    · rw [hpos]
      exact .read hn hp

/-- Whatever the sequence of calls, each is answered from the bytes at the position it is made at. -/
theorem answeredFrom (file : ByteFile a f bytes) {w : W} (hw : file.inv w) {cs : List Call}
    (hcs : ∀ c ∈ cs, c.Valid a) :
    ∃ rs w', f.calls w cs = some (rs, w') ∧ AnsweredFrom bytes (file.pos w) cs rs := by
  induction cs generalizing w with
  | nil => exact ⟨[], w, rfl, .nil⟩
  | cons c cs ih =>
    obtain ⟨r, w₁, hcall, hinv, hans⟩ := file.answers hw (hcs c List.mem_cons_self)
    obtain ⟨rs, w₂, hcalls, hrest⟩ := ih hinv fun c' hc' => hcs c' (List.mem_cons_of_mem c hc')
    refine ⟨r :: rs, w₂, ?_, .cons hans hrest⟩
    rw [UniFile.calls, hcall]
    simp only [hcalls, Option.map_some]

end ByteFile

end ObZrv
