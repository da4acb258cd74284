import Mathlib.Data.List.TakeDrop
import ObZrv.Doc.Document

/-!
# Doc.SaveAs

`Doc::saveAsLocal`: the document's file is copied to a local file in pieces of 64 KiB.

A `SaveCase` is what one call meets: the bytes of the source file, which opens succeed, how many
bytes each read and each write gets done, whether the last flush succeeds, and whether the
destination is the source file itself.

* `saveLoop_spec`          : the loop stops at the end of the source, at a short write, or at a read
  that fails, and the last it takes for the end of the source.
* `saveAsLocal_complete_iff` : when a result of 0 means a complete copy.
-/

namespace ObZrv

/-- What `saveAsLocal` calls; `F` is an open file. -/
structure SaveEnv (W F : Type) where
  localFs : UniFs
  toUnipath : Str → Str
  openfile : UniFs → Str → String → W → Option F × W
  read : F → List UInt8 → W → Option (Nat × List UInt8 × W)
  write : F → List UInt8 → W → Nat × W
  close : F → W → Int × W

/-- How a call ends. The destructor of the source file comes after and changes nothing. -/
inductive Saved (W : Type) where
  | ret (r : Int) (w : W)
  | fault
  | outOfFuel

def SAVE_BUF : Nat := 64 * 1024

section

variable {W F I : Type} (env : SaveEnv W F)

def saveLoop (src dst : F) : Nat → List UInt8 → W → Saved W
  | 0, _, _ => .outOfFuel
  | fuel + 1, buf, w =>
    match env.read src buf w with
    | none => .fault
    | some (n, buf, w) =>
      if n = 0 then
        let (r, w) := env.close dst w
        .ret r w
      else
        let (m, w) := env.write dst (buf.take n) w
        if m ≠ n then .ret (-1) w else saveLoop src dst fuel buf w

section Passes

variable {env} {src dst : F} {fuel n m : Nat} {buf buf' : List UInt8} {w w₁ w₂ : W}

theorem saveLoop_end (hread : env.read src buf w = some (0, buf', w₁)) :
    saveLoop env src dst (fuel + 1) buf w = .ret (env.close dst w₁).1 (env.close dst w₁).2 := by
  simp [saveLoop, hread]

theorem saveLoop_short (hread : env.read src buf w = some (n, buf', w₁)) (hn : n ≠ 0)
    (hwrite : env.write dst (buf'.take n) w₁ = (m, w₂)) (hm : m ≠ n) :
    saveLoop env src dst (fuel + 1) buf w = .ret (-1) w₂ := by
  simp [saveLoop, hread, hn, hwrite, hm]

theorem saveLoop_next (hread : env.read src buf w = some (n, buf', w₁)) (hn : n ≠ 0)
    (hwrite : env.write dst (buf'.take n) w₁ = (n, w₂)) :
    saveLoop env src dst (fuel + 1) buf w = saveLoop env src dst fuel buf' w₂ := by
  simp [saveLoop, hread, hn, hwrite]

end Passes

/-- `saveAsLocal`; `fresh` is what the stack holds where the buffer lies. -/
def saveAsLocal (fresh : Nat → UInt8) (fuel : Nat) (d : Doc I) (path : Option Str) (w : W) :
    Saved W :=
  match d.unifs, path with
  | some unifs, some path =>
    if d.path = [] ∨ path = [] then .ret (-1) w
    else
      match env.openfile unifs d.path "rb" w with
      | (none, w) => .ret (-1) w
      | (some src, w) =>
        match env.openfile env.localFs (env.toUnipath path) "wb" w with
        | (none, w) => .ret (-1) w
        | (some dst, w) => saveLoop env src dst fuel ((List.range SAVE_BUF).map fresh) w
  | _, _ => .ret (-1) w

/-- The call gets past its first test. -/
def CanSave (d : Doc I) (path : Option Str) : Prop :=
  d.path ≠ [] ∧ d.unifs.isSome ∧ path.isSome ∧ path ≠ some []

end

/-! ## The cases -/

structure SaveCase where
  source : List UInt8
  /-- What the destination holds before, unless it is the source. -/
  old : List UInt8
  /-- The destination is the source file. -/
  same : Bool
  srcOpens : Bool
  dstOpens : Bool
  /-- The `i`-th read fails, or gives `k + 1` bytes at most. -/
  reads : Nat → Option Nat
  /-- The `i`-th write is done whole, or up to `k` bytes. -/
  writes : Nat → Option Nat
  closes : Bool

/-- The two files, the position in the source, and the reads and writes done. -/
structure Disk where
  source : List UInt8
  dest : List UInt8
  pos : Nat := 0
  reads : Nat := 0
  writes : Nat := 0

inductive SaveFile where
  | src
  | dst

namespace SaveCase

variable (c : SaveCase)

/-- The bytes read `i` gives when `cap` are asked for and `left` are left. -/
def readSize (i cap left : Nat) : Nat :=
  match c.reads i with
  | none => 0
  | some k => min (k + 1) (min cap left)

def writeSize (i n : Nat) : Nat :=
  match c.writes i with
  | none => n
  | some k => min k n

def start : Disk := { source := c.source, dest := if c.same then c.source else c.old }

/-- Opening the destination truncates it. -/
def truncated : Disk := { source := if c.same then [] else c.source, dest := [] }

def env (localFs : UniFs) (toUnipath : Str → Str) : SaveEnv Disk SaveFile where
  localFs := localFs
  toUnipath := toUnipath
  openfile _ _ mode w :=
    if mode = "rb" then (if c.srcOpens then some .src else none, w)
    else if c.dstOpens then
      (some .dst, { w with source := if c.same then [] else w.source, dest := [] })
    else (none, w)
  read _ buf w :=
    let left := w.source.drop w.pos
    let n := c.readSize w.reads buf.length left.length
    some (n, left.take n ++ buf.drop n, { w with pos := w.pos + n, reads := w.reads + 1 })
  write _ data w :=
    let m := c.writeSize w.writes data.length
    let dest := w.dest ++ data.take m
    (m, { w with
      source := if c.same then dest else w.source
      dest := dest
      writes := w.writes + 1 })
  close _ w := (if c.closes then 0 else -1, w)

/-! ## When the copy stops early -/

/-- The position before read `i`. -/
def posAt : Nat → Nat
  | 0 => 0
  | i + 1 => posAt i + c.readSize i SAVE_BUF (c.source.length - posAt i)

def sizeAt (i : Nat) : Nat := c.readSize i SAVE_BUF (c.source.length - c.posAt i)

/-- Every read before read `i` gave bytes, and they were written whole. -/
def Reached (i : Nat) : Prop := ∀ j < i, 0 < c.sizeAt j ∧ c.writeSize j (c.sizeAt j) = c.sizeAt j

/-- Read `i` fails while bytes of the source are left. -/
structure FailsAt (i : Nat) : Prop where
  reached : c.Reached i
  left : c.posAt i < c.source.length
  fails : c.reads i = none

/-- All that reports a failure succeeds, and the copy is not complete: the source was truncated, or
a read fails before its end. -/
structure Unnoticed : Prop where
  srcOpens : c.srcOpens = true
  dstOpens : c.dstOpens = true
  closes : c.closes = true
  lost : if c.same = true then c.source ≠ [] else ∃ i, c.FailsAt i

theorem readSize_le (i cap left : Nat) : c.readSize i cap left ≤ cap ∧ c.readSize i cap left ≤ left := by
  unfold readSize
  split
  · exact ⟨Nat.zero_le _, Nat.zero_le _⟩
  · omega

theorem posAt_le (i : Nat) : c.posAt i ≤ c.source.length := by
  induction i with
  | zero => exact Nat.zero_le _
  | succ i ih =>
    have := (c.readSize_le i SAVE_BUF (c.source.length - c.posAt i)).2
    rw [posAt]
    omega

theorem sizeAt_eq_zero_iff (i : Nat) :
    c.sizeAt i = 0 ↔ c.reads i = none ∨ c.posAt i = c.source.length := by
  have hle := c.posAt_le i
  have hbuf : SAVE_BUF = 65536 := rfl
  unfold sizeAt readSize
  cases c.reads i with
  | none => simp
  | some k =>
    simp only [reduceCtorEq, false_or]
    omega

theorem Reached.succ {i : Nat} (h : c.Reached i) (hpos : 0 < c.sizeAt i)
    (hw : c.writeSize i (c.sizeAt i) = c.sizeAt i) : c.Reached (i + 1) := by
  intro j hj
  rcases Nat.lt_succ_iff_lt_or_eq.mp hj with hj | rfl
  · exact h j hj
  · exact ⟨hpos, hw⟩

theorem not_failsAt_later {i j : Nat} (hij : i < j)
    (h : ¬ (0 < c.sizeAt i ∧ c.writeSize i (c.sizeAt i) = c.sizeAt i)) : ¬ c.FailsAt j :=
  fun hf => h (hf.reached i hij)

/-! ## The loop -/

/-- The disk before read `i`, with another file as destination. -/
def diskAt (i : Nat) : Disk := ⟨c.source, c.source.take (c.posAt i), c.posAt i, i, i⟩

/-- The disk after read `i` and `m` bytes of it written. -/
def diskAfter (i m : Nat) : Disk :=
  ⟨c.source, c.source.take (c.posAt i + m), c.posAt (i + 1), i + 1, i + 1⟩

section Loop

variable (localFs : UniFs) (toUnipath : Str → Str) {buf : List UInt8} {i : Nat}

/-- The buffer after read `i`. -/
def piece (i : Nat) (buf : List UInt8) : List UInt8 :=
  (c.source.drop (c.posAt i)).take (c.sizeAt i) ++ buf.drop (c.sizeAt i)

theorem piece_take (i : Nat) (buf : List UInt8) :
    (c.piece i buf).take (c.sizeAt i) = (c.source.drop (c.posAt i)).take (c.sizeAt i) := by
  refine List.take_left' ?_
  rw [List.length_take, List.length_drop]
  exact Nat.min_eq_left (c.readSize_le i SAVE_BUF (c.source.length - c.posAt i)).2

theorem piece_length (i : Nat) (hbuf : buf.length = SAVE_BUF) :
    (c.piece i buf).length = SAVE_BUF := by
  have hle := c.readSize_le i SAVE_BUF (c.source.length - c.posAt i)
  change c.sizeAt i ≤ SAVE_BUF ∧ c.sizeAt i ≤ c.source.length - c.posAt i at hle
  rw [piece, List.length_append, List.length_take, List.length_drop, List.length_drop]
  omega

theorem read_diskAt (hbuf : buf.length = SAVE_BUF) :
    (c.env localFs toUnipath).read .src buf (c.diskAt i) =
      some (c.sizeAt i, c.piece i buf,
        { c.diskAt i with pos := c.posAt (i + 1), reads := i + 1 }) := by
  simp only [env, diskAt, hbuf, List.length_drop]
  rfl

theorem write_diskAt (hsame : c.same = false) (buf : List UInt8) :
    (c.env localFs toUnipath).write .dst ((c.piece i buf).take (c.sizeAt i))
        { c.diskAt i with pos := c.posAt (i + 1), reads := i + 1 } =
      (c.writeSize i (c.sizeAt i), c.diskAfter i (c.writeSize i (c.sizeAt i))) := by
  have hlen : ((c.source.drop (c.posAt i)).take (c.sizeAt i)).length = c.sizeAt i := by
    rw [List.length_take, List.length_drop]
    exact Nat.min_eq_left (c.readSize_le i SAVE_BUF (c.source.length - c.posAt i)).2
  have hw : c.writeSize i (c.sizeAt i) ≤ c.sizeAt i := by
    unfold writeSize
    split
    · exact Nat.le_refl _
    · exact Nat.min_le_right _ _
  rw [piece_take]
  simp [env, diskAt, diskAfter, hlen, hsame, List.take_take, Nat.min_eq_left hw, List.take_add]

/-- The loop from read `i` on returns 0 with an incomplete copy exactly when a read from `i` on fails
before the end of the source. The induction is on the bytes left: each read that leads on takes
some. -/
theorem saveLoop_spec (hsame : c.same = false) (fuel : Nat)
    (hfuel : c.source.length - c.posAt i < fuel) (hbuf : buf.length = SAVE_BUF)
    (hreach : c.Reached i) :
    ∃ r w, saveLoop (c.env localFs toUnipath) .src .dst fuel buf (c.diskAt i) = .ret r w ∧
      ((r = 0 → w.dest = c.source) ↔ ¬ (c.closes = true ∧ ∃ j, i ≤ j ∧ c.FailsAt j)) := by
  induction fuel generalizing i buf with
  | zero => omega
  | succ fuel ih =>
    have hpos := c.posAt_le i
    have hread := c.read_diskAt localFs toUnipath (i := i) hbuf
    have hwrite := c.write_diskAt localFs toUnipath (i := i) hsame buf
    by_cases h0 : c.sizeAt i = 0
    · -- the source has ended, or the read has failed
      rw [h0] at hread
      rw [saveLoop_end hread]
      refine ⟨_, _, rfl, ?_⟩
      change ((if c.closes = true then (0 : Int) else -1) = 0 →
        c.source.take (c.posAt i) = c.source) ↔ _
      have hdest : c.source.take (c.posAt i) = c.source ↔ c.posAt i = c.source.length := by
        rw [List.take_eq_self_iff]
        omega
      rw [hdest]
      constructor
      · rintro hcomplete ⟨hcloses, j, hij, hj⟩
        rcases Nat.eq_or_lt_of_le hij with rfl | hij
        · exact Nat.ne_of_lt hj.left (hcomplete (if_pos hcloses))
        · exact c.not_failsAt_later hij (fun h => by omega) hj
      · intro hno hr
        have hcloses : c.closes = true := by
          by_contra hc
          rw [if_neg hc] at hr
          omega
        rcases (c.sizeAt_eq_zero_iff i).mp h0 with hfails | hend
        · by_contra hne
          exact hno ⟨hcloses, i, Nat.le_refl i, hreach, by omega, hfails⟩
        · exact hend
    have hhere : ¬ c.FailsAt i := fun hf => h0 ((c.sizeAt_eq_zero_iff i).mpr (.inl hf.fails))
    by_cases hw : c.writeSize i (c.sizeAt i) = c.sizeAt i
    · -- a piece has been copied
      rw [hw] at hwrite
      rw [saveLoop_next hread h0 hwrite]
      have hnext : c.posAt (i + 1) = c.posAt i + c.sizeAt i := rfl
      have hpos' := c.posAt_le (i + 1)
      obtain ⟨r, w, hloop, hiff⟩ :=
        ih (by omega) (c.piece_length i hbuf) (hreach.succ c (Nat.pos_of_ne_zero h0) hw)
      refine ⟨r, w, hloop, hiff.trans (not_congr (and_congr_right fun _ => ?_))⟩
      constructor
      · rintro ⟨j, hij, hj⟩
        exact ⟨j, Nat.le_of_succ_le hij, hj⟩
      · rintro ⟨j, hij, hj⟩
        rcases Nat.eq_or_lt_of_le hij with rfl | hij
        · exact absurd hj hhere
        · exact ⟨j, hij, hj⟩
    · -- a short write is reported
      rw [saveLoop_short hread h0 hwrite hw]
      refine ⟨_, _, rfl, iff_of_true (fun hr => absurd hr (by decide)) ?_⟩
      rintro ⟨-, j, hij, hj⟩
      rcases Nat.eq_or_lt_of_le hij with rfl | hij
      · exact hhere hj
      · exact c.not_failsAt_later hij (fun h => hw h.2) hj

theorem saveLoop_same (hsame : c.same = true) (fuel : Nat) (buf : List UInt8) :
    ∃ w, saveLoop (c.env localFs toUnipath) .src .dst (fuel + 1) buf c.truncated =
      .ret (if c.closes then 0 else -1) w ∧ w.dest = [] := by
  have hempty : ∀ cap, c.readSize 0 cap 0 = 0 := fun cap =>
    Nat.le_zero.mp (c.readSize_le 0 cap 0).2
  have hread : (c.env localFs toUnipath).read .src buf c.truncated =
      some (0, buf, { c.truncated with reads := 1 }) := by
    simp [env, truncated, hsame, hempty]
  rw [saveLoop_end hread]
  exact ⟨_, rfl, rfl⟩

end Loop

section Call

variable {I : Type} (localFs : UniFs) (toUnipath : Str → Str) (fresh : Nat → UInt8) (fuel : Nat)
  (d : Doc I) (path : Option Str)

/-- The call ends before the loop with -1, or both files are open and the loop runs. -/
theorem saveAsLocal_cases :
    (¬ (CanSave d path ∧ c.srcOpens = true ∧ c.dstOpens = true) ∧
        ∃ w, saveAsLocal (c.env localFs toUnipath) fresh fuel d path c.start = .ret (-1) w) ∨
      (CanSave d path ∧ c.srcOpens = true ∧ c.dstOpens = true) ∧
        saveAsLocal (c.env localFs toUnipath) fresh fuel d path c.start =
          saveLoop (c.env localFs toUnipath) .src .dst fuel ((List.range SAVE_BUF).map fresh)
            c.truncated := by
  have hmode : ("wb" : String) ≠ "rb" := by decide
  cases hfs : d.unifs with
  | none =>
    refine .inl ⟨fun h => ?_, c.start, by simp [saveAsLocal, hfs]⟩
    have := h.1.2.1
    rw [hfs] at this
    cases this
  | some unifs =>
    cases path with
    | none => exact .inl ⟨fun h => Bool.false_ne_true h.1.2.2.1, c.start, by simp [saveAsLocal]⟩
    | some path =>
      by_cases hempty : d.path = [] ∨ path = []
      · refine .inl ⟨fun h => ?_, c.start, by simp [saveAsLocal, hfs, hempty]⟩
        rcases hempty with he | he
        · exact h.1.1 he
        · exact h.1.2.2.2 (congrArg some he)
      have hne := not_or.mp hempty
      have hcan : CanSave d (some path) :=
        ⟨hne.1, by rw [hfs]; rfl, rfl, fun h => hne.2 (Option.some.inj h)⟩
      cases hsrc : c.srcOpens with
      | false =>
        refine .inl ⟨fun h => Bool.false_ne_true h.2.1, c.start, ?_⟩
        simp [saveAsLocal, hfs, hempty, env, hsrc]
      | true =>
        cases hdst : c.dstOpens with
        | false =>
          refine .inl ⟨fun h => Bool.false_ne_true h.2.2, c.start, ?_⟩
          simp [saveAsLocal, hfs, hempty, env, hsrc, hdst, hmode]
        | true =>
          refine .inr ⟨⟨hcan, rfl, rfl⟩, ?_⟩
          simp [saveAsLocal, hfs, hempty, env, hsrc, hdst, hmode, start, truncated]

/-- **A result of 0 means a complete copy**, unless nothing reports a failure and the source file
was truncated by opening it as destination, or a read failed before its end. -/
theorem saveAsLocal_complete_iff :
    ∃ r w, saveAsLocal (c.env localFs toUnipath) fresh (c.source.length + 1) d path c.start =
        .ret r w ∧
      ((r = 0 → w.dest = c.source) ↔ ¬ (CanSave d path ∧ c.Unnoticed)) := by
  rcases c.saveAsLocal_cases localFs toUnipath fresh (c.source.length + 1) d path with
    ⟨hno, w, hret⟩ | ⟨⟨hcan, hsrc, hdst⟩, hloop⟩
  · refine ⟨-1, w, hret, iff_of_true (fun h => absurd h (by decide)) fun h => hno ?_⟩
    exact ⟨h.1, h.2.srcOpens, h.2.dstOpens⟩
  rw [hloop]
  cases hsame : c.same with
  | true =>
    obtain ⟨w, hret, hdest⟩ := c.saveLoop_same localFs toUnipath hsame c.source.length
      ((List.range SAVE_BUF).map fresh)
    refine ⟨_, w, hret, ?_⟩
    rw [hdest]
    constructor
    · rintro hcomplete ⟨-, hun⟩
      have hlost := hun.lost
      rw [if_pos hsame] at hlost
      exact hlost (hcomplete (if_pos hun.closes)).symm
    · intro hno hr
      have hcloses : c.closes = true := by
        by_contra hc
        rw [if_neg hc] at hr
        omega
      by_contra hne
      exact hno ⟨hcan, hsrc, hdst, hcloses, by rw [if_pos hsame]; exact fun h => hne h.symm⟩
  | false =>
    have hstart : c.truncated = c.diskAt 0 := by
      simp [truncated, diskAt, posAt, hsame]
    rw [hstart]
    have hbuf : ((List.range SAVE_BUF).map fresh).length = SAVE_BUF := by
      rw [List.length_map, List.length_range]
    obtain ⟨r, w, hret, hiff⟩ := c.saveLoop_spec localFs toUnipath (i := 0) hsame
      (c.source.length + 1) (by rw [posAt]; omega) hbuf fun j hj => absurd hj (Nat.not_lt_zero j)
    refine ⟨r, w, hret, hiff.trans (not_congr ?_)⟩
    have hf : ¬ c.same = true := by
      rw [hsame]
      exact Bool.false_ne_true
    constructor
    · rintro ⟨hcloses, j, -, hj⟩
      exact ⟨hcan, hsrc, hdst, hcloses, by rw [if_neg hf]; exact ⟨j, hj⟩⟩
    · rintro ⟨-, hun⟩
      have hlost := hun.lost
      rw [if_neg hf] at hlost
      obtain ⟨j, hj⟩ := hlost
      exact ⟨hun.closes, j, Nat.zero_le j, hj⟩

end Call

/-- A file of one byte. Its first read fails, as on a connection that was dropped; or it is saved over
itself. Both calls return 0 and leave an empty file. -/
theorem saveAsLocal_reports_empty_copy :
    let d : Doc Unit := { path := ['f'], unifs := some ⟨true, 1⟩ }
    let dropped : SaveCase := ⟨[1], [], false, true, true, fun _ => none, fun _ => none, true⟩
    let itself : SaveCase := ⟨[1], [], true, true, true, fun _ => some 0, fun _ => none, true⟩
    (∃ w, saveAsLocal (dropped.env ⟨false, 0⟩ id) (fun _ => 0) 2 d (some ['g']) dropped.start =
        .ret 0 w ∧ w.dest ≠ dropped.source) ∧
      (∃ w, saveAsLocal (itself.env ⟨false, 0⟩ id) (fun _ => 0) 2 d (some ['f']) itself.start =
        .ret 0 w ∧ w.dest ≠ itself.source) := by
  intro d dropped itself
  constructor
  · rcases dropped.saveAsLocal_cases ⟨false, 0⟩ id (fun _ => 0) 2 d (some ['g']) with
      ⟨hno, -⟩ | ⟨-, hloop⟩
    · exact absurd ⟨by simp [CanSave, d], rfl, rfl⟩ hno
    · refine ⟨⟨[1], [], 0, 1, 0⟩, hloop.trans ?_, by decide⟩
      exact saveLoop_end rfl
  · rcases itself.saveAsLocal_cases ⟨false, 0⟩ id (fun _ => 0) 2 d (some ['f']) with
      ⟨hno, -⟩ | ⟨-, hloop⟩
    · exact absurd ⟨by simp [CanSave, d], rfl, rfl⟩ hno
    · obtain ⟨w, hret, hdest⟩ := itself.saveLoop_same ⟨false, 0⟩ id rfl 1
        ((List.range SAVE_BUF).map fun _ => 0)
      refine ⟨w, hloop.trans hret, ?_⟩
      rw [hdest]
      decide

end SaveCase
end ObZrv
