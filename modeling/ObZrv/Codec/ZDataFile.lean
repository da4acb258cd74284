import Mathlib.Data.UInt
import ObZrv.Lib.Affine
import ObZrv.Unifs.ScriptedServer

/-!
# Codec.ZDataFile

`ZDataFile.hpp`: a file whose bytes are those of an inner file, each with a byte of a key stream
added by exclusive or. The key stream comes from a linear congruential generator, whose state is
advanced byte by byte on reads and jumped to on seeks.

* `seedAfter_eq`  : the jump leads to the state the single steps lead to.
* `byteFile`      : over a file that holds `bytes` it is a file that holds `zmap bytes`.
* `random_access` : what any sequence of calls gives.
-/

namespace ObZrv

open Lib

/-- The fields of a `ZDataFile`, and what its inner file can change. -/
structure ZData (W : Type) where
  inner : W
  pos : UInt64 := 0
  seed : UInt32 := 32093

namespace ZDataFile

/-- The loop of `seedAfter`; a 64-bit count is used up after 64 rounds. -/
def seedLoop : Nat → UInt64 → UInt32 → UInt32 → UInt32 → UInt32 → UInt32 × UInt32
  | 0, _, _, _, accMul, accAdd => (accMul, accAdd)
  | fuel + 1, count, mul, add, accMul, accAdd =>
    if count ≠ 0 then
      if count &&& 1 ≠ 0 then
        seedLoop fuel (count >>> 1) (mul * mul) (add * (mul + 1)) (accMul * mul) (accAdd * mul + add)
      else seedLoop fuel (count >>> 1) (mul * mul) (add * (mul + 1)) accMul accAdd
    else (accMul, accAdd)

def seedAfter (count : UInt64) : UInt32 :=
  let (accMul, accAdd) := seedLoop 64 count 22695477 1 1 0
  accMul * 32093 + accAdd

def nextSeed (seed : UInt32) : UInt32 := seed * 22695477 + 1

/-- The loop of `read` over the `n` bytes that were read; `none` if they are not in the buffer. -/
def decode : Nat → UInt32 → List UInt8 → Option (UInt32 × List UInt8)
  | 0, seed, data => some (seed, data)
  | _ + 1, _, [] => none
  | n + 1, seed, d :: data =>
    let seed := nextSeed seed
    (decode n seed data).map fun (seed', data) => (seed', (d ^^^ (seed >>> 16).toUInt8) :: data)

section

variable {W : Type} (inner : Option (UniFile W))

/-- The constructor. -/
def construct (w : W) : ZData W :=
  match inner with
  | none => { inner := w }
  | some f =>
    let (pos, w) := f.tell w
    if pos > 0 then
      { inner := w, pos := UInt64.ofInt pos, seed := seedAfter (UInt64.ofInt pos) }
    else { inner := w }

def seek (offset : Int) (whence : Whence) (z : ZData W) : Int × ZData W :=
  match inner with
  | none => (-1, z)
  | some f =>
    let (r, w) := f.seek offset whence z.inner
    if r ≠ 0 then (-1, { z with inner := w })
    else
      let (pos, w) := f.tell w
      if pos < 0 then (-1, { z with inner := w })
      else (0, { inner := w, pos := UInt64.ofInt pos, seed := seedAfter (UInt64.ofInt pos) })

def tell (z : ZData W) : Int × ZData W :=
  match inner with
  | none => (-1, z)
  | some f =>
    let (pos, w) := f.tell z.inner
    (pos, { z with inner := w })

def read (buf : List UInt8) (z : ZData W) : Option (Nat × List UInt8 × ZData W) :=
  match inner with
  | none => some (0, buf, z)
  | some f =>
    if buf.length = 0 then some (0, buf, z)
    else
      match f.read buf z.inner with
      | none => none
      | some (n, data, w) =>
        match decode n z.seed data with
        | none => none
        | some (seed, data) =>
          some (n, data, { inner := w, pos := z.pos + UInt64.ofNat n, seed })

def uniFile : UniFile (ZData W) where
  seek := seek inner
  tell := tell inner
  read := read inner

end

/-! ## The key stream -/

/-- The state of the generator after `n` bytes. -/
def seedAt (n : Nat) : UInt32 := nextSeed^[n] 32093

/-- Bits 16 to 23 of the state after byte `i`. -/
def keyByte (i : Nat) : UInt8 := (seedAt (i + 1) >>> 16).toUInt8

/-- The bytes of a z-data file over an inner file that holds `bytes`. -/
def zmap (bytes : List UInt8) : List UInt8 := bytes.mapIdx fun i b => b ^^^ keyByte i

@[simp] theorem zmap_length (bytes : List UInt8) : (zmap bytes).length = bytes.length :=
  List.length_mapIdx

theorem zmap_zmap (bytes : List UInt8) : zmap (zmap bytes) = bytes := by
  refine List.ext_getElem (by simp) fun i h₁ h₂ => ?_
  simp only [zmap, List.getElem_mapIdx, UInt8.xor_assoc, UInt8.xor_self, UInt8.xor_zero]

theorem seedAt_succ (n : Nat) : seedAt (n + 1) = nextSeed (seedAt n) :=
  Function.iterate_succ_apply' nextSeed n 32093

section Jump

open scoped UInt32.CommRing

/-- One step of the generator. -/
def stepMap : Affine UInt32 := ⟨22695477, 1⟩

theorem stepMap_apply (x : UInt32) : stepMap.apply x = nextSeed x := by
  simp only [stepMap, Affine.apply, nextSeed]
  ring

theorem shift_toNat (count : UInt64) : (count >>> 1).toNat = count.toNat / 2 := by
  rw [UInt64.toNat_shiftRight]
  exact Nat.shiftRight_one _

theorem odd_iff (count : UInt64) : count &&& 1 ≠ 0 ↔ count.toNat % 2 = 1 := by
  rw [Ne, ← UInt64.toNat_inj, UInt64.toNat_and]
  change ¬ count.toNat &&& 1 = 0 ↔ _
  rw [Nat.and_one_is_mod]
  omega

/-- The loop composes the accumulated map with `count` times the current one. The induction is on
the rounds; each halves the count and squares the map. -/
theorem seedLoop_spec (fuel : Nat) (count : UInt64) (h : count.toNat < 2 ^ fuel)
    (mul add accMul accAdd x : UInt32) :
    (⟨(seedLoop fuel count mul add accMul accAdd).1, (seedLoop fuel count mul add accMul accAdd).2⟩ :
        Affine UInt32).apply x =
      (⟨mul, add⟩ : Affine UInt32).apply^[count.toNat] ((⟨accMul, accAdd⟩ : Affine UInt32).apply x) := by
  induction fuel generalizing count mul add accMul accAdd with
  | zero =>
    have h0 : count.toNat = 0 := by omega
    rw [h0]
    rfl
  | succ fuel ih =>
    rw [seedLoop]
    by_cases h0 : count = 0
    · rw [if_neg (not_not.mpr h0), h0]
      rfl
    rw [if_pos h0]
    have hhalf : (count >>> 1).toNat < 2 ^ fuel := by
      rw [shift_toNat]
      omega
    by_cases hodd : count &&& 1 ≠ 0
    · rw [if_pos hodd, ih _ hhalf, Affine.iterate_half _ count.toNat,
        if_pos ((odd_iff count).mp hodd), shift_toNat]
      exact congrArg _ (Affine.after_apply ⟨mul, add⟩ ⟨accMul, accAdd⟩ x)
    · rw [if_neg hodd, ih _ hhalf, Affine.iterate_half _ count.toNat,
        if_neg (mt (odd_iff count).mpr hodd), shift_toNat]
      rfl

/-- **The jump** leads where `count` single steps lead. -/
theorem seedAfter_eq (count : UInt64) : seedAfter count = seedAt count.toNat := by
  have hspec := seedLoop_spec 64 count count.toNat_lt 22695477 1 1 0 32093
  have hstep : (⟨22695477, 1⟩ : Affine UInt32).apply = nextSeed := funext stepMap_apply
  have hone : (⟨1, 0⟩ : Affine UInt32).apply 32093 = 32093 := by
    simp only [Affine.apply]
    ring
  rw [hstep, hone] at hspec
  exact hspec

end Jump

theorem decode_eq {n p : Nat} {data : List UInt8} (h : n ≤ data.length) :
    decode n (seedAt p) data = some (seedAt (p + n),
      (data.take n).mapIdx (fun i b => b ^^^ keyByte (p + i)) ++ data.drop n) := by
  induction n generalizing p data with
  | zero => simp [decode]
  | succ n ih =>
    cases data with
    | nil => simp at h
    | cons d data =>
      rw [List.length_cons] at h
      rw [decode, ← seedAt_succ, ih (Nat.le_of_succ_le_succ h)]
      simp [List.mapIdx_cons, keyByte, Nat.add_assoc, Nat.add_comm 1]

/-- The bytes of the inner file, read at position `p` and decoded from there. -/
theorem decode_part (bytes : List UInt8) (p n : Nat) :
    ((bytes.drop p).take n).mapIdx (fun i b => b ^^^ keyByte (p + i)) =
      ((zmap bytes).drop p).take n := by
  refine List.ext_getElem? fun i => ?_
  simp only [zmap, List.getElem?_mapIdx, List.getElem?_take, List.getElem?_drop]
  split <;> simp

/-! ## The file -/

section File

variable {W : Type} {a : Arch} {f : UniFile W} {bytes : List UInt8}

/-- The fields agree with the position of the inner file. -/
structure Coherent (file : ByteFile a f bytes) (z : ZData W) : Prop where
  inner : file.inv z.inner
  pos : z.pos.toNat = file.pos z.inner
  seed : z.seed = seedAt (file.pos z.inner)

theorem ofInt_pos {n : Nat} (h : n < 9223372036854775808) : (UInt64.ofInt n).toNat = n := by
  have hmod : (n : Int) % 18446744073709551616 = n := Int.emod_eq_of_lt (by omega) (by omega)
  rw [ofInt_toNat, hmod, Int.toNat_natCast]

/-- Fields set from a position of the inner file. -/
theorem coherent_of_tell (file : ByteFile a f bytes) {w : W} (hw : file.inv w) :
    Coherent file ⟨w, UInt64.ofInt (file.pos w), seedAfter (UInt64.ofInt (file.pos w))⟩ := by
  have hpos := ofInt_pos (file.pos_lt w hw)
  refine ⟨hw, hpos, ?_⟩
  rw [seedAfter_eq, hpos]

theorem coherent_construct (file : ByteFile a f bytes) {w : W} (hw : file.inv w) :
    Coherent file (construct (some f) w) ∧
      file.pos (construct (some f) w).inner = file.pos w := by
  obtain ⟨hr, hpos, hinv⟩ := file.tell w hw
  rw [construct]
  simp only [hr]
  split
  · refine ⟨?_, hpos⟩
    rw [← hpos]
    exact coherent_of_tell file hinv
  · rename_i h0
    have hzero : file.pos (f.tell w).2 = 0 := by omega
    refine ⟨⟨hinv, ?_, ?_⟩, hpos⟩
    · rw [hzero]
      rfl
    · rw [hzero]
      rfl

theorem seek_coherent (file : ByteFile a f bytes) {z : ZData W} (hz : Coherent file z)
    {offset : Int} (hin : InInt64 offset) (whence : Whence) :
    let r := seek (some f) offset whence z
    Coherent file r.2 ∧
      (r.1 = 0 ∧ (file.pos r.2.inner : Int) =
          seekTarget (zmap bytes).length (file.pos z.inner) offset whence ∨
        r.1 ≠ 0 ∧ file.pos r.2.inner = file.pos z.inner) := by
  obtain ⟨hinv, hmoved⟩ := file.seek offset whence z.inner hz.inner hin
  rw [zmap_length]
  unfold seek
  simp only
  by_cases hr : (f.seek offset whence z.inner).1 = 0
  · obtain ⟨hp, hpos, hinv'⟩ := file.tell _ hinv
    have hle : ¬ (f.tell (f.seek offset whence z.inner).2).1 < 0 := by omega
    rw [if_neg (not_not.mpr hr), if_neg hle, hp, ← hpos]
    refine ⟨coherent_of_tell file hinv', .inl ⟨rfl, ?_⟩⟩
    rcases hmoved with h | h
    · rw [hpos]
      exact h.2
    · exact absurd hr h.1
  · rw [if_pos hr]
    rcases hmoved with h | h
    · exact absurd h.1 hr
    · refine ⟨⟨hinv, ?_, ?_⟩, .inr ⟨(by decide : (-1 : Int) ≠ 0), h.2⟩⟩
      · rw [h.2]
        exact hz.pos
      · rw [h.2]
        exact hz.seed

theorem read_coherent (file : ByteFile a f bytes) {z : ZData W} (hz : Coherent file z)
    {buf : List UInt8} (hbuf : buf.length < 2 ^ a.bits) :
    ∃ n z', n ≤ buf.length ∧ n ≤ (zmap bytes).length - file.pos z.inner ∧
      file.pos z'.inner = file.pos z.inner + n ∧ Coherent file z' ∧
      read (some f) buf z =
        some (n, ((zmap bytes).drop (file.pos z.inner)).take n ++ buf.drop n, z') := by
  rw [zmap_length, read]
  by_cases h0 : buf.length = 0
  · rw [if_pos h0]
    refine ⟨0, z, Nat.zero_le _, Nat.zero_le _, rfl, hz, ?_⟩
    rw [List.take_zero, List.drop_zero, List.nil_append]
  rw [if_neg h0]
  obtain ⟨n, w, hn, hp, hpos, hinv, hread⟩ := file.read buf z.inner hz.inner hbuf
  have hlen : ((bytes.drop (file.pos z.inner)).take n).length = n := by
    rw [List.length_take, List.length_drop]
    omega
  have hdecode : decode n z.seed ((bytes.drop (file.pos z.inner)).take n ++ buf.drop n) =
      some (seedAt (file.pos z.inner + n),
        ((zmap bytes).drop (file.pos z.inner)).take n ++ buf.drop n) := by
    rw [hz.seed, decode_eq (by rw [List.length_append, hlen]; omega), List.take_left' hlen,
      List.drop_left' hlen, decode_part]
  rw [hread]
  simp only [hdecode]
  refine ⟨n, _, hn, hp, hpos, ⟨hinv, ?_, ?_⟩, rfl⟩
  · have hlt := file.pos_lt w hinv
    rw [hpos] at hlt
    have hn64 : (UInt64.ofNat n).toNat = n := UInt64.toNat_ofNat_of_lt' (by rw [UInt64.size]; omega)
    rw [UInt64.toNat_add, hz.pos, hn64, hpos]
    omega
  · rw [hpos]

/-- A z-data file over a file that holds `bytes` is a file that holds `zmap bytes`. -/
def byteFile (file : ByteFile a f bytes) : ByteFile a (uniFile (some f)) (zmap bytes) where
  inv := Coherent file
  pos z := file.pos z.inner
  pos_lt z hz := file.pos_lt z.inner hz.inner
  tell z hz := by
    obtain ⟨hr, hpos, hinv⟩ := file.tell z.inner hz.inner
    refine ⟨hr, hpos, hinv, ?_, ?_⟩
    · exact hz.pos.trans hpos.symm
    · exact hz.seed.trans (congrArg seedAt hpos.symm)
  seek offset whence _ hz hin := seek_coherent file hz hin whence
  read _ _ hz hbuf := read_coherent file hz hbuf

/-- **Any sequence of calls** on a z-data file is answered from the decoded bytes at the positions
the calls are made at, and on a z-data file over it from the bytes of the inner file. -/
theorem random_access (file : ByteFile a f bytes) (w : W) (hw : file.inv w) (cs : List Call)
    (hcs : ∀ c ∈ cs, c.Valid a) :
    let z := construct (some f) w
    (∃ rs z', (uniFile (some f)).calls z cs = some (rs, z') ∧
        AnsweredFrom (zmap bytes) (file.pos w) cs rs) ∧
      (∃ rs z', (uniFile (some (uniFile (some f)))).calls (construct (some (uniFile (some f))) z) cs =
          some (rs, z') ∧ AnsweredFrom bytes (file.pos w) cs rs) := by
  intro z
  obtain ⟨hz, hpos⟩ := coherent_construct file hw
  obtain ⟨hzz, hpos'⟩ := coherent_construct (byteFile file) hz
  constructor
  · rw [← hpos]
    exact (byteFile file).answeredFrom hz hcs
  · obtain ⟨rs, z', hcalls, hans⟩ := (byteFile (byteFile file)).answeredFrom hzz hcs
    have hstart : (byteFile (byteFile file)).pos
        (construct (some (uniFile (some f))) (construct (some f) w)) = file.pos w := hpos'.trans hpos
    rw [hstart, zmap_zmap] at hans
    exact ⟨rs, z', hcalls, hans⟩

theorem three_lt : [1, 2, 3].length < 9223372036854775808 := by decide

theorem random_access_three :
    let f := (⟨1, false⟩ : RemoteFile).uniFile .x64 (Script.calm [1, 2, 3] three_lt).link
    let z := construct (some f) ⟨Script.start, []⟩
    let cs : List Call := [.read [0, 0, 0, 0], .seek (-2) .SEEK_CUR, .read [0]]
    (∃ rs z', (uniFile (some f)).calls z cs = some (rs, z') ∧ AnsweredFrom (zmap [1, 2, 3]) 0 cs rs) ∧
      (∃ rs z', (uniFile (some (uniFile (some f)))).calls (construct (some (uniFile (some f))) z) cs =
          some (rs, z') ∧ AnsweredFrom [1, 2, 3] 0 cs rs) := by
  have hst := Script.calm_steady [1, 2, 3] three_lt 1
  exact random_access (FileServer.byteFile .x64 (f := ⟨1, false⟩) _ hst rfl) ⟨Script.start, []⟩
    trivial _ (by simp [Call.Valid, InInt64, Arch.bits])

end File

end ZDataFile
end ObZrv
