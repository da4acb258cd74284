import ObZrv.Codec.ZDataFile
import ObZrv.Lib.Machine
import ObZrv.Unifs.FallibleFile

/-!
# Codec.FailedSeek

`ZDataFile` over an inner file on which `seek` and `tell` may fail. A seek that fails leaves `_pos`
and `_seed`, wherever the inner file is then.

* `seek_spec`          : what a seek does to the inner file and to the fields.
* `read_keyed`         : a read decodes from the state that the fields have, in sync or not.
* `failed_seek_synced` : a seek that fails keeps the fields in sync exactly when it leaves the
  position.
-/

namespace ObZrv

open Lib

namespace ZDataFile

variable {W : Type} {a : Arch} {f : UniFile W} {bytes : List UInt8}

/-- The fields agree with the actual position of the inner file. -/
structure Synced (file : FallibleFile a f bytes) (z : ZData W) : Prop where
  inner : file.inv z.inner
  pos : z.pos.toNat = file.pos z.inner
  seed : z.seed = seedAt (file.pos z.inner)

theorem synced_fallible_iff (file : ByteFile a f bytes) (z : ZData W) :
    Synced file.fallible z ↔ Coherent file z := by
  constructor
  · rintro ⟨hinv, hpos, hseed⟩
    exact ⟨hinv, hpos, hseed⟩
  · rintro ⟨hinv, hpos, hseed⟩
    exact ⟨hinv, hpos, hseed⟩

/-- The inner position that a seek leads to. -/
def seekPos (file : FallibleFile a f bytes) (offset : Int) (whence : Whence) (z : ZData W) : Nat :=
  file.pos (f.seek offset whence z.inner).2

/-- Fields set from a position of the inner file. -/
theorem synced_of_tell (file : FallibleFile a f bytes) {w : W} (hw : file.inv w) :
    Synced file ⟨w, UInt64.ofInt (file.pos w), seedAfter (UInt64.ofInt (file.pos w))⟩ := by
  have hpos := ofInt_pos (file.pos_lt w hw)
  refine ⟨hw, hpos, ?_⟩
  rw [seedAfter_eq, hpos]

/-- A seek fails when an inner call does, and then the fields stay; else it sets them. -/
theorem seek_spec (file : FallibleFile a f bytes) {z : ZData W} (hz : file.inv z.inner)
    {offset : Int} (hin : InInt64 offset) (whence : Whence) :
    let r := seek (some f) offset whence z
    file.inv r.2.inner ∧ file.pos r.2.inner = seekPos file offset whence z ∧
      ((f.SeekFails offset whence z.inner ∧ r.1 = -1 ∧ r.2.pos = z.pos ∧ r.2.seed = z.seed) ∨
        (¬ f.SeekFails offset whence z.inner ∧ r.1 = 0 ∧ Synced file r.2)) := by
  obtain ⟨hinv, -⟩ := file.seek offset whence z.inner hz hin
  obtain ⟨hinv', hpos, htell⟩ := file.tell _ hinv
  unfold seek
  simp only
  by_cases hr : (f.seek offset whence z.inner).1 = 0
  · rw [if_neg (not_not.mpr hr)]
    by_cases hneg : (f.tell (f.seek offset whence z.inner).2).1 < 0
    · rw [if_pos hneg]
      exact ⟨hinv', hpos, .inl ⟨.inr hneg, rfl, rfl, rfl⟩⟩
    · have hp := htell.resolve_right hneg
      rw [if_neg hneg, hp, ← hpos]
      refine ⟨hinv', hpos, .inr ⟨?_, rfl, synced_of_tell file hinv'⟩⟩
      rintro (hseek | htell')
      · exact hseek hr
      · exact hneg htell'
  · rw [if_pos hr]
    exact ⟨hinv, rfl, .inl ⟨.inl hr, rfl, rfl, rfl⟩⟩

/-- A read decodes the bytes at the inner position with the key stream from the seed on. -/
theorem read_keyed (file : FallibleFile a f bytes) {z : ZData W} (hz : file.inv z.inner) {k : Nat}
    (hseed : z.seed = seedAt k) {buf : List UInt8} (hbuf : buf.length < 2 ^ a.bits) :
    ∃ n z', n ≤ buf.length ∧ n ≤ bytes.length - file.pos z.inner ∧
      file.pos z'.inner = file.pos z.inner + n ∧ file.inv z'.inner ∧
      z'.pos = z.pos + UInt64.ofNat n ∧ z'.seed = seedAt (k + n) ∧
      read (some f) buf z = some (n, ((bytes.drop (file.pos z.inner)).take n).mapIdx
        (fun i b => b ^^^ keyByte (k + i)) ++ buf.drop n, z') := by
  rw [read]
  by_cases h0 : buf.length = 0
  · rw [if_pos h0]
    refine ⟨0, z, Nat.zero_le _, Nat.zero_le _, rfl, hz, ?_, hseed, ?_⟩
    · exact (UInt64.add_zero z.pos).symm
    · rw [List.take_zero, List.drop_zero, List.mapIdx_nil, List.nil_append]
  rw [if_neg h0]
  obtain ⟨n, w, hn, hp, hpos, hinv, hread⟩ := file.read buf z.inner hz hbuf
  have hlen : ((bytes.drop (file.pos z.inner)).take n).length = n := by
    rw [List.length_take, List.length_drop]
    omega
  have hdecode : decode n z.seed ((bytes.drop (file.pos z.inner)).take n ++ buf.drop n) =
      some (seedAt (k + n), ((bytes.drop (file.pos z.inner)).take n).mapIdx
        (fun i b => b ^^^ keyByte (k + i)) ++ buf.drop n) := by
    rw [hseed, decode_eq (by rw [List.length_append, hlen]; omega), List.take_left' hlen,
      List.drop_left' hlen]
  rw [hread]
  simp only [hdecode]
  exact ⟨n, _, hn, hp, hpos, hinv, rfl, rfl, rfl⟩

/-- In sync, each byte is decoded with the key of its own offset, and the fields stay in sync. -/
theorem Synced.read {file : FallibleFile a f bytes} {z : ZData W} (hz : Synced file z)
    {buf : List UInt8} (hbuf : buf.length < 2 ^ a.bits) :
    ∃ n z', n ≤ buf.length ∧ file.pos z'.inner = file.pos z.inner + n ∧ Synced file z' ∧
      read (some f) buf z =
        some (n, ((zmap bytes).drop (file.pos z.inner)).take n ++ buf.drop n, z') := by
  obtain ⟨n, z', hn, hp, hpos, hinv, hfield, hseed, hread⟩ := read_keyed file hz.inner hz.seed hbuf
  rw [decode_part] at hread
  refine ⟨n, z', hn, hpos, ⟨hinv, ?_, ?_⟩, hread⟩
  · have hlt := file.pos_lt _ hinv
    rw [hpos] at hlt
    have hn64 : (UInt64.ofNat n).toNat = n := UInt64.toNat_ofNat_of_lt' (by rw [UInt64.size]; omega)
    rw [hfield, UInt64.toNat_add, hz.pos, hn64, hpos]
    omega
  · rw [hpos, hseed]

theorem seek_eq_neg_one_iff (file : FallibleFile a f bytes) {z : ZData W} (hz : file.inv z.inner)
    {offset : Int} (hin : InInt64 offset) (whence : Whence) :
    (seek (some f) offset whence z).1 = -1 ↔ f.SeekFails offset whence z.inner := by
  obtain ⟨-, -, ⟨hfails, hr, -⟩ | ⟨hfails, hr, -⟩⟩ := seek_spec file hz hin whence
  · exact iff_of_true hr hfails
  · refine iff_of_false ?_ hfails
    rw [hr]
    decide

/-- After a seek that fails, the fields are those of the position before it. -/
theorem failed_seek_synced_iff (file : FallibleFile a f bytes) {z : ZData W} (hz : Synced file z)
    {offset : Int} (hin : InInt64 offset) (whence : Whence)
    (hfails : f.SeekFails offset whence z.inner) :
    Synced file (seek (some f) offset whence z).2 ↔
      seekPos file offset whence z = file.pos z.inner := by
  obtain ⟨hinv, hpos, ⟨-, -, hfield, hseed⟩ | ⟨hnot, -⟩⟩ := seek_spec file hz.inner hin whence
  · constructor
    · intro hs
      rw [← hpos, ← hs.pos, hfield, hz.pos]
    · intro hstays
      refine ⟨hinv, ?_, ?_⟩
      · rw [hfield, hz.pos, hpos, hstays]
      · rw [hseed, hz.seed, hpos, hstays]
  · exact absurd hfails hnot

/-! ## Runs of calls -/

/-- A z-data file in sync, with any calls made to it. -/
def session (file : FallibleFile a f bytes) : Machine (ZData W) Call where
  init z := Synced file z
  step z c z' := c.Valid a ∧ ∃ r, (uniFile (some f)).call z c = some (r, z')

/-- The call is a seek that fails after the inner position has moved. -/
def Strays (file : FallibleFile a f bytes) (z : ZData W) : Call → Prop
  | .seek offset whence =>
    f.SeekFails offset whence z.inner ∧ seekPos file offset whence z ≠ file.pos z.inner
  | .tell => False
  | .read _ => False

theorem Synced.call {file : FallibleFile a f bytes} {z z' : ZData W} {c : Call} {r : Reply}
    (hz : Synced file z) (hc : c.Valid a) (hstays : ¬ Strays file z c)
    (hcall : (uniFile (some f)).call z c = some (r, z')) : Synced file z' := by
  cases c with
  | seek offset whence =>
    cases hcall
    by_cases hfails : f.SeekFails offset whence z.inner
    · exact (failed_seek_synced_iff file hz hc whence hfails).mpr
        (not_not.mp fun hmoved => hstays ⟨hfails, hmoved⟩)
    · obtain ⟨-, -, ⟨hfails', -⟩ | ⟨-, -, hs⟩⟩ := seek_spec file hz.inner hc whence
      · exact absurd hfails' hfails
      · exact hs
  | tell =>
    cases hcall
    obtain ⟨hinv, hpos, -⟩ := file.tell z.inner hz.inner
    exact ⟨hinv, hz.pos.trans hpos.symm, hz.seed.trans (congrArg seedAt hpos.symm)⟩
  | read buf =>
    obtain ⟨n, w, -, -, hw, hread⟩ := hz.read hc
    rw [UniFile.call] at hcall
    change (ZDataFile.read (some f) buf z).map _ = _ at hcall
    rw [hread] at hcall
    cases hcall
    exact hw

theorem session_synced {file : FallibleFile a f bytes} {z : ZData W}
    (h : (session file).Reach (fun z c => ¬ Strays file z c) z) : Synced file z := by
  refine h.holds (P := Synced file) ?_ ?_
  · intro z hz
    exact hz
  · rintro z c z' hz hstays ⟨hc, r, hcall⟩
    exact hz.call hc hstays hcall

/-- **A failed seek** leaves the fields as they were, so they are in sync with the inner file if and
only if its position is where it was; the reads after it go on with the key stream of the position
before the seek. In every run of calls without a seek that fails after the position has moved, the
fields are in sync, and each read decodes each byte with the key of its own offset. -/
theorem failed_seek_synced (file : FallibleFile a f bytes) :
    (∀ z offset whence, Synced file z → InInt64 offset →
      (seek (some f) offset whence z).1 = -1 →
      (Synced file (seek (some f) offset whence z).2 ↔
        seekPos file offset whence z = file.pos z.inner) ∧
      ∀ buf : List UInt8, buf.length < 2 ^ a.bits → ∃ n z',
        read (some f) buf (seek (some f) offset whence z).2 =
          some (n, ((bytes.drop (seekPos file offset whence z)).take n).mapIdx
            (fun i b => b ^^^ keyByte (file.pos z.inner + i)) ++ buf.drop n, z')) ∧
    (∀ z, (session file).Reach (fun z c => ¬ Strays file z c) z → Synced file z ∧
      ∀ buf : List UInt8, buf.length < 2 ^ a.bits → ∃ n z', n ≤ buf.length ∧
        file.pos z'.inner = file.pos z.inner + n ∧ Synced file z' ∧
        read (some f) buf z =
          some (n, ((zmap bytes).drop (file.pos z.inner)).take n ++ buf.drop n, z')) := by
  constructor
  · intro z offset whence hz hin hr
    have hfails := (seek_eq_neg_one_iff file hz.inner hin whence).mp hr
    refine ⟨failed_seek_synced_iff file hz hin whence hfails, ?_⟩
    intro buf hbuf
    obtain ⟨hinv, hpos, ⟨-, -, -, hseed⟩ | ⟨hnot, -⟩⟩ := seek_spec file hz.inner hin whence
    · obtain ⟨n, z', -, -, -, -, -, -, hread⟩ := read_keyed file hinv (hseed.trans hz.seed) hbuf
      rw [hpos] at hread
      exact ⟨n, z', hread⟩
    · exact absurd hfails hnot
  · intro z h
    have hz := session_synced h
    exact ⟨hz, fun buf hbuf => hz.read hbuf⟩

/-! ## A server that refuses a tell -/

/-- Three bytes; the request number 2 is refused. -/
def refusesTell : Script := ⟨[1, 2, 3], three_lt, fun i => i == 2, fun _ => 3⟩

theorem refusesTell_refusing : (refusesTell.server 1).Refusing :=
  refusesTell.refusing 1 fun _ => Nat.le_refl 3

def refusesTellFile :
    FallibleFile .x64 ((⟨1, false⟩ : RemoteFile).uniFile .x64 refusesTell.link) [1, 2, 3] :=
  FileServer.fallibleFile (f := ⟨1, false⟩) .x64 (refusesTell.server 1) refusesTell_refusing rfl

/-- The file after the constructor, which has asked for the position. -/
def refusesTellOpened : ZData (Session Script.State) :=
  construct (some ((⟨1, false⟩ : RemoteFile).uniFile .x64 refusesTell.link)) ⟨Script.start, []⟩

theorem refusesTellOpened_synced : Synced refusesTellFile refusesTellOpened :=
  ⟨trivial, rfl, rfl⟩

/-- Sought to 1, where the server has gone although its position is not told. -/
def refusesTellSought : Int × ZData (Session Script.State) :=
  seek (some ((⟨1, false⟩ : RemoteFile).uniFile .x64 refusesTell.link)) 1 .SEEK_SET refusesTellOpened

theorem refusesTell_fails : refusesTellSought.1 = -1 := by decide

/-- One byte is read, and then a seek to the start is the request that is refused. -/
def refusesTellRead : ZData (Session Script.State) :=
  ((uniFile (some ((⟨1, false⟩ : RemoteFile).uniFile .x64 refusesTell.link))).call refusesTellOpened
    (.read [0])).elim refusesTellOpened Prod.snd

def refusesTellStayed : ZData (Session Script.State) :=
  (seek (some ((⟨1, false⟩ : RemoteFile).uniFile .x64 refusesTell.link)) 0 .SEEK_SET
    refusesTellRead).2

theorem refusesTellStayed_run : (session refusesTellFile).Run
    (fun z c => ¬ Strays refusesTellFile z c) refusesTellOpened [.read [0], .seek 0 .SEEK_SET]
    refusesTellStayed := by
  have hread : (session refusesTellFile).step refusesTellOpened (.read [0]) refusesTellRead :=
    ⟨show 1 < 2 ^ Arch.x64.bits by decide, .read 1 [1 ^^^ keyByte 0], rfl⟩
  have hseek : (session refusesTellFile).step refusesTellRead (.seek 0 .SEEK_SET)
      refusesTellStayed := ⟨⟨by decide, by decide⟩, .seek (-1), rfl⟩
  exact .cons id hread (.cons (fun h => h.2 (by decide)) hseek .nil)

theorem failed_seek_synced_three :
    ¬ Synced refusesTellFile refusesTellSought.2 ∧ Synced refusesTellFile refusesTellStayed ∧
      ∃ n z', read (some ((⟨1, false⟩ : RemoteFile).uniFile .x64 refusesTell.link)) [0, 0]
        refusesTellStayed = some (n, ((zmap [1, 2, 3]).drop 1).take n ++ [0, 0].drop n, z') := by
  have h := failed_seek_synced refusesTellFile
  constructor
  · have hin : InInt64 1 := ⟨by decide, by decide⟩
    rw [refusesTellSought, (h.1 _ _ _ refusesTellOpened_synced hin refusesTell_fails).1]
    decide
  · obtain ⟨hs, hread⟩ := h.2 _ ⟨_, _, refusesTellOpened_synced, refusesTellStayed_run⟩
    obtain ⟨n, z', -, -, -, hread⟩ := hread [0, 0] (show 2 < 2 ^ Arch.x64.bits by decide)
    exact ⟨hs, n, z', hread⟩

theorem seek_goes_astray : refusesTellSought.1 = -1 ∧
    ¬ Synced refusesTellFile refusesTellSought.2 ∧
    (read (some ((⟨1, false⟩ : RemoteFile).uniFile .x64 refusesTell.link)) [0]
      refusesTellSought.2).map (fun r => (r.1, r.2.1)) = some (1, [2 ^^^ keyByte 0]) ∧
    (zmap [1, 2, 3])[1]? = some (2 ^^^ keyByte 1) ∧ keyByte 0 ≠ keyByte 1 := by
  refine ⟨by decide, ?_, by decide, by decide, by decide⟩
  intro h
  exact absurd h.pos (by decide)

end ZDataFile

end ObZrv
