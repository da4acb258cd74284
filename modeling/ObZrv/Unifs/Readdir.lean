import ObZrv.Unifs.RemoteFs

/-!
# Unifs.Readdir

The decoding of a directory response, with the reads it makes and the work it does. Memory
allocation is taken to succeed; the size asked for in `reserve` is recorded.

* `decodeEntries_eq_some_iff` : exactly the listings of the documented layout are accepted.
* `scan_entries`             : the pointer walk of `readdir` computes `decodeEntries`.
* `readdir_decodes_iff`      : acceptance, reads and loop are as they should be for every payload;
  what is reserved is bounded by the payload just when the entry count is.
-/

namespace ObZrv
namespace RemoteFs

open Lib

/-! ## The iterator -/

structure RemoteDirIterImpl where
  entries : List DirEntry
  idx : Nat
deriving DecidableEq, Repr

def RemoteDirIterImpl.next (it : RemoteDirIterImpl) : Option DirEntry × RemoteDirIterImpl :=
  match it.entries[it.idx]? with
  | none => (none, it)
  | some e => (some e, { it with idx := it.idx + 1 })

/-- The entries that calls of `next` give until the null pointer. -/
inductive Yields : RemoteDirIterImpl → List DirEntry → Prop where
  | done {it it' : RemoteDirIterImpl} (h : it.next = (none, it')) : Yields it []
  | next {it it' : RemoteDirIterImpl} {e : DirEntry} {es : List DirEntry}
      (h : it.next = (some e, it')) (hes : Yields it' es) : Yields it (e :: es)

theorem yields_iff {entries : List DirEntry} {idx : Nat} {es : List DirEntry} :
    Yields ⟨entries, idx⟩ es ↔ es = entries.drop idx := by
  constructor
  · intro h
    generalize hit : RemoteDirIterImpl.mk entries idx = it at h
    induction h generalizing idx with
    | done h =>
      subst hit
      cases hget : entries[idx]? with
      | none => exact (List.drop_eq_nil_of_le (List.getElem?_eq_none_iff.mp hget)).symm
      | some e => simp [RemoteDirIterImpl.next, hget] at h
    | @next it it' e es h _ ih =>
      subst hit
      cases hget : entries[idx]? with
      | none => simp [RemoteDirIterImpl.next, hget] at h
      | some e' =>
        simp only [RemoteDirIterImpl.next, hget, Prod.mk.injEq, Option.some.injEq] at h
        obtain ⟨rfl, rfl⟩ := h
        obtain ⟨hlt, rfl⟩ := List.getElem?_eq_some_iff.mp hget
        rw [ih rfl, List.drop_eq_getElem_cons hlt]
  · rintro rfl
    induction hk : entries.length - idx generalizing idx with
    | zero =>
      rw [List.drop_eq_nil_of_le (by omega)]
      have hdone : (⟨entries, idx⟩ : RemoteDirIterImpl).next = (none, ⟨entries, idx⟩) := by
        simp [RemoteDirIterImpl.next, List.getElem?_eq_none (by omega : entries.length ≤ idx)]
      exact .done hdone
    | succ k ih =>
      have hlt : idx < entries.length := by omega
      rw [List.drop_eq_getElem_cons hlt]
      have hnext : (⟨entries, idx⟩ : RemoteDirIterImpl).next =
          (some entries[idx], ⟨entries, idx + 1⟩) := by
        simp [RemoteDirIterImpl.next, List.getElem?_eq_getElem hlt]
      exact .next hnext (ih (by omega))

/-! ## The layout -/

/-- `type:u8 + ctime:u32 + mtime:u32 + size:u64 + name_len:u16 + name:N`. -/
def encodeEntry (e : DirEntry) : List UInt8 :=
  [e.type] ++ (protoWriteU32 e.ctime ++ (protoWriteU32 e.mtime ++ (protoWriteU64 e.size ++
    (protoWriteU16 (UInt16.ofNat e.name.length) ++ e.name))))

def encodeEntries (es : List DirEntry) : List UInt8 := (es.map encodeEntry).flatten

/-- `entry_count:u32` and the entries. -/
def encodeListing (es : List DirEntry) : List UInt8 :=
  protoWriteU32 (UInt32.ofNat es.length) ++ encodeEntries es

/-- What the layout can hold: the name lengths and the count fit their fields. -/
structure Encodable (es : List DirEntry) : Prop where
  names : ∀ e ∈ es, e.name.length < 65536
  count : es.length < 4294967296

/-! ## Entries -/

def nameLen (p : List UInt8) : Nat := (protoReadU16 (p.drop 17)).toNat

def entryAt (p : List UInt8) : DirEntry where
  name := (p.drop 19).take (nameLen p)
  type := p.headD 0
  size := protoReadU64 (p.drop 9)
  ctime := protoReadU32 (p.drop 1)
  mtime := protoReadU32 (p.drop 5)

theorem decodeEntries_succ (count : Nat) (p : List UInt8) :
    decodeEntries (count + 1) p =
      if 19 + nameLen p ≤ p.length then
        (decodeEntries count (p.drop (19 + nameLen p))).map (entryAt p :: ·)
      else none := by
  rw [decodeEntries]
  by_cases hshort : p.length < 19
  · rw [if_pos hshort, if_neg (by omega)]
  · rw [if_neg hshort]
    by_cases hname : 19 + nameLen p ≤ p.length
    · have hlen : ¬ (p.drop 19).length < nameLen p := by
        rw [List.length_drop]
        omega
      rw [if_pos hname, ← List.drop_drop]
      exact if_neg hlen
    · have hlen : (p.drop 19).length < nameLen p := by
        rw [List.length_drop]
        omega
      rw [if_neg hname]
      exact if_pos hlen

theorem encodeEntry_length (e : DirEntry) : (encodeEntry e).length = 19 + e.name.length := by
  simp [encodeEntry]
  omega

theorem entryAt_encode {e : DirEntry} (h : e.name.length < 65536) (rest : List UInt8) :
    nameLen (encodeEntry e ++ rest) = e.name.length ∧ entryAt (encodeEntry e ++ rest) = e := by
  -- what is left behind each field
  let p19 := e.name ++ rest
  let p17 := protoWriteU16 (UInt16.ofNat e.name.length) ++ p19
  let p9 := protoWriteU64 e.size ++ p17
  let p5 := protoWriteU32 e.mtime ++ p9
  let p1 := protoWriteU32 e.ctime ++ p5
  have h0 : encodeEntry e ++ rest = [e.type] ++ p1 := by
    simp [encodeEntry, p1, p5, p9, p17, p19]
  have h1 : (encodeEntry e ++ rest).drop 1 = p1 := by
    rw [h0]
    rfl
  have h5 : (encodeEntry e ++ rest).drop 5 = p5 := by
    rw [show 5 = 1 + 4 from rfl, ← List.drop_drop, h1, List.drop_left' (protoWriteU32_length _)]
  have h9 : (encodeEntry e ++ rest).drop 9 = p9 := by
    rw [show 9 = 5 + 4 from rfl, ← List.drop_drop, h5, List.drop_left' (protoWriteU32_length _)]
  have h17 : (encodeEntry e ++ rest).drop 17 = p17 := by
    rw [show 17 = 9 + 8 from rfl, ← List.drop_drop, h9, List.drop_left' (protoWriteU64_length _)]
  have h19 : (encodeEntry e ++ rest).drop 19 = p19 := by
    rw [show 19 = 17 + 2 from rfl, ← List.drop_drop, h17, List.drop_left' (protoWriteU16_length _)]
  have hlen : nameLen (encodeEntry e ++ rest) = e.name.length := by
    rw [nameLen, h17, protoReadU16_write]
    exact UInt16.toNat_ofNat_of_lt' h
  refine ⟨hlen, ?_⟩
  rw [entryAt, hlen, h1, h5, h9, h19, protoReadU32_write, protoReadU32_write, protoReadU64_write,
    List.take_left' rfl, h0]
  rfl

/-- What is read at the front, if it is all there, is the encoding of the entry. -/
theorem encode_entryAt {p : List UInt8} (h : 19 + nameLen p ≤ p.length) :
    (entryAt p).name.length < 65536 ∧
      p = encodeEntry (entryAt p) ++ p.drop (19 + nameLen p) := by
  have hlt : nameLen p < 65536 := UInt16.toNat_lt _
  have hname : (entryAt p).name.length = nameLen p := by
    rw [entryAt, List.length_take, List.length_drop]
    omega
  refine ⟨by omega, ?_⟩
  have hfield : protoWriteU16 (UInt16.ofNat (entryAt p).name.length) = (p.drop 17).take 2 := by
    rw [hname, nameLen, UInt16.ofNat_toNat]
    exact protoWriteU16_read (by rw [List.length_drop]; omega)
  have htype : [(entryAt p).type] = p.take 1 := by
    cases p with
    | nil => simp at h
    | cons b bs => rfl
  rw [encodeEntry, htype, hfield]
  simp only [entryAt]
  rw [protoWriteU32_read (by rw [List.length_drop]; omega),
    protoWriteU32_read (by rw [List.length_drop]; omega),
    protoWriteU64_read (by rw [List.length_drop]; omega)]
  -- the pieces are consecutive: 1, 4, 4, 8, 2 and `nameLen p` bytes, and what comes behind them
  have hnext : ∀ i k : Nat, (p.drop i).take k ++ p.drop (i + k) = p.drop i := by
    intro i k
    rw [← List.drop_drop, List.take_append_drop]
  simp only [List.append_assoc]
  rw [hnext 19, hnext 17 2, hnext 9 8, hnext 5 4, hnext 1 4, List.take_append_drop]

/-- **Exactly the listings are accepted**: `count` entries are decoded just when their encodings are
at the front. -/
theorem decodeEntries_eq_some_iff {count : Nat} {p : List UInt8} {es : List DirEntry} :
    decodeEntries count p = some es ↔
      es.length = count ∧ (∀ e ∈ es, e.name.length < 65536) ∧
        ∃ rest, p = encodeEntries es ++ rest := by
  induction count generalizing p es with
  | zero =>
    rw [decodeEntries, Option.some.injEq, List.length_eq_zero_iff]
    constructor
    · rintro rfl
      exact ⟨rfl, nofun, p, rfl⟩
    · rintro ⟨rfl, -⟩
      rfl
  | succ count ih =>
    rw [decodeEntries_succ]
    constructor
    · intro h
      split at h
      · rename_i hlen
        obtain ⟨es', hes', rfl⟩ := Option.map_eq_some_iff.mp h
        obtain ⟨hcount, hnames, rest, hrest⟩ := ih.mp hes'
        obtain ⟨hname, hp⟩ := encode_entryAt hlen
        refine ⟨by simp [hcount], List.forall_mem_cons.mpr ⟨hname, hnames⟩, rest, ?_⟩
        rw [hrest] at hp
        simpa [encodeEntries] using hp
      · cases h
    · rintro ⟨hcount, hnames, rest, rfl⟩
      obtain ⟨e, es, rfl⟩ : ∃ e es', es = e :: es' := by
        cases es with
        | nil => cases hcount
        | cons e es => exact ⟨e, es, rfl⟩
      obtain ⟨hname, hnames⟩ := List.forall_mem_cons.mp hnames
      have hp : encodeEntries (e :: es) ++ rest = encodeEntry e ++ (encodeEntries es ++ rest) := by
        simp [encodeEntries]
      obtain ⟨hlen, hentry⟩ := entryAt_encode hname (encodeEntries es ++ rest)
      have hdrop : (encodeEntry e ++ (encodeEntries es ++ rest)).drop (19 + e.name.length) =
          encodeEntries es ++ rest := List.drop_left' (encodeEntry_length e)
      rw [hp, hlen, hentry, hdrop, ih.mpr ⟨by simpa using hcount, hnames, rest, rfl⟩, if_pos]
      · rfl
      · rw [List.length_append, encodeEntry_length]
        omega

/-! ## The walk over the payload -/

/-- What the decoding of a response does: the result, the capacity reserved, how often the loop body
is entered, and the reads as offset and length. -/
structure Scan where
  entries : Option (List DirEntry)
  reserved : Nat
  rounds : Nat
  reads : List (Nat × Nat)

/-- The loop, with the offset of `p` in the payload. -/
def scanEntries (payload : List UInt8) : Nat → Nat → Option (List DirEntry) × Nat × List (Nat × Nat)
  | 0, _ => (some [], 0, [])
  | count + 1, p =>
    if p + 19 > payload.length then (none, 1, [])
    else
      let fields := [(p, 1), (p + 1, 4), (p + 5, 4), (p + 9, 8), (p + 17, 2)]
      let nlen := (protoReadU16 (payload.drop (p + 17))).toNat
      let q := p + 19
      if q + nlen > payload.length then (none, 1, fields)
      else
        let entry : DirEntry :=
          { name := (payload.drop q).take nlen
            type := (payload.drop p).headD 0
            size := protoReadU64 (payload.drop (p + 9))
            ctime := protoReadU32 (payload.drop (p + 1))
            mtime := protoReadU32 (payload.drop (p + 5)) }
        let (es, rounds, reads) := scanEntries payload count (q + nlen)
        (es.map (entry :: ·), rounds + 1, fields ++ (q, nlen) :: reads)

/-- `readdir` from an OK response on. -/
def scan (payload : List UInt8) : Scan :=
  if payload.length < 4 then { entries := none, reserved := 0, rounds := 0, reads := [] }
  else
    let count := (protoReadU32 payload).toNat
    let (entries, rounds, reads) := scanEntries payload count 4
    { entries, reserved := count, rounds, reads := (0, 4) :: reads }

section Scan

variable {payload : List UInt8}

theorem scanEntries_entries (payload : List UInt8) (count p : Nat) :
    (scanEntries payload count p).1 = decodeEntries count (payload.drop p) := by
  induction count generalizing p with
  | zero => rfl
  | succ count ih =>
    have hfixed : (payload.drop p).length < 19 ↔ p + 19 > payload.length := by
      rw [List.length_drop]
      omega
    rw [scanEntries, decodeEntries]
    simp only [hfixed]
    by_cases hshort : p + 19 > payload.length
    · simp only [hshort, if_true]
    · simp only [hshort, if_false, List.drop_drop, List.length_drop]
      generalize (protoReadU16 (payload.drop (p + 17))).toNat = nlen
      have hrest : payload.length - (p + 19) < nlen ↔ p + 19 + nlen > payload.length := by omega
      simp only [hrest]
      by_cases hname : p + 19 + nlen > payload.length
      · simp only [hname, if_true]
      · simp only [hname, if_false, ih]

theorem scan_entries (payload : List UInt8) :
    (scan payload).entries =
      if payload.length < 4 then none
      else decodeEntries (protoReadU32 payload).toNat (payload.drop 4) := by
  unfold scan
  split
  · rfl
  · exact scanEntries_entries _ _ _

theorem scanEntries_reads (payload : List UInt8) (count p : Nat) :
    ∀ r ∈ (scanEntries payload count p).2.2, r.1 + r.2 ≤ payload.length := by
  induction count generalizing p with
  | zero => exact nofun
  | succ count ih =>
    rw [scanEntries]
    by_cases hshort : p + 19 > payload.length
    · rw [if_pos hshort]
      exact nofun
    · have hfields : ∀ r ∈ [(p, 1), (p + 1, 4), (p + 5, 4), (p + 9, 8), (p + 17, 2)],
          r.1 + r.2 ≤ payload.length := by
        simp
        omega
      rw [if_neg hshort]
      simp only
      by_cases hname : p + 19 + (protoReadU16 (payload.drop (p + 17))).toNat > payload.length
      · rw [if_pos hname]
        exact hfields
      · rw [if_neg hname]
        intro r hr
        rcases List.mem_append.mp hr with hr | hr
        · exact hfields r hr
        · rcases List.mem_cons.mp hr with rfl | hr
          · simp only
            omega
          · exact ih _ r hr

/-- Each round but the last takes 19 bytes. -/
theorem scanEntries_rounds (payload : List UInt8) (count p : Nat) (hp : p ≤ payload.length) :
    19 * (scanEntries payload count p).2.1 ≤ payload.length - p + 19 := by
  induction count generalizing p with
  | zero => simp [scanEntries]
  | succ count ih =>
    rw [scanEntries]
    by_cases hshort : p + 19 > payload.length
    · rw [if_pos hshort]
      simp only
      omega
    · rw [if_neg hshort]
      simp only
      by_cases hname : p + 19 + (protoReadU16 (payload.drop (p + 17))).toNat > payload.length
      · rw [if_pos hname]
        simp only
        omega
      · rw [if_neg hname]
        have hnext := ih (p + 19 + (protoReadU16 (payload.drop (p + 17))).toNat) (by omega)
        generalize scanEntries payload count _ = r at hnext ⊢
        obtain ⟨es, rounds, reads⟩ := r
        simp only at hnext ⊢
        omega

theorem scan_reads (payload : List UInt8) :
    ∀ r ∈ (scan payload).reads, r.1 + r.2 ≤ payload.length := by
  unfold scan
  split
  · exact nofun
  · rename_i hlen
    intro r hr
    rcases List.mem_cons.mp hr with rfl | hr
    · exact Nat.le_of_not_lt hlen
    · exact scanEntries_reads _ _ _ r hr

theorem scan_rounds (payload : List UInt8) : (scan payload).rounds ≤ payload.length := by
  unfold scan
  split
  · exact Nat.zero_le _
  · have hrounds := scanEntries_rounds payload (protoReadU32 payload).toNat 4 (by omega)
    simp only
    generalize scanEntries payload _ 4 = r at hrounds ⊢
    obtain ⟨es, rounds, reads⟩ := r
    simp only at hrounds ⊢
    omega

theorem scan_eq_some_iff {es : List DirEntry} :
    (scan payload).entries = some es ↔
      Encodable es ∧ ∃ rest, payload = encodeListing es ++ rest := by
  rw [scan_entries]
  constructor
  · intro h
    split at h
    · cases h
    · rename_i hlen
      obtain ⟨hcount, hnames, rest, hrest⟩ := decodeEntries_eq_some_iff.mp h
      refine ⟨⟨hnames, by rw [hcount]; exact UInt32.toNat_lt _⟩, rest, ?_⟩
      rw [encodeListing, List.append_assoc, ← hrest, hcount, UInt32.ofNat_toNat,
        protoWriteU32_read (by omega), List.take_append_drop]
  · rintro ⟨⟨hnames, hcount⟩, rest, rfl⟩
    rw [encodeListing, List.append_assoc]
    have hlen : ¬ (protoWriteU32 (UInt32.ofNat es.length) ++ (encodeEntries es ++ rest)).length < 4 := by
      rw [List.length_append, protoWriteU32_length]
      omega
    rw [if_neg hlen, protoReadU32_write, UInt32.toNat_ofNat_of_lt' hcount,
      List.drop_left' (protoWriteU32_length _)]
    exact decodeEntries_eq_some_iff.mpr ⟨rfl, hnames, rest, rfl⟩

/-- The counts of two listings, one of which starts with the other, are the same. -/
theorem encodeListing_prefix {es es' : List DirEntry} (hes : Encodable es) (hes' : Encodable es')
    {rest : List UInt8} (h : encodeListing es = encodeListing es' ++ rest) : es = es' := by
  have h₁ : (scan (encodeListing es)).entries = some es :=
    scan_eq_some_iff.mpr ⟨hes, [], (List.append_nil _).symm⟩
  have h₂ : (scan (encodeListing es)).entries = some es' := scan_eq_some_iff.mpr ⟨hes', rest, h⟩
  exact Option.some.inj (h₁.symm.trans h₂)

theorem scan_cut {es : List DirEntry} (hes : Encodable es) {k : Nat}
    (hk : k < (encodeListing es).length) : (scan ((encodeListing es).take k)).entries = none := by
  cases h : (scan ((encodeListing es).take k)).entries with
  | none => rfl
  | some es' =>
    obtain ⟨hes', rest, hrest⟩ := scan_eq_some_iff.mp h
    have hwhole : encodeListing es = encodeListing es' ++ (rest ++ (encodeListing es).drop k) := by
      rw [← List.append_assoc, ← hrest, List.take_append_drop]
    obtain rfl := encodeListing_prefix hes hes' hwhole
    have := congrArg List.length hrest
    rw [List.length_append, List.length_take] at this
    omega

end Scan

/-! ## The main result -/

/-- What a decoding of `payload` should be like. -/
structure DecodesWell (payload : List UInt8) : Prop where
  exact : ∀ es, (∃ entries, (scan payload).entries = some entries ∧ Yields ⟨entries, 0⟩ es) ↔
    Encodable es ∧ ∃ rest, payload = encodeListing es ++ rest
  cut : ∀ es k, Encodable es → k < (encodeListing es).length →
    payload = (encodeListing es).take k → (scan payload).entries = none
  reads : ∀ r ∈ (scan payload).reads, r.1 + r.2 ≤ payload.length
  rounds : (scan payload).rounds ≤ payload.length
  reserved : (scan payload).reserved ≤ payload.length

/-- The count field, if there is one, is not larger than the payload is long. -/
def CountFits (payload : List UInt8) : Prop :=
  4 ≤ payload.length → (protoReadU32 payload).toNat ≤ payload.length

theorem decodesWell_iff (payload : List UInt8) : DecodesWell payload ↔ CountFits payload := by
  have hreserved : (scan payload).reserved ≤ payload.length ↔ CountFits payload := by
    unfold scan CountFits
    split
    · exact iff_of_true (Nat.zero_le _) fun h => by omega
    · exact ⟨fun h _ => h, fun h => h (by omega)⟩
  refine ⟨fun h => hreserved.mp h.reserved, fun h => ⟨fun es => ?_, ?_, scan_reads payload,
    scan_rounds payload, hreserved.mpr h⟩⟩
  · rw [← scan_eq_some_iff]
    simp only [yields_iff, List.drop_zero]
    constructor
    · rintro ⟨entries, hentries, rfl⟩
      exact hentries
    · exact fun h => ⟨es, h, rfl⟩
  · rintro es k hes hk rfl
    exact scan_cut hes hk

section Readdir

variable {C : Type}

/-- **Directory responses are decoded exactly**, for every payload of an OK response: what `readdir`
gives back is the scan of the payload, and the scan is as it should be, with its work bounded by
the payload, just when the entry count is bounded by the payload. Only the capacity reserved is ever
too large. -/
theorem readdir_decodes_iff (fs : RemoteFs C) (link : Link C) (path : CStr) {payload : List UInt8}
    (h : (fs.request link CMD_FS_READDIR (pathPayload path)).1 = ⟨STATUS_OK, payload⟩) :
    (fs.readdir link path).1 = (scan payload).entries ∧
      (DecodesWell payload ↔ CountFits payload) := by
  refine ⟨?_, decodesWell_iff payload⟩
  rw [scan_entries]
  simp only [readdir, h, ne_eq, not_true_eq_false, false_or]
  split <;> rfl

theorem readdir_decodes_iff_two :
    let es : List DirEntry := [⟨[97], 0, 5, 1, 2⟩, ⟨[98, 99], 1, 0, 3, 4⟩]
    let fs : RemoteFs Unit := ⟨⟨(), []⟩, STATUS_OK⟩
    let link := Link.constantServer ⟨STATUS_OK, encodeListing es⟩ (by decide)
    (fs.readdir link ⟨[47], by decide⟩).1 = some es ∧ DecodesWell (encodeListing es) := by
  intro es fs link
  have hreq : (fs.request link CMD_FS_READDIR (pathPayload ⟨[47], by decide⟩)).1 =
      ⟨STATUS_OK, encodeListing es⟩ := rfl
  have hdec := readdir_decodes_iff fs link ⟨[47], by decide⟩ hreq
  exact ⟨by decide, hdec.2.mpr fun _ => by decide⟩

/-- Four bytes of payload that state 4294967295 entries: the capacity for these is reserved before
the response is found to be cut short. -/
theorem readdir_reserves_untrusted : ¬ DecodesWell [255, 255, 255, 255] := by
  rw [decodesWell_iff, CountFits]
  decide

end Readdir

end RemoteFs
end ObZrv
