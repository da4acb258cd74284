import Mathlib.Algebra.Group.Nat.Defs
import ObZrv.Lib.Recency
import ObZrv.Text.Path
import ObZrv.Text.RecentFiles

/-!
# Text.RemoteHistory

The addresses of the connection dialog in `ConnectDlg.cpp`: how `host:port` is read and shown, and
the history of them in the settings.

* `readAddress_ok_iff`       : what is accepted as an address.
* `readAddress_formatAddress`: an address that is shown is read back.
* `readAddress_shown`        : and it is so in the control, which has room for 299 units.
* `loadHistory_saveHistory`  : what a new entry makes of the history.
-/

namespace ObZrv

open Lib

open RecentFileRegistry (utf8ToWstr wstrToUtf8)

/-! ## Text of a control -/

theorem zero_not_mem_takeWhile (s : WStr) : 0 ∉ s.takeWhile (· ≠ 0) := by
  intro h
  have hne := List.mem_takeWhile_imp (p := fun u => decide (u ≠ 0)) h
  exact of_decide_eq_true hne rfl

theorem nul_not_mem_wstrToUtf8 (s : WStr) : '\x00' ∉ wstrToUtf8 s :=
  (decodeUtf16_spec _).1 (zero_not_mem_takeWhile s)

theorem length_utf8ToWstr_wstrToUtf8 (s : WStr) : (utf8ToWstr (wstrToUtf8 s)).length ≤ s.length := by
  rw [RecentFileRegistry.utf8ToWstr_eq (nul_not_mem_wstrToUtf8 s)]
  exact Nat.le_trans (decodeUtf16_spec _).2 (List.takeWhile_prefix _).length_le

/-! ## Addresses -/

def isSpaceC (c : Char) : Bool := c = ' ' || ('\t' ≤ c && c ≤ '\r')

/-- `std::stoi`; `none` where it throws. -/
def stoi (s : Str) : Option Int :=
  let (neg, s) :=
    match s.dropWhile isSpaceC with
    | [] => (false, [])
    | c :: rest => if c = '-' then (true, rest) else if c = '+' then (false, rest) else (false, c :: rest)
  let digits := s.takeWhile Char.isDigit
  if digits = [] then none
  else
    let v : Int := Nat.ofDigitChars 10 digits 0
    let v := if neg then -v else v
    if InInt32 v then some v else none

/-- What `ConnectFromInput` complains about before it connects. -/
inductive AddressError where
  | format
  | port
deriving DecidableEq, Repr

/-- `ConnectFromInput` up to the connection. -/
def readAddress (s : Str) : Except AddressError (Str × UInt16) :=
  match afterLast ':' s with
  | none => .error .format
  | some portText =>
    let colon := s.length - portText.length - 1
    if colon = 0 then .error .format
    else
      let p := (stoi portText).getD 0
      if p ≤ 0 ∨ p > 65535 then .error .port else .ok (s.take colon, UInt16.ofInt p)

/-- `m_host + ":" + std::to_string(m_port)`. -/
def formatAddress (host : Str) (port : UInt16) : Str := host ++ ':' :: Nat.toDigits 10 port.toNat

theorem afterLast_colon {s portText : Str} (h : afterLast ':' s = some portText) :
    ':' ∉ portText ∧ s = s.take (s.length - portText.length - 1) ++ ':' :: portText := by
  obtain ⟨hn, host, rfl⟩ := afterLast_eq_some h
  refine ⟨hn, ?_⟩
  have hlen : (host ++ ':' :: portText).length - portText.length - 1 = host.length := by
    simp only [List.length_append, List.length_cons]
    omega
  rw [hlen, List.take_left' rfl]

/-- **What is accepted**: all before the last colon is the host, what follows begins with a number from
1 to 65535. -/
theorem readAddress_ok_iff {s host : Str} {port : UInt16} :
    readAddress s = .ok (host, port) ↔ ∃ portText, s = host ++ ':' :: portText ∧ ':' ∉ portText ∧
      host ≠ [] ∧ stoi portText = some (port.toNat : Int) ∧ port ≠ 0 := by
  constructor
  · intro h
    unfold readAddress at h
    cases hs : afterLast ':' s with
    | none => simp [hs] at h
    | some portText =>
      obtain ⟨hn, heq⟩ := afterLast_colon hs
      rw [hs] at h
      dsimp only at h
      split at h
      · cases h
      rename_i hcolon
      split at h
      · cases h
      rename_i hrange
      simp only [Except.ok.injEq, Prod.mk.injEq] at h
      obtain ⟨rfl, rfl⟩ := h
      refine ⟨portText, heq, hn, ?_, ?_, ?_⟩
      · intro hnil
        have hlen := congrArg List.length hnil
        rw [List.length_take, List.length_nil] at hlen
        omega
      · cases hp : stoi portText with
        | none => simp [hp] at hrange
        | some p =>
          simp only [hp, Option.getD_some] at hrange ⊢
          have hp16 : (UInt16.ofInt p).toNat = p.toNat := by
            rw [UInt16.ofInt, UInt16.toNat_ofNat']
            omega
          rw [hp16]
          congr 1
          omega
      · intro hz
        have hz := congrArg UInt16.toNat hz
        rw [UInt16.ofInt, UInt16.toNat_ofNat'] at hz
        simp only [UInt16.toNat_zero] at hz
        omega
  · rintro ⟨portText, rfl, hn, hhost, hport, hne⟩
    have hlen : (host ++ ':' :: portText).length - portText.length - 1 = host.length := by
      simp only [List.length_append, List.length_cons]
      omega
    have hpos := List.length_pos_iff.mpr hhost
    have hlt := port.toNat_lt
    have hport0 : port.toNat ≠ 0 := fun hz => hne (UInt16.toNat_inj.mp hz)
    unfold readAddress
    simp only [afterLast_append hn, hlen, hport, Option.getD_some]
    rw [if_neg (by omega), if_neg (by omega), List.take_left' rfl, RecentFileRegistry.ofInt_toNat]

theorem stoi_digits {n : Nat} (h : n ≤ 2147483647) : stoi (Nat.toDigits 10 n) = some (n : Int) := by
  have hdigits := digits_isDigit n
  have htake : (Nat.toDigits 10 n).takeWhile Char.isDigit = Nat.toDigits 10 n :=
    List.takeWhile_eq_self_iff.mpr hdigits
  have hvalue : Nat.ofDigitChars 10 (Nat.toDigits 10 n) 0 = n := Nat.ofDigitChars_ten_toDigits
  have hin : InInt32 (n : Int) := ⟨by omega, by omega⟩
  unfold stoi
  cases hs : Nat.toDigits 10 n with
  | nil => exact absurd hs Nat.toDigits_ne_nil
  | cons d ds =>
    rw [hs] at hdigits htake hvalue
    have hd := isDigit_toNat (hdigits d (List.mem_cons_self ..))
    have hspace : isSpaceC d = false := by
      simp only [isSpaceC, Bool.or_eq_false_iff, decide_eq_false_iff_not, Bool.and_eq_false_iff]
      refine ⟨?_, .inr ?_⟩
      · rintro rfl
        exact absurd hd.1 (by decide)
      · intro hle
        have hle : d.toNat ≤ '\r'.toNat := hle
        exact absurd (Nat.le_trans hd.1 hle) (by decide)
    have hminus : d ≠ '-' := by
      rintro rfl
      exact absurd hd.1 (by decide)
    have hplus : d ≠ '+' := by
      rintro rfl
      exact absurd hd.1 (by decide)
    rw [List.dropWhile_cons, if_neg (by simp [hspace])]
    simp [hminus, hplus, htake, hvalue, hin]

/-- **An address that is shown is read back**, whatever the host has in it. -/
theorem readAddress_formatAddress {host : Str} {port : UInt16} (hhost : host ≠ []) (hport : port ≠ 0) :
    readAddress (formatAddress host port) = .ok (host, port) := by
  have hlt := port.toNat_lt
  refine readAddress_ok_iff.mpr ⟨_, rfl, ?_, hhost, stoi_digits (by omega), hport⟩
  intro hc
  exact absurd (digits_isDigit _ ':' hc) (by decide)

/-! ## An address that is shown -/

theorem ofDigitChars_lt {s : Str} (h : ∀ c ∈ s, c.isDigit = true) (acc : Nat) :
    Nat.ofDigitChars 10 s acc < 10 ^ s.length * (acc + 1) := by
  induction s generalizing acc with
  | nil => simp
  | cons c s ih =>
    obtain ⟨hc, hs⟩ := List.forall_mem_cons.mp h
    have hdigit := isDigit_toNat hc
    have hzero : '0'.toNat = 48 := rfl
    have hrest := ih hs (10 * acc + (c.toNat - '0'.toNat))
    rw [Nat.ofDigitChars_cons]
    refine Nat.lt_of_lt_of_le hrest ?_
    rw [List.length_cons, Nat.pow_succ, Nat.mul_assoc]
    refine Nat.mul_le_mul_left _ ?_
    omega

/-- What is read as a number is no shorter than the number. -/
theorem digits_length_le_of_stoi {s : Str} {n : Nat} (h : stoi s = some (n : Int)) :
    (Nat.toDigits 10 n).length ≤ s.length := by
  have hread : ∀ (neg : Bool) (t : Str), t.length ≤ s.length →
      (if t.takeWhile Char.isDigit = [] then none
        else
          let v : Int := Nat.ofDigitChars 10 (t.takeWhile Char.isDigit) 0
          let v := if neg then -v else v
          if InInt32 v then some v else none) = some (n : Int) →
      (Nat.toDigits 10 n).length ≤ s.length := by
    intro neg t ht hv
    split at hv
    · cases hv
    rename_i hne
    simp only [Option.ite_none_right_eq_some, Option.some.injEq] at hv
    obtain ⟨-, hv⟩ := hv
    have hlt := ofDigitChars_lt (s := t.takeWhile Char.isDigit)
      (fun c hc => List.mem_takeWhile_imp hc) 0
    rw [Nat.mul_one] at hlt
    have hpos := List.length_pos_iff.mpr hne
    have hlen := (List.takeWhile_prefix (p := Char.isDigit) (l := t)).length_le
    refine Nat.le_trans ((Nat.length_toDigits_le_iff (by decide) hpos).mpr ?_) (Nat.le_trans hlen ht)
    refine Nat.lt_of_le_of_lt ?_ hlt
    split at hv <;> omega
  have hdrop := (List.dropWhile_suffix (p := isSpaceC) (l := s)).length_le
  unfold stoi at h
  split at h
  rename_i neg t hsign
  refine hread neg t ?_ h
  cases hs : s.dropWhile isSpaceC with
  | nil =>
    rw [hs] at hsign
    cases hsign
    exact Nat.zero_le _
  | cons c rest =>
    rw [hs, List.length_cons] at hdrop
    rw [hs] at hsign
    simp only at hsign
    split at hsign
    · cases hsign
      omega
    split at hsign
    · cases hsign
      omega
    · cases hsign
      rw [List.length_cons]
      omega

theorem length_encodeUtf16 (s : Str) :
    s.length ≤ (encodeUtf16 s).length ∧
      ((∀ c ∈ s, c.isDigit = true) → (encodeUtf16 s).length = s.length) := by
  induction s with
  | nil => exact ⟨Nat.le_refl _, fun _ => rfl⟩
  | cons c s ih =>
    have hunits : 1 ≤ (utf16Units c).length ∧ (c.isDigit = true → (utf16Units c).length = 1) := by
      unfold utf16Units
      split
      · exact ⟨Nat.le_refl _, fun _ => rfl⟩
      · rename_i hbig
        refine ⟨Nat.le_succ 1, fun hc => ?_⟩
        have hdigit := isDigit_toNat hc
        omega
    rw [encodeUtf16, List.flatMap_cons, List.length_append, List.length_cons, ← encodeUtf16]
    refine ⟨by omega, fun h => ?_⟩
    obtain ⟨hc, hs⟩ := List.forall_mem_cons.mp h
    rw [hunits.2 hc, ih.2 hs]
    omega

/-- An address that was read fits into the control when it is shown. -/
theorem length_formatAddress_le {s host : Str} {port : UInt16}
    (h : readAddress s = .ok (host, port)) :
    (encodeUtf16 (formatAddress host port)).length ≤ (encodeUtf16 s).length := by
  obtain ⟨portText, rfl, -, -, hport, -⟩ := readAddress_ok_iff.mp h
  have hdigits := digits_length_le_of_stoi hport
  have hshown := (length_encodeUtf16 (Nat.toDigits 10 port.toNat)).2 (digits_isDigit _)
  have htyped := (length_encodeUtf16 portText).1
  simp only [formatAddress, encodeUtf16, List.flatMap_append, List.flatMap_cons, List.length_append]
  simp only [encodeUtf16] at hshown htyped
  omega

/-- **An address that was typed is shown, and read again.** -/
theorem readAddress_shown {s : WStr} {host : Str} {port : UInt16} (hlen : s.length ≤ 299)
    (h : readAddress (wstrToUtf8 s) = .ok (host, port)) :
    readAddress (wstrToUtf8 ((utf8ToWstr (formatAddress host port)).take 299)) = .ok (host, port) := by
  obtain ⟨portText, hs, -, hhost, -, hport⟩ := readAddress_ok_iff.mp h
  have hnul : '\x00' ∉ wstrToUtf8 s := nul_not_mem_wstrToUtf8 s
  have hnulShown : '\x00' ∉ formatAddress host port := by
    intro hmem
    rw [hs] at hnul
    rcases List.mem_append.mp hmem with hmem | hmem
    · exact hnul (List.mem_append_left _ hmem)
    · rcases List.mem_cons.mp hmem with heq | hmem
      · exact absurd heq (by decide)
      · exact absurd (digits_isDigit _ _ hmem) (by decide)
  have hfits : (utf8ToWstr (formatAddress host port)).length ≤ 299 := by
    have hle := length_utf8ToWstr_wstrToUtf8 s
    rw [RecentFileRegistry.utf8ToWstr_eq hnul] at hle
    rw [RecentFileRegistry.utf8ToWstr_eq hnulShown]
    have hshort := length_formatAddress_le h
    omega
  rw [List.take_of_length_le hfits, RecentFileRegistry.wstrToUtf8_utf8ToWstr hnulShown,
    readAddress_formatAddress hhost hport]

/-! ## The history -/

def hostKey (i : Nat) : WStr := wide "Host".toList ++ formatInt i

/-- `LoadHistory`; the keys are those of the section `RemoteHistory`. -/
def loadHistory (c : Config WStr) : List WStr :=
  (List.range 5).filterMap fun i =>
    let v := c.getStr (hostKey i) []
    if v = [] then none else some v

def saveHistory (c : Config WStr) (entry : WStr) : Config WStr :=
  let hist := (loadHistory c).filter (· ≠ entry)
  let hist := entry :: hist
  let hist := if hist.length > 5 then hist.take 5 else hist
  (List.range 5).foldl (fun c i => c.setStr (hostKey i) (hist[i]?.getD [])) c

/-- The other file of the settings has no history: what is written is what is read. -/
structure OwnHistory (c : Config WStr) : Prop where
  exe : c.writeIni = .exeIni → ∀ i < 5, lookup c.userIni (hostKey i) 512 = none
  user : c.writeIni = .userIni → ∀ i < 5, lookup c.exeIni (hostKey i) 512 = none

/-- An entry that the settings keep as it is. -/
structure KeptEntry (entry : WStr) : Prop where
  ne_nil : entry ≠ []
  safe : IniSafe entry
  length_le : entry.length ≤ 511

section History

variable {c : Config WStr} {entry : WStr}

theorem hostKey_injective {i j : Nat} (h : hostKey i = hostKey j) : i = j :=
  RecentFileRegistry.formatInt_nat_injective (List.append_cancel_left h)

/-- What the slots hold after they were written with `hist`. -/
theorem getStr_saved (hown : OwnHistory c) (hist : List WStr) (hkept : ∀ e ∈ hist, KeptEntry e)
    {i : Nat} (hi : i < 5) :
    (c.run ((List.range 5).map fun i => .setStr (hostKey i) (hist[i]?.getD []))).getStr (hostKey i)
      [] = hist[i]?.getD [] := by
  set calls : List (SetCall WStr) :=
    (List.range 5).map fun i => .setStr (hostKey i) (hist[i]?.getD []) with hcalls
  set val := hist[i]?.getD [] with hval
  have hlast : lastSet (hostKey i) calls = some (.setStr (hostKey i) val) := by
    have hmem : .setStr (hostKey i) val ∈ calls := List.mem_map.mpr ⟨i, List.mem_range.mpr hi, rfl⟩
    refine lastSet_of_unique hmem ?_
    intro call hcall hkey
    obtain ⟨j, -, rfl⟩ := List.mem_map.mp hcall
    obtain rfl := hostKey_injective hkey
    rfl
  have hsafe : (∀ u ∈ val, 32 ≤ u) ∧ val.length ≤ 511 := by
    rw [hval]
    cases he : hist[i]? with
    | none => exact ⟨fun u hu => (List.not_mem_nil hu).elim, Nat.zero_le _⟩
    | some e =>
      have hk := hkept e (List.mem_of_getElem? he)
      exact ⟨hk.safe.printable, hk.length_le⟩
  have hwritten := Config.run_written c hlast
  have hfound : lookup ((c.run calls).ini c.writeIni) (hostKey i) 512 =
      if val = [] then none else some val := lookup_of_eq hwritten hsafe.2 hsafe.1
  have hother : ∀ f, f ≠ c.writeIni → lookup ((c.run calls).ini f) (hostKey i) 512 =
      lookup (c.ini f) (hostKey i) 512 := fun f hf => lookup_congr (Config.run_other c calls _ hf)
  unfold Config.getStr
  cases hw : c.writeIni with
  | exeIni =>
    rw [hw] at hfound
    have huser := (hother .userIni (by rw [hw]; decide)).trans (hown.exe hw i hi)
    simp only [Config.ini] at hfound huser
    rw [hfound, huser]
    by_cases hnil : val = [] <;> simp [hnil]
  | userIni =>
    rw [hw] at hfound
    have hexe := (hother .exeIni (by rw [hw]; decide)).trans (hown.user hw i hi)
    simp only [Config.ini] at hfound hexe
    rw [hfound, hexe]
    by_cases hnil : val = [] <;> simp [hnil]

theorem run_eq_foldl (hist : List WStr) (is : List Nat) :
    c.run (is.map fun i => .setStr (hostKey i) (hist[i]?.getD [])) =
      is.foldl (fun c i => c.setStr (hostKey i) (hist[i]?.getD [])) c := by
  rw [Config.run, List.foldl_map]
  rfl

theorem saveHistory_eq (c : Config WStr) (entry : WStr) :
    saveHistory c entry = c.run ((List.range 5).map fun i =>
      .setStr (hostKey i) ((touch 5 entry (loadHistory c))[i]?.getD [])) := by
  rw [run_eq_foldl, saveHistory]
  have htouch : (if (entry :: (loadHistory c).filter (· ≠ entry)).length > 5 then
      (entry :: (loadHistory c).filter (· ≠ entry)).take 5
      else entry :: (loadHistory c).filter (· ≠ entry)) = touch 5 entry (loadHistory c) := by
    split
    · rfl
    · exact (List.take_of_length_le (by omega)).symm
  simp only [htouch]

/-- **A new entry** comes to the front of the history, without its old place and without the oldest
where there would be six. -/
theorem loadHistory_saveHistory (hown : OwnHistory c) (hentry : KeptEntry entry)
    (hload : ∀ e ∈ loadHistory c, KeptEntry e) :
    loadHistory (saveHistory c entry) = touch 5 entry (loadHistory c) := by
  have hkept : ∀ e ∈ touch 5 entry (loadHistory c), KeptEntry e := by
    intro e he
    rcases mem_of_mem_touch he with rfl | hmem
    · exact hentry
    · exact hload e hmem
  have hlen : (touch 5 entry (loadHistory c)).length ≤ 5 := touch_length_le
  rw [saveHistory_eq]
  generalize touch 5 entry (loadHistory c) = hist at hkept hlen
  have hslots : ∀ i ∈ List.range 5, (fun i =>
      let v := (c.run ((List.range 5).map fun i =>
        .setStr (hostKey i) (hist[i]?.getD []))).getStr (hostKey i) []
      if v = [] then none else some v) i = hist[i]? := by
    intro i hi
    simp only [getStr_saved hown hist hkept (List.mem_range.mp hi)]
    cases he : hist[i]? with
    | none => rfl
    | some e => exact if_neg (hkept e (List.mem_of_getElem? he)).ne_nil
  rw [loadHistory, List.filterMap_congr hslots, RecentFileRegistry.filterMap_getElem?,
    List.take_of_length_le hlen]

/-- The other file is left alone. -/
theorem OwnHistory.saveHistory (hown : OwnHistory c) (entry : WStr) :
    OwnHistory (saveHistory c entry) := by
  rw [saveHistory_eq]
  generalize (List.range 5).map _ = calls
  have hw := Config.run_writeIni c calls
  constructor
  · intro hexe i hi
    rw [hw] at hexe
    have hother := Config.run_other c calls (hostKey i) (f := .userIni) (by rw [hexe]; decide)
    exact (lookup_congr hother).trans (hown.exe hexe i hi)
  · intro huser i hi
    rw [hw] at huser
    have hother := Config.run_other c calls (hostKey i) (f := .exeIni) (by rw [huser]; decide)
    exact (lookup_congr hother).trans (hown.user huser i hi)

end History

/-- Settings in which the history is read as it was written. -/
structure HistoryOk (c : Config WStr) : Prop where
  own : OwnHistory c
  kept : ∀ e ∈ loadHistory c, KeptEntry e

theorem HistoryOk.saveHistory {c : Config WStr} {entry : WStr} (h : HistoryOk c)
    (hentry : KeptEntry entry) : HistoryOk (saveHistory c entry) := by
  refine ⟨h.own.saveHistory entry, ?_⟩
  rw [loadHistory_saveHistory h.own hentry h.kept]
  intro e he
  rcases mem_of_mem_touch he with rfl | hmem
  · exact hentry
  · exact h.kept e hmem

theorem loadHistory_foldl {c : Config WStr} (h : HistoryOk c) (entries : List WStr)
    (hentries : ∀ e ∈ entries, KeptEntry e) :
    loadHistory (entries.foldl saveHistory c) = touchAll 5 entries (loadHistory c) := by
  induction entries generalizing c with
  | nil => rfl
  | cons e entries ih =>
    obtain ⟨he, htail⟩ := List.forall_mem_cons.mp hentries
    rw [List.foldl_cons, ih (h.saveHistory he) htail, loadHistory_saveHistory h.own he h.kept]
    rfl

end ObZrv
