import Mathlib.Data.List.TakeWhile
import Mathlib.Tactic.Common

/-!
# Text.Config

`Config`: settings in two INI files, one beside the program and one of the user. The first is read
before the second; writes go to the first if it can be written when the program starts, to the
second otherwise.

* `wcstol_formatInt` : a number that was written is read back.
* `run_ini`          : what a sequence of writes leaves in the files.
* `reads_back`       : what is read for a key that was written.
-/

namespace ObZrv

/-- A string of wide characters, without its NUL. -/
abbrev WStr := List UInt16

def wide (s : List Char) : WStr := s.map fun c => UInt16.ofNat c.toNat

/-- `wsprintfW(buf, L"%d", val)`. -/
def formatInt : Int → WStr
  | .ofNat n => wide (Nat.toDigits 10 n)
  | .negSucc n => 45 :: wide (Nat.toDigits 10 (n + 1))

def isDigitW (c : UInt16) : Bool := 48 ≤ c && c ≤ 57

def isSpaceW (c : UInt16) : Bool := c == 32 || (9 ≤ c && c ≤ 13)

def digitsValue (s : WStr) : Nat :=
  (s.takeWhile isDigitW).foldl (fun acc c => 10 * acc + (c.toNat - 48)) 0

/-- `wcstol(s, NULL, 10)`, with a `long` of 32 bits. -/
def wcstol (s : WStr) : Int :=
  let (neg, s) :=
    match s.dropWhile isSpaceW with
    | [] => (false, [])
    | c :: rest => if c = 45 then (true, rest) else if c = 43 then (false, rest) else (false, c :: rest)
  let v : Int := if neg then -(digitsValue s : Int) else digitsValue s
  max (-2147483648) (min 2147483647 v)

def InInt32 (v : Int) : Prop := -2147483648 ≤ v ∧ v ≤ 2147483647

instance (v : Int) : Decidable (InInt32 v) := inferInstanceAs (Decidable (_ ∧ _))

/-! ## The two files -/

/-- An INI file as a map from sections with keys to strings. -/
abbrev Ini (κ : Type) := κ → Option WStr

inductive IniFile where
  | exeIni
  | userIni
deriving DecidableEq, Repr

structure Config (κ : Type) where
  exeIni : Ini κ
  userIni : Ini κ
  writeIni : IniFile

/-- `L"\x01\x02NOTFOUND"`. -/
def sentinel : WStr := 1 :: 2 :: wide "NOTFOUND".toList

section

variable {κ : Type} [DecidableEq κ]

/-- What `GetPrivateProfileStringW` leaves in a buffer of `size` characters. -/
def getPrivateProfileString (ini : Ini κ) (k : κ) (default : WStr) (size : Nat) : WStr :=
  ((ini k).getD default).take (size - 1)

/-- A value read with the sentinel for its default; the empty value counts as none. -/
def lookup (ini : Ini κ) (k : κ) (size : Nat) : Option WStr :=
  let buf := getPrivateProfileString ini k sentinel size
  if buf.length > 0 ∧ buf ≠ sentinel then some buf else none

def writePrivateProfileString (ini : Ini κ) (k : κ) (val : WStr) : Ini κ :=
  fun k' => if k' = k then some val else ini k'

namespace Config

/-- `getInt`; `profileInt` is how `GetPrivateProfileIntW` reads a value that is there. -/
def getInt (profileInt : WStr → Int) (c : Config κ) (k : κ) (default : Int) : Int :=
  match lookup c.exeIni k 64 with
  | some buf => wcstol buf
  | none =>
    match c.userIni k with
    | some s => profileInt s
    | none => default

def getStr (c : Config κ) (k : κ) (default : WStr) : WStr :=
  match lookup c.exeIni k 512 with
  | some buf => buf
  | none => (lookup c.userIni k 512).getD default

/-- The file of a `Config`. -/
def ini (c : Config κ) : IniFile → Ini κ
  | .exeIni => c.exeIni
  | .userIni => c.userIni

def setStr (c : Config κ) (k : κ) (val : WStr) : Config κ :=
  match c.writeIni with
  | .exeIni => { c with exeIni := writePrivateProfileString c.exeIni k val }
  | .userIni => { c with userIni := writePrivateProfileString c.userIni k val }

def setInt (c : Config κ) (k : κ) (val : Int) : Config κ := c.setStr k (formatInt val)

end Config

inductive SetCall (κ : Type) where
  | setStr (k : κ) (val : WStr)
  | setInt (k : κ) (val : Int)
deriving DecidableEq

def SetCall.key : SetCall κ → κ
  | .setStr k _ => k
  | .setInt k _ => k

/-- The string a call writes. -/
def SetCall.text : SetCall κ → WStr
  | .setStr _ val => val
  | .setInt _ val => formatInt val

namespace Config

def apply (c : Config κ) : SetCall κ → Config κ
  | .setStr k val => c.setStr k val
  | .setInt k val => c.setInt k val

def run (c : Config κ) (calls : List (SetCall κ)) : Config κ := calls.foldl apply c

end Config

/-- The last call that sets a key. -/
def lastSet (k : κ) : List (SetCall κ) → Option (SetCall κ)
  | [] => none
  | call :: calls =>
    match lastSet k calls with
    | some last => some last
    | none => if call.key = k then some call else none

/-- A string an INI file keeps as it is: no control characters, and neither blanks nor quotes at its
ends. -/
structure IniSafe (s : WStr) : Prop where
  printable : ∀ c ∈ s, 32 ≤ c
  head : s.head? ≠ some 32 ∧ s.head? ≠ some 34 ∧ s.head? ≠ some 39
  last : s.getLast? ≠ some 32 ∧ s.getLast? ≠ some 34 ∧ s.getLast? ≠ some 39

end

/-! ## Numbers as text -/

theorem isDigit_toNat {c : Char} (h : c.isDigit = true) : 48 ≤ c.toNat ∧ c.toNat ≤ 57 := by
  have hcases : (decide (c.val ≥ '0'.val) && decide (c.val ≤ '9'.val)) = true := h
  simp only [Bool.and_eq_true, decide_eq_true_eq] at hcases
  exact ⟨UInt32.le_iff_toNat_le.mp hcases.1, UInt32.le_iff_toNat_le.mp hcases.2⟩

theorem wide_toNat {c : Char} (h : c.isDigit = true) : (UInt16.ofNat c.toNat).toNat = c.toNat := by
  have hc := isDigit_toNat h
  rw [UInt16.toNat_ofNat']
  omega

theorem isDigitW_wide {c : Char} (h : c.isDigit = true) : isDigitW (UInt16.ofNat c.toNat) = true := by
  have hc := isDigit_toNat h
  have hw := wide_toNat h
  simp only [isDigitW, Bool.and_eq_true, decide_eq_true_eq, UInt16.le_iff_toNat_le, hw]
  exact hc

theorem foldl_wide {s : List Char} (h : ∀ c ∈ s, c.isDigit = true) (acc : Nat) :
    (wide s).foldl (fun acc c => 10 * acc + (c.toNat - 48)) acc = Nat.ofDigitChars 10 s acc := by
  induction s generalizing acc with
  | nil => rfl
  | cons d s ih =>
    have hd : (UInt16.ofNat d.toNat).toNat = d.toNat := wide_toNat (h d (List.mem_cons_self ..))
    rw [Nat.ofDigitChars_cons, wide, List.map_cons, List.foldl_cons, hd]
    exact ih (fun c hc => h c (List.mem_cons_of_mem _ hc)) _

/-- The digits read back from digits written. -/
theorem digitsValue_wide {s : List Char} (h : ∀ c ∈ s, c.isDigit = true) :
    digitsValue (wide s) = Nat.ofDigitChars 10 s 0 := by
  have htake : (wide s).takeWhile isDigitW = wide s := by
    apply List.takeWhile_eq_self_iff.mpr
    intro c hc
    obtain ⟨d, hd, rfl⟩ := List.mem_map.mp hc
    exact isDigitW_wide (h d hd)
  rw [digitsValue, htake]
  exact foldl_wide h 0

theorem digits_isDigit (n : Nat) : ∀ c ∈ Nat.toDigits 10 n, c.isDigit = true := by
  intro c hc
  exact Nat.isDigit_of_mem_toDigits (by decide) (by decide) hc

theorem digitsValue_digits (n : Nat) : digitsValue (wide (Nat.toDigits 10 n)) = n := by
  rw [digitsValue_wide (digits_isDigit n), Nat.ofDigitChars_ten_toDigits]

/-- A number begins with a digit. -/
theorem wide_digits_cons (n : Nat) :
    ∃ c rest, wide (Nat.toDigits 10 n) = c :: rest ∧ isDigitW c = true := by
  have hdigits := digits_isDigit n
  cases hs : Nat.toDigits 10 n with
  | nil => exact absurd hs Nat.toDigits_ne_nil
  | cons d ds =>
    rw [hs] at hdigits
    exact ⟨_, _, rfl, isDigitW_wide (hdigits d (List.mem_cons_self ..))⟩

theorem digit_not_space {c : UInt16} (h : isDigitW c = true) :
    isSpaceW c = false ∧ c ≠ 45 ∧ c ≠ 43 := by
  simp only [isDigitW, Bool.and_eq_true, decide_eq_true_eq, UInt16.le_iff_toNat_le] at h
  have h48 : (48 : UInt16).toNat = 48 := rfl
  rw [h48] at h
  refine ⟨?_, ?_, ?_⟩
  · simp only [isSpaceW, Bool.or_eq_false_iff, Bool.and_eq_false_iff, beq_eq_false_iff_ne,
      decide_eq_false_iff_not, UInt16.le_iff_toNat_le, ne_eq, ← UInt16.toNat_inj]
    have h13 : (13 : UInt16).toNat = 13 := rfl
    have h32 : (32 : UInt16).toNat = 32 := rfl
    omega
  · intro hc
    rw [hc] at h
    exact absurd h.1 (by decide)
  · intro hc
    rw [hc] at h
    exact absurd h.1 (by decide)

theorem wcstol_digits (n : Nat) :
    wcstol (wide (Nat.toDigits 10 n)) = max (-2147483648) (min 2147483647 (n : Int)) := by
  obtain ⟨c, rest, hs, hc⟩ := wide_digits_cons n
  obtain ⟨hspace, hminus, hplus⟩ := digit_not_space hc
  have hdrop : (wide (Nat.toDigits 10 n)).dropWhile isSpaceW = wide (Nat.toDigits 10 n) := by
    rw [hs, List.dropWhile_cons, if_neg (by simp [hspace])]
  have hvalue := digitsValue_digits n
  simp only [wcstol, hdrop]
  rw [hs] at hvalue ⊢
  simp [hminus, hplus, hvalue]

theorem wcstol_minus (n : Nat) :
    wcstol (45 :: wide (Nat.toDigits 10 n)) = max (-2147483648) (min 2147483647 (-(n : Int))) := by
  have hdrop : (45 :: wide (Nat.toDigits 10 n)).dropWhile isSpaceW = 45 :: wide (Nat.toDigits 10 n) := by
    rw [List.dropWhile_cons, if_neg (by decide)]
  simp only [wcstol, hdrop]
  simp [digitsValue_digits]

/-- **A number that was written is read back.** -/
theorem wcstol_formatInt {v : Int} (h : InInt32 v) : wcstol (formatInt v) = v := by
  obtain ⟨hmin, hmax⟩ := h
  cases v with
  | ofNat n =>
    rw [formatInt, wcstol_digits]
    simp only [Int.ofNat_eq_natCast] at hmin hmax ⊢
    omega
  | negSucc n =>
    rw [formatInt, wcstol_minus]
    omega

/-! ## The last call for a key -/

section LastSet

variable {κ : Type} [DecidableEq κ] {k : κ} {calls : List (SetCall κ)} {call : SetCall κ}

theorem lastSet_append (k : κ) (xs ys : List (SetCall κ)) :
    lastSet k (xs ++ ys) = (lastSet k ys).or (lastSet k xs) := by
  induction xs with
  | nil => simp [lastSet]
  | cons x xs ih =>
    rw [List.cons_append, lastSet, lastSet, ih]
    cases lastSet k ys with
    | none => rfl
    | some last => rfl

theorem lastSet_mem (h : lastSet k calls = some call) : call ∈ calls ∧ call.key = k := by
  induction calls with
  | nil => cases h
  | cons c calls ih =>
    rw [lastSet] at h
    cases hlast : lastSet k calls with
    | some last =>
      rw [hlast] at h
      cases h
      obtain ⟨hmem, hkey⟩ := ih hlast
      exact ⟨List.mem_cons_of_mem _ hmem, hkey⟩
    | none =>
      rw [hlast] at h
      dsimp only at h
      by_cases hc : c.key = k
      · rw [if_pos hc] at h
        cases h
        exact ⟨List.mem_cons_self .., hc⟩
      · rw [if_neg hc] at h
        cases h

/-- A call whose key no other has is the last one for its key. -/
theorem lastSet_of_unique (hmem : call ∈ calls) (huniq : ∀ c ∈ calls, c.key = call.key → c = call) :
    lastSet call.key calls = some call := by
  cases hlast : lastSet call.key calls with
  | some last =>
    obtain ⟨hin, hkey⟩ := lastSet_mem hlast
    rw [huniq last hin hkey]
  | none =>
    induction calls with
    | nil => cases hmem
    | cons c calls ih =>
      rw [lastSet] at hlast
      cases htail : lastSet call.key calls with
      | some last =>
        rw [htail] at hlast
        cases hlast
      | none =>
        rw [htail] at hlast
        rcases List.mem_cons.mp hmem with rfl | hin
        · rw [if_pos rfl] at hlast
          cases hlast
        · exact absurd (ih hin (fun c hc => huniq c (List.mem_cons_of_mem _ hc)) htail) (by simp)

end LastSet

/-! ## What is read back -/

theorem formatInt_ne_nil (v : Int) : formatInt v ≠ [] := by
  cases v with
  | ofNat n =>
    obtain ⟨c, rest, hs, -⟩ := wide_digits_cons n
    rw [formatInt, hs]
    intro h
    cases h
  | negSucc n =>
    intro h
    cases h

theorem formatInt_length {v : Int} (h : InInt32 v) : (formatInt v).length ≤ 11 := by
  obtain ⟨hmin, hmax⟩ := h
  cases v with
  | ofNat n =>
    have hlen := (Nat.length_toDigits_le_iff (b := 10) (n := n) (k := 10) (by decide) (by decide)).mpr
      (by simp only [Int.ofNat_eq_natCast] at hmax; omega)
    simp only [formatInt, wide, List.length_map]
    omega
  | negSucc n =>
    have hlen := (Nat.length_toDigits_le_iff (b := 10) (n := n + 1) (k := 10) (by decide)
      (by decide)).mpr (by omega)
    simp only [formatInt, wide, List.length_cons, List.length_map]
    omega

theorem digit_printable {c : UInt16} (h : isDigitW c = true) : 32 ≤ c := by
  simp only [isDigitW, Bool.and_eq_true, decide_eq_true_eq, UInt16.le_iff_toNat_le] at h
  rw [UInt16.le_iff_toNat_le]
  exact Nat.le_trans (by decide) h.1

theorem formatInt_printable (v : Int) : ∀ c ∈ formatInt v, 32 ≤ c := by
  have hdigits : ∀ n, ∀ c ∈ wide (Nat.toDigits 10 n), 32 ≤ c := by
    intro n c hc
    obtain ⟨d, hd, rfl⟩ := List.mem_map.mp hc
    exact digit_printable (isDigitW_wide (digits_isDigit n d hd))
  intro c hc
  cases v with
  | ofNat n => exact hdigits n c hc
  | negSucc n =>
    rcases List.mem_cons.mp hc with rfl | hc
    · decide
    · exact hdigits (n + 1) c hc

theorem sentinel_printable {s : WStr} (h : ∀ c ∈ s, 32 ≤ c) : s ≠ sentinel := by
  rintro rfl
  exact absurd (h 1 (List.mem_cons_self ..)) (by decide)

section Lookup

variable {κ : Type} {ini : Ini κ} {k : κ} {size : Nat}

/-- A value that fits is found, unless it is empty. -/
theorem lookup_of_eq {s : WStr} (h : ini k = some s) (hfits : s.length ≤ size - 1)
    (hprint : ∀ c ∈ s, 32 ≤ c) : lookup ini k size = if s = [] then none else some s := by
  have hbuf : getPrivateProfileString ini k sentinel size = s := by
    rw [getPrivateProfileString, h]
    exact List.take_of_length_le hfits
  have hne := sentinel_printable hprint
  simp only [lookup, hbuf]
  by_cases hs : s = []
  · simp [hs]
  · simp [hs, hne, List.length_pos_iff.mpr hs]

theorem lookup_congr {ini' : Ini κ} (h : ini k = ini' k) : lookup ini k size = lookup ini' k size := by
  unfold lookup getPrivateProfileString
  rw [h]

end Lookup

namespace Config

variable {κ : Type} [DecidableEq κ]

theorem apply_eq (c : Config κ) (call : SetCall κ) :
    c.apply call = c.setStr call.key call.text := by
  cases call with
  | setStr k val => rfl
  | setInt k val => rfl

theorem setStr_writeIni (c : Config κ) (k : κ) (val : WStr) :
    (c.setStr k val).writeIni = c.writeIni := by
  unfold setStr
  split
  · rfl
  · rfl

theorem run_writeIni (c : Config κ) (calls : List (SetCall κ)) :
    (c.run calls).writeIni = c.writeIni := by
  induction calls generalizing c with
  | nil => rfl
  | cons call calls ih =>
    have hrun : c.run (call :: calls) = (c.apply call).run calls := rfl
    rw [hrun, ih, apply_eq, setStr_writeIni]

theorem setStr_ini (c : Config κ) (k k' : κ) (val : WStr) (f : IniFile) :
    (c.setStr k val).ini f k' = if f = c.writeIni ∧ k = k' then some val else c.ini f k' := by
  unfold setStr
  cases hw : c.writeIni with
  | exeIni =>
    cases f with
    | exeIni => simp [ini, writePrivateProfileString, eq_comm]
    | userIni => simp [ini]
  | userIni =>
    cases f with
    | exeIni => simp [ini]
    | userIni => simp [ini, writePrivateProfileString, eq_comm]

/-- What a sequence of writes leaves in the files. -/
theorem run_ini (c : Config κ) (calls : List (SetCall κ)) (k : κ) (f : IniFile) :
    (c.run calls).ini f k =
      if f = c.writeIni then ((lastSet k calls).map SetCall.text).or (c.ini f k) else c.ini f k := by
  induction calls generalizing c with
  | nil => simp [run, lastSet]
  | cons call calls ih =>
    have hrun : c.run (call :: calls) = (c.apply call).run calls := rfl
    rw [hrun, ih, apply_eq, setStr_writeIni, setStr_ini]
    by_cases hf : f = c.writeIni
    · cases hlast : lastSet k calls with
      | some last => simp [hf, lastSet, hlast]
      | none =>
        by_cases hk : call.key = k
        · simp [hf, lastSet, hlast, hk]
        · simp [hf, lastSet, hlast, hk]
    · simp [hf]

theorem run_written (c : Config κ) {calls : List (SetCall κ)} {k : κ} {call : SetCall κ}
    (h : lastSet k calls = some call) : (c.run calls).ini c.writeIni k = some call.text := by
  simp [run_ini, h]

theorem run_other (c : Config κ) (calls : List (SetCall κ)) (k : κ) {f : IniFile}
    (h : f ≠ c.writeIni) : (c.run calls).ini f k = c.ini f k := by
  simp [run_ini, h]

/-- Written beside the program, the last value of a key is read back. -/
theorem getStr_run_exe {c : Config κ} {calls : List (SetCall κ)} {k : κ} {val : WStr}
    (hw : c.writeIni = .exeIni) (hlast : lastSet k calls = some (.setStr k val)) (hsafe : IniSafe val)
    (hlen : val.length ≤ 511) (hval : val ≠ [] ∨ lookup c.userIni k 512 = none) :
    (c.run calls).getStr k [] = val := by
  have hwritten := run_written c hlast
  rw [hw] at hwritten
  have hexe : lookup (c.run calls).exeIni k 512 = if val = [] then none else some val :=
    lookup_of_eq hwritten (by simpa using hlen) hsafe.printable
  have hother : IniFile.userIni ≠ c.writeIni := by
    rw [hw]
    decide
  have huser : (c.run calls).userIni k = c.userIni k := run_other c calls k hother
  unfold getStr
  rw [hexe, lookup_congr huser]
  by_cases hnil : val = []
  · have hnone : lookup c.userIni k 512 = none := hval.resolve_left (not_not.mpr hnil)
    simp [hnil, hnone]
  · simp [hnil]

theorem getInt_run_exe {profileInt : WStr → Int} {c : Config κ} {calls : List (SetCall κ)} {k : κ}
    {val : Int} (hw : c.writeIni = .exeIni) (hlast : lastSet k calls = some (.setInt k val))
    (hin : InInt32 val) (default : Int) : (c.run calls).getInt profileInt k default = val := by
  have hwritten := run_written c hlast
  rw [hw] at hwritten
  have hlen := formatInt_length hin
  have hexe : lookup (c.run calls).exeIni k 64 =
      if formatInt val = [] then none else some (formatInt val) :=
    lookup_of_eq hwritten (Nat.le_trans hlen (by decide)) (formatInt_printable val)
  unfold getInt
  rw [hexe, if_neg (formatInt_ne_nil val)]
  exact wcstol_formatInt hin

/-- **Settings read back.** Written beside the program, the last value of a key is read back, the
empty string where the file of the user has none; written to the file of the user, it is read back
unless the file beside the program, which is read first, has a value. -/
theorem reads_back {profileInt : WStr → Int}
    (hint : ∀ v, InInt32 v → profileInt (formatInt v) = v) (c : Config κ)
    (calls : List (SetCall κ)) (k : κ) :
    (∀ val, lastSet k calls = some (.setStr k val) → IniSafe val → val.length ≤ 511 →
        (c.writeIni = .exeIni → val ≠ [] ∨ lookup c.userIni k 512 = none →
            (c.run calls).getStr k [] = val) ∧
          (c.writeIni = .userIni →
            (c.run calls).getStr k [] = (lookup c.exeIni k 512).getD val)) ∧
      ∀ val default, lastSet k calls = some (.setInt k val) → InInt32 val →
        (c.writeIni = .exeIni → (c.run calls).getInt profileInt k default = val) ∧
          (c.writeIni = .userIni → (c.run calls).getInt profileInt k default =
            ((lookup c.exeIni k 64).map wcstol).getD val) := by
  constructor
  · intro val hlast hsafe hlen
    have hwritten := run_written c hlast
    constructor
    · exact fun hw hval => getStr_run_exe hw hlast hsafe hlen hval
    · intro hw
      rw [hw] at hwritten
      have huser : lookup (c.run calls).userIni k 512 = if val = [] then none else some val :=
        lookup_of_eq hwritten (by simpa using hlen) hsafe.printable
      have hother : IniFile.exeIni ≠ c.writeIni := by
        rw [hw]
        decide
      have hexe : (c.run calls).exeIni k = c.exeIni k := run_other c calls k hother
      unfold getStr
      rw [huser, lookup_congr hexe]
      cases lookup c.exeIni k 512 with
      | some e => rfl
      | none =>
        by_cases hnil : val = []
        · simp [hnil]
        · simp [hnil]
  · intro val default hlast hin
    have hwritten := run_written c hlast
    constructor
    · exact fun hw => getInt_run_exe hw hlast hin default
    · intro hw
      rw [hw] at hwritten
      have huser : (c.run calls).userIni k = some (formatInt val) := hwritten
      have hother : IniFile.exeIni ≠ c.writeIni := by
        rw [hw]
        decide
      have hexe : (c.run calls).exeIni k = c.exeIni k := run_other c calls k hother
      unfold getInt
      rw [lookup_congr hexe, huser]
      cases lookup c.exeIni k 64 with
      | some e => rfl
      | none => exact hint val hin

end Config

/-- With a read-only file beside the program that has an old value, the value written is not the
one read. -/
theorem old_value_read :
    let c : Config Unit := ⟨fun _ => some (wide "1".toList), fun _ => none, .userIni⟩
    let set := c.run [.setStr () (wide "2".toList)]
    let setInt := c.run [.setInt () 2]
    set.getStr () [] = wide "1".toList ∧ set.getStr () [] ≠ wide "2".toList ∧
      setInt.getInt wcstol () 0 = 1 := by
  decide

theorem reads_back_two :
    let c : Config Unit := ⟨fun _ => none, fun _ => some (wide "1".toList), .exeIni⟩
    (c.run [.setInt () 7, .setInt () (-2)]).getInt wcstol () 0 = -2 := by
  intro c
  have hint : ∀ v, InInt32 v → wcstol (formatInt v) = v := fun v hv => wcstol_formatInt hv
  exact ((Config.reads_back hint c _ ()).2 (-2) 0 rfl (by decide)).1 rfl

end ObZrv
