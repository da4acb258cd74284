import Mathlib.Tactic.Common

/-!
# Lib.Utf16

Text as UTF-16: a character is one unit or a pair of surrogates. A surrogate without its partner is
read as U+FFFD.

* `decodeUtf16_encodeUtf16` : text that was encoded is read back.
* `decodeUtf16_spec`        : what text any units are read as.
* `length_utf8Bytes_decodeUtf16` : the room that text takes as UTF-8.
-/

namespace Lib

/-- The units of one character. -/
def utf16Units (c : Char) : List UInt16 :=
  if c.toNat < 0x10000 then [UInt16.ofNat c.toNat]
  else
    [UInt16.ofNat (0xD800 + (c.toNat - 0x10000) / 0x400),
      UInt16.ofNat (0xDC00 + (c.toNat - 0x10000) % 0x400)]

def encodeUtf16 (s : List Char) : List UInt16 := s.flatMap utf16Units

def isHighSurrogate (u : UInt16) : Bool := 0xD800 ≤ u.toNat && u.toNat < 0xDC00
def isLowSurrogate (u : UInt16) : Bool := 0xDC00 ≤ u.toNat && u.toNat < 0xE000

/-- The character of a pair. -/
def joinSurrogates (u v : UInt16) : Char :=
  Char.ofNat (0x10000 + (u.toNat - 0xD800) * 0x400 + (v.toNat - 0xDC00))

/-- U+FFFD. -/
def replacement : Char := Char.ofNat 0xFFFD

/-- A unit that is no part of a pair. -/
def decodeUnit (u : UInt16) : Char :=
  if isHighSurrogate u || isLowSurrogate u then replacement else Char.ofNat u.toNat

def decodeUtf16 : List UInt16 → List Char
  | [] => []
  | [u] => [decodeUnit u]
  | u :: v :: rest =>
    if isHighSurrogate u && isLowSurrogate v then joinSurrogates u v :: decodeUtf16 rest
    else decodeUnit u :: decodeUtf16 (v :: rest)

/-! ## Reading back -/

section

variable {c : Char} {u v : UInt16} {rest : List UInt16}

theorem toNat_valid (c : Char) :
    c.toNat < 0xD800 ∨ (0xDFFF < c.toNat ∧ c.toNat < 0x110000) := c.valid

/-- A unit outside the surrogates stands for itself. -/
theorem decodeUtf16_single (h : isHighSurrogate u = false) (h' : isLowSurrogate u = false) :
    decodeUtf16 (u :: rest) = Char.ofNat u.toNat :: decodeUtf16 rest := by
  cases rest with
  | nil => simp [decodeUtf16, decodeUnit, h, h']
  | cons v rest => simp [decodeUtf16, decodeUnit, h, h']

theorem decodeUtf16_pair (h : isHighSurrogate u = true) (h' : isLowSurrogate v = true) :
    decodeUtf16 (u :: v :: rest) = joinSurrogates u v :: decodeUtf16 rest := by
  simp [decodeUtf16, h, h']

theorem decodeUtf16_units (c : Char) (rest : List UInt16) :
    decodeUtf16 (utf16Units c ++ rest) = c :: decodeUtf16 rest := by
  have hvalid := toNat_valid c
  unfold utf16Units
  by_cases hsmall : c.toNat < 0x10000
  · have hu : (UInt16.ofNat c.toNat).toNat = c.toNat := by
      rw [UInt16.toNat_ofNat']
      omega
    rw [if_pos hsmall, List.singleton_append, decodeUtf16_single, hu, Char.ofNat_toNat]
    · simp only [isHighSurrogate, hu, Bool.and_eq_false_iff, decide_eq_false_iff_not]
      omega
    · simp only [isLowSurrogate, hu, Bool.and_eq_false_iff, decide_eq_false_iff_not]
      omega
  · have hhigh : (UInt16.ofNat (0xD800 + (c.toNat - 0x10000) / 0x400)).toNat =
        0xD800 + (c.toNat - 0x10000) / 0x400 := by
      rw [UInt16.toNat_ofNat']
      omega
    have hlow : (UInt16.ofNat (0xDC00 + (c.toNat - 0x10000) % 0x400)).toNat =
        0xDC00 + (c.toNat - 0x10000) % 0x400 := by
      rw [UInt16.toNat_ofNat']
      omega
    rw [if_neg hsmall, List.cons_append, List.singleton_append, decodeUtf16_pair]
    · have hjoin : 0x10000 + (0xD800 + (c.toNat - 0x10000) / 0x400 - 0xD800) * 0x400 +
          (0xDC00 + (c.toNat - 0x10000) % 0x400 - 0xDC00) = c.toNat := by
        omega
      rw [joinSurrogates, hhigh, hlow, hjoin, Char.ofNat_toNat]
    · simp only [isHighSurrogate, hhigh, Bool.and_eq_true, decide_eq_true_eq]
      omega
    · simp only [isLowSurrogate, hlow, Bool.and_eq_true, decide_eq_true_eq]
      omega

/-- **Text that was encoded is read back.** -/
theorem decodeUtf16_encodeUtf16 (s : List Char) : decodeUtf16 (encodeUtf16 s) = s := by
  induction s with
  | nil => rfl
  | cons c s ih => rw [encodeUtf16, List.flatMap_cons, decodeUtf16_units, ← encodeUtf16, ih]

/-- Only NUL has a unit that is zero. -/
theorem zero_not_mem_encodeUtf16 {s : List Char} (h : '\x00' ∉ s) : 0 ∉ encodeUtf16 s := by
  intro hmem
  obtain ⟨c, hc, hu⟩ := List.mem_flatMap.mp hmem
  have hvalid := toNat_valid c
  have hne : c.toNat ≠ 0 := by
    intro h0
    have hnul : c = '\x00' := by
      rw [← Char.ofNat_toNat c, h0]
    exact h (hnul ▸ hc)
  unfold utf16Units at hu
  split at hu
  · have heq := congrArg UInt16.toNat (List.mem_singleton.mp hu)
    rw [UInt16.toNat_ofNat', UInt16.toNat_zero] at heq
    omega
  · rcases List.mem_cons.mp hu with heq | heq
    · have heq := congrArg UInt16.toNat heq
      rw [UInt16.toNat_ofNat', UInt16.toNat_zero] at heq
      omega
    · have heq := congrArg UInt16.toNat (List.mem_singleton.mp heq)
      rw [UInt16.toNat_ofNat', UInt16.toNat_zero] at heq
      omega

theorem toNat_ofNat_of_valid {n : Nat} (h : n < 0xD800 ∨ (0xDFFF < n ∧ n < 0x110000)) :
    (Char.ofNat n).toNat = n := by
  have hv : n.isValidChar := h
  rw [Char.ofNat, dif_pos hv]
  rfl

/-- The character of a unit is a unit again, and NUL for the zero unit only. -/
theorem decodeUnit_toNat (u : UInt16) :
    (decodeUnit u).toNat < 0x10000 ∧ ((decodeUnit u).toNat = 0 → u = 0) := by
  have hlt := u.toNat_lt
  unfold decodeUnit
  split
  · exact ⟨by decide, fun h => absurd h (by decide)⟩
  · rename_i hsur
    simp only [isHighSurrogate, isLowSurrogate, Bool.or_eq_true, Bool.and_eq_true,
      decide_eq_true_eq] at hsur
    have hval := toNat_ofNat_of_valid (n := u.toNat) (by omega)
    rw [hval]
    exact ⟨hlt, fun h => UInt16.toNat_inj.mp h⟩

theorem joinSurrogates_toNat (h : isHighSurrogate u = true) (h' : isLowSurrogate v = true) :
    0x10000 ≤ (joinSurrogates u v).toNat := by
  simp only [isHighSurrogate, isLowSurrogate, Bool.and_eq_true, decide_eq_true_eq] at h h'
  rw [joinSurrogates, toNat_ofNat_of_valid (by omega)]
  omega

/-- Units without a zero have no NUL, and their text takes no more units. -/
theorem decodeUtf16_spec (us : List UInt16) :
    (0 ∉ us → '\x00' ∉ decodeUtf16 us) ∧ (encodeUtf16 (decodeUtf16 us)).length ≤ us.length := by
  have hunit : ∀ u : UInt16, (utf16Units (decodeUnit u)).length = 1 := by
    intro u
    rw [utf16Units, if_pos (decodeUnit_toNat u).1]
    rfl
  have hnul : ∀ u : UInt16, '\x00' = decodeUnit u → u = 0 := by
    intro u hu
    refine (decodeUnit_toNat u).2 ?_
    rw [← hu]
    rfl
  induction us using decodeUtf16.induct with
  | case1 => exact ⟨fun _ => List.not_mem_nil, Nat.le_refl _⟩
  | case2 u =>
    refine ⟨?_, ?_⟩
    · intro h0 hmem
      rw [decodeUtf16, List.mem_singleton] at hmem
      exact h0 (List.mem_singleton.mpr (hnul u hmem).symm)
    · rw [decodeUtf16, encodeUtf16, List.flatMap_singleton, hunit]
      exact Nat.le_refl _
  | case3 u v rest hpair ih =>
    have hj := joinSurrogates_toNat (Bool.and_eq_true_iff.mp hpair).1 (Bool.and_eq_true_iff.mp hpair).2
    rw [decodeUtf16, if_pos hpair]
    refine ⟨?_, ?_⟩
    · intro h0 hmem
      rcases List.mem_cons.mp hmem with heq | hmem
      · rw [← heq] at hj
        exact absurd hj (by decide)
      · refine ih.1 (fun hc => h0 ?_) hmem
        exact List.mem_cons_of_mem _ (List.mem_cons_of_mem _ hc)
    · have hlen : (utf16Units (joinSurrogates u v)).length = 2 := by
        rw [utf16Units, if_neg (by omega)]
        rfl
      have hrest := ih.2
      rw [encodeUtf16] at hrest ⊢
      rw [List.flatMap_cons, List.length_append, hlen, List.length_cons, List.length_cons]
      omega
  | case4 u v rest hpair ih =>
    rw [decodeUtf16, if_neg hpair]
    refine ⟨?_, ?_⟩
    · intro h0 hmem
      rcases List.mem_cons.mp hmem with heq | hmem
      · exact h0 (List.mem_cons.mpr (.inl (hnul u heq).symm))
      · exact ih.1 (fun hc => h0 (List.mem_cons_of_mem _ hc)) hmem
    · have hrest := ih.2
      rw [encodeUtf16] at hrest ⊢
      rw [List.flatMap_cons, List.length_append, hunit, List.length_cons]
      omega

end

/-! ## UTF-8 -/

/-- Text as UTF-8. -/
def utf8Bytes (s : List Char) : List UInt8 := s.flatMap String.utf8EncodeChar

theorem utf8Size_le_three {c : Char} (h : c.toNat < 0x10000) : c.utf8Size ≤ 3 := by
  have hpos := Char.utf8Size_eq c
  by_contra hlarge
  have hfour := Char.utf8Size_eq_four_iff.mp (by omega : c.utf8Size = 4)
  have hlt : (0xffff : UInt32).toNat < c.val.toNat := UInt32.lt_iff_toNat_lt.mp hfour
  have hval : c.val.toNat = c.toNat := rfl
  have hbound : (0xffff : UInt32).toNat = 65535 := rfl
  omega

/-- A unit takes three bytes at most. -/
theorem length_utf8Bytes_decodeUtf16 (us : List UInt16) :
    (utf8Bytes (decodeUtf16 us)).length ≤ 3 * us.length := by
  have hunit : ∀ u, (String.utf8EncodeChar (decodeUnit u)).length ≤ 3 := by
    intro u
    rw [String.length_utf8EncodeChar]
    exact utf8Size_le_three (decodeUnit_toNat u).1
  induction us using decodeUtf16.induct with
  | case1 => exact Nat.le_refl _
  | case2 u =>
    rw [decodeUtf16, utf8Bytes, List.flatMap_singleton]
    exact hunit u
  | case3 u v rest hpair ih =>
    have hjoin := Char.utf8Size_le_four (joinSurrogates u v)
    rw [utf8Bytes] at ih ⊢
    rw [decodeUtf16, if_pos hpair, List.flatMap_cons, List.length_append,
      String.length_utf8EncodeChar, List.length_cons, List.length_cons]
    omega
  | case4 u v rest hpair ih =>
    have hu := hunit u
    rw [utf8Bytes] at ih ⊢
    rw [decodeUtf16, if_neg hpair, List.flatMap_cons, List.length_append, List.length_cons]
    omega

end Lib
