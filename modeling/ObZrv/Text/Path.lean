/-!
# Text.Path

File paths as text. The program keeps them as UTF-8 in `std::string` and as UTF-16 in
`std::wstring` and converts between the two; on valid strings the conversions lose nothing, so
both are a list of characters here.

* `linuxPathToWin` : the native path that `WinFs` opens.
* `shellDeletePath` : the native path that the local branch of `Doc::removeCurrentFile` hands to
  the shell.
* `shellDeletePath_ne_linuxPathToWin` : the two never agree on a drive.
-/

namespace ObZrv

/-- A valid string without a NUL. -/
abbrev Str := List Char

def joinPath (dir name : Str) : Str := dir ++ '/' :: name

/-- What follows the last `c`, as `strrchr(s, c) + 1`; `none` if there is no `c`. -/
def afterLast (c : Char) : Str → Option Str
  | [] => none
  | x :: xs =>
    match afterLast c xs with
    | some t => some t
    | none => if x = c then some xs else none

/-- The file name of a path: what follows the last slash. -/
def fileNameOf (path : Str) : Str := (afterLast '/' path).getD path

/-- The directory part as `updateDir` cuts it: what comes before the last slash. -/
def dirOf (path : Str) : Str :=
  match afterLast '/' path with
  | some name => path.take (path.length - name.length - 1)
  | none => ['.']

/-- `getExt`: the extension in lower case, without the dot. -/
def getExt (path : Str) : Str :=
  match afterLast '.' (fileNameOf path) with
  | some ext => ext.map Char.toLower
  | none => []

def linuxPathToWin (path : Str) : Str :=
  match path with
  | [] => []
  | first :: rest =>
    if first ≠ '/' then path
    else
      match rest with
      | [] => []
      | drive :: rest =>
        if ¬ drive.isAlpha then path
        else
          match rest with
          | [] => [drive.toUpper, ':', '\\']
          | c :: _ =>
            if c ≠ '/' then path
            else drive.toUpper :: ':' :: rest.map fun c => if c = '/' then '\\' else c

/-- The path `Doc::removeCurrentFile` builds for `SHFileOperationW`. -/
def shellDeletePath (dir name : Str) : Str :=
  dir.map (fun c => if c = '/' then '\\' else c) ++ '\\' :: name

/-! ## Cutting a path -/

theorem afterLast_eq_none_iff {c : Char} {s : Str} : afterLast c s = none ↔ c ∉ s := by
  induction s with
  | nil => simp [afterLast]
  | cons x xs ih =>
    rw [afterLast]
    cases h : afterLast c xs with
    | none =>
      have hx := ih.mp h
      by_cases hxc : x = c
      · simp [hxc]
      · simp [hxc, hx, Ne.symm hxc]
    | some t =>
      have hx : c ∈ xs := by
        refine Decidable.not_not.mp fun hn => ?_
        rw [ih.mpr hn] at h
        cases h
      simp [hx]

theorem afterLast_append {c : Char} {s t : Str} (h : c ∉ t) : afterLast c (s ++ c :: t) = some t := by
  induction s with
  | nil => simp [afterLast, afterLast_eq_none_iff.mpr h]
  | cons x xs ih => simp [afterLast, ih]

theorem afterLast_eq_some {c : Char} {s t : Str} (h : afterLast c s = some t) :
    c ∉ t ∧ ∃ r, s = r ++ c :: t := by
  induction s with
  | nil => cases h
  | cons x xs ih =>
    rw [afterLast] at h
    cases hx : afterLast c xs with
    | none =>
      rw [hx] at h
      simp only [Option.ite_none_right_eq_some, Option.some.injEq] at h
      obtain ⟨rfl, rfl⟩ := h
      exact ⟨afterLast_eq_none_iff.mp hx, [], rfl⟩
    | some u =>
      rw [hx] at h
      obtain rfl := Option.some.inj h
      obtain ⟨hu, r, rfl⟩ := ih hx
      exact ⟨hu, x :: r, rfl⟩

@[simp] theorem fileNameOf_joinPath {dir name : Str} (h : '/' ∉ name) :
    fileNameOf (joinPath dir name) = name := by
  rw [fileNameOf, joinPath, afterLast_append h, Option.getD_some]

@[simp] theorem dirOf_joinPath {dir name : Str} (h : '/' ∉ name) :
    dirOf (joinPath dir name) = dir := by
  have hlen : (dir ++ '/' :: name).length - name.length - 1 = dir.length := by
    simp only [List.length_append, List.length_cons]
    omega
  simp only [dirOf, joinPath, afterLast_append h, hlen, List.take_left']

/-- A path with a slash is its directory joined with its name. -/
theorem joinPath_dirOf_fileNameOf {path : Str} (h : '/' ∈ path) :
    joinPath (dirOf path) (fileNameOf path) = path ∧ '/' ∉ fileNameOf path := by
  cases hs : afterLast '/' path with
  | none => exact absurd h (afterLast_eq_none_iff.mp hs)
  | some name =>
    obtain ⟨hn, dir, rfl⟩ := afterLast_eq_some hs
    have hd : dirOf (joinPath dir name) = dir := dirOf_joinPath hn
    have hf : fileNameOf (joinPath dir name) = name := fileNameOf_joinPath hn
    rw [← joinPath, hd, hf]
    exact ⟨rfl, hn⟩

/-! ## Names up to letter case -/

/-- How the file system of the machine folds letters; on ASCII it is the lower case. -/
structure LetterCase where
  fold : Char → Char
  fold_ascii : ∀ c : Char, c.toNat < 128 → fold c = c.toLower

def LetterCase.Same (lc : LetterCase) (a b : Str) : Prop := a.map lc.fold = b.map lc.fold

/-- A drive-style directory, `/x` or `/x/...`. -/
structure DriveDir where
  drive : Char
  rest : Str
  drive_isAlpha : drive.isAlpha = true
  rest_slash : rest = [] ∨ ∃ tail, rest = '/' :: tail

def DriveDir.str (d : DriveDir) : Str := '/' :: d.drive :: d.rest

/-- The file opened for a name in a drive-style directory: `X:\...\name`. -/
theorem linuxPathToWin_drive (d : DriveDir) (name : Str) :
    linuxPathToWin (joinPath d.str name) =
      d.drive.toUpper :: ':' ::
        (d.rest ++ '/' :: name).map fun c => if c = '/' then '\\' else c := by
  obtain ⟨drive, rest, hdrive, rfl | ⟨tail, rfl⟩⟩ := d
  · simp [joinPath, DriveDir.str, linuxPathToWin, hdrive]
  · simp [joinPath, DriveDir.str, linuxPathToWin, hdrive]

theorem ascii_induction {p : Char → Prop} (h : ∀ n < 128, p (Char.ofNat n)) {c : Char}
    (hc : c.toNat < 128) : p c := by
  have := h c.toNat hc
  rwa [Char.ofNat_toNat] at this

theorem isAlpha_ascii {c : Char} (h : c.isAlpha = true) : c.toNat < 128 := by
  have hcases : (decide (c.val ≥ 'A'.val ∧ c.val ≤ 'Z'.val) ||
      (decide (c.val ≥ 'a'.val) && decide (c.val ≤ 'z'.val))) = true := h
  simp only [Bool.or_eq_true, Bool.and_eq_true, decide_eq_true_eq] at hcases
  rcases hcases with h | h
  · exact Nat.lt_of_le_of_lt (UInt32.le_iff_toNat_le.mp h.2) (by decide)
  · exact Nat.lt_of_le_of_lt (UInt32.le_iff_toNat_le.mp h.2) (by decide)

/-- Characters with one lower case fold to one character. -/
theorem LetterCase.fold_eq_of_toLower (lc : LetterCase) {a b : Char}
    (h : a.toLower.toLower = b.toLower) : lc.fold a = lc.fold b := by
  have hascii : ∀ {c : Char}, c.toNat < 128 → c.toLower.toNat < 128 ∧ c.toLower.toLower = c.toLower :=
    fun hc => ascii_induction (p := fun c => c.toLower.toNat < 128 ∧ c.toLower.toLower = c.toLower)
      (by decide) hc
  have hother : ∀ {c : Char}, ¬ c.toNat < 128 → c.toLower = c := by
    intro c hc
    refine dif_neg fun hup => hc ?_
    have hle : c.toNat ≤ 90 := UInt32.le_iff_toNat_le.mp hup.2
    omega
  by_cases ha : a.toNat < 128
  · obtain ⟨halow, haidem⟩ := hascii ha
    by_cases hb : b.toNat < 128
    · rw [lc.fold_ascii a ha, lc.fold_ascii b hb, ← haidem, h]
    · rw [haidem, hother hb] at h
      exact absurd (h ▸ halow) hb
  · rw [hother ha, hother ha] at h
    by_cases hb : b.toNat < 128
    · exact absurd (h ▸ (hascii hb).1) ha
    · rw [h, hother hb]

/-- No letter folds to a backslash. -/
theorem LetterCase.fold_toUpper_ne (lc : LetterCase) {c : Char} (h : c.isAlpha = true) :
    lc.fold c.toUpper ≠ lc.fold '\\' := by
  have hletter : c.isAlpha = true → c.toUpper.toNat < 128 ∧ c.toUpper.toLower ≠ '\\' :=
    ascii_induction (p := fun c => c.isAlpha = true → c.toUpper.toNat < 128 ∧
      c.toUpper.toLower ≠ '\\') (by decide) (isAlpha_ascii h)
  obtain ⟨hascii, hne⟩ := hletter h
  rw [lc.fold_ascii _ hascii, lc.fold_ascii '\\' (by decide)]
  exact hne

/-- **The local branch of `removeCurrentFile` never names the file that was opened**: on every
drive and for every name it builds `\x\...\name`, while `WinFs` opens `X:\...\name`. -/
theorem shellDeletePath_ne_linuxPathToWin (lc : LetterCase) (d : DriveDir) (name : Str) :
    ¬ lc.Same (shellDeletePath d.str name) (linuxPathToWin (joinPath d.str name)) := by
  intro h
  rw [linuxPathToWin_drive] at h
  simp only [LetterCase.Same, shellDeletePath, DriveDir.str, List.map_cons, List.cons_append,
    if_true, List.cons.injEq] at h
  exact lc.fold_toUpper_ne d.drive_isAlpha h.1.symm

/-- `C:\pics\a.jpg` is opened, `\c\pics\a.jpg` is deleted. -/
theorem shellDeletePath_pics :
    let lc : LetterCase := ⟨Char.toLower, fun _ _ => rfl⟩
    let dir := "/c/pics".toList
    let name := "a.jpg".toList
    shellDeletePath dir name = "\\c\\pics\\a.jpg".toList ∧
      linuxPathToWin (joinPath dir name) = "C:\\pics\\a.jpg".toList ∧
      ¬ lc.Same (shellDeletePath dir name) (linuxPathToWin (joinPath dir name)) := by
  refine ⟨by decide, by decide, ?_⟩
  unfold LetterCase.Same
  decide

/-! ## Native paths -/

def Rooted (path : Str) : Prop := path.head? = some '/'

instance (path : Str) : Decidable (Rooted path) := inferInstanceAs (Decidable (_ = _))

theorem Rooted.slash_mem {path : Str} (h : Rooted path) : '/' ∈ path := List.mem_of_head? h

theorem rooted_joinPath {dir : Str} (h : dir ≠ [] → Rooted dir) (name : Str) :
    Rooted (joinPath dir name) := by
  cases dir with
  | nil => rfl
  | cons c cs => exact h nofun

theorem Rooted.dirOf {path : Str} (h : Rooted path) (hne : dirOf path ≠ []) :
    Rooted (dirOf path) := by
  obtain ⟨hjoin, -⟩ := joinPath_dirOf_fileNameOf h.slash_mem
  cases hd : ObZrv.dirOf path with
  | nil => exact absurd hd hne
  | cons c cs =>
    rw [Rooted, ← hjoin, hd] at h
    exact h

/-- A separator as Windows reads it. -/
def backslash (c : Char) : Char := if c = '/' then '\\' else c

/-- Two native paths name the same file: letters are folded and both separators are read alike. -/
def LetterCase.SameNative (lc : LetterCase) (a b : Str) : Prop :=
  (a.map lc.fold).map backslash = (b.map lc.fold).map backslash

theorem LetterCase.Same.native {lc : LetterCase} {a b : Str} (h : lc.Same a b) :
    lc.SameNative a b := congrArg (List.map backslash) h

theorem shellDeletePath_native (lc : LetterCase) (dir name : Str) :
    lc.SameNative (shellDeletePath dir name) (joinPath dir name) := by
  have hslash : lc.fold '/' = '/' := lc.fold_ascii '/' (by decide)
  have hback : lc.fold '\\' = '\\' := lc.fold_ascii '\\' (by decide)
  have hsep : ∀ c, backslash (lc.fold (if c = '/' then '\\' else c)) = backslash (lc.fold c) := by
    intro c
    split
    · rename_i hc
      rw [hc, hslash, hback]
      rfl
    · rfl
  simp only [LetterCase.SameNative, shellDeletePath, joinPath, List.map_append, List.map_cons,
    List.map_map, hslash, hback]
  congr 1
  exact List.map_congr_left fun c _ => hsep c

/-- A path from the root names the file that is opened for it just when it is opened as it stands,
that is when it does not begin with a drive. -/
theorem sameNative_linuxPathToWin_iff (lc : LetterCase) {path : Str} (h : Rooted path) :
    lc.SameNative path (linuxPathToWin path) ↔ linuxPathToWin path = path := by
  refine ⟨fun hsame => ?_, fun heq => by rw [heq]; rfl⟩
  -- otherwise the native path is empty or begins with the letter of the drive
  have hslash : lc.fold '/' = '/' := lc.fold_ascii '/' (by decide)
  have hletter : ∀ {c : Char}, c.isAlpha = true → '\\' ≠ backslash (lc.fold c.toUpper) := by
    intro c hc
    have hup : c.toUpper.toNat < 128 ∧ '\\' ≠ backslash c.toUpper.toLower :=
      ascii_induction (p := fun c => c.isAlpha = true →
        c.toUpper.toNat < 128 ∧ '\\' ≠ backslash c.toUpper.toLower) (by decide) (isAlpha_ascii hc) hc
    rw [lc.fold_ascii _ hup.1]
    exact hup.2
  obtain ⟨tail, rfl⟩ : ∃ tail, path = '/' :: tail := by
    cases path with
    | nil => cases h
    | cons c cs => exact ⟨cs, by rw [Option.some.inj h]⟩
  have hhead : ('/' :: tail).map lc.fold = '/' :: tail.map lc.fold := by rw [List.map_cons, hslash]
  rw [LetterCase.SameNative, hhead] at hsame
  cases tail with
  | nil => cases hsame
  | cons drive rest =>
    by_cases hdrive : drive.isAlpha = true
    · cases rest with
      | nil =>
        simp only [linuxPathToWin, hdrive, ne_eq, not_true_eq_false, if_false, List.map_cons,
          List.cons.injEq] at hsame
        exact absurd hsame.1 (hletter hdrive)
      | cons c cs =>
        by_cases hc : c = '/'
        · simp only [linuxPathToWin, hdrive, hc, ne_eq, not_true_eq_false, if_false, List.map_cons,
            List.cons.injEq] at hsame
          exact absurd hsame.1 (hletter hdrive)
        · simp only [linuxPathToWin, hdrive, hc, ne_eq, not_true_eq_false, not_false_eq_true,
            if_false, if_true]
    · simp [linuxPathToWin, hdrive]

end ObZrv
