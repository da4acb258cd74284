import ObZrv.Text.Path

/-!
# Text.Unipath

Windows paths and the paths the program keeps, `/c/dir/file` for `C:\dir\file`.

* `toUnipath`        : the form kept, from the path a dialog or the shell gives.
* `localDisplayPath` : the path the list of recent files shows.
* `drivePath_survives_iff` : on which drives a path comes back from either.
-/

namespace ObZrv

/-- The separator of the form kept. -/
def slash (c : Char) : Char := if c = '\\' then '/' else c

/-- `to_unipath`; on an ASCII letter `towlower` is the lower case. -/
def toUnipath (s : Str) : Str :=
  match s with
  | [] => []
  | first :: rest =>
    -- "Already Unix style or remote path: just convert encoding"
    if first = '/' ∨ first = 'r' then s
    else
      match rest with
      | [] => s
      | second :: tail =>
        if first.isAlpha ∧ second = ':' then '/' :: first.toLower :: tail.map slash else s

/-- `LocalDisplayPath`. -/
def localDisplayPath (path : Str) : Str :=
  match path with
  | c :: drive :: sep :: rest =>
    if c = '/' ∧ sep = '/' ∧ drive.isAlpha then
      drive.toUpper :: ':' :: (sep :: rest).map backslash
    else path.map backslash
  | _ => path.map backslash

/-- An absolute path on a drive, `X:\...` or `X:/...`. -/
structure DrivePath where
  drive : Char
  sep : Char
  rest : Str
  drive_isAlpha : drive.isAlpha = true
  sep_ok : sep = '\\' ∨ sep = '/'

namespace DrivePath

def str (p : DrivePath) : Str := p.drive :: ':' :: p.sep :: p.rest

/-- The same path with an upper-case drive letter and backslashes. -/
def native (p : DrivePath) : Str := p.drive.toUpper :: ':' :: '\\' :: p.rest.map backslash

/-- The path in the form kept, `/x/...`. -/
def kept (p : DrivePath) : Str := '/' :: p.drive.toLower :: '/' :: p.rest.map slash

/-- The path is kept as `/x/...` without a backslash, and both ways back give the native path. -/
structure Survives (p : DrivePath) : Prop where
  kept : ∃ rest, toUnipath p.str = '/' :: p.drive.toLower :: '/' :: rest ∧ '\\' ∉ rest
  opened : linuxPathToWin (toUnipath p.str) = p.native
  displayed : localDisplayPath (toUnipath p.str) = p.native

end DrivePath

theorem slash_ne_backslash (c : Char) : slash c ≠ '\\' := by
  unfold slash
  split
  · decide
  · assumption

theorem backslash_slash (c : Char) : backslash (slash c) = backslash c := by
  unfold slash backslash
  by_cases hc : c = '\\'
  · simp [hc]
  · simp [hc]

theorem map_backslash_slash (s : Str) : (s.map slash).map backslash = s.map backslash := by
  rw [List.map_map]
  apply List.map_congr_left
  intro c _
  exact backslash_slash c

/-- A letter in lower case is a letter, with the same upper case. -/
theorem isAlpha_toLower {c : Char} (h : c.isAlpha = true) :
    c.toLower.isAlpha = true ∧ c.toLower.toUpper = c.toUpper := by
  have hall : c.isAlpha = true → c.toLower.isAlpha = true ∧ c.toLower.toUpper = c.toUpper :=
    ascii_induction (p := fun c => c.isAlpha = true →
      c.toLower.isAlpha = true ∧ c.toLower.toUpper = c.toUpper) (by decide) (isAlpha_ascii h)
  exact hall h

namespace DrivePath

variable (p : DrivePath)

theorem drive_ne_slash : p.drive ≠ '/' := by
  intro h
  have halpha := p.drive_isAlpha
  rw [h] at halpha
  cases halpha

theorem sep_slash : slash p.sep = '/' := by
  rcases p.sep_ok with h | h
  · rw [h]
    rfl
  · rw [h]
    rfl

theorem toUnipath_kept (h : p.drive ≠ 'r') : toUnipath p.str = p.kept := by
  simp [toUnipath, str, kept, h, p.drive_ne_slash, p.drive_isAlpha, p.sep_slash]

/-- The test for `remote://` takes every path on drive `r`. -/
theorem toUnipath_drive_r (h : p.drive = 'r') : toUnipath p.str = p.str := by
  simp [toUnipath, str, h]

theorem linuxPathToWin_kept : linuxPathToWin p.kept = p.native := by
  obtain ⟨halpha, hupper⟩ := isAlpha_toLower p.drive_isAlpha
  simp only [linuxPathToWin, kept, native, halpha, hupper]
  simp
  intro c _
  exact backslash_slash c

theorem localDisplayPath_kept : localDisplayPath p.kept = p.native := by
  obtain ⟨halpha, hupper⟩ := isAlpha_toLower p.drive_isAlpha
  simp only [localDisplayPath, kept, native, halpha, hupper, List.map_cons, map_backslash_slash]
  rfl

/-- **Windows paths survive the trip through the form kept** exactly on the drives other than a
lower-case `r`. -/
theorem drivePath_survives_iff : Survives p ↔ p.drive ≠ 'r' := by
  constructor
  · intro h hr
    obtain ⟨rest, hkept, -⟩ := h.kept
    rw [toUnipath_drive_r p hr] at hkept
    exact p.drive_ne_slash (List.cons.inj hkept).1
  · intro h
    refine ⟨⟨p.rest.map slash, ?_, ?_⟩, ?_, ?_⟩
    · exact toUnipath_kept p h
    · intro hmem
      obtain ⟨c, -, hc⟩ := List.mem_map.mp hmem
      exact slash_ne_backslash c hc
    · rw [toUnipath_kept p h]
      exact linuxPathToWin_kept p
    · rw [toUnipath_kept p h]
      exact localDisplayPath_kept p

end DrivePath

/-- `r:\pics\a.jpg` is kept as it is, and neither way back gives `R:\pics\a.jpg`. -/
theorem drive_r_fails :
    let p : DrivePath := ⟨'r', '\\', "pics\\a.jpg".toList, by decide, by decide⟩
    toUnipath p.str = "r:\\pics\\a.jpg".toList ∧
      linuxPathToWin (toUnipath p.str) = "r:\\pics\\a.jpg".toList ∧
      p.native = "R:\\pics\\a.jpg".toList ∧
      linuxPathToWin (toUnipath p.str) ≠ p.native ∧ localDisplayPath (toUnipath p.str) ≠ p.native := by
  decide

end ObZrv
