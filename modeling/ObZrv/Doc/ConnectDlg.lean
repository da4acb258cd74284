import ObZrv.Doc.Env

/-!
# Doc.ConnectDlg

The browser of the connection dialog: how it joins and splits the paths of the server, and what
`Doc` does with a path it returns.

* `dirFromPath`, `entryPath`, `upPath` : the paths the dialog makes.
* `pathsAgree_iff` : in which directories these and `updateDir` agree.
-/

namespace ObZrv

/-- `DirFromPath`; `none` is the null pointer. -/
def dirFromPath (path : Option Str) : Str :=
  match path with
  | none => ['/']
  | some path =>
    match afterLast '/' path with
    | none => ['/']
    | some name =>
      let pos := path.length - name.length - 1
      if pos = 0 then ['/'] else path.take pos

/-- The path of an entry of the directory shown. -/
def entryPath (cwd name : Str) : Str := if cwd = ['/'] then '/' :: name else cwd ++ '/' :: name

/-- The directory the button `Up` goes to; without a slash `substr(0, npos)` is the whole string. -/
def upPath (cwd : Str) : Str :=
  match afterLast '/' cwd with
  | none => cwd
  | some name =>
    let pos := cwd.length - name.length - 1
    if pos = 0 then ['/'] else cwd.take pos

structure DlgEntry where
  name : Str
  is_dir : Bool
deriving DecidableEq, Repr

structure ConnectDlg where
  cwd : Str := ['/']
  result : Str := []
  entries : List DlgEntry := []

/-- What the dialog calls: the listings of the server, the types of the codecs and the order of the
entries. -/
structure DlgEnv (W : Type) where
  readdir : Str → W → Option (List DlgEntry) × W
  isSupportedExt : Str → Bool
  sort : List DlgEntry → List DlgEntry

namespace ConnectDlg

variable {W : Type} (env : DlgEnv W) (dlg : ConnectDlg)

/-- The entries that are listed: directories, and files of a type that can be shown. -/
def listedEntry (e : DlgEntry) : Bool :=
  e.name != ".".toList && e.name != "..".toList &&
    (e.is_dir || getExt e.name != [] && env.isSupportedExt (getExt e.name))

def navigate (dir : Str) (w : W) : ConnectDlg × W :=
  match env.readdir dir w with
  | (none, w) => (dlg, w)
  | (some entries, w) =>
    ({ dlg with cwd := dir, entries := env.sort (entries.filter (listedEntry env)) }, w)

/-- `TryOpenSelected`; a file ends the dialog with its path. -/
def tryOpenSelected (sel : Int) (w : W) : ConnectDlg × W :=
  if sel < 0 ∨ sel ≥ dlg.entries.length then (dlg, w)
  else
    let e := dlg.entries.getD sel.toNat ⟨[], false⟩
    if e.is_dir then dlg.navigate env (entryPath dlg.cwd e.name) w
    else ({ dlg with result := entryPath dlg.cwd e.name }, w)

/-- The button `Up`. -/
def up (w : W) : ConnectDlg × W :=
  if dlg.cwd = ['/'] then (dlg, w) else dlg.navigate env (upPath dlg.cwd) w

end ConnectDlg

/-- An absolute directory without a trailing slash, or the root. -/
structure AbsDir where
  str : Str
  rooted : Rooted str
  normal : str = ['/'] ∨ str.getLast? ≠ some '/'

structure EntryName where
  str : Str
  ne_nil : str ≠ []
  no_slash : '/' ∉ str

/-- A file system that answers `listed` and records the directories it is asked for. -/
def recorder (listed : Str → Option (List FsEntry)) : Env (List Str) Unit Unit where
  openfile _ _ w := (some (), w)
  lastStatus _ _ := STATUS_ERR_NOT_FOUND
  reconnect _ w := (false, w)
  readdir _ dir w := (listed dir, w ++ [dir])
  removefile _ _ w := (0, w)
  shFileOperation _ _ w := (.done, w)
  zDataFile f := f
  seek _ w := w
  codecs := [⟨["png".toList], fun _ w => (.image (), w)⟩]
  filetype _ w := ("UNK".toList, w)
  getTickCount w := (0, w)
  ops := ⟨fun _ => 1, fun _ => 0, fun _ => 0, fun img _ => (.OK, img)⟩
  strCmpLogicalW a b := if a = b then 0 else if a < b then -1 else 1
  sort l := l
  sort_perm l := .refl l

/-- Joining and splitting agree on the path of an entry of a directory. -/
structure PathsAgree (d n : Str) : Prop where
  /-- A file that is opened gets that path. -/
  opened : ∀ {W : Type} (env : DlgEnv W) (dlg : ConnectDlg) (sel : Nat) (w : W), dlg.cwd = d →
    dlg.entries[sel]? = some ⟨n, false⟩ → (dlg.tryOpenSelected env sel w).1.result = entryPath d n
  dir : dirFromPath (some (entryPath d n)) = d
  /-- `Up` leads back from a directory that was entered, if both can be listed. -/
  up : ∀ {W : Type} (env : DlgEnv W) (dlg : ConnectDlg) (sel : Nat) (w w₁ w₂ : W) es es',
    dlg.cwd = d → dlg.entries[sel]? = some ⟨n, true⟩ →
    env.readdir (entryPath d n) w = (some es, w₁) → env.readdir d w₁ = (some es', w₂) →
    let entered := dlg.tryOpenSelected env sel w
    entered.1.cwd = entryPath d n ∧ (entered.1.up env entered.2).1.cwd = d
  /-- `updateDir` asks for the directory. -/
  listed : ∀ fs listed, (updateDir (recorder listed) fs (entryPath d n) []).2 = [d]
  /-- The path made again from `_dir` is the same. -/
  rebuilt : ∀ {W F I : Type} (env : Env W F I) fs w l,
    (updateDir env fs (entryPath d n) w).1 = some l → joinPath l.dir n = entryPath d n

section

variable (d : AbsDir) (n : EntryName)

theorem AbsDir.ne_nil : d.str ≠ [] := by
  intro h
  have hr := d.rooted
  rw [Rooted, h] at hr
  cases hr

theorem entryPath_root {d n : Str} (h : d = ['/']) : entryPath d n = joinPath [] n := by
  simp [entryPath, h, joinPath]

theorem entryPath_other {d n : Str} (h : d ≠ ['/']) : entryPath d n = joinPath d n := by
  simp [entryPath, h, joinPath]

/-- The path of an entry cut at its last slash. -/
theorem afterLast_entryPath :
    afterLast '/' (entryPath d.str n.str) = some n.str ∧
      (entryPath d.str n.str).length - n.str.length - 1 = (if d.str = ['/'] then 0 else d.str.length) := by
  by_cases h : d.str = ['/']
  · rw [entryPath_root h, if_pos h]
    refine ⟨afterLast_append n.no_slash, ?_⟩
    simp [joinPath]
  · rw [entryPath_other h, if_neg h]
    refine ⟨afterLast_append n.no_slash, ?_⟩
    simp only [joinPath, List.length_append, List.length_cons]
    omega

/-- Both ways the dialog goes to the directory of an entry. -/
theorem dirFromPath_entryPath : dirFromPath (some (entryPath d.str n.str)) = d.str := by
  obtain ⟨hname, hpos⟩ := afterLast_entryPath d n
  simp only [dirFromPath, hname, hpos]
  by_cases h : d.str = ['/']
  · simp [h]
  · have hlen := List.length_pos_iff.mpr d.ne_nil
    rw [if_neg h, if_neg (by omega), entryPath_other h]
    exact List.take_left' rfl

theorem upPath_entryPath : upPath (entryPath d.str n.str) = d.str := by
  obtain ⟨hname, hpos⟩ := afterLast_entryPath d n
  have hdir := dirFromPath_entryPath d n
  simp only [dirFromPath, hname, hpos] at hdir
  simp only [upPath, hname, hpos]
  exact hdir

theorem entryPath_ne_root : entryPath d.str n.str ≠ ['/'] := by
  intro h
  have hname := (afterLast_entryPath d n).1
  rw [h] at hname
  exact n.ne_nil (Option.some.inj hname).symm

/-- At the root `updateDir` has the empty string for the directory. -/
theorem dirOf_entryPath : dirOf (entryPath d.str n.str) = if d.str = ['/'] then [] else d.str := by
  by_cases h : d.str = ['/']
  · rw [entryPath_root h, if_pos h]
    exact dirOf_joinPath n.no_slash
  · rw [entryPath_other h, if_neg h]
    exact dirOf_joinPath n.no_slash

theorem fileNameOf_entryPath : fileNameOf (entryPath d.str n.str) = n.str := by
  rw [fileNameOf, (afterLast_entryPath d n).1]
  rfl

theorem joinPath_dirOf_entryPath :
    joinPath (dirOf (entryPath d.str n.str)) n.str = entryPath d.str n.str := by
  rw [dirOf_entryPath]
  by_cases h : d.str = ['/']
  · rw [if_pos h, entryPath_root h]
  · rw [if_neg h, entryPath_other h]

/-- The one listing `updateDir` asks for. -/
theorem updateDir_recorded (fs : UniFs) (listed : Str → Option (List FsEntry)) {path : Str}
    (h : fileNameOf path ≠ []) : (updateDir (recorder listed) fs path []).2 = [dirOf path] := by
  simp only [updateDir, h, if_false, recorder]
  cases listed (dirOf path) with
  | none => rfl
  | some entries => rfl

theorem updateDir_dir {W F I : Type} {env : Env W F I} {fs : UniFs} {path : Str} {w : W} {l : Listing}
    (h : fileNameOf path ≠ []) (hl : (updateDir env fs path w).1 = some l) : l.dir = dirOf path := by
  simp only [updateDir, h, if_false] at hl
  cases hread : env.readdir fs (dirOf path) w with
  | mk entries w' =>
    rw [hread] at hl
    cases entries with
    | none => cases hl
    | some entries =>
      obtain rfl := Option.some.inj hl
      rfl

theorem tryOpenSelected_eq {W : Type} (env : DlgEnv W) {dlg : ConnectDlg} {sel : Nat} {e : DlgEntry}
    (w : W) (h : dlg.entries[sel]? = some e) :
    dlg.tryOpenSelected env sel w =
      if e.is_dir then dlg.navigate env (entryPath dlg.cwd e.name) w
      else ({ dlg with result := entryPath dlg.cwd e.name }, w) := by
  obtain ⟨hlt, rfl⟩ := List.getElem?_eq_some_iff.mp h
  have hin : ¬ ((sel : Int) < 0 ∨ (sel : Int) ≥ dlg.entries.length) := by omega
  unfold ConnectDlg.tryOpenSelected
  rw [if_neg hin]
  simp only [Int.toNat_natCast, ← List.getElem_eq_getD (h := hlt)]

/-- **Joining and splitting agree** in every directory but the root: there the dialog opens `/n`,
and `updateDir` asks for the listing of the empty string. -/
theorem pathsAgree_iff : PathsAgree d.str n.str ↔ d.str ≠ ['/'] := by
  have hname : fileNameOf (entryPath d.str n.str) ≠ [] := by
    rw [fileNameOf_entryPath]
    exact n.ne_nil
  constructor
  · intro h hroot
    have hlisted := h.listed ⟨true, 0⟩ (fun _ => none)
    rw [updateDir_recorded _ _ hname, dirOf_entryPath, if_pos hroot, hroot] at hlisted
    cases hlisted
  · intro h
    constructor
    · intro W env dlg sel w hcwd hsel
      rw [tryOpenSelected_eq env w hsel, hcwd]
      rfl
    · exact dirFromPath_entryPath d n
    · intro W env dlg sel w w₁ w₂ es es' hcwd hsel henter hback entered
      have hentered : entered = ({ dlg with
          cwd := entryPath d.str n.str
          entries := env.sort (es.filter (ConnectDlg.listedEntry env)) }, w₁) := by
        simp only [entered, tryOpenSelected_eq env w hsel, if_true, hcwd, ConnectDlg.navigate, henter]
      rw [hentered]
      refine ⟨rfl, ?_⟩
      simp only [ConnectDlg.up, entryPath_ne_root, if_false, upPath_entryPath, ConnectDlg.navigate,
        hback]
    · intro fs listed
      rw [updateDir_recorded fs listed hname, dirOf_entryPath, if_neg h]
    · intro W F I env fs w l hl
      rw [updateDir_dir hname hl]
      exact joinPath_dirOf_entryPath d n

end

/-- In the root the dialog opens `/a.png` and `updateDir` asks for the directory with the empty
name. -/
theorem root_listed_empty :
    entryPath "/".toList "a.png".toList = "/a.png".toList ∧
      (updateDir (recorder fun _ => none) ⟨true, 0⟩ "/a.png".toList []).2 = [[]] ∧
      ¬ PathsAgree "/".toList "a.png".toList := by
  refine ⟨by decide, by decide, ?_⟩
  intro h
  have hlisted := h.listed ⟨true, 0⟩ fun _ => none
  revert hlisted
  decide

end ObZrv
