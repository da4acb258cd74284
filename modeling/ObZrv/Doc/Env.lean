import Mathlib.Algebra.Group.Int.Defs
import ObZrv.Unifs.Protocol
import ObZrv.Codec.Image
import ObZrv.Text.Path

/-!
# Doc.Env

What the document calls: file systems, codecs, the shell and the clock. `Env` gives back any
well-typed result at every call; `W` is the state of everything outside the program, so a call may
answer differently each time it is made. `F` is an open file and `I` an image.

* `attempt`   : a call that is made again once after a reconnect.
* `updateDir` : the listing of the directory of a path.
* `acquire`   : step 1 of `Doc::open`, up to a file that could be opened.
* `decode`    : the two codec passes of step 2.
* `updateDir_of`, `acquire_picked` : what a listing holds, and where the file picked lies.
-/

namespace ObZrv

/-- A file system object, by the identity of the object. A file system that is not remote is a
`LocalFs`. -/
structure UniFs where
  remote : Bool
  id : Nat
deriving DecidableEq, Repr

/-- A directory entry; the name of a file holds no separator. -/
structure FsEntry where
  name : Str
  isFile : Bool
  name_ok : '/' ∉ name

/-- What `Codec::open` gives back. -/
inductive Decoded (I : Type) where
  | image (img : I)
  | error (res : IM) (ne : res ≠ .OK)

structure Codec (W F I : Type) where
  types : List Str
  openImage : F → W → Decoded I × W

/-- How `SHFileOperationW` ends. -/
inductive ShellResult where
  | done
  | failed
  | aborted
deriving DecidableEq, Repr

structure Env (W F I : Type) where
  openfile : UniFs → Str → W → Option F × W
  lastStatus : UniFs → W → UInt8
  reconnect : UniFs → W → Bool × W
  readdir : UniFs → Str → W → Option (List FsEntry) × W
  removefile : UniFs → Str → W → Int × W
  /-- `FO_DELETE` of a path, with `FOF_ALLOWUNDO` or without. -/
  shFileOperation : Str → Bool → W → ShellResult × W
  zDataFile : F → F
  /-- `seek(0, SEEK_SET)`; its result is not looked at. -/
  seek : F → W → W
  codecs : List (Codec W F I)
  filetype : F → W → Str × W
  getTickCount : W → Int × W
  ops : ImageOps I
  strCmpLogicalW : Str → Str → Int
  /-- `std::sort` by `StrCmpLogicalW`. -/
  sort : List Str → List Str
  sort_perm : ∀ l, (sort l).Perm l

/-- A directory as `_dir`, `_dirfiles` and `_diridx`. -/
structure Listing where
  dir : Str
  files : List Str
  idx : Int
deriving DecidableEq, Repr

def Listing.name (l : Listing) : Str := l.files.getD l.idx.toNat []

def Listing.path (l : Listing) : Str := joinPath l.dir l.name

/-- `_wcsicmp(a, b) == 0`; with no locale set only ASCII letters are folded. -/
def wcsicmpEq (a b : Str) : Bool := a.map Char.toLower == b.map Char.toLower

def isZDataExt (ext : Str) : Bool :=
  match ext with
  | ['z', a, b] => a.isDigit && b.isDigit
  | _ => false

/-- The types `initCodec` adds, as they stand in the source. -/
def zTypes : List Str := "0123456789".toList.map fun c => ['z', c, '?']

def INT_MIN : Int := -2 ^ 31

section

variable {W F I : Type} (env : Env W F I)

def isSupportedExt (ext : Str) : Bool :=
  env.codecs.any (fun c => c.types.contains ext) || zTypes.contains ext || isZDataExt ext

def shouldReconnectRemote (fs : UniFs) (w : W) : Bool :=
  fs.remote && env.lastStatus fs w != STATUS_ERR_NOT_FOUND

/-- How a call with one reconnect ends: the reconnect failed, or the call gave a result; `retried`
is `retriedRemote` after it. -/
inductive Attempt (α : Type) where
  | lost
  | got (result : Option α) (retried : Bool)

/-- A call that is made again once if it failed and the file system could be reconnected. -/
def attempt {α : Type} (fs : UniFs) (retried : Bool) (call : W → Option α × W) (w : W) :
    Attempt α × W :=
  let (result, w) := call w
  if result.isNone && !retried && shouldReconnectRemote env fs w then
    match env.reconnect fs w with
    | (false, w) => (.lost, w)
    | (true, w) =>
      let (result, w) := call w
      (.got result true, w)
  else (.got result retried, w)

/-- `Doc::updateDir`; `none` where it returns -1. No caller sets `preservelast`. -/
def updateDir (fs : UniFs) (filepath : Str) (w : W) : Option Listing × W :=
  let dir := dirOf filepath
  let filename := fileNameOf filepath
  if filename = [] then (some { dir := [], files := [], idx := -1 }, w)
  else
    match env.readdir fs dir w with
    | (none, w) => (none, w)
    | (some entries, w) =>
      let shown (e : FsEntry) : Bool :=
        e.isFile && getExt e.name != [] && isSupportedExt env (getExt e.name)
      let files := env.sort ((entries.filter shown).map (·.name))
      let idx := files.findIdx? (wcsicmpEq (filename.map Char.toLower))
      (some { dir, files, idx := (idx.map Int.ofNat).getD (-1) }, w)

/-- How step 1 of `Doc::open` ends. -/
inductive Acquired (F : Type) where
  /-- Not opened, and no fallback wanted. -/
  | refused
  /-- The remote server could not be reached again. -/
  | lost
  | noDir
  | noFiles
  /-- The file picked by the fallback could not be opened either. -/
  | gaveUp (picked : Listing)
  /-- A file to read, the listing if the fallback picked it, and `retriedRemote`. -/
  | opened (uf : F) (picked : Option Listing) (retried : Bool)

/-- The file the fallback goes to: the first not before the target, or the one before. -/
def pickFile (files : List Str) (targetFile : Str) (dirHint : Int) : Nat :=
  let pos := (files.findIdx? fun f => env.strCmpLogicalW f targetFile ≥ 0).getD files.length
  if dirHint ≥ 0 then min pos (files.length - 1) else pos - 1

/-- Step 1 of `Doc::open`. -/
def acquire (fs : UniFs) (path : Str) (dirHint : Int) (w : W) : Acquired F × W :=
  match attempt env fs false (env.openfile fs path) w with
  | (.lost, w) => (.lost, w)
  | (.got (some uf) retried, w) => (.opened uf none retried, w)
  | (.got none retried, w) =>
    if dirHint = INT_MIN then (.refused, w)
    else
      match attempt env fs retried (updateDir env fs path) w with
      | (.lost, w) => (.lost, w)
      | (.got none _, w) => (.noDir, w)
      | (.got (some l) retried, w) =>
        if l.files = [] then (.noFiles, w)
        else
          let l := { l with idx := pickFile env l.files (fileNameOf path) dirHint }
          match attempt env fs retried (env.openfile fs l.path) w with
          | (.lost, w) => (.lost, w)
          | (.got none _, w) => (.gaveUp l, w)
          | (.got (some uf) retried, w) => (.opened uf (some l) retried, w)

/-- One pass over the codecs that have the type; `res` is the result so far. -/
def tryCodecs (ext : Str) (uf : F) : List (Codec W F I) → Decoded I → W → Decoded I × W
  | [], res, w => (res, w)
  | c :: cs, res, w =>
    if c.types.contains ext then
      match c.openImage uf (env.seek uf w) with
      | (.image img, w) => (.image img, w)
      | (.error e he, w) => tryCodecs ext uf cs (.error e he) w
    else tryCodecs ext uf cs res w

/-- The decoding of step 2: by the extension of the path, then by the type detected. -/
def decode (uf : F) (fullPath : Str) (w : W) : Decoded I × W :=
  let ext := getExt fullPath
  let uf := if isZDataExt ext then env.zDataFile uf else uf
  match tryCodecs env ext uf env.codecs (.error .NOT_SUPPORTED nofun) w with
  | (.image img, w) => (.image img, w)
  | (.error e he, w) =>
    let (detectedExt, w) := env.filetype uf w
    if detectedExt ≠ "UNK".toList ∧ detectedExt ≠ ext then
      tryCodecs env detectedExt uf env.codecs (.error e he) w
    else (.error e he, w)

end

/-! ## Listings of a directory -/

/-- What a listing made for `path` holds: its directory, files without a separator, and at the index
the first name equal to the target up to the case of ASCII letters. -/
structure Listing.Of (path : Str) (l : Listing) : Prop where
  dir : l.dir = dirOf path ∨ l.dir = [] ∧ l.files = []
  names : ∀ f ∈ l.files, '/' ∉ f
  idx : l.idx =
    ((l.files.findIdx? (wcsicmpEq ((fileNameOf path).map Char.toLower))).map Int.ofNat).getD (-1)

/-- The file that the fallback goes to, if step 1 got that far. -/
def Acquired.picked {F : Type} : Acquired F → Option Listing
  | .gaveUp l => some l
  | .opened _ picked _ => picked
  | _ => none

section

variable {W F I : Type} {env : Env W F I} {fs : UniFs} {path : Str} {w : W}

theorem attempt_got {α : Type} {retried retried' : Bool} {call : W → Option α × W} {x : α}
    (h : (attempt env fs retried call w).1 = .got (some x) retried') :
    ∃ w', (call w').1 = some x := by
  unfold attempt at h
  simp only at h
  split at h
  · split at h
    · cases h
    · rename_i w' _
      exact ⟨w', (Attempt.got.inj h).1⟩
  · exact ⟨w, (Attempt.got.inj h).1⟩

theorem updateDir_of {l : Listing} (h : (updateDir env fs path w).1 = some l) : l.Of path := by
  unfold updateDir at h
  simp only at h
  split at h
  · obtain rfl := Option.some.inj h
    exact ⟨.inr ⟨rfl, rfl⟩, nofun, rfl⟩
  · split at h
    · cases h
    · obtain rfl := Option.some.inj h
      refine ⟨.inl rfl, fun f hf => ?_, rfl⟩
      obtain ⟨e, -, rfl⟩ := List.mem_map.mp ((env.sort_perm _).mem_iff.mp hf)
      exact e.name_ok

theorem pickFile_lt {files : List Str} (h : files ≠ []) (target : Str) (dirHint : Int) :
    pickFile env files target dirHint < files.length := by
  have hlen : 0 < files.length := List.length_pos_iff.mpr h
  unfold pickFile
  have hpos : (files.findIdx? fun f => env.strCmpLogicalW f target ≥ 0).getD files.length ≤
      files.length := by
    cases hfind : files.findIdx? fun f => env.strCmpLogicalW f target ≥ 0 with
    | none => exact Nat.le_refl _
    | some i =>
      obtain ⟨hi, -⟩ := List.findIdx?_eq_some_iff_getElem.mp hfind
      exact Nat.le_of_lt hi
  simp only
  split <;> omega

/-- A file picked by the fallback comes from a scan of its directory. -/
theorem acquire_scanned {dirHint : Int} {l : Listing}
    (h : (acquire env fs path dirHint w).1.picked = some l) :
    ∃ w' l₀, (updateDir env fs path w').1 = some l₀ ∧ l₀.files ≠ [] ∧
      l = { l₀ with idx := pickFile env l₀.files (fileNameOf path) dirHint } := by
  unfold acquire at h
  split at h
  · cases h
  · cases h
  · split at h
    · cases h
    · split at h
      · cases h
      · cases h
      · rename_i l₀ _ _ hscan
        obtain ⟨w', hdir⟩ := attempt_got (congrArg Prod.fst hscan)
        split at h
        · cases h
        · rename_i hfiles
          refine ⟨w', l₀, hdir, hfiles, ?_⟩
          -- both exits from here carry the listing with the index of the pick
          simp only at h
          split at h
          · cases h
          · exact (Option.some.inj h).symm
          · exact (Option.some.inj h).symm

/-- A file picked by the fallback is in the directory of the path. -/
theorem acquire_picked {dirHint : Int} {l : Listing}
    (h : (acquire env fs path dirHint w).1.picked = some l) :
    l.dir = dirOf path ∧ (∀ f ∈ l.files, '/' ∉ f) ∧ ∃ i : Nat, l.idx = i ∧ i < l.files.length := by
  obtain ⟨w', l₀, hdir, hfiles, rfl⟩ := acquire_scanned h
  have hof : l₀.Of path := updateDir_of hdir
  refine ⟨?_, hof.names, _, rfl, pickFile_lt hfiles _ _⟩
  rcases hof.dir with hd | ⟨-, hnil⟩
  · exact hd
  · exact absurd hnil hfiles

end

end ObZrv
