import ObZrv.Lib.Iterator
import ObZrv.Text.RecentFiles
import ObZrv.Text.Path
import ObZrv.Unifs.Readdir

/-!
# Unifs.DirIter

Directories that are gone through entry by entry: the iterators of `unifs/win_fs.cpp`,
`unifs/nix_fs.cpp` and `unifs/remote_fs.cpp` behind a `DirIter`.

* `winFs_iter`, `winFs_readdir` : on Windows, the drives or what is found in a folder.
* `nixFs_readdir`      : on Linux, what is in a directory.
* `remoteIter_gives`   : of a server, what it has listed.
* `readdir_like_local` : a remote directory is gone through like a local one.
-/

namespace ObZrv

open Lib

/-! ## DirIter -/

/-- `DirIter` with iterators of one kind; the invalid one has none. -/
structure DirIter (ι : Type) where
  impl : Option ι

namespace DirIter

variable {ι : Type} (implNext : ι → Option DirEntry × ι)

def next (it : DirIter ι) : Option DirEntry × DirIter ι :=
  match it.impl with
  | none => (none, it)
  | some impl =>
    let (e, impl) := implNext impl
    (e, ⟨some impl⟩)

/-- What a valid iterator gives is what its implementation gives. -/
theorem gives_of_impl {impl : ι} {es : List DirEntry} (h : Gives implNext impl es) :
    Gives (next implNext) ⟨some impl⟩ es := by
  have hnth : ∀ k impl, nth (next implNext) k ⟨some impl⟩ = nth implNext k impl := by
    intro k
    induction k with
    | zero => exact fun _ => rfl
    | succ k ih => exact fun impl => ih (implNext impl).2
  intro k
  rw [hnth]
  exact h k

end DirIter

namespace DirEntry

def FILE : UInt8 := 0
def DIR : UInt8 := 1
def SYMLINK : UInt8 := 2
def OTHER : UInt8 := 3

end DirEntry

/-! ## Windows -/

structure FILETIME where
  dwHighDateTime : UInt32
  dwLowDateTime : UInt32
deriving DecidableEq, Repr

/-- `filetime_to_unix_sec`. -/
def filetimeToUnixSec (ft : FILETIME) : UInt32 :=
  let t := (ft.dwHighDateTime.toUInt64 <<< 32) ||| ft.dwLowDateTime.toUInt64
  let EPOCH_OFFSET : UInt64 := 116444736000000000
  if t < EPOCH_OFFSET then 0 else ((t - EPOCH_OFFSET) / 10000000).toUInt32

/-- `WIN32_FIND_DATAW`, with a name that fits its `cFileName`. -/
structure WinFindData where
  dwFileAttributes : UInt32
  ftCreationTime : FILETIME
  ftLastWriteTime : FILETIME
  nFileSizeHigh : UInt32
  nFileSizeLow : UInt32
  cFileName : WStr
  name_nul : 0 ∉ cFileName
  name_lt : cFileName.length < 260

def FILE_ATTRIBUTE_DIRECTORY : UInt32 := 0x10
def FILE_ATTRIBUTE_REPARSE_POINT : UInt32 := 0x400

/-- What Windows says of its disks. -/
structure WinDisk where
  /-- `GetLogicalDrives`. -/
  logicalDrives : UInt32
  /-- What `FindFirstFileW` finds, and what `FindNextFileW` finds after it. -/
  find : WStr → Option (WinFindData × List WinFindData)

/-- `WideCharToMultiByte` of a whole string into a buffer of `size` bytes. -/
def wideCharToMultiByte (s : WStr) (size : Nat) : Option (List UInt8) :=
  let bytes := utf8Bytes (decodeUtf16 s)
  if bytes.length + 1 ≤ size then some bytes else none

/-- `is_dot`. -/
def isDot (name : WStr) : Bool := name == [46] || name == [46, 46]

/-- `to_search_path` into a buffer of `size` units. -/
def toSearchPath (path : Str) (size : Nat) : Option WStr :=
  let buf := encodeUtf16 path
  if buf.length + 1 > size - 3 then none
  else
    let sep := buf.getLast?.any fun c => c != 92 && c != 47
    some (buf ++ (if sep then [92, 42] else [42]))

structure WinDirIterImpl where
  /-- What the search still finds. -/
  handle : Option (List WinFindData) := none
  findData : Option WinFindData := none
  hasFirst : Bool := false
  valid : Bool := false
  rootMode : Bool := false
  drivesMask : UInt32 := 0
  driveIdx : Nat := 0

namespace WinDirIterImpl

/-- The constructor. -/
def create (disk : WinDisk) (path : Str) : WinDirIterImpl :=
  let winPath := linuxPathToWin path
  if winPath = [] then
    { rootMode := true, drivesMask := disk.logicalDrives, valid := decide (disk.logicalDrives ≠ 0) }
  else
    match toSearchPath winPath 264 with
    | none => {}
    | some searchPath =>
      match disk.find searchPath with
      | none => {}
      | some (first, rest) =>
        { handle := some rest, findData := some first, hasFirst := true, valid := true }

def driveSet (mask : UInt32) (idx : Nat) : Bool := (mask &&& (1 <<< UInt32.ofNat idx)) != 0

def driveEntry (idx : Nat) : DirEntry where
  name := [UInt8.ofNat (97 + idx)]
  type := DirEntry.DIR
  size := 0
  ctime := 0
  mtime := 0

/-- The loop over the drives, `fuel` of them left; the entry and the index after it. -/
def driveLoop (mask : UInt32) : Nat → Nat → Option DirEntry × Nat
  | 0, idx => (none, idx)
  | fuel + 1, idx =>
    if driveSet mask idx then (some (driveEntry idx), idx + 1) else driveLoop mask fuel (idx + 1)

/-- One pass of the loop over what is found; `none` where it goes on with the next. -/
def entryOf (d : WinFindData) : Option DirEntry :=
  if isDot d.cFileName then none
  else
    match wideCharToMultiByte d.cFileName (260 * 3) with
    | none => none
    | some name =>
      let ctime := filetimeToUnixSec d.ftCreationTime
      let mtime := filetimeToUnixSec d.ftLastWriteTime
      if d.dwFileAttributes &&& FILE_ATTRIBUTE_REPARSE_POINT ≠ 0 then
        some { name, type := DirEntry.SYMLINK, size := 0, ctime, mtime }
      else if d.dwFileAttributes &&& FILE_ATTRIBUTE_DIRECTORY ≠ 0 then
        some { name, type := DirEntry.DIR, size := 0, ctime, mtime }
      else
        some
          { name, type := DirEntry.FILE, ctime, mtime
            size := (d.nFileSizeHigh.toUInt64 <<< 32) ||| d.nFileSizeLow.toUInt64 }

/-- The loop from what is found at the moment. -/
def scan : WinFindData → List WinFindData → Option DirEntry × WinFindData × List WinFindData
  | d, [] => (entryOf d, d, [])
  | d, d' :: rest =>
    match entryOf d with
    | some e => (some e, d, d' :: rest)
    | none => scan d' rest

variable (it : WinDirIterImpl)

/-- The loop, and the iterator after it. -/
def scanned (d : WinFindData) (rest : List WinFindData) : Option DirEntry × WinDirIterImpl :=
  let (e, d, rest) := scan d rest
  (e, { it with handle := some rest, findData := some d, hasFirst := false })

def next : Option DirEntry × WinDirIterImpl :=
  if ¬ it.valid then (none, it)
  else if it.rootMode then
    let (e, idx) := driveLoop it.drivesMask (26 - it.driveIdx) it.driveIdx
    (e, { it with driveIdx := idx })
  else
    match it.handle, it.findData with
    | some rest, some d =>
      if it.hasFirst then it.scanned d rest
      else
        match rest with
        | [] => (none, it)
        | d' :: rest => it.scanned d' rest
    | _, _ => (none, it)

end WinDirIterImpl

/-- `WinFs::readdir`. -/
def WinFs.readdir (disk : WinDisk) (path : Str) : DirIter WinDirIterImpl :=
  let impl := WinDirIterImpl.create disk path
  if ¬ impl.valid then ⟨none⟩ else ⟨some impl⟩

/-! ## What there is to list -/

/-- The drives from index `idx` on. -/
def WinDisk.drivesFrom (mask : UInt32) (idx : Nat) : List Nat :=
  (List.range' idx (26 - idx)).filter (WinDirIterImpl.driveSet mask)

/-- The listing of a path: for the root its drives, else what is found but the two dots. -/
def WinDisk.listing (disk : WinDisk) (path : Str) : Option (List DirEntry) :=
  if linuxPathToWin path = [] then
    if disk.logicalDrives = 0 then none
    else some ((WinDisk.drivesFrom disk.logicalDrives 0).map WinDirIterImpl.driveEntry)
  else
    match (toSearchPath (linuxPathToWin path) 264).bind disk.find with
    | none => none
    | some (first, rest) => some ((first :: rest).filterMap WinDirIterImpl.entryOf)

namespace WinDirIterImpl

/-- What is left to list. -/
def Left (it : WinDirIterImpl) (es : List DirEntry) : Prop :=
  it.valid = true ∧
    ((it.rootMode = true ∧ es = (WinDisk.drivesFrom it.drivesMask it.driveIdx).map driveEntry) ∨
      (it.rootMode = false ∧ ∃ rest d, it.handle = some rest ∧ it.findData = some d ∧
        es = (if it.hasFirst then d :: rest else rest).filterMap entryOf))

section Drives

variable (mask : UInt32)

theorem driveLoop_eq (fuel idx : Nat) :
    (driveLoop mask fuel idx).1 = ((List.range' idx fuel).filter (driveSet mask)).head?.map driveEntry ∧
      (List.range' (driveLoop mask fuel idx).2 (idx + fuel - (driveLoop mask fuel idx).2)).filter
        (driveSet mask) = ((List.range' idx fuel).filter (driveSet mask)).tail ∧
      idx ≤ (driveLoop mask fuel idx).2 ∧ (driveLoop mask fuel idx).2 ≤ idx + fuel := by
  induction fuel generalizing idx with
  | zero => simp [driveLoop]
  | succ fuel ih =>
    rw [driveLoop, List.range'_succ]
    split
    · rename_i hset
      have hrest : idx + (fuel + 1) - (idx + 1) = fuel := by omega
      simp only [List.filter_cons_of_pos hset, List.head?_cons, Option.map_some, List.tail_cons,
        hrest, true_and]
      omega
    · rename_i hset
      obtain ⟨hhead, htail, hle, hle'⟩ := ih (idx + 1)
      have hsum : idx + 1 + fuel = idx + (fuel + 1) := by omega
      rw [hsum] at htail hle'
      rw [List.filter_cons_of_neg hset]
      exact ⟨hhead, htail, by omega, hle'⟩

end Drives

theorem scan_eq (d : WinFindData) (rest : List WinFindData) :
    (scan d rest).1 = ((d :: rest).filterMap entryOf).head? ∧
      (scan d rest).2.2.filterMap entryOf = ((d :: rest).filterMap entryOf).tail := by
  have hfirst : (scan d rest).1 = (firstSome entryOf (d :: rest)).1 ∧
      (scan d rest).2.2 = (firstSome entryOf (d :: rest)).2 := by
    induction rest generalizing d with
    | nil => cases he : entryOf d <;> simp [scan, firstSome, he]
    | cons d' rest ih =>
      cases he : entryOf d with
      | some e => simp [scan, firstSome, he]
      | none =>
        rw [scan, firstSome, he]
        exact ih d'
  rw [hfirst.1, hfirst.2]
  exact firstSome_eq entryOf (d :: rest)

/-- One call of `next` takes the first of what is left. -/
theorem Left.next {it : WinDirIterImpl} {es : List DirEntry} (h : Left it es) :
    it.next.1 = es.head? ∧ Left it.next.2 es.tail := by
  obtain ⟨hvalid, ⟨hroot, rfl⟩ | ⟨hroot, rest, d, hrest, hd, rfl⟩⟩ := h
  · obtain ⟨hhead, htail, hle, hle'⟩ :=
      driveLoop_eq it.drivesMask (26 - it.driveIdx) it.driveIdx
    have hsum : it.driveIdx + (26 - it.driveIdx) -
        (driveLoop it.drivesMask (26 - it.driveIdx) it.driveIdx).2 =
        26 - (driveLoop it.drivesMask (26 - it.driveIdx) it.driveIdx).2 := by omega
    rw [hsum] at htail
    simp only [WinDirIterImpl.next, hvalid, hroot, not_true_eq_false, if_false, if_true]
    refine ⟨?_, rfl, .inl ⟨rfl, ?_⟩⟩
    · rw [hhead, WinDisk.drivesFrom, List.head?_map]
    · rw [WinDisk.drivesFrom, WinDisk.drivesFrom, htail, List.map_tail]
  · have hscan : ∀ d rest, (it.scanned d rest).1 = ((d :: rest).filterMap entryOf).head? ∧
        Left (it.scanned d rest).2 ((d :: rest).filterMap entryOf).tail := by
      intro d rest
      obtain ⟨hhead, htail⟩ := scan_eq d rest
      exact ⟨hhead, hvalid, .inr ⟨hroot, _, _, rfl, rfl, htail.symm⟩⟩
    simp only [WinDirIterImpl.next, hvalid, hroot, not_true_eq_false, Bool.false_eq_true, if_false,
      hrest, hd]
    cases hfirst : it.hasFirst with
    | true => exact hscan d rest
    | false =>
      cases rest with
      | nil => exact ⟨rfl, hvalid, .inr ⟨hroot, [], d, hrest, hd, by simp [hfirst]⟩⟩
      | cons d' rest => exact hscan d' rest

theorem left_gives {it : WinDirIterImpl} {es : List DirEntry} (h : Left it es) :
    Gives WinDirIterImpl.next it es := by
  have hremaining : Remaining WinDirIterImpl.next Left :=
    ⟨fun _ h => h.next, fun _ _ _ h => h.next⟩
  exact hremaining.gives h

/-- The name of what is found always fits its buffer. -/
theorem wideCharToMultiByte_name (d : WinFindData) :
    wideCharToMultiByte d.cFileName (260 * 3) = some (utf8Bytes (decodeUtf16 d.cFileName)) := by
  have hlen := length_utf8Bytes_decodeUtf16 d.cFileName
  have hlt := d.name_lt
  exact if_pos (by omega)

theorem entryOf_name (d : WinFindData) : (entryOf d).map DirEntry.name =
    if isDot d.cFileName then none else some (utf8Bytes (decodeUtf16 d.cFileName)) := by
  unfold entryOf
  rw [wideCharToMultiByte_name]
  by_cases hdot : isDot d.cFileName = true
  · simp only [hdot, if_true, Option.map_none]
  · simp only [hdot, Bool.false_eq_true, if_false]
    split
    · rfl
    · split <;> rfl

theorem names_eq (found : List WinFindData) : (found.filterMap entryOf).map DirEntry.name =
    (found.filter fun d => !isDot d.cFileName).map fun d => utf8Bytes (decodeUtf16 d.cFileName) := by
  induction found with
  | nil => rfl
  | cons d found ih =>
    have hname := entryOf_name d
    cases hdot : isDot d.cFileName with
    | true =>
      rw [hdot, if_pos rfl, Option.map_eq_none_iff] at hname
      rw [List.filterMap_cons_none hname, ih, List.filter_cons_of_neg (by simp [hdot])]
    | false =>
      rw [hdot, if_neg Bool.false_ne_true, Option.map_eq_some_iff] at hname
      obtain ⟨e, he, hname⟩ := hname
      rw [List.filterMap_cons_some he, List.map_cons, ih, hname,
        List.filter_cons_of_pos (by simp [hdot]), List.map_cons]

/-- The letter of a drive: bit 0 of the mask is `A:`. -/
def driveLetter (idx : Nat) : Char := Char.ofNat (65 + idx)

/-- An entry stands for a drive: a folder whose path under the root leads to the drive. -/
structure IsDrive (e : DirEntry) (idx : Nat) : Prop where
  type : e.type = DirEntry.DIR
  name : e.name = utf8Bytes [(driveLetter idx).toLower]
  path : linuxPathToWin ['/', (driveLetter idx).toLower] = [driveLetter idx, ':', '\\']

theorem driveEntry_isDrive {idx : Nat} (h : idx < 26) : IsDrive (driveEntry idx) idx := by
  have hall : ∀ idx < 26, (driveEntry idx).name = utf8Bytes [(driveLetter idx).toLower] ∧
      linuxPathToWin ['/', (driveLetter idx).toLower] = [driveLetter idx, ':', '\\'] := by
    decide
  obtain ⟨hname, hpath⟩ := hall idx h
  exact ⟨rfl, hname, hpath⟩

end WinDirIterImpl

namespace WinDisk

variable {disk : WinDisk} {path : Str} {es : List DirEntry}

/-- The drives, as folders under the root. -/
theorem listing_root (hroot : linuxPathToWin path = []) (h : disk.listing path = some es) :
    es = (drivesFrom disk.logicalDrives 0).map WinDirIterImpl.driveEntry ∧
      disk.logicalDrives ≠ 0 := by
  rw [listing, if_pos hroot] at h
  split at h
  · cases h
  · rename_i hdrives
    exact ⟨(Option.some.inj h).symm, hdrives⟩

theorem listing_folder (hroot : linuxPathToWin path ≠ []) (h : disk.listing path = some es) :
    ∃ searchPath first rest, toSearchPath (linuxPathToWin path) 264 = some searchPath ∧
      disk.find searchPath = some (first, rest) ∧
      es = (first :: rest).filterMap WinDirIterImpl.entryOf := by
  rw [listing, if_neg hroot] at h
  cases hsearch : toSearchPath (linuxPathToWin path) 264 with
  | none =>
    rw [hsearch] at h
    cases h
  | some searchPath =>
    rw [hsearch, Option.bind_some] at h
    cases hfind : disk.find searchPath with
    | none =>
      rw [hfind] at h
      cases h
    | some found =>
      rw [hfind] at h
      exact ⟨searchPath, found.1, found.2, rfl, hfind, (Option.some.inj h).symm⟩

/-- Names are short. -/
theorem listing_name_lt (h : disk.listing path = some es) : ∀ e ∈ es, e.name.length < 780 := by
  intro e he
  by_cases hroot : linuxPathToWin path = []
  · rw [(listing_root hroot h).1] at he
    obtain ⟨idx, -, rfl⟩ := List.mem_map.mp he
    exact Nat.lt_of_sub_eq_succ rfl
  · obtain ⟨-, first, rest, -, -, rfl⟩ := listing_folder hroot h
    obtain ⟨d, -, hd⟩ := List.mem_filterMap.mp he
    have hname := WinDirIterImpl.entryOf_name d
    have hlen := length_utf8Bytes_decodeUtf16 d.cFileName
    have hlt := d.name_lt
    rw [hd, Option.map_some] at hname
    split at hname
    · cases hname
    · rw [Option.some.inj hname]
      omega

end WinDisk

/-- The iterator gives what there is to list. -/
theorem winFs_iter (disk : WinDisk) (path : Str) :
    ((WinFs.readdir disk path).impl = none ↔ disk.listing path = none) ∧
    ∀ es, disk.listing path = some es →
      Gives (DirIter.next WinDirIterImpl.next) (WinFs.readdir disk path) es := by
  unfold WinFs.readdir WinDirIterImpl.create WinDisk.listing
  by_cases hroot : linuxPathToWin path = []
  · simp only [if_pos hroot]
    by_cases hdrives : disk.logicalDrives = 0
    · simp [hdrives]
    · simp only [hdrives, ne_eq, not_false_eq_true, decide_true, not_true_eq_false, if_false,
        reduceCtorEq, Option.some.injEq, true_and]
      rintro es rfl
      exact DirIter.gives_of_impl _ (WinDirIterImpl.left_gives ⟨rfl, .inl ⟨rfl, rfl⟩⟩)
  · simp only [if_neg hroot]
    cases hsearch : toSearchPath (linuxPathToWin path) 264 with
    | none => simp
    | some searchPath =>
      cases hfind : disk.find searchPath with
      | none => simp [hfind]
      | some found =>
        obtain ⟨first, rest⟩ := found
        simp only [Option.bind_some, hfind, not_true_eq_false, if_false, reduceCtorEq,
          Option.some.injEq, true_and]
        rintro es rfl
        exact DirIter.gives_of_impl _ (WinDirIterImpl.left_gives
          ⟨rfl, .inr ⟨rfl, rest, first, rfl, rfl, rfl⟩⟩)

/-- **A folder on Windows.** `readdir` fails where the drives cannot be told or nothing is found;
else the calls of `next` give the drives in the order of their letters, each a folder whose path leads
to this drive, or one entry for all that is found but the two dots, in this order and under its
name; then they give nothing, however often they are made. A loop over them goes through all. -/
theorem winFs_readdir (disk : WinDisk) (path : Str) :
    ((WinFs.readdir disk path).impl = none ↔ disk.listing path = none) ∧
    ∀ es, disk.listing path = some es →
      Gives (DirIter.next WinDirIterImpl.next) (WinFs.readdir disk path) es ∧
      (∀ fuel, es.length < fuel →
        forEach (DirIter.next WinDirIterImpl.next) fuel (WinFs.readdir disk path) = es) ∧
      (linuxPathToWin path = [] →
        List.Forall₂ WinDirIterImpl.IsDrive es (WinDisk.drivesFrom disk.logicalDrives 0)) ∧
      (linuxPathToWin path ≠ [] → ∃ searchPath first rest,
        toSearchPath (linuxPathToWin path) 264 = some searchPath ∧
        disk.find searchPath = some (first, rest) ∧
        es.map DirEntry.name = ((first :: rest).filter fun d => !isDot d.cFileName).map fun d =>
          utf8Bytes (decodeUtf16 d.cFileName)) := by
  obtain ⟨hnone, hgives⟩ := winFs_iter disk path
  refine ⟨hnone, fun es hes => ⟨hgives es hes, fun fuel hfuel => (hgives es hes).forEach hfuel, ?_, ?_⟩⟩
  · intro hroot
    obtain ⟨rfl, -⟩ := WinDisk.listing_root hroot hes
    refine List.forall₂_map_left_iff.mpr (List.forall₂_same.mpr fun idx hidx => ?_)
    have hlt := List.mem_range'_1.mp (List.mem_of_mem_filter hidx)
    exact WinDirIterImpl.driveEntry_isDrive (by omega : idx < 26)
  · intro hroot
    obtain ⟨searchPath, first, rest, hsearch, hfind, rfl⟩ := WinDisk.listing_folder hroot hes
    exact ⟨searchPath, first, rest, hsearch, hfind, WinDirIterImpl.names_eq (first :: rest)⟩

/-! ## Linux -/

/-- `struct dirent`. -/
structure Dirent where
  d_name : List UInt8
  d_type : UInt8
deriving DecidableEq, Repr

def DT_UNKNOWN : UInt8 := 0
def DT_DIR : UInt8 := 4
def DT_REG : UInt8 := 8
def DT_LNK : UInt8 := 10

/-- `struct stat`. -/
structure Stat where
  st_mode : UInt32
  st_mtime : Int
  st_size : Int
deriving DecidableEq, Repr

/-- `S_ISREG`, `S_ISDIR` and `S_ISLNK`. -/
def Stat.isType (st : Stat) (type : UInt32) : Bool := st.st_mode &&& 0o170000 == type

/-- What Linux says of its disks. -/
structure NixDisk where
  /-- `opendir`, and what `readdir` gives from then on. -/
  opendir : List UInt8 → Option (List Dirent)
  stat : List UInt8 → Option Stat

structure NixDirIterImpl where
  dir : Option (List Dirent)
  base : List UInt8

namespace NixDirIterImpl

variable (disk : NixDisk)

/-- The path with a slash behind it. -/
def basePath (path : List UInt8) : List UInt8 :=
  if path ≠ [] ∧ path.getLast? ≠ some 47 then path ++ [47] else path

/-- The constructor. -/
def create (path : List UInt8) : NixDirIterImpl :=
  { dir := disk.opendir (basePath path), base := basePath path }

/-- The type of an entry, once it is known. -/
def typeOf (d_type : UInt8) : UInt8 :=
  if d_type = DT_REG then DirEntry.FILE
  else if d_type = DT_DIR then DirEntry.DIR
  else if d_type = DT_LNK then DirEntry.SYMLINK
  else DirEntry.OTHER

/-- `DT_UNKNOWN` is resolved by `stat`. -/
def resolve (d_type : UInt8) (st : Stat) : UInt8 :=
  if d_type ≠ DT_UNKNOWN then d_type
  else if st.isType 0o100000 then DT_REG
  else if st.isType 0o040000 then DT_DIR
  else if st.isType 0o120000 then DT_LNK
  else d_type

/-- One pass of the loop; `none` where it goes on with the next. -/
def entryOf (base : List UInt8) (ent : Dirent) : Option DirEntry :=
  if ent.d_name = [46] ∨ ent.d_name = [46, 46] then none
  else
    match disk.stat (base ++ ent.d_name) with
    | none => some { name := ent.d_name, type := typeOf ent.d_type, size := 0, ctime := 0, mtime := 0 }
    | some st =>
      let mtime := UInt32.ofInt st.st_mtime
      let d_type := resolve ent.d_type st
      some
        { name := ent.d_name, type := typeOf d_type, ctime := mtime, mtime
          size := if d_type = DT_REG then UInt64.ofInt st.st_size else 0 }

def next (it : NixDirIterImpl) : Option DirEntry × NixDirIterImpl :=
  match it.dir with
  | none => (none, it)
  | some ents =>
    let (e, ents) := firstSome (entryOf disk it.base) ents
    (e, { it with dir := some ents })

/-- What is left to list. -/
def Left (it : NixDirIterImpl) (es : List DirEntry) : Prop :=
  ∃ ents, it.dir = some ents ∧ es = ents.filterMap (entryOf disk it.base)

theorem left_gives {it : NixDirIterImpl} {es : List DirEntry} (h : Left disk it es) :
    Gives (next disk) it es := by
  have hnext : ∀ it es, Left disk it es →
      (next disk it).1 = es.head? ∧ Left disk (next disk it).2 es.tail := by
    rintro it es ⟨ents, hents, rfl⟩
    obtain ⟨hhead, htail⟩ := firstSome_eq (entryOf disk it.base) ents
    simp only [next, hents]
    exact ⟨hhead, _, rfl, htail.symm⟩
  have hremaining : Remaining (next disk) (Left disk) :=
    ⟨fun it h => hnext it [] h, fun it e es h => hnext it (e :: es) h⟩
  exact hremaining.gives h

end NixDirIterImpl

/-- `NixFs::readdir`. -/
def NixFs.readdir (disk : NixDisk) (path : List UInt8) : DirIter NixDirIterImpl :=
  let impl := NixDirIterImpl.create disk path
  if impl.dir.isNone then ⟨none⟩ else ⟨some impl⟩

def NixDisk.listing (disk : NixDisk) (path : List UInt8) : Option (List DirEntry) :=
  (disk.opendir (NixDirIterImpl.basePath path)).map fun ents =>
    ents.filterMap (NixDirIterImpl.entryOf disk (NixDirIterImpl.basePath path))

theorem nixFs_readdir (disk : NixDisk) (path : List UInt8) :
    ((NixFs.readdir disk path).impl = none ↔ disk.listing path = none) ∧
    ∀ es, disk.listing path = some es →
      Gives (DirIter.next (NixDirIterImpl.next disk)) (NixFs.readdir disk path) es := by
  unfold NixFs.readdir NixDisk.listing NixDirIterImpl.create
  cases hdir : disk.opendir (NixDirIterImpl.basePath path) with
  | none => simp
  | some ents =>
    simp only [Option.isNone_some, Bool.false_eq_true, if_false, reduceCtorEq, Option.map_some,
      Option.some.injEq, true_and]
    rintro es rfl
    exact DirIter.gives_of_impl _ (NixDirIterImpl.left_gives disk ⟨ents, rfl, rfl⟩)

/-! ## Remote directories -/

namespace RemoteFs

theorem remoteIter_gives (es : List DirEntry) :
    Gives RemoteDirIterImpl.next ⟨es, 0⟩ es := by
  have hremaining : Remaining RemoteDirIterImpl.next fun it es => es = it.entries.drop it.idx := by
    constructor
    · intro it h
      have hnone : it.entries[it.idx]? = none := by
        rw [List.getElem?_eq_none_iff]
        exact List.drop_eq_nil_iff.mp h.symm
      simp only [RemoteDirIterImpl.next, hnone]
      exact ⟨trivial, h⟩
    · intro it e es h
      have hlt : it.idx < it.entries.length := by
        by_contra hge
        rw [List.drop_eq_nil_of_le (by omega)] at h
        cases h
      rw [List.drop_eq_getElem_cons hlt, List.cons.injEq] at h
      have hsome : it.entries[it.idx]? = some e := by
        rw [List.getElem?_eq_getElem hlt, h.1]
      simp only [RemoteDirIterImpl.next, hsome]
      exact ⟨trivial, h.2⟩
  exact hremaining.gives rfl

/-- The `DirIter` that `RemoteFs::readdir` returns. -/
def dirIter (entries : Option (List DirEntry)) : DirIter RemoteDirIterImpl :=
  ⟨entries.map fun es => ⟨es, 0⟩⟩

/-- A server that lists directories as `protocol.hpp` lays it out, where the listing fits a frame. -/
structure DirServer {C : Type} (link : Link C) where
  listing : C → List UInt8 → Option (List DirEntry)
  connected : ∀ c, link.connected c = true
  lists : ∀ c (path : CStr) es, path.strlen < 65536 → listing c path.bytes = some es →
    (encodeListing es).length ≤ MAX_PAYLOAD_SIZE →
    (link.serve c ⟨CMD_FS_READDIR, pathPayload path⟩).1 = ⟨STATUS_OK, encodeListing es⟩
  refuses : ∀ c (path : CStr), path.strlen < 65536 → listing c path.bytes = none →
    (link.serve c ⟨CMD_FS_READDIR, pathPayload path⟩).1.status ≠ STATUS_OK

section Remote

variable {C : Type} {link : Link C} (server : DirServer link) (fs : RemoteFs C)

theorem encodeEntries_length_ge (es : List DirEntry) :
    19 * es.length ≤ (encodeEntries es).length := by
  induction es with
  | nil => exact Nat.le_refl _
  | cons e es ih =>
    have he := encodeEntry_length e
    simp only [encodeEntries, List.map_cons, List.flatten_cons, List.length_append,
      List.length_cons] at ih ⊢
    omega

/-- A listing that fits a frame, of names that fit their field, is received as it is. -/
theorem readdir_received {path : CStr} (hlen : path.strlen < 65536) :
    (∀ es, server.listing fs.conn.conn path.bytes = some es →
      (encodeListing es).length ≤ MAX_PAYLOAD_SIZE → (∀ e ∈ es, e.name.length < 65536) →
      (fs.readdir link path).1 = some es) ∧
    (server.listing fs.conn.conn path.bytes = none → (fs.readdir link path).1 = none) := by
  have hreq : (fs.request link CMD_FS_READDIR (pathPayload path)).1 =
      (link.serve fs.conn.conn ⟨CMD_FS_READDIR, pathPayload path⟩).1 := by
    simp only [request, Link.sendRequest, server.connected, if_true]
  constructor
  · intro es hes hfit hnames
    have hok := hreq.trans (server.lists fs.conn.conn path es hlen hes hfit)
    have hmax : MAX_PAYLOAD_SIZE = 1048576 := rfl
    have hcount : es.length < 4294967296 := by
      have hle := encodeEntries_length_ge es
      rw [encodeListing, List.length_append] at hfit
      omega
    have hscan : (scan (encodeListing es)).entries = some es :=
      scan_eq_some_iff.mpr ⟨⟨hnames, hcount⟩, [], (List.append_nil _).symm⟩
    rw [← hscan, scan_entries]
    simp only [readdir, hok, ne_eq, not_true_eq_false, false_or]
    split <;> rfl
  · intro hnone
    have hstatus := server.refuses fs.conn.conn path hlen hnone
    rw [← hreq] at hstatus
    simp only [readdir]
    rw [if_pos (.inl hstatus)]

end Remote

end RemoteFs

namespace DirIter

theorem nth_invalid {ι : Type} (implNext : ι → Option DirEntry × ι) (k : Nat) :
    nth (next implNext) k ⟨none⟩ = none := by
  induction k with
  | zero => rfl
  | succ k ih => exact ih

theorem nth_of_impl {ι : Type} (implNext : ι → Option DirEntry × ι) {it : DirIter ι}
    (h : it.impl = none) (k : Nat) : nth (next implNext) k it = none := by
  obtain ⟨impl⟩ := it
  simp only at h
  subst h
  exact nth_invalid implNext k

end DirIter

section Same

variable {C : Type} {link : Link C} (server : RemoteFs.DirServer link)

/-- **A remote directory is gone through like a local one.** Let a server list a path as a Windows disk
does, with a listing that fits a frame. Then `RemoteFs::readdir` fails exactly if `WinFs::readdir` does,
and else every call of `next` on its iterator has the answer that the same call has on the local
one. -/
theorem readdir_like_local (fs : RemoteFs C) (disk : WinDisk) {path : Str} {cpath : CStr}
    (hlen : cpath.strlen < 65536)
    (hsame : server.listing fs.conn.conn cpath.bytes = disk.listing path)
    (hfit : ∀ es, disk.listing path = some es →
      (RemoteFs.encodeListing es).length ≤ MAX_PAYLOAD_SIZE) :
    let remote := RemoteFs.dirIter (fs.readdir link cpath).1
    (remote.impl = none ↔ (WinFs.readdir disk path).impl = none) ∧
      ∀ k, nth (DirIter.next RemoteFs.RemoteDirIterImpl.next) k remote =
        nth (DirIter.next WinDirIterImpl.next) k (WinFs.readdir disk path) := by
  intro remote
  obtain ⟨hnone, hgives⟩ := winFs_iter disk path
  obtain ⟨hreceived, hrefused⟩ := RemoteFs.readdir_received server fs hlen
  cases hes : disk.listing path with
  | none =>
    have hinvalid := hnone.mpr hes
    have hremote : remote.impl = none := by
      simp only [remote, RemoteFs.dirIter, hrefused (hsame.trans hes), Option.map_none]
    refine ⟨iff_of_true hremote hinvalid, fun k => ?_⟩
    rw [DirIter.nth_of_impl _ hremote, DirIter.nth_of_impl _ hinvalid]
  | some es =>
    have hnames : ∀ e ∈ es, e.name.length < 65536 := fun e he =>
      Nat.lt_trans (WinDisk.listing_name_lt hes e he) (by decide)
    have hread := hreceived es (hsame.trans hes) (hfit es hes) hnames
    have hremote : remote = ⟨some ⟨es, 0⟩⟩ := by
      simp only [remote, RemoteFs.dirIter, hread, Option.map_some]
    have hvalid : ¬ (WinFs.readdir disk path).impl = none := by
      rw [hnone, hes]
      exact Option.some_ne_none es
    rw [hremote]
    refine ⟨iff_of_false (Option.some_ne_none _) hvalid, fun k => ?_⟩
    exact (DirIter.gives_of_impl _ (RemoteFs.remoteIter_gives es) k).trans (hgives es hes k).symm

end Same

/-! ## A server that lists its drives -/

/-- The drives C and D. -/
def twoDrives : WinDisk := ⟨12, fun _ => none⟩

def driveEntries : List DirEntry := [WinDirIterImpl.driveEntry 2, WinDirIterImpl.driveEntry 3]

theorem twoDrives_listing : twoDrives.listing ['/'] = some driveEntries := by decide

def driveListing (bytes : List UInt8) : Option (List DirEntry) :=
  if bytes = [47] then some driveEntries else none

def serveDrives (r : Request) : Response :=
  match (RemoteFs.decodePath r.payload).bind driveListing with
  | none => ⟨STATUS_ERR_GENERIC, []⟩
  | some es => ⟨STATUS_OK, RemoteFs.encodeListing es⟩

theorem driveListing_some {bytes : List UInt8} {es : List DirEntry}
    (h : driveListing bytes = some es) : es = driveEntries := by
  unfold driveListing at h
  split at h
  · exact (Option.some.inj h).symm
  · cases h

def driveLink : Link Unit where
  connected _ := true
  serve c r := (serveDrives r, c)
  payload_le _ r := by
    unfold serveDrives
    cases hes : (RemoteFs.decodePath r.payload).bind driveListing with
    | none => exact Nat.zero_le _
    | some es =>
      obtain ⟨bytes, -, hbytes⟩ := Option.bind_eq_some_iff.mp hes
      have hle : (RemoteFs.encodeListing driveEntries).length ≤ MAX_PAYLOAD_SIZE := by decide
      rw [driveListing_some hbytes]
      exact hle

def driveServer : RemoteFs.DirServer driveLink where
  listing _ := driveListing
  connected _ := rfl
  lists _ path es hlen hes _ := by
    have hpath := RemoteFs.decodePath_pathPayload path
    rw [(RemoteFs.take_strlen_mod_iff path).mpr hlen] at hpath
    change serveDrives _ = _
    simp only [serveDrives, hpath, Option.bind_some, hes]
  refuses _ path hlen hes := by
    have hpath := RemoteFs.decodePath_pathPayload path
    rw [(RemoteFs.take_strlen_mod_iff path).mpr hlen] at hpath
    change (serveDrives _).status ≠ _
    simp only [serveDrives, hpath, Option.bind_some, hes]
    decide

theorem readdir_like_local_drives :
    let remote := RemoteFs.dirIter ((⟨⟨(), []⟩, STATUS_OK⟩ : RemoteFs Unit).readdir driveLink
      ⟨[47], by decide⟩).1
    nth (DirIter.next RemoteFs.RemoteDirIterImpl.next) 1 remote = some (WinDirIterImpl.driveEntry 3) ∧
      nth (DirIter.next RemoteFs.RemoteDirIterImpl.next) 2 remote = none := by
  have hsame : driveServer.listing () (⟨[47], by decide⟩ : CStr).bytes = twoDrives.listing ['/'] :=
    twoDrives_listing.symm
  have hfit : ∀ es, twoDrives.listing ['/'] = some es →
      (RemoteFs.encodeListing es).length ≤ MAX_PAYLOAD_SIZE := by
    intro es hes
    rw [twoDrives_listing, Option.some.injEq] at hes
    subst hes
    decide
  have hlocal := (readdir_like_local driveServer ⟨⟨(), []⟩, STATUS_OK⟩ twoDrives (by decide) hsame
    hfit).2
  intro remote
  have hsecond : nth (DirIter.next WinDirIterImpl.next) 1 (WinFs.readdir twoDrives ['/']) =
      some (WinDirIterImpl.driveEntry 3) := by decide
  have hend : nth (DirIter.next WinDirIterImpl.next) 2 (WinFs.readdir twoDrives ['/']) = none := by
    decide
  exact ⟨(hlocal 1).trans hsecond, (hlocal 2).trans hend⟩

end ObZrv
