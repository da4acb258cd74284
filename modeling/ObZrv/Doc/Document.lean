import ObZrv.Doc.Animate
import ObZrv.Doc.Env
import ObZrv.Doc.FileList

/-!
# Doc.Document

`Doc` with its file panel: opening, navigation, refresh and deletion. View and file panel are
bound, as `MainWnd` binds them before the first call. What the calls show on screen and the
deletions they ask for are kept as lists.

The image carries the file it was read from as a ghost value; no code looks at it.
-/

namespace ObZrv

/-- An image with the file it was decoded from. -/
structure Shown (I : Type) where
  image : I
  unifs : UniFs
  path : Str

structure Doc (I : Type) where
  image : Option (Shown I) := none
  path : Str := []
  unifs : Option UniFs := none
  animated : Bool := false
  anim : Anim := ⟨0, 0, 0, 0⟩
  dir : Str := []
  dirfiles : List Str := []
  diridx : Int := -1
  curFile : Str := []
  prevFile : Str := []

inductive UiEvent where
  | messageBox (text caption : String)
  | onFileOpened (cmdid : Int)
  | updateStatus
  | setTimer (delay : Nat)
  | killTimer
deriving DecidableEq, Repr

/-- A deletion the document asks for: `removefile` with its path, or the shell operation with the
native path and whether it allows undo. -/
inductive Deletion where
  | removefile (fs : UniFs) (path : Str)
  | shell (path : Str) (undo : Bool)
deriving DecidableEq, Repr

structure Sys (W I : Type) where
  doc : Doc I
  panel : FileList
  ui : List UiEvent
  deletions : List Deletion
  world : W

def Sys.empty {W I : Type} (w : W) : Sys W I :=
  { doc := {}, panel := ⟨[], false⟩, ui := [], deletions := [], world := w }

/-! ## State changes of the document alone -/

namespace Doc

variable {I : Type} (d : Doc I)

def close : Doc I := { d with animated := false, image := none, diridx := -1, unifs := none }

def clearOpenState : Doc I :=
  { d.close with path := [], dir := [], dirfiles := [], prevFile := [], curFile := [] }

def setListing (l : Listing) : Doc I := { d with dir := l.dir, dirfiles := l.files, diridx := l.idx }

/-- The search of step 3 for the file just opened; without a match the index stays. -/
def findTarget (target : Str) : Doc I :=
  match d.dirfiles.findIdx? (· == target) with
  | some i => { d with diridx := i }
  | none => d

/-- The end of `open`: `_curFile` becomes `_prevFile` if the directory is still the same. -/
def rotate (prevDir target : Str) : Doc I :=
  { d with prevFile := if d.dir = prevDir then d.curFile else [], curFile := target }

end Doc

structure OpenCall where
  unifs : Option UniFs
  path : Str
  cmdid : Int
  forceScanDir : Bool
  dirHint : Int
deriving DecidableEq, Repr

namespace Sys

variable {W F I : Type} (env : Env W F I) (s : Sys W I)

def setWorld (w : W) : Sys W I := { s with world := w }

def messageBox (text caption : String) : Sys W I :=
  { s with ui := s.ui ++ [.messageBox text caption] }

def close : Sys W I :=
  { s with doc := s.doc.close, ui := if s.doc.animated then s.ui ++ [.killTimer] else s.ui }

def clearOpenState : Sys W I :=
  { s.close with
    doc := s.doc.clearOpenState
    panel := FileList.rebuild []
    ui := s.close.ui ++ [.updateStatus] }

def lostConnection : IM × Sys W I :=
  (.FAIL, s.clearOpenState.messageBox "Could not reconnect to the remote server."
    "Connection Failed")

def cannotOpenDirectory : IM × Sys W I :=
  (.FAIL, s.clearOpenState.messageBox "Cannot open directory." "Error")

def noFilesFound : IM × Sys W I :=
  (.FAIL, s.clearOpenState.messageBox "No image files found in this folder." "Info")

/-- The decoded image goes on screen. -/
def showImage (img : I) (fs : UniFs) (fullPath : Str) (cmdid : Int) : Sys W I :=
  let delay := env.ops.getFrameDelay img
  let d := { s.doc with
    image := some ⟨img, fs, fullPath⟩
    path := fullPath
    animated := env.ops.isAnim img
    anim := { s.doc.anim with curframe := 0, curloop := 0 } }
  if env.ops.isAnim img then
    let (tick, w) := env.getTickCount s.world
    { s with
      doc := { d with anim := ⟨0, 0, tick, delay⟩ }
      ui := s.ui ++ [.onFileOpened cmdid, .setTimer (toUINT delay), .updateStatus]
      world := w }
  else { s with doc := d, ui := s.ui ++ [.onFileOpened cmdid, .updateStatus] }

/-- Step 4 of `open`. `before` is the document when the call began. -/
def finish (before : Doc I) (scanned : Bool) (target : Str) : IM × Sys W I :=
  let panel :=
    if ¬ scanned then s.panel.moveSelection
    else if s.doc.dir = before.dir then
      s.panel.smoothRebuild env.strCmpLogicalW before.dirfiles s.doc.dirfiles
    else FileList.rebuild s.doc.dirfiles
  (.OK, { s with panel, doc := s.doc.rotate before.dir target })

/-- Step 3 of `open`: the directory is scanned, or the index looked up. -/
def rescan (before : Doc I) (fs : UniFs) (path target : Str) (scanned retried force : Bool) :
    IM × Sys W I :=
  if force ∧ ¬ scanned then
    match attempt env fs retried (updateDir env fs path) s.world with
    | (.lost, w) => (s.setWorld w).lostConnection
    | (.got none _, w) => (s.setWorld w).cannotOpenDirectory
    | (.got (some l) _, w) =>
      ({ s with doc := s.doc.setListing l, world := w }).finish env before true target
  else ({ s with doc := s.doc.findTarget target }).finish env before scanned target

/-- Steps 2 to 4 of `open`, with the file that step 1 opened. -/
def load (c : OpenCall) (fs : UniFs) (uf : F) (picked : Option Listing) (retried : Bool) :
    IM × Sys W I :=
  let before := s.doc
  let target := (picked.map Listing.name).getD (fileNameOf c.path)
  let fullPath := (picked.map Listing.path).getD c.path
  let s := { s with doc := (picked.map s.doc.setListing).getD s.doc }
  let s := s.close
  let s := { s with doc := { s.doc with unifs := some fs } }
  match decode env uf fullPath s.world with
  | (.error res _, w) => (res, s.setWorld w)
  | (.image img, w) =>
    ((s.setWorld w).showImage env img fs fullPath c.cmdid).rescan env before fs c.path target
      picked.isSome retried c.forceScanDir

/-- The file system an `open` works on: the one given, or the current one. -/
def fsOf (c : OpenCall) : Option UniFs := c.unifs <|> s.doc.unifs

/-- `Doc::open`. -/
def «open» (c : OpenCall) : IM × Sys W I :=
  match s.fsOf c with
  | none => (.READFILE_ERR, s)
  | some fs =>
    match acquire env fs c.path c.dirHint s.world with
    | (.refused, w) => (.READFILE_ERR, s.setWorld w)
    | (.lost, w) => (s.setWorld w).lostConnection
    | (.noDir, w) => (s.setWorld w).cannotOpenDirectory
    | (.noFiles, w) => (s.setWorld w).noFilesFound
    | (.gaveUp l, w) =>
      (.FAIL, { s with
        doc := s.doc.setListing l
        panel := s.panel.smoothRebuild env.strCmpLogicalW s.doc.dirfiles l.files
        world := w })
    | (.opened uf picked retried, w) => (s.setWorld w).load env c fs uf picked retried

/-! ## The callers of `open` -/

end Sys

inductive NavCmd where
  | first
  | last
  | prev
  | next
deriving DecidableEq, Repr

/-- The value `navigate` passes on as `cmdid`. -/
def NavCmd.toInt : NavCmd → Int
  | .first => 0
  | .last => 1
  | .prev => 2
  | .next => 3

namespace Doc

variable {I : Type} (d : Doc I)

/-- `_dir + "/" + _dirfiles[i]`. -/
def filePath (i : Nat) : Str := joinPath d.dir (d.dirfiles.getD i [])

/-- The call of `open` that `navigate` makes, or `none` where it returns -1. -/
def navigateCall (cmd : NavCmd) : Option OpenCall :=
  if d.diridx = -1 ∨ d.dirfiles = [] then none
  else
    let target : Int :=
      match cmd with
      | .prev => if d.diridx > 0 then d.diridx - 1 else -1
      | .next => if d.diridx < d.dirfiles.length - 1 then d.diridx + 1 else -1
      | .first => if d.diridx > 0 then 0 else -1
      | .last => if d.diridx < d.dirfiles.length - 1 then d.dirfiles.length - 1 else -1
    if target = -1 then none
    else
      some
        { unifs := d.unifs
          path := d.filePath target.toNat
          cmdid := cmd.toInt
          forceScanDir := false
          dirHint := if cmd = .prev then -1 else 1 }

/-- The call of `refreshDir`. -/
def refreshCall : Option OpenCall :=
  if d.path = [] then none
  else some { unifs := d.unifs, path := d.path, cmdid := -1, forceScanDir := true, dirHint := 1 }

/-- The call of `FileList::OnActivateItem`. -/
def activateCall (idx : Int) : Option OpenCall :=
  if idx < 0 ∨ idx ≥ d.dirfiles.length then none
  else if d.filePath idx.toNat = d.path then none
  else
    some
      { unifs := none
        path := d.filePath idx.toNat
        cmdid := -1
        forceScanDir := false
        dirHint := 1 }

/-- The index of the file deleted, if there is a current one. -/
def deleteIdx : Option Nat :=
  if d.diridx < 0 ∨ d.diridx ≥ d.dirfiles.length then none else some d.diridx.toNat

/-- The document after file `delIdx` has been deleted from a directory that still has others. -/
def erased (delIdx : Nat) : Doc I :=
  { d with dirfiles := d.dirfiles.eraseIdx delIdx, diridx := -1 }

/-- The document after the last file of the directory has been deleted. -/
def emptied : Doc I := { d.close with dir := [], dirfiles := [], prevFile := [], curFile := [] }

/-- The index `removeCurrentFile` goes on to. `files` are the files left. -/
def nextIdx (cmp : Str → Str → Int) (files : List Str) (delFile : Str) (delIdx : Nat) : Nat :=
  let next : Option Nat :=
    if d.prevFile ≠ [] ∧ ¬ wcsicmpEq d.prevFile delFile then
      if cmp d.prevFile delFile > 0 then
        -- the previous file was after the deleted one
        if delIdx ≥ 1 then some (delIdx - 1) else none
      else if delIdx < files.length then some delIdx
      else none
    else none
  next.getD (if delIdx < files.length then delIdx else files.length - 1)

end Doc

namespace Sys

variable {W F I : Type} (env : Env W F I) (s : Sys W I)

/-- `Doc::navigate`; `none` is -1. -/
def navigate (cmd : NavCmd) : Option IM × Sys W I :=
  match s.doc.navigateCall cmd with
  | none => (none, s)
  | some c => ((s.open env c).1, (s.open env c).2)

def refreshDir : Option IM × Sys W I :=
  match s.doc.refreshCall with
  | none => (none, s)
  | some c => ((s.open env c).1, (s.open env c).2)

def onActivateItem (idx : Int) (byMouse : Bool) : Sys W I :=
  match s.doc.activateCall idx with
  | none => s
  | some c =>
    let s := (s.open env c).2
    if byMouse ∧ s.doc.path ≠ c.path then
      s.messageBox ("Cannot open: " ++ String.ofList c.path) "Error"
    else s

/-- `MainWnd::OpenSlideShowCurrent` on one file: of the folder, or of a custom list, which is opened
on a new `LocalFs`. -/
def slideShowCall (custom : Option Nat) (file : Str) : OpenCall :=
  { unifs := custom.map fun id => { remote := false, id }
    path := file
    cmdid := -1
    forceScanDir := false
    dirHint := 1 }

/-- How far `removeCurrentFile` gets before it opens a file again: it returns, or it goes on to
`refreshDir` or to the next file. With `_unifs` null it crashes. -/
inductive Removal (W I : Type) where
  | crash
  | stop (res : Int) (s : Sys W I)
  | refresh (s : Sys W I)
  | goOn (s : Sys W I) (c : OpenCall)

/-- `removeCurrentFile` once the file is gone. -/
def afterDelete (delIdx : Nat) : Removal W I :=
  let d := s.doc
  let delFile := d.dirfiles.getD delIdx []
  let files := d.dirfiles.eraseIdx delIdx
  if files = [] then
    .stop 0 { s.close with
      doc := d.emptied
      panel := FileList.rebuild []
      ui := s.close.ui ++ [.updateStatus] }
  else
    let next := d.nextIdx env.strCmpLogicalW files delFile delIdx
    .goOn { s with doc := d.erased delIdx, panel := s.panel.removeItem delIdx }
      { unifs := d.unifs
        path := (d.erased delIdx).filePath next
        cmdid := -1
        forceScanDir := false
        dirHint := if next ≥ delIdx then 1 else -1 }

/-- `removeCurrentFile` up to the next `open`. The remote branch has its confirmation switched off
by a constant. -/
def startRemove (shift : Bool) : Removal W I :=
  match s.doc.deleteIdx with
  | none => .stop (-1) s
  | some delIdx =>
    let delFile := s.doc.dirfiles.getD delIdx []
    match s.doc.unifs with
    | none => .crash
    | some fs =>
      if fs.remote then
        let path := joinPath s.doc.dir delFile
        let (res, w) := env.removefile fs path s.world
        let s := { s with deletions := s.deletions ++ [.removefile fs path], world := w }
        if res ≠ 0 then .refresh s else s.afterDelete env delIdx
      else
        let path := shellDeletePath s.doc.dir delFile
        let (res, w) := env.shFileOperation path (!shift) s.world
        let s := { s with deletions := s.deletions ++ [.shell path (!shift)], world := w }
        match res with
        | .failed => .refresh s
        | .aborted => .stop (-1) s
        | .done => s.afterDelete env delIdx

/-- `Doc::removeCurrentFile`; `none` is the crash. -/
def removeCurrentFile (shift : Bool) : Option (Int × Sys W I) :=
  match s.startRemove env shift with
  | .crash => none
  | .stop res s => some (res, s)
  | .refresh s => some (-1, (s.refreshDir env).2)
  | .goOn s c => some (0, (s.open env c).2)

end Sys

end ObZrv
