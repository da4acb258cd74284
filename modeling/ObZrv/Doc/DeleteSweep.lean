import ObZrv.Doc.Deletion
import ObZrv.Doc.ListUpdate
import ObZrv.Lib.Sweep

/-!
# Doc.DeleteSweep

File after file deleted with `removeCurrentFile`. The direction of the last move is kept only as the
name in `_prevFile`, and `Doc.heading` is what `removeCurrentFile` reads out of it.

* `Folder`        : a directory whose files open and decode, changed by the deletions alone.
* `Doc.OnFile`    : the document shows the file at its index.
* `open_onFile`   : an `open` of a listed file shows it and remembers the file before.
* `delete_step`   : one deletion goes on to the neighbour that `Lib.Cursor.remove` says.
* `delete_sweeps` : runs of deletions.
-/

namespace ObZrv

open Lib (Comparison StrictlySorted Cursor Heading Machine)

/-- `StrCmpLogicalW`, which does not tell upper case from lower case. -/
structure LogicalComparison (cmp : Str → Str → Int) : Prop extends Comparison cmp where
  folds : ∀ {a b}, wcsicmpEq a b = true → cmp a b = 0

section

variable {W F I : Type}

/-- `removeCurrentFile` has had file `f` deleted, which takes the world from `w` to `w'`. -/
def Deleted (env : Env W F I) (fs : UniFs) (dir f : Str) (shift : Bool) (w w' : W) : Prop :=
  if fs.remote then env.removefile fs (joinPath dir f) w = (0, w')
  else env.shFileOperation (shellDeletePath dir f) (!shift) w = (.done, w')

/-- A directory of a file system. The files that are there open and decode, and they stay there
except for those deleted. -/
structure Folder (env : Env W F I) (fs : UniFs) (dir : Str) where
  Has : W → Str → Prop
  name : ∀ {w f}, Has w f → f ≠ [] ∧ '/' ∉ f
  opens : ∀ {w f}, Has w f → ∃ uf retried img w₁ w₂,
    attempt env fs false (env.openfile fs (joinPath dir f)) w = (.got (some uf) retried, w₁) ∧
      decode env uf (joinPath dir f) w₁ = (.image img, w₂) ∧
      ∀ g, Has w g → Has (Sys.clockRead env img w₂) g
  keeps : ∀ {w w' f g shift}, Deleted env fs dir f shift w w' → Has w g → g ≠ f → Has w' g

/-- The direction of a move from one index to another. -/
def headingOf (i j : Nat) : Heading := if i < j then .ahead else .back

namespace Doc

/-- What `removeCurrentFile` takes for the direction of the last move. -/
def heading (cmp : Str → Str → Int) (d : Doc I) : Heading :=
  if d.prevFile ≠ [] ∧ ¬ wcsicmpEq d.prevFile d.curFile ∧ cmp d.prevFile d.curFile > 0 then .back
  else .ahead

/-- The file on screen is the one at the cursor, which is `_dirfiles[_diridx]` and `_curFile`. -/
structure OnFile {env : Env W F I} {fs : UniFs} {dir : Str} (folder : Folder env fs dir)
    (d : Doc I) (w : W) (z : Cursor Str) : Prop where
  image : ∃ img, d.image = some ⟨img, fs, joinPath dir z.cur⟩
  path : d.path = joinPath dir z.cur
  unifs : d.unifs = some fs
  dir : d.dir = dir
  dirfiles : d.dirfiles = z.list
  diridx : d.diridx = z.idx
  curFile : d.curFile = z.cur
  sorted : StrictlySorted env.strCmpLogicalW z.list
  has : ∀ f ∈ z.list, folder.Has w f

/-- A document without a file and without an image. -/
structure Emptied (d : Doc I) (path : Str) : Prop where
  path : d.path = path
  image : d.image = none
  unifs : d.unifs = none
  animated : d.animated = false
  dir : d.dir = []
  dirfiles : d.dirfiles = []
  diridx : d.diridx = -1
  curFile : d.curFile = []
  prevFile : d.prevFile = []

/-- "reset to initial state", where `_path` is cleared as well. -/
def Reset (d : Doc I) : Prop := d.Emptied []

theorem Emptied.not_reset {d : Doc I} {dir f : Str} (h : d.Emptied (joinPath dir f)) : ¬ d.Reset := by
  intro hreset
  have hpath : joinPath dir f = [] := h.path.symm.trans hreset.path
  exact absurd hpath (by simp [joinPath])

theorem OnFile.deleteIdx {env : Env W F I} {fs : UniFs} {dir : Str} {folder : Folder env fs dir}
    {d : Doc I} {w : W} {z : Cursor Str} (h : OnFile folder d w z) : d.deleteIdx = some z.idx := by
  have hlt := z.idx_lt
  rw [Doc.deleteIdx, h.diridx, h.dirfiles, if_neg (by omega)]
  rfl

end Doc

namespace Sys

/-- An operation that deletes the current file. -/
def Deletes (env : Env W F I) (s : Sys W I) (op : Op) : Prop :=
  ∃ shift, op = .remove shift ∧ (s.removeCurrentFile env shift).map Prod.fst = some 0

instance (env : Env W F I) (s : Sys W I) : ∀ op, Decidable (Deletes env s op)
  | .remove shift =>
    decidable_of_iff ((s.removeCurrentFile env shift).map Prod.fst = some 0)
      ⟨fun h => ⟨shift, rfl, h⟩, fun ⟨_, heq, h⟩ => Op.remove.inj heq ▸ h⟩
  | .openFile .. | .navigate _ | .refreshDir | .activate .. | .slideShow .. =>
    .isFalse fun ⟨_, heq, _⟩ => by cases heq

/-- An operation that goes to another file of the directory. -/
def Navigates (env : Env W F I) (s : Sys W I) (op : Op) : Prop :=
  ((∃ cmd, op = .navigate cmd) ∨ ∃ idx byMouse, op = .activate idx byMouse) ∧
    (s.openCall env op).isSome

variable {env : Env W F I} {fs : UniFs} {dir : Str} {folder : Folder env fs dir}
  {s s' : Sys W I} {z z' : Cursor Str} {hd hd' : Heading}

/-! ## An open of a listed file -/

theorem showImage_curFile (env : Env W F I) (s : Sys W I) (img : I) (fs : UniFs) (path : Str)
    (cmdid : Int) : (s.showImage env img fs path cmdid).doc.curFile = s.doc.curFile := by
  unfold showImage
  simp only
  split
  · rfl
  · rfl

/-- The document with its image closed and the file system set, as step 2 leaves it. -/
def closedOn (fs : UniFs) (s : Sys W I) (w : W) : Sys W I :=
  { s.close with doc := { s.doc.close with unifs := some fs }, world := w }

theorem load_image {c : OpenCall} {uf : F} {img : I} {w : W} (retried : Bool)
    (hdec : decode env uf c.path s.world = (.image img, w)) :
    s.load env c fs uf none retried =
      ((closedOn fs s w).showImage env img fs c.path c.cmdid).rescan env s.doc fs c.path
        (fileNameOf c.path) false retried c.forceScanDir := by
  have hclosed : decode env uf c.path s.close.world = (.image img, w) := hdec
  simp only [load, Option.map_none, Option.getD_none, hclosed]
  rfl

/-- Step 3 finds a listed file, and step 4 rotates the names. -/
theorem findTarget_rotate {d : Doc I} (hc : Comparison env.strCmpLogicalW)
    (hfiles : d.dirfiles = z.list) (hsorted : StrictlySorted env.strCmpLogicalW z.list) :
    (d.findTarget z.cur).rotate d.dir z.cur =
      { d with diridx := z.idx, prevFile := d.curFile, curFile := z.cur } := by
  have hfind : d.dirfiles.findIdx? (· == z.cur) = some z.idx := by
    rw [hfiles]
    exact Cursor.findIdx?_cur (hsorted.nodup hc)
  simp only [Doc.findTarget, hfind, Doc.rotate, if_true]

/-- **An `open` of a listed file** shows it, and the file before becomes `_prevFile`. -/
theorem open_onFile {c : OpenCall} (hc : Comparison env.strCmpLogicalW) (hfs : s.fsOf c = some fs)
    (hpath : c.path = joinPath dir z.cur) (hforce : c.forceScanDir = false)
    (hdir : s.doc.dir = dir) (hfiles : s.doc.dirfiles = z.list)
    (hsorted : StrictlySorted env.strCmpLogicalW z.list)
    (hhas : ∀ f ∈ z.list, folder.Has s.world f) :
    (s.open env c).2.doc.OnFile folder (s.open env c).2.world z ∧
      (s.open env c).2.doc.prevFile = s.doc.curFile := by
  obtain ⟨uf, retried, img, w₁, w₂, hopen, hdec, hkeeps⟩ := folder.opens (hhas _ z.cur_mem)
  rw [← hpath] at hopen hdec
  have hname : fileNameOf c.path = z.cur := by
    rw [hpath, fileNameOf_joinPath (folder.name (hhas _ z.cur_mem)).2]
  have hacq : acquire env fs c.path c.dirHint s.world = (.opened uf none retried, w₁) := by
    rw [acquire, hopen]
  let shown := (closedOn fs (s.setWorld w₁) w₂).showImage env img fs c.path c.cmdid
  have hshown : ShownOn (closedOn fs s w₂).doc ⟨img, fs, c.path⟩ shown.doc :=
    showImage_shownOn rfl img fs c.path c.cmdid
  have hcur : shown.doc.curFile = s.doc.curFile := showImage_curFile env _ img fs c.path c.cmdid
  have hworld : shown.world = clockRead env img w₂ := showImage_world img fs c.path c.cmdid
  have hrun : (s.open env c).2.doc = (shown.doc.findTarget z.cur).rotate s.doc.dir z.cur ∧
      (s.open env c).2.world = shown.world := by
    simp only [«open», hfs, hacq]
    rw [load_image (s := s.setWorld w₁) retried hdec, hforce, rescan, if_neg (by simp), hname]
    exact ⟨rfl, rfl⟩
  have hsame : shown.doc.dir = s.doc.dir := hshown.dir
  have hlist : shown.doc.dirfiles = z.list := hshown.dirfiles.trans hfiles
  rw [hrun.1, hrun.2, ← hsame, findTarget_rotate hc hlist hsorted]
  refine ⟨⟨⟨img, ?_⟩, ?_, ?_, ?_, hlist, rfl, rfl, hsorted, ?_⟩, hcur⟩
  · exact hpath ▸ hshown.image
  · exact hshown.path.trans hpath
  · exact hshown.unifs
  · exact hsame.trans hdir
  · intro f hf
    rw [hworld]
    exact hkeeps f (hhas f hf)

/-! ## One deletion -/

section Neighbours

variable {cmp : Str → Str → Int}

theorem sorted_right (hs : StrictlySorted cmp z.list) {f : Str} (hf : f ∈ z.right) :
    cmp z.cur f < 0 := by
  obtain ⟨-, hright, -⟩ := List.pairwise_append.mp hs
  exact List.rel_of_pairwise_cons hright hf

theorem sorted_left (hs : StrictlySorted cmp z.list) {f : Str} (hf : f ∈ z.left) :
    cmp f z.cur < 0 := by
  obtain ⟨-, -, hleft⟩ := List.pairwise_append.mp hs
  exact hleft f (List.mem_reverse.mpr hf) z.cur List.mem_cons_self

theorem heading_ahead {d : Doc I} (h : cmp d.prevFile d.curFile < 0) :
    d.heading cmp = .ahead := by
  rw [Doc.heading, if_neg]
  rintro ⟨-, -, hgt⟩
  omega

theorem heading_back (hc : LogicalComparison cmp) {d : Doc I} (hne : d.prevFile ≠ [])
    (h : cmp d.curFile d.prevFile < 0) : d.heading cmp = .back := by
  have hgt : 0 < cmp d.prevFile d.curFile := hc.swap.mp h
  rw [Doc.heading, if_pos]
  refine ⟨hne, fun heq => ?_, hgt⟩
  rw [hc.folds heq] at hgt
  exact absurd hgt (Int.lt_irrefl 0)

/-- The index that `removeCurrentFile` goes on to, by the heading. -/
theorem nextIdx_heading (d : Doc I) (files : List Str) (delIdx : Nat) :
    d.nextIdx cmp files d.curFile delIdx =
      if d.heading cmp = .back ∧ 1 ≤ delIdx then delIdx - 1
      else if delIdx < files.length then delIdx else files.length - 1 := by
  by_cases hback : d.prevFile ≠ [] ∧ ¬ wcsicmpEq d.prevFile d.curFile ∧
      cmp d.prevFile d.curFile > 0
  · rw [Doc.heading, if_pos hback, Doc.nextIdx, if_pos ⟨hback.1, hback.2.1⟩, if_pos hback.2.2]
    by_cases hidx : 1 ≤ delIdx
    · simp [hidx]
    · simp [hidx]
  · rw [Doc.heading, if_neg hback, Doc.nextIdx]
    by_cases hprev : d.prevFile ≠ [] ∧ ¬ wcsicmpEq d.prevFile d.curFile
    · have hgt : ¬ cmp d.prevFile d.curFile > 0 := fun hgt => hback ⟨hprev.1, hprev.2, hgt⟩
      rw [if_pos hprev, if_neg hgt]
      by_cases hidx : delIdx < files.length
      · simp [hidx]
      · simp [hidx]
    · rw [if_neg hprev]
      simp

/-- It is the index of the neighbour. -/
theorem nextIdx_eq {d : Doc I} (hcur : d.curFile = z.cur)
    (h : z.remove (d.heading cmp) = some (hd', z')) :
    d.nextIdx cmp (z.list.eraseIdx z.idx) z.cur z.idx = z'.idx := by
  rw [← hcur, nextIdx_heading, Cursor.idx_of_remove h]

end Neighbours

/-- With a file shown, `removeCurrentFile` has it deleted, or stops without success. -/
theorem startRemove_cases (h : s.doc.OnFile folder s.world z) (shift : Bool) :
    (∃ s₁ : Sys W I, s₁.doc = s.doc ∧ Deleted env fs dir z.cur shift s.world s₁.world ∧
        s.startRemove env shift = s₁.afterDelete env z.idx) ∨
      (∀ w, ¬ Deleted env fs dir z.cur shift s.world w) ∧
        ((∃ s₁, s.startRemove env shift = .refresh s₁) ∨
          ∃ s₁, s.startRemove env shift = .stop (-1) s₁) := by
  unfold Deleted
  simp only [startRemove, h.deleteIdx, h.unifs, h.dirfiles, h.dir, z.getD_idx]
  split
  · split
    · rename_i hres
      exact .inr ⟨fun w hw => hres (congrArg Prod.fst hw), .inl ⟨_, rfl⟩⟩
    · rename_i hres
      refine .inl ⟨{ s with deletions := _, world := _ }, ?_, ?_, rfl⟩
      · rfl
      · exact Prod.ext (Decidable.not_not.mp hres) rfl
  · split
    · rename_i hres
      refine .inr ⟨fun w hw => ?_, .inl ⟨_, rfl⟩⟩
      cases hres.symm.trans (congrArg Prod.fst hw)
    · rename_i hres
      refine .inr ⟨fun w hw => ?_, .inr ⟨_, rfl⟩⟩
      cases hres.symm.trans (congrArg Prod.fst hw)
    · rename_i hres
      refine .inl ⟨{ s with deletions := _, world := _ }, ?_, ?_, rfl⟩
      · rfl
      · exact Prod.ext hres rfl

/-- What `removeCurrentFile` leaves of an empty directory; `_path` is not cleared. -/
theorem emptied_emptied (d : Doc I) : d.emptied.Emptied d.path :=
  ⟨rfl, rfl, rfl, rfl, rfl, rfl, rfl, rfl, rfl⟩

/-- With the file taken out as `_prevFile`, the heading is the side that the cursor went to. -/
theorem heading_of_remove (hc : LogicalComparison env.strCmpLogicalW) {d : Doc I}
    (hsorted : StrictlySorted env.strCmpLogicalW z.list) (hne : z.cur ≠ [])
    (hprev : d.prevFile = z.cur) (hcur : d.curFile = z'.cur)
    (h : z.remove hd = some (hd', z')) : d.heading env.strCmpLogicalW = hd' := by
  rcases Cursor.remove_cases h with ⟨rfl, hright, -⟩ | ⟨rfl, hleft, -⟩
  · refine heading_ahead ?_
    rw [hprev, hcur]
    exact sorted_right hsorted (hright ▸ List.mem_cons_self)
  · refine heading_back hc (hprev ▸ hne) ?_
    rw [hprev, hcur]
    exact sorted_left hsorted (hleft ▸ List.mem_cons_self)

/-- What `open` finds when `removeCurrentFile` goes on to the file at the cursor. -/
theorem goOn_onFile (hc : LogicalComparison env.strCmpLogicalW)
    (h : s.doc.OnFile folder s.world z) {s₁ : Sys W I} {shift : Bool}
    (hgone : Deleted env fs dir z.cur shift s.world s₁.world)
    (hrem : z.remove hd = some (hd', z')) (panel : FileList) (dirHint : Int) :
    let s₂ : Sys W I := { s₁ with doc := s.doc.erased z.idx, panel }
    let s' := (s₂.open env ⟨s.doc.unifs, (s.doc.erased z.idx).filePath z'.idx, -1, false, dirHint⟩).2
    s'.doc.OnFile folder s'.world z' ∧ s'.doc.prevFile = z.cur := by
  intro s₂ s'
  have hlist : z'.list = z.list.eraseIdx z.idx := Cursor.list_of_remove hrem
  have hfiles : (s.doc.erased z.idx).dirfiles = z'.list := by
    rw [Doc.erased, h.dirfiles, hlist]
  have hpath : (s.doc.erased z.idx).filePath z'.idx = joinPath dir z'.cur := by
    rw [Doc.filePath, hfiles, z'.getD_idx, Doc.erased, h.dir]
  have hsorted : StrictlySorted env.strCmpLogicalW z'.list := by
    rw [hlist]
    exact h.sorted.sublist (List.eraseIdx_sublist _ _)
  have hhas : ∀ f ∈ z'.list, folder.Has s₁.world f := by
    intro f hf
    rw [hlist] at hf
    obtain ⟨hmem, hne⟩ := Cursor.mem_eraseIdx_ne (h.sorted.nodup hc.toComparison) hf
    exact folder.keeps hgone (h.has f hmem) hne
  have hfs : s₂.fsOf ⟨s.doc.unifs, (s.doc.erased z.idx).filePath z'.idx, -1, false, dirHint⟩ =
      some fs := by
    rw [fsOf, h.unifs]
    rfl
  obtain ⟨hon, hprev⟩ := open_onFile (s := s₂) hc.toComparison hfs hpath rfl h.dir hfiles hsorted hhas
  exact ⟨hon, hprev.trans h.curFile⟩

/-- **One deletion** goes on to the file that the cursor goes to, with the heading it has then. If there
is none the document is emptied, all but the path of the file deleted. -/
theorem delete_step (hc : LogicalComparison env.strCmpLogicalW)
    (h : s.doc.OnFile folder s.world z) {shift : Bool}
    (hdel : s.removeCurrentFile env shift = some (0, s')) :
    (z.remove (s.doc.heading env.strCmpLogicalW) = none → s'.doc.Emptied (joinPath dir z.cur)) ∧
      ∀ hd' z', z.remove (s.doc.heading env.strCmpLogicalW) = some (hd', z') →
        s'.doc.OnFile folder s'.world z' ∧ s'.doc.heading env.strCmpLogicalW = hd' := by
  obtain ⟨s₁, hdoc, hgone, hstart⟩ | ⟨-, ⟨s₁, hstart⟩ | ⟨s₁, hstart⟩⟩ := startRemove_cases h shift
  · rw [removeCurrentFile, hstart, afterDelete, hdoc, h.dirfiles, z.getD_idx] at hdel
    cases hrem : z.remove (s.doc.heading env.strCmpLogicalW) with
    | none =>
      rw [if_pos (Cursor.eraseIdx_eq_nil_iff.mpr hrem)] at hdel
      obtain ⟨-, rfl⟩ := Prod.mk.inj (Option.some.inj hdel)
      refine ⟨fun _ => ?_, fun hd' z' heq => ?_⟩
      · rw [← h.path]
        exact emptied_emptied s.doc
      · cases heq
    | some next =>
      obtain ⟨hd₁, z₁⟩ := next
      have hleft : z.list.eraseIdx z.idx ≠ [] := fun hnil => by
        rw [Cursor.eraseIdx_eq_nil_iff.mp hnil] at hrem
        cases hrem
      rw [if_neg hleft, nextIdx_eq h.curFile hrem] at hdel
      obtain ⟨-, rfl⟩ := Prod.mk.inj (Option.some.inj hdel)
      refine ⟨fun heq => ?_, ?_⟩
      · cases heq
      rintro hd' z' ⟨⟩
      obtain ⟨hon, hprev⟩ := goOn_onFile hc h hgone hrem _ _
      exact ⟨hon, heading_of_remove hc h.sorted (folder.name (h.has _ z.cur_mem)).1 hprev
        hon.curFile hrem⟩
  · rw [removeCurrentFile, hstart] at hdel
    cases hdel
  · rw [removeCurrentFile, hstart] at hdel
    cases hdel

/-- An operation that deletes the current file is `removeCurrentFile` with result 0. -/
theorem exec_deletes {op : Op} (hdel : Deletes env s op) (hexec : s.exec env op = some s') :
    ∃ shift, s.removeCurrentFile env shift = some (0, s') := by
  obtain ⟨shift, rfl, hres⟩ := hdel
  obtain ⟨⟨res, s₁⟩, hrun, rfl⟩ := Option.map_eq_some_iff.mp hres
  rw [exec, hrun] at hexec
  obtain rfl := Option.some.inj hexec
  exact ⟨shift, hrun⟩

theorem emptied_not_deletes {path : Str} (h : s.doc.Emptied path) {op : Op} : ¬ Deletes env s op := by
  rintro ⟨shift, -, hres⟩
  have hidx : s.doc.deleteIdx = none := by
    rw [Doc.deleteIdx, h.diridx]
    rfl
  rw [removeCurrentFile, startRemove, hidx] at hres
  cases hres

theorem afterDelete_result (env : Env W F I) (s : Sys W I) (delIdx : Nat) :
    (∃ s', s.afterDelete env delIdx = .stop 0 s') ∨ ∃ s' c, s.afterDelete env delIdx = .goOn s' c := by
  unfold afterDelete
  simp only
  split
  · exact .inl ⟨_, rfl⟩
  · exact .inr ⟨_, _, rfl⟩

/-- With a file shown, `removeCurrentFile` succeeds whenever the file system deletes the file. -/
theorem deletes_of_deleted (h : s.doc.OnFile folder s.world z) {shift : Bool} {w : W}
    (hgone : Deleted env fs dir z.cur shift s.world w) : Deletes env s (.remove shift) := by
  obtain ⟨s₁, -, -, hstart⟩ | ⟨hnot, -⟩ := startRemove_cases h shift
  · refine ⟨shift, rfl, ?_⟩
    rw [removeCurrentFile, hstart]
    rcases afterDelete_result env s₁ z.idx with ⟨s', hstop⟩ | ⟨s', c, hgo⟩
    · rw [hstop]
      rfl
    · rw [hgo]
      rfl
  · exact absurd hgone (hnot w)

/-! ## Navigation -/

/-- `navigate` opens another file of the listing. -/
theorem navigateCall_target {d : Doc I} {cmd : NavCmd} {c : OpenCall} {i : Nat}
    (hidx : d.diridx = i) (hi : i < d.dirfiles.length) (h : d.navigateCall cmd = some c) :
    ∃ j, j < d.dirfiles.length ∧ j ≠ i ∧ c.unifs = d.unifs ∧ c.path = d.filePath j ∧
      c.forceScanDir = false := by
  simp only [Doc.navigateCall, hidx, Option.ite_none_left_eq_some, Option.some.injEq] at h
  obtain ⟨-, hne, rfl⟩ := h
  refine ⟨_, ?_, ?_, rfl, rfl, rfl⟩
  · cases cmd with
    | first => grind
    | last => grind
    | prev => grind
    | next => grind
  · cases cmd with
    | first => grind
    | last => grind
    | prev => grind
    | next => grind

/-- A click in the list opens another file of it. -/
theorem activateCall_target {d : Doc I} {idx : Int} {c : OpenCall} {i : Nat}
    (hpath : d.path = d.filePath i) (h : d.activateCall idx = some c) :
    ∃ j, j < d.dirfiles.length ∧ j ≠ i ∧ c.unifs = none ∧ c.path = d.filePath j ∧
      c.forceScanDir = false := by
  simp only [Doc.activateCall, Option.ite_none_left_eq_some, Option.some.injEq] at h
  obtain ⟨hin, hne, rfl⟩ := h
  refine ⟨idx.toNat, by omega, ?_, rfl, rfl, rfl⟩
  rintro rfl
  exact hne hpath.symm

theorem onActivateItem_open {idx : Int} {byMouse : Bool} {c : OpenCall}
    (h : s.doc.activateCall idx = some c) :
    (s.onActivateItem env idx byMouse).doc = (s.open env c).2.doc ∧
      (s.onActivateItem env idx byMouse).world = (s.open env c).2.world := by
  simp only [onActivateItem, h]
  split
  · exact ⟨rfl, rfl⟩
  · exact ⟨rfl, rfl⟩

/-- A navigation is an `open` of another file of the listing. -/
theorem navigates_open (h : s.doc.OnFile folder s.world z) {op : Op} (hnav : Navigates env s op)
    (hexec : s.exec env op = some s') :
    ∃ c j, j < z.list.length ∧ j ≠ z.idx ∧ s.fsOf c = some fs ∧ c.path = s.doc.filePath j ∧
      c.forceScanDir = false ∧ s'.doc = (s.open env c).2.doc ∧
      s'.world = (s.open env c).2.world := by
  have hlt : z.idx < s.doc.dirfiles.length := h.dirfiles ▸ z.idx_lt
  obtain ⟨⟨cmd, rfl⟩ | ⟨idx, byMouse, rfl⟩, hsome⟩ := hnav
  · rw [openCall, Option.isSome_map] at hsome
    obtain ⟨c, hcall⟩ := Option.isSome_iff_exists.mp hsome
    obtain ⟨j, hj, hne, hfs, hpath, hforce⟩ := navigateCall_target h.diridx hlt hcall
    rw [exec, navigate, hcall] at hexec
    obtain rfl := Option.some.inj hexec
    rw [h.unifs] at hfs
    refine ⟨c, j, h.dirfiles ▸ hj, hne, ?_, hpath, hforce, rfl, rfl⟩
    rw [fsOf, hfs]
    rfl
  · rw [openCall, Option.isSome_map] at hsome
    obtain ⟨c, hcall⟩ := Option.isSome_iff_exists.mp hsome
    have hshown : s.doc.path = s.doc.filePath z.idx := by
      rw [h.path, Doc.filePath, h.dir, h.dirfiles, z.getD_idx]
    obtain ⟨j, hj, hne, hfs, hpath, hforce⟩ := activateCall_target hshown hcall
    obtain rfl := Option.some.inj hexec
    obtain ⟨hdoc, hworld⟩ := onActivateItem_open hcall
    refine ⟨c, j, h.dirfiles ▸ hj, hne, ?_, hpath, hforce, hdoc, hworld⟩
    rw [fsOf, hfs, h.unifs]
    rfl

/-- **A navigation** goes to another listed file and leaves the one before in `_prevFile`. -/
theorem navigates_onFile (hc : Comparison env.strCmpLogicalW) (h : s.doc.OnFile folder s.world z)
    {op : Op} (hnav : Navigates env s op) (hexec : s.exec env op = some s') :
    ∃ z' : Cursor Str, s'.doc.OnFile folder s'.world z' ∧ z'.list = z.list ∧ z'.idx ≠ z.idx ∧
      s'.doc.prevFile = z.cur := by
  obtain ⟨c, j, hj, hne, hfs, hpath, hforce, hdoc, hworld⟩ := navigates_open h hnav hexec
  let z' := Cursor.ofList z.list j hj
  have hlist : z'.list = z.list := Cursor.ofList_list hj
  have hfile : c.path = joinPath dir z'.cur := by
    rw [hpath, Doc.filePath, h.dir, h.dirfiles, ← hlist, ← Cursor.ofList_idx hj, z'.getD_idx]
  have hhas : ∀ f ∈ z'.list, folder.Has s.world f := hlist ▸ h.has
  obtain ⟨hon, hprev⟩ := open_onFile (z := z') hc hfs hfile hforce h.dir
    (h.dirfiles.trans hlist.symm) (hlist ▸ h.sorted) hhas
  rw [← hdoc, ← hworld] at hon
  rw [← hdoc] at hprev
  refine ⟨z', hon, hlist, ?_, hprev.trans h.curFile⟩
  rw [Cursor.ofList_idx]
  exact hne

/-! ## Runs of deletions -/

/-- After `n` deletions the `n`-th of `files` is shown and the files from it on are still to come. -/
def Showing (folder : Folder env fs dir) (files : List Str) (n : Nat) (s : Sys W I) : Prop :=
  ∃ z : Cursor Str, s.doc.OnFile folder s.world z ∧
    z.cur :: z.order (s.doc.heading env.strCmpLogicalW) = files.drop n

/-- The files are shown one after the other, and after the last one the document is reset. -/
def Swept (folder : Folder env fs dir) (files : List Str) (n : Nat) (s : Sys W I) : Prop :=
  (n = files.length ∧ s.doc.Reset) ∨ Showing folder files n s

/-- What the code does: after the last file the document still has its path. -/
def Sweeping (folder : Folder env fs dir) (files : List Str) (n : Nat) (s : Sys W I) : Prop :=
  (n = files.length ∧ ∃ f ∈ files.getLast?, s.doc.Emptied (joinPath dir f)) ∨ Showing folder files n s

theorem Showing.lt_length {files : List Str} {n : Nat} (h : Showing folder files n s) :
    n < files.length := by
  obtain ⟨z, -, hfiles⟩ := h
  have hlen := congrArg List.length hfiles
  rw [List.length_cons, List.length_drop] at hlen
  omega

/-- The document is never reset. -/
theorem Sweeping.swept_iff {files : List Str} {n : Nat} (h : Sweeping folder files n s) :
    Swept folder files n s ↔ n < files.length := by
  constructor
  · rintro (⟨-, hreset⟩ | hshows)
    · obtain ⟨-, f, -, hempty⟩ | ⟨z, hon, -⟩ := h
      · exact absurd hreset hempty.not_reset
      · obtain ⟨img, himage⟩ := hon.image
        rw [hreset.image] at himage
        cases himage
    · exact hshows.lt_length
  · intro hlt
    obtain ⟨hlast, -⟩ | hshows := h
    · omega
    · exact .inr hshows

theorem sweeping_step (hc : LogicalComparison env.strCmpLogicalW) {files : List Str} {n : Nat} {op : Op}
    (h : Sweeping folder files n s) (hdel : Deletes env s op) (hexec : s.exec env op = some s') :
    Sweeping folder files (n + 1) s' := by
  obtain ⟨-, f, -, hempty⟩ | ⟨z, hon, hfiles⟩ := h
  · exact absurd hdel (emptied_not_deletes hempty)
  · obtain ⟨shift, hrun⟩ := exec_deletes hdel hexec
    obtain ⟨hlast, hnext⟩ := delete_step hc hon hrun
    have hrest : z.order (s.doc.heading env.strCmpLogicalW) = files.drop (n + 1) := by
      rw [← List.tail_drop, ← hfiles, List.tail_cons]
    cases hrem : z.remove (s.doc.heading env.strCmpLogicalW) with
    | none =>
      rw [Cursor.remove_eq_none_iff.mp hrem] at hfiles
      have hlen := congrArg List.length hfiles
      rw [List.length_singleton, List.length_drop] at hlen
      have hgetLast : files.getLast? = some z.cur := by
        rw [← List.take_append_drop n files, ← hfiles, List.getLast?_concat]
      exact .inl ⟨by omega, z.cur, hgetLast, hlast hrem⟩
    | some next =>
      obtain ⟨hd', z'⟩ := next
      obtain ⟨hon', hhead⟩ := hnext hd' z' hrem
      refine .inr ⟨z', hon', ?_⟩
      rw [hhead, ← hrest, Cursor.order_of_remove hrem]

theorem sweep_run (hc : LogicalComparison env.strCmpLogicalW) {files : List Str}
    (h : Sweeping folder files 0 s) {ops : List Op}
    (hrun : (docMachine env).Run (Deletes env) s ops s') : Sweeping folder files ops.length s' := by
  refine hrun.holds_with (P := fun ops s => Sweeping folder files ops.length s) ?_ [] h
  intro ops s op s' hswept hdel hstep
  rw [List.length_append]
  exact sweeping_step hc hswept hdel hstep

/-- The heading after a move between two listed files. -/
theorem heading_of_move (hc : LogicalComparison env.strCmpLogicalW)
    (h : s'.doc.OnFile folder s'.world z') (hlist : z'.list = z.list) (hne : z'.idx ≠ z.idx)
    (hprev : s'.doc.prevFile = z.cur) :
    s'.doc.heading env.strCmpLogicalW = headingOf z.idx z'.idx := by
  have hcur : z'.list[z.idx]? = some z.cur := by
    rw [hlist, z.getElem?_idx]
  rw [headingOf]
  split
  · rename_i hlt
    refine heading_ahead ?_
    rw [hprev, h.curFile]
    exact h.sorted.lt_of_lt hcur z'.getElem?_idx hlt
  · refine heading_back hc ?_ ?_
    · rw [hprev]
      exact (folder.name (h.has _ (hlist ▸ z.cur_mem))).1
    · rw [hprev, h.curFile]
      exact h.sorted.lt_of_lt z'.getElem?_idx hcur (by omega)

/-- **Repeated deletions.** A deletion succeeds if the file system carries it out. From a document
that shows the file at its index it goes on to the file right after or right before the one deleted
and puts the index there. After a navigation, a run of deletions shows the files on the side the
navigation went to and then those on the other, on each side the nearest first, as long as files are
left. The deletion of the last file empties the document but for its path, and does not reset it. -/
theorem delete_sweeps (hc : LogicalComparison env.strCmpLogicalW) (folder : Folder env fs dir) :
    (∀ (s : Sys W I) z shift w, s.doc.OnFile folder s.world z →
      Deleted env fs dir z.cur shift s.world w → Deletes env s (.remove shift)) ∧
    (∀ (s : Sys W I) z op s', s.doc.OnFile folder s.world z → Deletes env s op →
      s.exec env op = some s' →
      (z.list.eraseIdx z.idx = [] → s'.doc.Emptied (joinPath dir z.cur) ∧ ¬ s'.doc.Reset) ∧
        (z.list.eraseIdx z.idx ≠ [] → ∃ z' : Cursor Str, s'.doc.OnFile folder s'.world z' ∧
          z'.list = z.list.eraseIdx z.idx ∧ z.Adjacent z')) ∧
    ∀ (s₀ : Sys W I) z₀ nav s, s₀.doc.OnFile folder s₀.world z₀ → Navigates env s₀ nav →
      s₀.exec env nav = some s →
      ∃ z : Cursor Str, s.doc.OnFile folder s.world z ∧ z.list = z₀.list ∧ z.idx ≠ z₀.idx ∧
        ∀ ops s', (docMachine env).Run (Deletes env) s ops s' →
          (Swept folder (z.cur :: z.order (headingOf z₀.idx z.idx)) ops.length s' ↔
            ops.length < z.list.length) ∧
          Sweeping folder (z.cur :: z.order (headingOf z₀.idx z.idx)) ops.length s' := by
  refine ⟨fun s z shift w h => deletes_of_deleted h, ?_, ?_⟩
  · intro s z op s' hon hdel hexec
    obtain ⟨shift, hrun⟩ := exec_deletes hdel hexec
    obtain ⟨hlast, hnext⟩ := delete_step hc hon hrun
    refine ⟨fun hnil => ?_, fun hne => ?_⟩
    · have hempty := hlast (Cursor.eraseIdx_eq_nil_iff.mp hnil)
      exact ⟨hempty, hempty.not_reset⟩
    · cases hrem : z.remove (s.doc.heading env.strCmpLogicalW) with
      | none => exact absurd (Cursor.eraseIdx_eq_nil_iff.mpr hrem) hne
      | some next =>
        obtain ⟨hd', z'⟩ := next
        exact ⟨z', (hnext hd' z' hrem).1, Cursor.list_of_remove hrem, Cursor.adjacent_of_remove hrem⟩
  · intro s₀ z₀ nav s hon₀ hnav hexec
    obtain ⟨z, hon, hlist, hne, hprev⟩ := navigates_onFile hc.toComparison hon₀ hnav hexec
    refine ⟨z, hon, hlist, hne, fun ops s' hrun => ?_⟩
    have hsweeping : Sweeping folder (z.cur :: z.order (headingOf z₀.idx z.idx)) ops.length s' := by
      refine sweep_run hc (.inr ⟨z, hon, ?_⟩) hrun
      rw [heading_of_move hc hon hlist hne hprev, List.drop_zero]
    refine ⟨?_, hsweeping⟩
    have hlen : (z.cur :: z.order (headingOf z₀.idx z.idx)).length = z.list.length :=
      Cursor.order_length _ _
    rw [hsweeping.swept_iff, hlen]

end Sys

end

/-! ## A directory of three pictures -/

def threeNames : List Str := ["a.png".toList, "b.png".toList, "c.png".toList]

/-- The directory `/c`, with the names in it as the world; every picture in it decodes. -/
def shelf : Env (List Str) Bool Unit where
  openfile _ path w := (if fileNameOf path ∈ w then some true else none, w)
  lastStatus _ _ := STATUS_ERR_NOT_FOUND
  reconnect _ w := (false, w)
  readdir _ _ w := (none, w)
  removefile _ _ w := (-1, w)
  shFileOperation path _ w := (.done, w.filter fun f => shellDeletePath "/c".toList f ≠ path)
  zDataFile f := f
  seek _ w := w
  codecs := [⟨["png".toList], fun _ w => (.image (), w)⟩]
  filetype _ w := ("UNK".toList, w)
  getTickCount w := (0, w)
  ops := ⟨fun _ => 1, fun _ => 0, fun _ => 0, fun img _ => (.OK, img)⟩
  strCmpLogicalW a b :=
    if a.map Char.toLower = b.map Char.toLower then 0
    else if a.map Char.toLower < b.map Char.toLower then -1
    else 1
  sort l := l
  sort_perm l := .refl l

theorem shelf_comparison : LogicalComparison shelf.strCmpLogicalW :=
  { comparison_of_key (List.map Char.toLower) with
    folds := fun h => if_pos (eq_of_beq h) }

def shelfFolder : Folder shelf localFs "/c".toList where
  Has w f := f ∈ w ∧ f ∈ threeNames
  name {w f} h := by
    have hall : ∀ f ∈ threeNames, f ≠ [] ∧ '/' ∉ f := by decide
    exact hall f h.2
  opens {w f} h := by
    have hall : ∀ f ∈ threeNames, fileNameOf (joinPath "/c".toList f) = f ∧
        getExt (joinPath "/c".toList f) = "png".toList := by decide
    obtain ⟨hname, hext⟩ := hall f h.2
    refine ⟨true, false, (), w, w, ?_, ?_, fun g hg => hg⟩
    · simp only [attempt, shelf, hname, if_pos h.1]
      rfl
    · rw [decode, hext]
      rfl
  keeps {w w' f g shift} hgone hg hne := by
    obtain rfl : _ = w' := congrArg Prod.snd hgone
    refine ⟨List.mem_filter.mpr ⟨hg.1, ?_⟩, hg.2⟩
    rw [decide_eq_true_iff]
    intro hsame
    exact hne (List.cons.inj (List.append_cancel_left hsame)).2

/-- The document with `a.png` of three pictures on screen. -/
def shelfOpen : Sys (List Str) Unit where
  doc :=
    { image := some ⟨(), localFs, "/c/a.png".toList⟩
      path := "/c/a.png".toList
      unifs := some localFs
      dir := "/c".toList
      dirfiles := threeNames
      diridx := 0
      curFile := "a.png".toList }
  panel := ⟨[], false⟩
  ui := []
  deletions := []
  world := threeNames

theorem shelfOpen_onFile :
    shelfOpen.doc.OnFile shelfFolder shelfOpen.world
      ⟨[], "a.png".toList, ["b.png".toList, "c.png".toList]⟩ := by
  refine ⟨⟨(), rfl⟩, rfl, rfl, rfl, rfl, rfl, rfl, ?_, fun f hf => ⟨hf, hf⟩⟩
  change List.Pairwise (fun a b => shelf.strCmpLogicalW a b < 0) threeNames
  decide

/-- From `b.png`, reached with NEXT, a deletion goes to `c.png` and another one back to `a.png`. -/
theorem delete_sweeps_three :
    ∃ opened swept, shelfOpen.exec shelf (.navigate .next) = some opened ∧
      ∃ z : Cursor Str, opened.doc.OnFile shelfFolder opened.world z ∧ z.list = threeNames ∧
        Sys.Swept shelfFolder (z.cur :: z.order (headingOf 0 z.idx)) 2 swept := by
  obtain ⟨-, -, hsweep⟩ := Sys.delete_sweeps shelf_comparison shelfFolder
  obtain ⟨z, hon, hlist, -, hrun⟩ := hsweep shelfOpen _ (.navigate .next) _ shelfOpen_onFile
    ⟨.inl ⟨_, rfl⟩, by decide⟩ rfl
  have hsome : (Machine.execAll (Sys.exec shelf) (Sys.Deletes shelf)
      (shelfOpen.navigate shelf .next).2 [.remove false, .remove true]).isSome := by
    decide
  obtain ⟨swept, hswept⟩ := Option.isSome_iff_exists.mp hsome
  have htwo := (hrun _ swept (Machine.run_of_execAll hswept)).1
  exact ⟨_, swept, rfl, z, hon, hlist, htwo.mpr (by rw [hlist]; decide)⟩

/-- The third deletion leaves the directory empty, and the document with the path of `a.png`. -/
theorem last_deletion_not_reset :
    ∃ opened swept : Sys (List Str) Unit, LogicalComparison shelf.strCmpLogicalW ∧
      shelfOpen.doc.OnFile shelfFolder shelfOpen.world
        ⟨[], "a.png".toList, ["b.png".toList, "c.png".toList]⟩ ∧
      shelfOpen.exec shelf (.navigate .next) = some opened ∧
      (Sys.docMachine shelf).Run (Sys.Deletes shelf) opened
        [.remove false, .remove true, .remove false] swept ∧
      swept.doc.dirfiles = [] ∧ swept.doc.path = "/c/a.png".toList ∧ ¬ swept.doc.Reset := by
  have hrun : (Machine.execAll (Sys.exec shelf) (Sys.Deletes shelf)
      (shelfOpen.navigate shelf .next).2 [.remove false, .remove true, .remove false]).map
        (fun swept => (swept.doc.dirfiles, swept.doc.path)) = some ([], "/c/a.png".toList) := by
    decide
  obtain ⟨swept, hswept, hdoc⟩ := Option.map_eq_some_iff.mp hrun
  obtain ⟨hfiles, hpath⟩ := Prod.mk.inj hdoc
  refine ⟨_, swept, shelf_comparison, shelfOpen_onFile, rfl, Machine.run_of_execAll hswept, hfiles,
    hpath, fun hreset => ?_⟩
  rw [hreset.path] at hpath
  cases hpath

end ObZrv
