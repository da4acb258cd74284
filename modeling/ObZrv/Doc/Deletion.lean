import ObZrv.Doc.Displayed
import ObZrv.Lib.Machine

/-!
# Doc.Deletion

The file that is on screen and the file that `removeCurrentFile` asks to delete, over whole runs of
the document.

* `exec_displayed_iff`  : an operation leaves the index on the file shown exactly when it is proper.
* `shown_file_deleted`  : after a run of proper operations the deletion asked for is that of the file
  on screen, but for the native path of a drive.
* `other_file_deleted`  : three runs after which another file goes.
-/

namespace ObZrv

structure AbsPath where
  str : Str
  rooted : Rooted str

/-- What the windows do with the document. -/
inductive Op where
  | openFile (fs : Option UniFs) (path : AbsPath) (cmdid : Int) (forceScanDir : Bool) (dirHint : Int)
  | navigate (cmd : NavCmd)
  | refreshDir
  | activate (idx : Int) (byMouse : Bool)
  | slideShow (custom : Option Nat) (file : AbsPath)
  | remove (shift : Bool)

/-- A deletion goes to the file of an image: to its path on its file system, or to the native path
that was opened for it. -/
def Deletion.Names {I : Type} (lc : LetterCase) (img : Shown I) : Deletion → Prop
  | .removefile fs path => fs = img.unifs ∧ path = img.path
  | .shell path _ => img.unifs.remote = false ∧ lc.SameNative path (linuxPathToWin img.path)

namespace Sys

variable {W F I : Type}

/-- One operation; none where the program crashes. -/
def exec (env : Env W F I) (s : Sys W I) : Op → Option (Sys W I)
  | .openFile fs path cmdid forceScanDir dirHint =>
    some (s.open env ⟨fs, path.str, cmdid, forceScanDir, dirHint⟩).2
  | .navigate cmd => some (s.navigate env cmd).2
  | .refreshDir => some (s.refreshDir env).2
  | .activate idx byMouse => some (s.onActivateItem env idx byMouse)
  | .slideShow custom file => some (s.open env (slideShowCall custom file.str)).2
  | .remove shift => (s.removeCurrentFile env shift).map (·.2)

/-- The call of `open` that an operation makes, with the state it is made in. -/
def openCall (env : Env W F I) (s : Sys W I) : Op → Option (Sys W I × OpenCall)
  | .openFile fs path cmdid forceScanDir dirHint =>
    some (s, ⟨fs, path.str, cmdid, forceScanDir, dirHint⟩)
  | .navigate cmd => (s.doc.navigateCall cmd).map (s, ·)
  | .refreshDir => s.doc.refreshCall.map (s, ·)
  | .activate idx _ => (s.doc.activateCall idx).map (s, ·)
  | .slideShow custom file => some (s, slideShowCall custom file.str)
  | .remove shift =>
    match s.startRemove env shift with
    | .refresh s => s.doc.refreshCall.map (s, ·)
    | .goOn s c => some (s, c)
    | _ => none

/-- An operation that makes a proper call of `open`, or none. -/
def Proper (env : Env W F I) (lc : LetterCase) (s : Sys W I) (op : Op) : Prop :=
  ∀ s' c, s.openCall env op = some (s', c) → ProperOpen env lc s' c

/-- The document with its callers, from the empty document on. -/
def docMachine (env : Env W F I) : Lib.Machine (Sys W I) Op :=
  .ofExec (fun s => ∃ w, s = empty w) (exec env)

variable {env : Env W F I} {lc : LetterCase} {s s' : Sys W I} {op : Op}

/-! ## The calls of `open` -/

theorem filePath_rooted {d : Doc I} (h : d.WellFormed) (i : Nat) : Rooted (d.filePath i) :=
  rooted_joinPath h.dir_rooted _

theorem navigateCall_rooted {d : Doc I} {cmd : NavCmd} {c : OpenCall} (h : d.WellFormed)
    (hc : d.navigateCall cmd = some c) : Rooted c.path := by
  simp only [Doc.navigateCall, Option.ite_none_left_eq_some, Option.some.injEq] at hc
  obtain ⟨-, -, rfl⟩ := hc
  exact filePath_rooted h _

theorem refreshCall_rooted {d : Doc I} {c : OpenCall} (h : d.WellFormed)
    (hc : d.refreshCall = some c) : Rooted c.path := by
  simp only [Doc.refreshCall, Option.ite_none_left_eq_some, Option.some.injEq] at hc
  obtain ⟨hne, rfl⟩ := hc
  exact h.path_rooted hne

theorem activateCall_rooted {d : Doc I} {idx : Int} {c : OpenCall} (h : d.WellFormed)
    (hc : d.activateCall idx = some c) : Rooted c.path := by
  simp only [Doc.activateCall, Option.ite_none_left_eq_some, Option.some.injEq] at hc
  obtain ⟨-, -, rfl⟩ := hc
  exact filePath_rooted h _

/-! ## The start of a removal -/

theorem erased_wellFormed {d : Doc I} (h : d.WellFormed) (delIdx : Nat) :
    (d.erased delIdx).WellFormed :=
  { h with names := fun f hf => h.names f (List.mem_of_mem_eraseIdx hf) }

theorem emptied_wellFormed {d : Doc I} (h : d.WellFormed) : d.emptied.WellFormed :=
  ⟨nofun, h.path_rooted, fun hne => absurd rfl hne, nofun⟩

/-- What `removeCurrentFile` has done when it returns or opens a file again. -/
def Removal.Spec (s : Sys W I) : Removal W I → Prop
  | .crash => True
  | .stop _ s' => s'.doc = s.doc ∨ s'.doc = s.doc.emptied
  | .refresh s' => s'.doc = s.doc
  | .goOn s' c => ∃ delIdx next,
      s'.doc = s.doc.erased delIdx ∧ c.path = (s.doc.erased delIdx).filePath next

theorem afterDelete_spec (env : Env W F I) (s : Sys W I) (delIdx : Nat) :
    (s.afterDelete env delIdx).Spec s := by
  unfold afterDelete
  simp only
  split
  · exact .inr rfl
  · exact ⟨delIdx, _, rfl, rfl⟩

theorem startRemove_spec (env : Env W F I) (s : Sys W I) (shift : Bool) :
    (s.startRemove env shift).Spec s := by
  unfold startRemove
  split
  · exact .inl rfl
  · rename_i delIdx _
    simp only
    split
    · trivial
    · split
      · split
        · rfl
        · exact afterDelete_spec env { s with deletions := _, world := _ } delIdx
      · split
        · rfl
        · exact .inl rfl
        · exact afterDelete_spec env { s with deletions := _, world := _ } delIdx

/-! ## One operation -/

section Call

variable {s₁ : Sys W I} {c : OpenCall}

/-- An operation calls `open` on the document as it is, or in the middle of a removal. -/
theorem openCall_from (hcall : s.openCall env op = some (s₁, c)) :
    s₁ = s ∨ ∃ shift, s.startRemove env shift = .refresh s₁ ∨ s.startRemove env shift = .goOn s₁ c := by
  cases op with
  | openFile fs path cmdid forceScanDir dirHint => exact .inl (congrArg Prod.fst (Option.some.inj hcall)).symm
  | navigate cmd =>
    obtain ⟨_, -, heq⟩ := Option.map_eq_some_iff.mp hcall
    exact .inl (congrArg Prod.fst heq).symm
  | refreshDir =>
    obtain ⟨_, -, heq⟩ := Option.map_eq_some_iff.mp hcall
    exact .inl (congrArg Prod.fst heq).symm
  | activate idx byMouse =>
    obtain ⟨_, -, heq⟩ := Option.map_eq_some_iff.mp hcall
    exact .inl (congrArg Prod.fst heq).symm
  | slideShow custom file => exact .inl (congrArg Prod.fst (Option.some.inj hcall)).symm
  | remove shift =>
    refine .inr ⟨shift, ?_⟩
    simp only [openCall] at hcall
    split at hcall
    · rename_i hstart
      obtain ⟨_, -, heq⟩ := Option.map_eq_some_iff.mp hcall
      obtain ⟨rfl, -⟩ := Prod.mk.inj heq
      exact .inl hstart
    · rename_i hstart
      obtain ⟨rfl, rfl⟩ := Prod.mk.inj (Option.some.inj hcall)
      exact .inr hstart
    · cases hcall

theorem openCall_rooted (h : s.doc.WellFormed) (hcall : s.openCall env op = some (s₁, c)) :
    Rooted c.path := by
  cases op with
  | openFile fs path cmdid forceScanDir dirHint =>
    obtain ⟨-, rfl⟩ := Prod.mk.inj (Option.some.inj hcall)
    exact path.rooted
  | navigate cmd =>
    obtain ⟨c', hc, heq⟩ := Option.map_eq_some_iff.mp hcall
    obtain ⟨-, rfl⟩ := Prod.mk.inj heq
    exact navigateCall_rooted h hc
  | refreshDir =>
    obtain ⟨c', hc, heq⟩ := Option.map_eq_some_iff.mp hcall
    obtain ⟨-, rfl⟩ := Prod.mk.inj heq
    exact refreshCall_rooted h hc
  | activate idx byMouse =>
    obtain ⟨c', hc, heq⟩ := Option.map_eq_some_iff.mp hcall
    obtain ⟨-, rfl⟩ := Prod.mk.inj heq
    exact activateCall_rooted h hc
  | slideShow custom file =>
    obtain ⟨-, rfl⟩ := Prod.mk.inj (Option.some.inj hcall)
    exact file.rooted
  | remove shift =>
    have hspec := startRemove_spec env s shift
    simp only [openCall] at hcall
    split at hcall
    · rename_i s₂ hstart
      rw [hstart] at hspec
      have hdoc : s₂.doc = s.doc := hspec
      obtain ⟨c', hc, heq⟩ := Option.map_eq_some_iff.mp hcall
      obtain ⟨-, rfl⟩ := Prod.mk.inj heq
      exact refreshCall_rooted (hdoc ▸ h) hc
    · rename_i s₂ c₂ hstart
      rw [hstart] at hspec
      obtain ⟨delIdx, next, -, hpath⟩ := hspec
      obtain ⟨rfl, rfl⟩ := Prod.mk.inj (Option.some.inj hcall)
      rw [hpath]
      exact filePath_rooted (erased_wellFormed h delIdx) next
    · cases hcall

/-- An operation that calls `open` does to document and panel what that call does. -/
theorem exec_of_call (hcall : s.openCall env op = some (s₁, c)) (hexec : s.exec env op = some s') :
    s'.doc = (s₁.open env c).2.doc ∧ s'.panel = (s₁.open env c).2.panel := by
  cases op with
  | openFile fs path cmdid forceScanDir dirHint =>
    obtain ⟨rfl, rfl⟩ := Prod.mk.inj (Option.some.inj hcall)
    obtain rfl := Option.some.inj hexec
    exact ⟨rfl, rfl⟩
  | navigate cmd =>
    obtain ⟨c', hc, heq⟩ := Option.map_eq_some_iff.mp hcall
    obtain ⟨rfl, rfl⟩ := Prod.mk.inj heq
    obtain rfl := Option.some.inj hexec
    simp only [navigate, hc, and_self]
  | refreshDir =>
    obtain ⟨c', hc, heq⟩ := Option.map_eq_some_iff.mp hcall
    obtain ⟨rfl, rfl⟩ := Prod.mk.inj heq
    obtain rfl := Option.some.inj hexec
    simp only [refreshDir, hc, and_self]
  | activate idx byMouse =>
    obtain ⟨c', hc, heq⟩ := Option.map_eq_some_iff.mp hcall
    obtain ⟨rfl, rfl⟩ := Prod.mk.inj heq
    obtain rfl := Option.some.inj hexec
    simp only [onActivateItem, hc]
    split
    · exact ⟨rfl, rfl⟩
    · exact ⟨rfl, rfl⟩
  | slideShow custom file =>
    obtain ⟨rfl, rfl⟩ := Prod.mk.inj (Option.some.inj hcall)
    obtain rfl := Option.some.inj hexec
    exact ⟨rfl, rfl⟩
  | remove shift =>
    simp only [openCall] at hcall
    simp only [exec, removeCurrentFile] at hexec
    split at hcall
    · rename_i hstart
      obtain ⟨c', hc, heq⟩ := Option.map_eq_some_iff.mp hcall
      obtain ⟨rfl, rfl⟩ := Prod.mk.inj heq
      rw [hstart] at hexec
      obtain rfl := Option.some.inj hexec
      simp only [refreshDir, hc, and_self]
    · rename_i hstart
      obtain ⟨rfl, rfl⟩ := Prod.mk.inj (Option.some.inj hcall)
      rw [hstart] at hexec
      obtain rfl := Option.some.inj hexec
      exact ⟨rfl, rfl⟩
    · cases hcall

/-- An operation that does not call `open` leaves the state as it is, or ends within a removal. -/
theorem exec_of_none (hcall : s.openCall env op = none) (hexec : s.exec env op = some s') :
    s' = s ∨ ∃ shift, s.startRemove env shift = .refresh s' ∨
      ∃ res, s.startRemove env shift = .stop res s' := by
  cases op with
  | openFile fs path cmdid forceScanDir dirHint => cases hcall
  | navigate cmd =>
    obtain rfl := Option.some.inj hexec
    simp only [navigate, Option.map_eq_none_iff.mp hcall, true_or]
  | refreshDir =>
    obtain rfl := Option.some.inj hexec
    simp only [refreshDir, Option.map_eq_none_iff.mp hcall, true_or]
  | activate idx byMouse =>
    obtain rfl := Option.some.inj hexec
    simp only [onActivateItem, Option.map_eq_none_iff.mp hcall, true_or]
  | slideShow custom file => cases hcall
  | remove shift =>
    refine .inr ⟨shift, ?_⟩
    simp only [openCall] at hcall
    simp only [exec, removeCurrentFile] at hexec
    cases hstart : s.startRemove env shift with
    | crash => rw [hstart] at hexec; cases hexec
    | stop res s₁ =>
      rw [hstart] at hexec
      obtain rfl := Option.some.inj hexec
      exact .inr ⟨res, rfl⟩
    | refresh s₁ =>
      rw [hstart] at hcall hexec
      have hnone := Option.map_eq_none_iff.mp hcall
      obtain rfl := Option.some.inj hexec
      simp only [refreshDir, hnone]
      exact .inl trivial
    | goOn s₁ c => rw [hstart] at hcall; cases hcall

end Call

/-- What an operation does to the document: it goes through one call of `open`, made in a state that
differs from the one before by a deletion at most, or makes no such call. -/
theorem exec_cases (h : s.doc.WellFormed) (hd : s.doc.Displayed lc)
    (hexec : s.exec env op = some s') :
    (∃ s₁ c, s.openCall env op = some (s₁, c) ∧ Rooted c.path ∧ s₁.doc.WellFormed ∧
        s₁.doc.Displayed lc ∧ s'.doc = (s₁.open env c).2.doc) ∨
      (s.openCall env op = none ∧ s'.doc.WellFormed ∧ s'.doc.Displayed lc) := by
  cases hcall : s.openCall env op with
  | none =>
    refine .inr ⟨rfl, ?_⟩
    rcases exec_of_none hcall hexec with rfl | ⟨shift, hstart | ⟨res, hstart⟩⟩
    · exact ⟨h, hd⟩
    · have hspec := startRemove_spec env s shift
      rw [hstart] at hspec
      have hdoc : s'.doc = s.doc := hspec
      exact hdoc ▸ ⟨h, hd⟩
    · have hspec := startRemove_spec env s shift
      rw [hstart] at hspec
      rcases hspec with hdoc | hdoc
      · exact hdoc ▸ ⟨h, hd⟩
      · rw [hdoc]
        exact ⟨emptied_wellFormed h, Doc.displayed_of_closed rfl⟩
  | some call =>
    obtain ⟨s₁, c⟩ := call
    refine .inl ⟨s₁, c, rfl, openCall_rooted h hcall, ?_⟩
    rw [← and_assoc]
    refine ⟨?_, (exec_of_call hcall hexec).1⟩
    rcases openCall_from hcall with rfl | ⟨shift, hstart | hstart⟩
    · exact ⟨h, hd⟩
    · have hspec := startRemove_spec env s shift
      rw [hstart] at hspec
      have hdoc : s₁.doc = s.doc := hspec
      exact hdoc ▸ ⟨h, hd⟩
    · have hspec := startRemove_spec env s shift
      rw [hstart] at hspec
      obtain ⟨delIdx, next, hdoc, -⟩ := hspec
      rw [hdoc]
      exact ⟨erased_wellFormed h delIdx, Doc.displayed_of_noIndex rfl⟩

theorem exec_wellFormed (h : s.doc.WellFormed) (hd : s.doc.Displayed lc)
    (hexec : s.exec env op = some s') : s'.doc.WellFormed := by
  obtain ⟨s₁, c, -, hrooted, hwf, -, hdoc⟩ | ⟨-, hwf, -⟩ := exec_cases h hd hexec
  · rw [hdoc]
    exact open_wellFormed hwf hrooted
  · exact hwf

/-- **An operation leaves the index on the file shown** exactly when it is proper. -/
theorem exec_displayed_iff (h : s.doc.WellFormed) (hd : s.doc.Displayed lc)
    (hexec : s.exec env op = some s') : s'.doc.Displayed lc ↔ Proper env lc s op := by
  obtain ⟨s₁, c, hcall, hrooted, -, hd₁, hdoc⟩ | ⟨hcall, -, hd'⟩ := exec_cases h hd hexec
  · rw [hdoc, open_displayed_iff hd₁ hrooted, Proper, hcall]
    simp only [Option.some.injEq, Prod.mk.injEq, and_imp, forall_apply_eq_imp_iff, forall_eq']
  · refine iff_of_true hd' fun s₁ c hc => ?_
    rw [hcall] at hc
    cases hc

theorem reach_consistent (h : (docMachine env).Reach (Proper env lc) s) :
    s.doc.WellFormed ∧ s.doc.Displayed lc := by
  refine h.holds (P := fun s => s.doc.WellFormed ∧ s.doc.Displayed lc) ?_ ?_
  · rintro s ⟨w, rfl⟩
    exact ⟨⟨nofun, fun hne => absurd rfl hne, fun hne => absurd rfl hne, nofun⟩,
      Doc.displayed_of_closed rfl⟩
  · rintro s op s' ⟨hwf, hd⟩ hok hstep
    exact ⟨exec_wellFormed hwf hd hstep, (exec_displayed_iff hwf hd hstep).mpr hok⟩

/-! ## The deletion asked for -/

theorem showImage_deletions (env : Env W F I) (s : Sys W I) (img : I) (fs : UniFs) (path : Str)
    (cmdid : Int) : (s.showImage env img fs path cmdid).deletions = s.deletions := by
  unfold showImage
  simp only
  split
  · rfl
  · rfl

theorem rescan_deletions (env : Env W F I) (s : Sys W I) (before : Doc I) (fs : UniFs)
    (path target : Str) (scanned retried force : Bool) :
    (s.rescan env before fs path target scanned retried force).2.deletions = s.deletions := by
  unfold rescan
  split
  · split
    · rfl
    · rfl
    · rfl
  · rfl

theorem open_deletions (env : Env W F I) (s : Sys W I) (c : OpenCall) :
    (s.open env c).2.deletions = s.deletions := by
  unfold «open»
  split
  · rfl
  · split
    · rfl
    · rfl
    · rfl
    · rfl
    · rfl
    · unfold load
      simp only
      split
      · rfl
      · rw [rescan_deletions, showImage_deletions]
        rfl

theorem refreshDir_deletions (env : Env W F I) (s : Sys W I) :
    (s.refreshDir env).2.deletions = s.deletions := by
  unfold refreshDir
  split
  · rfl
  · exact open_deletions env s _

/-- What `removeCurrentFile` asks to delete at an index. -/
def deletionAt (d : Doc I) (fs : UniFs) (delIdx : Nat) (shift : Bool) : Deletion :=
  if fs.remote then .removefile fs (d.filePath delIdx)
  else .shell (shellDeletePath d.dir (d.dirfiles.getD delIdx [])) (!shift)

/-- The deletions asked for when `removeCurrentFile` returns or opens a file again. -/
def Removal.Asked (asked : List Deletion) : Removal W I → Prop
  | .crash => False
  | .stop _ s => s.deletions = asked
  | .refresh s => s.deletions = asked
  | .goOn s _ => s.deletions = asked

theorem afterDelete_asked (env : Env W F I) (s : Sys W I) (delIdx : Nat) :
    (s.afterDelete env delIdx).Asked s.deletions := by
  unfold afterDelete
  simp only
  split
  · rfl
  · rfl

theorem startRemove_asked {fs : UniFs} {delIdx : Nat} (hidx : s.doc.deleteIdx = some delIdx)
    (hfs : s.doc.unifs = some fs) (env : Env W F I) (shift : Bool) :
    (s.startRemove env shift).Asked (s.deletions ++ [deletionAt s.doc fs delIdx shift]) := by
  unfold startRemove deletionAt
  simp only [hidx, hfs]
  split
  · split
    · rfl
    · exact afterDelete_asked env _ delIdx
  · split
    · rfl
    · rfl
    · exact afterDelete_asked env _ delIdx

/-- With a file at the index and a file system, `removeCurrentFile` asks for one deletion. -/
theorem removeCurrentFile_asks {fs : UniFs} {delIdx : Nat} (hidx : s.doc.deleteIdx = some delIdx)
    (hfs : s.doc.unifs = some fs) (env : Env W F I) (shift : Bool) :
    ∃ res s', s.removeCurrentFile env shift = some (res, s') ∧
      s'.deletions = s.deletions ++ [deletionAt s.doc fs delIdx shift] := by
  have hasked := startRemove_asked hidx hfs env shift
  unfold removeCurrentFile
  cases hstart : s.startRemove env shift with
  | crash => rw [hstart] at hasked; exact absurd hasked id
  | stop res s' =>
    rw [hstart] at hasked
    exact ⟨res, s', rfl, hasked⟩
  | refresh s' =>
    rw [hstart] at hasked
    exact ⟨_, _, rfl, (refreshDir_deletions env s').trans hasked⟩
  | goOn s' c =>
    rw [hstart] at hasked
    exact ⟨_, _, rfl, (open_deletions env s' c).trans hasked⟩

/-- With the index on the file shown, the deletion asked for is that of the image, but for a native
path that begins with a drive. -/
theorem deletionAt_names_iff {img : Shown I} {i : Nat} (hwf : s.doc.WellFormed)
    (himg : s.doc.image = some img)
    (hsame : img.unifs.SameFile lc (s.doc.filePath i) s.doc.path) (shift : Bool) :
    (deletionAt s.doc img.unifs i shift).Names lc img ↔
      img.unifs.remote = true ∨ linuxPathToWin img.path = img.path := by
  obtain ⟨-, hpath⟩ := hwf.shown img himg
  unfold deletionAt
  split
  · rename_i hremote
    rw [UniFs.SameFile, if_pos hremote] at hsame
    exact iff_of_true ⟨rfl, hsame.trans hpath.symm⟩ (.inl hremote)
  · rename_i hlocal
    have hlocal' : img.unifs.remote = false := Bool.eq_false_iff.mpr hlocal
    have hne : s.doc.path ≠ [] := by
      intro hnil
      have hmap := hsame.same
      rw [hnil, LetterCase.Same, List.map_nil, List.map_eq_nil_iff] at hmap
      exact List.append_ne_nil_of_right_ne_nil _ (List.cons_ne_nil _ _) hmap
    have hrooted : Rooted img.path := hpath ▸ hwf.path_rooted hne
    -- the path for the shell, the path at the index and the path of the image are one native path
    have hshell : lc.SameNative
        (shellDeletePath s.doc.dir (s.doc.dirfiles.getD i [])) img.path :=
      (shellDeletePath_native lc _ _).trans (hpath ▸ hsame.same.native)
    have hopened := sameNative_linuxPathToWin_iff lc hrooted
    simp only [Deletion.Names, hlocal', true_and, Bool.false_eq_true, false_or, ← hopened]
    exact ⟨fun h => hshell.symm.trans h, fun h => hshell.trans h⟩

/-- **The file shown is the file deleted.** In every state that proper operations reach, the index
of a document with an image is on the file of the image, and `removeCurrentFile` asks for one
deletion, which goes to that file if it is on a remote file system or opened by its path as it
stands. From such a state an operation keeps this exactly when it is proper. -/
theorem shown_file_deleted (env : Env W F I) (lc : LetterCase) {s : Sys W I}
    (h : (docMachine env).Reach (Proper env lc) s) :
    s.doc.Displayed lc ∧
      (∀ img (i : Nat) shift, s.doc.image = some img → s.doc.diridx = i →
        i < s.doc.dirfiles.length →
        ∃ res s' deletion, s.removeCurrentFile env shift = some (res, s') ∧
          s'.deletions = s.deletions ++ [deletion] ∧
          (deletion.Names lc img ↔
            img.unifs.remote = true ∨ linuxPathToWin img.path = img.path)) ∧
      ∀ op s', s.exec env op = some s' → (s'.doc.Displayed lc ↔ Proper env lc s op) := by
  obtain ⟨hwf, hd⟩ := reach_consistent h
  refine ⟨hd, fun img i shift himg hidx hi => ?_, fun op s' => exec_displayed_iff hwf hd⟩
  have hdel : s.doc.deleteIdx = some i := by
    rw [Doc.deleteIdx, hidx, if_neg (by omega)]
    rfl
  obtain ⟨res, s', hrun, hasked⟩ :=
    removeCurrentFile_asks hdel (hwf.shown img himg).1 env shift
  exact ⟨res, s', _, hrun, hasked, deletionAt_names_iff hwf himg (hd img himg i hidx hi) shift⟩

end Sys

/-! ## A share with names that differ in case -/

/-- A directory `/s` with `A.png`, `a.png` and `b.png`, of which `b.png` cannot be opened, and a file
`/d/a.png`, on every file system. -/
def shareDisk : Env Unit Bool Unit :=
  disk
    (fun _ path =>
      if path = "/s/A.png".toList ∨ path = "/s/a.png".toList ∨ path = "/d/a.png".toList then some true
      else none)
    (fun _ dir =>
      if dir = "/s".toList then
        some [⟨"A.png".toList, true, by decide⟩, aPng, bPng]
      else none)

def lowerCase : LetterCase := ⟨Char.toLower, fun _ _ => rfl⟩

def openUpper : Op := .openFile (some remoteFs) ⟨"/s/A.png".toList, rfl⟩ (-1) true INT_MIN
def openLower : Op := .openFile (some remoteFs) ⟨"/s/a.png".toList, rfl⟩ (-1) true INT_MIN

def shareAfter (ops : List Op) : Sys Unit Unit :=
  (Lib.Machine.execAll (Sys.exec shareDisk) Lib.Machine.always (.empty ()) ops).getD (.empty ())

theorem shareAfter_reach (ops : List Op) :
    (Sys.docMachine shareDisk).Reach Lib.Machine.always (shareAfter ops) := by
  unfold shareAfter
  cases hrun : Lib.Machine.execAll (Sys.exec shareDisk) Lib.Machine.always (.empty ()) ops with
  | none => exact .of_init ⟨(), rfl⟩
  | some s => exact ⟨_, ops, ⟨(), rfl⟩, Lib.Machine.run_of_execAll hrun⟩

/-- The path on screen and the deletions `removeCurrentFile` asks for. -/
def shownAndDeleted (s : Sys Unit Unit) : Option Str × Option (List Deletion) :=
  (s.doc.image.map (·.path), (s.removeCurrentFile shareDisk false).map (·.2.deletions))

/-- **Another file goes.** On a remote server the scan after `a.png` was opened puts the index on
`A.png`; a fallback that ends on the unreadable `b.png` leaves the index there while `A.png` is on
screen; and a custom slide show opens `/d/a.png` while the directory is still `/s`. -/
theorem other_file_deleted :
    let scanned := shareAfter [openLower]
    let gaveUp := shareAfter [openUpper, .navigate .last]
    let slides := shareAfter [openUpper, .slideShow (some 2) ⟨"/d/a.png".toList, rfl⟩]
    ((Sys.docMachine shareDisk).Reach Lib.Machine.always scanned ∧
        ¬ scanned.doc.Displayed lowerCase ∧
        shownAndDeleted scanned =
          (some "/s/a.png".toList, some [.removefile remoteFs "/s/A.png".toList])) ∧
      ((Sys.docMachine shareDisk).Reach Lib.Machine.always gaveUp ∧
        ¬ gaveUp.doc.Displayed lowerCase ∧
        shownAndDeleted gaveUp =
          (some "/s/A.png".toList, some [.removefile remoteFs "/s/b.png".toList])) ∧
      ((Sys.docMachine shareDisk).Reach Lib.Machine.always slides ∧
        ¬ slides.doc.Displayed lowerCase ∧
        shownAndDeleted slides =
          (some "/d/a.png".toList, some [.shell "\\s\\a.png".toList true])) := by
  refine ⟨⟨shareAfter_reach _, fun h => ?_, by decide⟩, ⟨shareAfter_reach _, fun h => ?_, by decide⟩,
    ⟨shareAfter_reach _, fun h => ?_, by decide⟩⟩
  · exact absurd (h _ rfl 0 rfl (by decide)) (by unfold UniFs.SameFile LetterCase.Same; decide)
  · exact absurd (h _ rfl 2 rfl (by decide)) (by unfold UniFs.SameFile LetterCase.Same; decide)
  · exact absurd (h _ rfl 1 rfl (by decide)) (by unfold UniFs.SameFile LetterCase.Same; decide)

theorem openUpper_proper : Sys.Proper shareDisk lowerCase (.empty ()) openUpper := by
  rintro s' c hc fs hfs
  obtain ⟨rfl, rfl⟩ := Prod.mk.inj (Option.some.inj hc)
  obtain rfl := Option.some.inj hfs
  intro img _
  rw [if_pos rfl]
  intro _ l r hl f hf
  -- the scan finds `A.png` first
  obtain rfl := Option.some.inj (Attempt.got.inj hl).1
  exact (Option.some.inj hf).symm

theorem next_proper :
    Sys.Proper shareDisk lowerCase (shareAfter [openUpper]) (.navigate .next) := by
  rintro s' c hc fs hfs
  obtain ⟨rfl, rfl⟩ := Prod.mk.inj (Option.some.inj hc)
  obtain rfl := Option.some.inj hfs
  intro img _
  rw [if_neg Bool.false_ne_true]
  exact fun _ => rfl

/-- With `A.png` open and then the next file, `a.png` is on screen and `a.png` is deleted. -/
theorem shown_file_deleted_lower :
    let s := shareAfter [openUpper, .navigate .next]
    s.doc.Displayed lowerCase ∧
      ∃ res s' deletion, s.removeCurrentFile shareDisk false = some (res, s') ∧
        s'.deletions = [deletion] ∧ deletion.Names lowerCase ⟨(), remoteFs, "/s/a.png".toList⟩ := by
  have hreach : (Sys.docMachine shareDisk).Reach (Sys.Proper shareDisk lowerCase)
      (shareAfter [openUpper, .navigate .next]) :=
    ⟨.empty (), _, ⟨(), rfl⟩, .cons openUpper_proper rfl (.single next_proper rfl)⟩
  obtain ⟨hd, hdel, -⟩ := Sys.shown_file_deleted shareDisk lowerCase hreach
  obtain ⟨res, s', deletion, hrun, hasked, hnames⟩ := hdel _ 1 false rfl rfl (by decide)
  exact ⟨hd, res, s', deletion, hrun, hasked, hnames.mpr (.inl rfl)⟩

end ObZrv
