import ObZrv.Doc.Deletion

/-!
# Doc.Panel

The rows of the file panel and the files of the document, over whole runs of the document.

* `open_mirrors_iff` : an `open` leaves the rows on the files exactly when it is a proper update.
* `panel_mirrors`    : after a run of proper updates the rows are the files, in order, and a row that
  is activated opens the file it shows.
* `stale_rows`       : two runs after which the rows are others.
-/

namespace ObZrv

open Lib

/-- What is assumed of directory listings: `StrCmpLogicalW` compares, and the names of one listing
are strictly ordered by it. -/
structure Env.StrictListings {W F I : Type} (env : Env W F I) : Prop where
  cmp : Comparison env.strCmpLogicalW
  sorted : ∀ fs path w l, (updateDir env fs path w).1 = some l →
    StrictlySorted env.strCmpLogicalW l.files

namespace Sys

variable {W F I : Type}

/-- The rows are the files. -/
def Mirrors (s : Sys W I) : Prop := s.panel.rows = s.doc.dirfiles

/-- The condition on a call of `open`, from what the calls it makes give back.
* The fallback gives up: names of its listing that `StrCmpLogicalW` takes for old ones are spelled
  like them.
* The file picked by the fallback does not decode: the listing is the old one.
* A file is shown, and the directory was scanned and is the old one: names are spelled as before. -/
def ProperUpdate (env : Env W F I) (s : Sys W I) (c : OpenCall) : Prop :=
  ∀ fs, s.fsOf c = some fs →
    match acquire env fs c.path c.dirHint s.world with
    | (.gaveUp l, _) => Agree env.strCmpLogicalW s.doc.dirfiles l.files
    | (.opened uf (some l) _, w) =>
      match (decode env uf l.path w).1 with
      | .error _ _ => l.files = s.doc.dirfiles
      | .image _ => l.dir = s.doc.dir → Agree env.strCmpLogicalW s.doc.dirfiles l.files
    | (.opened uf none retried, w) =>
      ∀ img, (decode env uf c.path w).1 = .image img → c.forceScanDir = true → ∀ l r,
        (attempt env fs retried (updateDir env fs c.path)
          (clockRead env img (decode env uf c.path w).2)).1 = .got (some l) r →
        l.dir = s.doc.dir → Agree env.strCmpLogicalW s.doc.dirfiles l.files
    | _ => True

variable {env : Env W F I} {s s' : Sys W I} {op : Op}

/-! ## One call of open -/

theorem clearOpenState_mirrors (s : Sys W I) : s.clearOpenState.Mirrors := rfl

section Finish

variable {before : Doc I} {target : Str}

/-- Step 4 after a scan: the rows were the files before the call. -/
theorem finish_scanned_mirrors_iff (hc : Comparison env.strCmpLogicalW)
    (hrows : s.panel.rows = before.dirfiles)
    (hold : StrictlySorted env.strCmpLogicalW before.dirfiles)
    (hnew : StrictlySorted env.strCmpLogicalW s.doc.dirfiles) :
    (s.finish env before true target).2.Mirrors ↔
      (s.doc.dir = before.dir → Agree env.strCmpLogicalW before.dirfiles s.doc.dirfiles) := by
  have hiff := mergeKept_eq_iff hc hold hnew
  simp only [finish, Mirrors, Doc.rotate, not_true_eq_false, if_false]
  split
  · rename_i hdir
    rw [FileList.smoothRebuild_rows _ hrows, hiff]
    exact ⟨fun h _ => h, fun h => h hdir⟩
  · rename_i hdir
    exact iff_of_true (FileList.rebuild_rows _) fun h => absurd h hdir

theorem finish_kept_mirrors_iff :
    (s.finish env before false target).2.Mirrors ↔ s.panel.rows = s.doc.dirfiles := by
  simp only [finish, Mirrors, Doc.rotate, Bool.false_eq_true, not_false_eq_true, if_true]
  rfl

theorem findTarget_dirfiles (d : Doc I) (target : Str) : (d.findTarget target).dirfiles = d.dirfiles := by
  unfold Doc.findTarget
  split
  · rfl
  · rfl

theorem findTarget_dir (d : Doc I) (target : Str) : (d.findTarget target).dir = d.dir := by
  unfold Doc.findTarget
  split
  · rfl
  · rfl

end Finish

section Load

variable {c : OpenCall} {fs : UniFs} {uf : F} {retried : Bool}

theorem load_undecoded_panel (s : Sys W I) (c : OpenCall) (fs : UniFs) (picked : Option Listing)
    (retried : Bool) {res : IM} {ne : res ≠ .OK}
    (hdec : (decode env uf ((picked.map Listing.path).getD c.path) s.world).1 = .error res ne) :
    (s.load env c fs uf picked retried).2.panel = s.panel := by
  unfold load
  simp only
  split
  · rfl
  · rename_i hdec'
    cases hdec.symm.trans (congrArg Prod.fst hdec')

theorem load_picked_mirrors_iff (hc : Comparison env.strCmpLogicalW) {l : Listing}
    (h : s.Mirrors) (hold : StrictlySorted env.strCmpLogicalW s.doc.dirfiles)
    (hnew : StrictlySorted env.strCmpLogicalW l.files) :
    (s.load env c fs uf (some l) retried).2.Mirrors ↔
      match (decode env uf l.path s.world).1 with
      | .error _ _ => l.files = s.doc.dirfiles
      | .image _ => l.dir = s.doc.dir → Agree env.strCmpLogicalW s.doc.dirfiles l.files := by
  cases hdec : (decode env uf l.path s.world).1 with
  | error res ne =>
    rw [Mirrors, load_undecoded_panel s c fs (some l) retried hdec,
      (load_undecoded s c fs (some l) retried hdec).2, h]
    exact eq_comm
  | image img =>
    obtain ⟨s', hshown, -, hpanel, hload⟩ := load_decoded c fs (some l) retried hdec
    have hfiles : s'.doc.dirfiles = l.files := hshown.dirfiles
    have hdir : s'.doc.dir = l.dir := hshown.dir
    rw [hload, rescan, if_neg (fun hforce => hforce.2 rfl)]
    refine (finish_scanned_mirrors_iff hc (hpanel.symm ▸ h) hold ?_).trans ?_
    · rw [findTarget_dirfiles, hfiles]
      exact hnew
    · rw [findTarget_dirfiles, findTarget_dir, hfiles, hdir]

theorem load_asked_mirrors_iff (hl : env.StrictListings) (h : s.Mirrors)
    (hold : StrictlySorted env.strCmpLogicalW s.doc.dirfiles) :
    (s.load env c fs uf none retried).2.Mirrors ↔
      ∀ img, (decode env uf c.path s.world).1 = .image img → c.forceScanDir = true → ∀ l r,
        (attempt env fs retried (updateDir env fs c.path)
          (clockRead env img (decode env uf c.path s.world).2)).1 = .got (some l) r →
        l.dir = s.doc.dir → Agree env.strCmpLogicalW s.doc.dirfiles l.files := by
  cases hdec : (decode env uf c.path s.world).1 with
  | error res ne =>
    have hmirrors : (s.load env c fs uf none retried).2.Mirrors := by
      rw [Mirrors, load_undecoded_panel s c fs none retried hdec,
        (load_undecoded s c fs none retried hdec).2]
      exact h
    refine iff_of_true hmirrors ?_
    intro img himg
    cases himg
  | image img =>
    obtain ⟨s', hshown, hworld, hpanel, hload⟩ := load_decoded c fs none retried hdec
    simp only [Option.map_none, Option.getD_none] at hshown hworld hload
    have hfiles : s'.doc.dirfiles = s.doc.dirfiles := hshown.dirfiles
    have hrows : s'.panel.rows = s.doc.dirfiles := hpanel.symm ▸ h
    rw [hload]
    simp only [Decoded.image.injEq, forall_eq']
    rw [← hworld]
    cases hforce : c.forceScanDir with
    | false =>
      rw [rescan, if_neg (fun hf => Bool.false_ne_true hf.1)]
      refine iff_of_true (finish_kept_mirrors_iff.mpr ?_) ?_
      · rw [findTarget_dirfiles, hfiles]
        exact hrows
      · intro hf
        cases hf
    | true =>
      rw [rescan, if_pos ⟨rfl, Bool.false_ne_true⟩]
      split
      · rename_i hscan
        rw [hscan]
        refine iff_of_true (clearOpenState_mirrors _) ?_
        intro _ l r hgot
        cases hgot
      · rename_i hscan
        rw [hscan]
        refine iff_of_true (clearOpenState_mirrors _) ?_
        intro _ l r hgot
        cases hgot
      · rename_i l r w hscan
        obtain ⟨w', hdir⟩ := attempt_got (congrArg Prod.fst hscan)
        have hnew := hl.sorted _ _ _ _ hdir
        rw [hscan]
        refine (finish_scanned_mirrors_iff (s := { s' with doc := s'.doc.setListing l, world := w })
          hl.cmp hrows hold hnew).trans ?_
        refine ⟨fun hag _ l' r' hl' => ?_, fun hag => hag rfl l r rfl⟩
        obtain rfl := Option.some.inj (Attempt.got.inj hl').1
        exact hag

end Load

theorem acquire_sorted (hl : env.StrictListings) {fs : UniFs} {path : Str} {dirHint : Int} {w : W}
    {l : Listing} (h : (acquire env fs path dirHint w).1.picked = some l) :
    StrictlySorted env.strCmpLogicalW l.files := by
  obtain ⟨w', l₀, hdir, -, rfl⟩ := acquire_scanned h
  exact hl.sorted fs path w' l₀ hdir

/-- **An `open` leaves the rows on the files** exactly when it is a proper update. -/
theorem open_mirrors_iff {c : OpenCall} (hl : env.StrictListings) (h : s.Mirrors)
    (hold : StrictlySorted env.strCmpLogicalW s.doc.dirfiles) :
    (s.open env c).2.Mirrors ↔ ProperUpdate env s c := by
  unfold ProperUpdate
  cases hfs : s.fsOf c with
  | none =>
    simp only [«open», hfs]
    refine iff_of_true h ?_
    intro fs hfs'
    cases hfs'
  | some fs =>
    have hlisted : ∀ l, (acquire env fs c.path c.dirHint s.world).1.picked = some l →
        StrictlySorted env.strCmpLogicalW l.files := fun l => acquire_sorted hl
    simp only [Option.some.injEq, forall_eq', «open», hfs]
    generalize hacq : acquire env fs c.path c.dirHint s.world = r at hlisted ⊢
    obtain ⟨got, w⟩ := r
    cases got with
    | refused => exact iff_of_true h trivial
    | lost => exact iff_of_true (clearOpenState_mirrors _) trivial
    | noDir => exact iff_of_true (clearOpenState_mirrors _) trivial
    | noFiles => exact iff_of_true (clearOpenState_mirrors _) trivial
    | gaveUp l =>
      simp only [Mirrors]
      rw [FileList.smoothRebuild_rows _ h]
      exact mergeKept_eq_iff hl.cmp hold (hlisted l rfl)
    | opened uf picked retried =>
      cases picked with
      | none => exact load_asked_mirrors_iff (s := s.setWorld w) hl h hold
      | some l => exact load_picked_mirrors_iff (s := s.setWorld w) hl.cmp h hold (hlisted l rfl)

/-! ## Sorted files -/

/-- The files are strictly ordered, as the listing was that they come from. -/
def Sorted (env : Env W F I) (s : Sys W I) : Prop :=
  StrictlySorted env.strCmpLogicalW s.doc.dirfiles

theorem sorted_of_files (h : s.Sorted env) (hfiles : s'.doc.dirfiles = s.doc.dirfiles) :
    s'.Sorted env := by
  rw [Sorted, hfiles]
  exact h

theorem clearOpenState_sorted (env : Env W F I) (s : Sys W I) : s.clearOpenState.Sorted env :=
  List.Pairwise.nil

theorem rescan_sorted (hl : env.StrictListings) (h : s.Sorted env) (before : Doc I) (fs : UniFs)
    (path target : Str) (scanned retried force : Bool) :
    (s.rescan env before fs path target scanned retried force).2.Sorted env := by
  unfold rescan
  split
  · split
    · exact clearOpenState_sorted _ _
    · exact clearOpenState_sorted _ _
    · rename_i l r w hscan
      obtain ⟨w', hdir⟩ := attempt_got (congrArg Prod.fst hscan)
      exact hl.sorted _ _ _ l hdir
  · exact sorted_of_files h (findTarget_dirfiles s.doc target)

theorem load_sorted (hl : env.StrictListings) (h : s.Sorted env) {c : OpenCall} {fs : UniFs} {uf : F}
    {picked : Option Listing} {retried : Bool}
    (hpicked : ∀ l, picked = some l → StrictlySorted env.strCmpLogicalW l.files) :
    (s.load env c fs uf picked retried).2.Sorted env := by
  have hclosed : StrictlySorted env.strCmpLogicalW (s.doc.closedFor fs picked).dirfiles := by
    cases picked with
    | none => exact h
    | some l => exact hpicked l rfl
  cases hdec : (decode env uf ((picked.map Listing.path).getD c.path) s.world).1 with
  | error res ne =>
    rw [Sorted, (load_undecoded s c fs picked retried hdec).2]
    exact hclosed
  | image img =>
    obtain ⟨s', hshown, -, -, hload⟩ := load_decoded c fs picked retried hdec
    rw [hload]
    refine rescan_sorted hl ?_ _ _ _ _ _ _ _
    rw [Sorted, hshown.dirfiles]
    exact hclosed

theorem open_sorted {c : OpenCall} (hl : env.StrictListings) (h : s.Sorted env) :
    (s.open env c).2.Sorted env := by
  unfold «open»
  split
  · exact h
  · rename_i fs _
    have hlisted : ∀ l, (acquire env fs c.path c.dirHint s.world).1.picked = some l →
        StrictlySorted env.strCmpLogicalW l.files := fun l => acquire_sorted hl
    split
    · exact h
    · exact clearOpenState_sorted _ _
    · exact clearOpenState_sorted _ _
    · exact clearOpenState_sorted _ _
    · rename_i l w hacq
      rw [hacq] at hlisted
      exact hlisted l rfl
    · rename_i uf picked retried w hacq
      rw [hacq] at hlisted
      exact load_sorted (s := s.setWorld w) hl h fun l => hlisted l

/-! ## Removals -/

/-- The rows are the files, and these are sorted. -/
structure Tracked (env : Env W F I) (s : Sys W I) : Prop where
  mirrors : s.Mirrors
  sorted : s.Sorted env

/-- What `removeCurrentFile` leaves when it returns or opens a file again. -/
def Removal.Tracked (env : Env W F I) : Removal W I → Prop
  | .crash => True
  | .stop _ s => s.Tracked env
  | .refresh s => s.Tracked env
  | .goOn s _ => s.Tracked env

theorem afterDelete_tracked (h : s.Tracked env) (delIdx : Nat) :
    (s.afterDelete env delIdx).Tracked env := by
  unfold afterDelete
  simp only
  split
  · exact ⟨rfl, List.Pairwise.nil⟩
  · refine ⟨?_, h.sorted.sublist (List.eraseIdx_sublist _ _)⟩
    exact congrArg (List.eraseIdx · delIdx) h.mirrors

theorem startRemove_tracked (h : s.Tracked env) (shift : Bool) :
    (s.startRemove env shift).Tracked env := by
  unfold startRemove
  split
  · exact h
  · rename_i delIdx _
    have hdel : ∀ deletions world,
        ({ s with deletions, world } : Sys W I).Tracked env := fun _ _ => ⟨h.mirrors, h.sorted⟩
    simp only
    split
    · trivial
    · split
      · split
        · exact hdel _ _
        · exact afterDelete_tracked (hdel _ _) delIdx
      · split
        · exact hdel _ _
        · exact hdel _ _
        · exact afterDelete_tracked (hdel _ _) delIdx

/-! ## One operation -/

/-- An operation that makes a proper update or does not open a file. -/
def KeepsRows (env : Env W F I) (s : Sys W I) (op : Op) : Prop :=
  ∀ s₁ c, s.openCall env op = some (s₁, c) → ProperUpdate env s₁ c

theorem openCall_tracked {s₁ : Sys W I} {c : OpenCall} (h : s.Tracked env)
    (hcall : s.openCall env op = some (s₁, c)) : s₁.Tracked env := by
  rcases openCall_from hcall with rfl | ⟨shift, hstart⟩
  · exact h
  · have hremoved := startRemove_tracked h shift
    rcases hstart with hstart | hstart
    · rw [hstart] at hremoved
      exact hremoved
    · rw [hstart] at hremoved
      exact hremoved

theorem exec_sorted (hl : env.StrictListings) (h : s.Tracked env) (hexec : s.exec env op = some s') :
    s'.Sorted env := by
  cases hcall : s.openCall env op with
  | none =>
    rcases exec_of_none hcall hexec with rfl | ⟨shift, hstart⟩
    · exact h.sorted
    · have hremoved := startRemove_tracked h shift
      rcases hstart with hstart | ⟨res, hstart⟩
      · rw [hstart] at hremoved
        exact hremoved.sorted
      · rw [hstart] at hremoved
        exact hremoved.sorted
  | some call =>
    obtain ⟨hdoc, -⟩ := exec_of_call hcall hexec
    have hopen := open_sorted (c := call.2) hl (openCall_tracked h hcall).sorted
    exact sorted_of_files hopen (congrArg Doc.dirfiles hdoc)

/-- **An operation leaves the rows on the files** exactly when it keeps them. -/
theorem exec_mirrors_iff (hl : env.StrictListings) (h : s.Tracked env)
    (hexec : s.exec env op = some s') : s'.Mirrors ↔ KeepsRows env s op := by
  cases hcall : s.openCall env op with
  | none =>
    refine iff_of_true ?_ fun s₁ c hc => ?_
    · rcases exec_of_none hcall hexec with rfl | ⟨shift, hstart⟩
      · exact h.mirrors
      · have hremoved := startRemove_tracked h shift
        rcases hstart with hstart | ⟨res, hstart⟩
        · rw [hstart] at hremoved
          exact hremoved.mirrors
        · rw [hstart] at hremoved
          exact hremoved.mirrors
    · rw [hcall] at hc
      cases hc
  | some call =>
    obtain ⟨s₁, c⟩ := call
    obtain ⟨hdoc, hpanel⟩ := exec_of_call hcall hexec
    have htracked := openCall_tracked h hcall
    rw [Mirrors, hdoc, hpanel, KeepsRows, hcall]
    refine (open_mirrors_iff hl htracked.mirrors htracked.sorted).trans ?_
    simp only [Option.some.injEq, Prod.mk.injEq, and_imp, forall_apply_eq_imp_iff, forall_eq']

end Sys

/-! ## Runs -/

/-- What is done with the document; `clearOpenState` as a call of its own. -/
inductive DocOp where
  | op (o : Op)
  | clearOpenState

namespace Sys

variable {W F I : Type}

def execDoc (env : Env W F I) (s : Sys W I) : DocOp → Option (Sys W I)
  | .op o => s.exec env o
  | .clearOpenState => some s.clearOpenState

def ProperDocOp (env : Env W F I) (s : Sys W I) : DocOp → Prop
  | .op o => KeepsRows env s o
  | .clearOpenState => True

/-- The document with its panel, from the empty document and the empty panel on. -/
def panelMachine (env : Env W F I) : Machine (Sys W I) DocOp :=
  .ofExec (fun s => ∃ w, s = empty w) (execDoc env)

variable {env : Env W F I} {s s' : Sys W I}

theorem execDoc_mirrors_iff (hl : env.StrictListings) (h : s.Tracked env) {op : DocOp}
    (hexec : s.execDoc env op = some s') : s'.Mirrors ↔ ProperDocOp env s op := by
  cases op with
  | op o => exact exec_mirrors_iff hl h hexec
  | clearOpenState =>
    obtain rfl := Option.some.inj hexec
    exact iff_of_true (clearOpenState_mirrors s) trivial

theorem execDoc_sorted (hl : env.StrictListings) (h : s.Tracked env) {op : DocOp}
    (hexec : s.execDoc env op = some s') : s'.Sorted env := by
  cases op with
  | op o => exact exec_sorted hl h hexec
  | clearOpenState =>
    obtain rfl := Option.some.inj hexec
    exact clearOpenState_sorted env s

theorem reach_tracked (hl : env.StrictListings)
    (h : (panelMachine env).Reach (ProperDocOp env) s) : s.Tracked env := by
  refine h.holds (P := fun s => s.Tracked env) ?_ ?_
  · rintro s ⟨w, rfl⟩
    exact ⟨rfl, List.Pairwise.nil⟩
  · intro s op s' htracked hok hstep
    exact ⟨(execDoc_mirrors_iff hl htracked hstep).mpr hok, execDoc_sorted hl htracked hstep⟩

/-- **The panel mirrors the document.** In every state that proper operations reach the rows are the
files in their order; activating a row opens the file it shows, unless that is the one on screen. From
such a state an operation keeps this exactly when it is proper. -/
theorem panel_mirrors (env : Env W F I) (hl : env.StrictListings) {s : Sys W I}
    (h : (panelMachine env).Reach (ProperDocOp env) s) :
    s.panel.rows = s.doc.dirfiles ∧
      (∀ (i : Nat) (name : Str), s.panel.rows[i]? = some name →
        s.doc.activateCall i =
          if joinPath s.doc.dir name = s.doc.path then none
          else
            some
              { unifs := none
                path := joinPath s.doc.dir name
                cmdid := -1
                forceScanDir := false
                dirHint := 1 }) ∧
      ∀ op s', s.execDoc env op = some s' → (s'.panel.rows = s'.doc.dirfiles ↔ ProperDocOp env s op) := by
  have htracked := reach_tracked hl h
  refine ⟨htracked.mirrors, fun i name hrow => ?_, fun op s' => execDoc_mirrors_iff hl htracked⟩
  rw [htracked.mirrors] at hrow
  obtain ⟨hi, hname⟩ := List.getElem?_eq_some_iff.mp hrow
  have hpath : s.doc.filePath i = joinPath s.doc.dir name := by
    rw [Doc.filePath, ← List.getElem_eq_getD (h := hi), hname]
  rw [Doc.activateCall, if_neg (by omega), Int.toNat_natCast, hpath]

end Sys

/-! ## Disks with strict listings -/

/-- The order of keys, as a three-way comparison. -/
theorem comparison_of_key (key : Str → Str) :
    Comparison fun a b => if key a = key b then 0 else if key a < key b then (-1 : Int) else 1 := by
  have hlt : ∀ a b, (if key a = key b then 0 else if key a < key b then (-1 : Int) else 1) < 0 ↔
      key a < key b := by
    intro a b
    split
    · rename_i heq
      rw [heq]
      exact iff_of_false (by decide) (List.lt_irrefl _)
    · split
      · rename_i h
        exact iff_of_true (by decide) h
      · rename_i h
        exact iff_of_false (by decide) h
  have hgt : ∀ a b, 0 < (if key a = key b then 0 else if key a < key b then (-1 : Int) else 1) ↔
      key b < key a := by
    intro a b
    split
    · rename_i heq
      rw [heq]
      exact iff_of_false (by decide) (List.lt_irrefl _)
    · rename_i hne
      split
      · rename_i h
        exact iff_of_false (by decide) (List.lt_asymm h)
      · rename_i h
        refine iff_of_true (by decide) ?_
        by_contra hnot
        exact hne (List.le_antisymm hnot h)
  constructor
  · intro a b c hab hbc
    exact (hlt a c).mpr (List.lt_trans ((hlt a b).mp hab) ((hlt b c).mp hbc))
  · intro a b
    rw [hlt, hgt]

theorem strictListings_of {W F I : Type} {env : Env W F I} (hc : Comparison env.strCmpLogicalW)
    (hsort : ∀ l, env.sort l = l)
    (hentries : ∀ fs dir w es, (env.readdir fs dir w).1 = some es →
      StrictlySorted env.strCmpLogicalW (es.map (·.name))) : env.StrictListings := by
  refine ⟨hc, fun fs path w l h => ?_⟩
  unfold updateDir at h
  simp only at h
  split at h
  · obtain rfl := Option.some.inj h
    exact List.Pairwise.nil
  · split at h
    · cases h
    · rename_i es w' hdir
      obtain rfl := Option.some.inj h
      simp only [hsort]
      exact (hentries _ _ _ es (congrArg Prod.fst hdir)).sublist (List.filter_sublist.map _)

theorem picturesDisk_strict : picturesDisk.StrictListings := by
  refine strictListings_of (comparison_of_key id) (fun _ => rfl) fun fs dir w es h => ?_
  by_cases hdir : dir = "/c".toList
  · rw [show picturesDisk.readdir fs dir w = (some _, w) from congrArg (·, w) (if_pos hdir)] at h
    obtain rfl := Option.some.inj h
    unfold StrictlySorted
    decide
  · rw [show picturesDisk.readdir fs dir w = (none, w) from congrArg (·, w) (if_neg hdir)] at h
    cases h

theorem capitalA_ok : '/' ∉ "A.png".toList := by decide

/-- A directory `/r` in which `a.png` becomes `A.png` after it has been listed once; its file system
does not tell the two names apart, and neither does `StrCmpLogicalW`. -/
def renamedDisk : Env Bool Bool Unit where
  openfile _ path w := (if path = "/r/a.png".toList then some true else none, w)
  lastStatus _ _ := STATUS_ERR_NOT_FOUND
  reconnect _ w := (false, w)
  readdir _ _ w := (some [if w then ⟨"A.png".toList, true, capitalA_ok⟩ else aPng], true)
  removefile _ _ w := (0, w)
  shFileOperation _ _ w := (.done, w)
  zDataFile f := f
  seek _ w := w
  codecs := [⟨["png".toList], fun _ w => (.image (), w)⟩]
  filetype _ w := ("UNK".toList, w)
  getTickCount w := (0, w)
  ops := ⟨fun _ => 1, fun _ => 0, fun _ => 0, fun img _ => (.OK, img)⟩
  strCmpLogicalW a b :=
    if a.map Char.toLower = b.map Char.toLower then 0
    else if a.map Char.toLower < b.map Char.toLower then -1
    else 1
  sort l := l
  sort_perm l := .refl l

theorem renamedDisk_strict : renamedDisk.StrictListings := by
  refine strictListings_of (comparison_of_key (·.map Char.toLower)) (fun _ => rfl) fun fs dir w es h => ?_
  obtain rfl := Option.some.inj h
  exact List.pairwise_singleton _ _

def docAfter {W F I : Type} (env : Env W F I) (w : W) (ops : List DocOp) : Sys W I :=
  (Machine.execAll (Sys.execDoc env) Machine.always (.empty w) ops).getD (.empty w)

theorem docAfter_reach {W F I : Type} (env : Env W F I) (w : W) (ops : List DocOp) :
    (Sys.panelMachine env).Reach Machine.always (docAfter env w ops) := by
  unfold docAfter
  cases hrun : Machine.execAll (Sys.execDoc env) Machine.always (.empty w) ops with
  | none => exact .of_init ⟨w, rfl⟩
  | some s => exact ⟨_, ops, ⟨w, rfl⟩, Machine.run_of_execAll hrun⟩

/-- **Rows of other files.** The fallback of an `open` in `/c` goes to `c.png`, which does not decode:
the files are those of `/c`, the panel stays empty. After `a.png` has become `A.png` the panel still
shows `a.png`. -/
theorem stale_rows :
    let undecoded := docAfter picturesDisk ()
      [.op (.openFile (some localFs) ⟨"/c/bb.png".toList, rfl⟩ (-1) false 1)]
    let renamed := docAfter renamedDisk false
      [.op (.openFile (some localFs) ⟨"/r/a.png".toList, rfl⟩ (-1) true 1), .op .refreshDir]
    (picturesDisk.StrictListings ∧ (Sys.panelMachine picturesDisk).Reach Machine.always undecoded ∧
        undecoded.panel.rows = [] ∧
        undecoded.doc.dirfiles = ["a.png".toList, "b.png".toList, "c.png".toList]) ∧
      (renamedDisk.StrictListings ∧ (Sys.panelMachine renamedDisk).Reach Machine.always renamed ∧
        renamed.panel.rows = ["a.png".toList] ∧ renamed.doc.dirfiles = ["A.png".toList]) :=
  ⟨⟨picturesDisk_strict, docAfter_reach _ _ _, by decide, by decide⟩,
    ⟨renamedDisk_strict, docAfter_reach _ _ _, by decide, by decide⟩⟩

theorem openPicture_proper :
    Sys.ProperDocOp picturesDisk (.empty ())
      (.op (.openFile (some localFs) ⟨"/c/a.png".toList, rfl⟩ (-1) true INT_MIN)) := by
  rintro s₁ c hc fs hfs
  obtain ⟨rfl, rfl⟩ := Prod.mk.inj (Option.some.inj hc)
  obtain rfl := Option.some.inj hfs
  intro img _ _ l r _ _ o ho
  cases ho

theorem panel_mirrors_pictures :
    (docAfter picturesDisk ()
        [.op (.openFile (some localFs) ⟨"/c/a.png".toList, rfl⟩ (-1) true INT_MIN)]).panel.rows =
      ["a.png".toList, "b.png".toList, "c.png".toList] := by
  have hreach : (Sys.panelMachine picturesDisk).Reach (Sys.ProperDocOp picturesDisk)
      (docAfter picturesDisk ()
        [.op (.openFile (some localFs) ⟨"/c/a.png".toList, rfl⟩ (-1) true INT_MIN)]) :=
    ⟨.empty (), _, ⟨(), rfl⟩, .single openPicture_proper rfl⟩
  rw [(Sys.panel_mirrors picturesDisk picturesDisk_strict hreach).1]
  decide

end ObZrv
