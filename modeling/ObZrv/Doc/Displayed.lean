import ObZrv.Doc.Failure

/-!
# Doc.Displayed

Whether the file at the directory index is the file on screen, over one call of `Doc::open`.

* `Doc.Displayed`, `Doc.WellFormed` : the invariant, and what it rests on.
* `open_wellFormed`     : every `open` keeps the second part.
* `open_displayed_iff`  : an `open` keeps the first part exactly when it is proper.
-/

namespace ObZrv

/-- Two paths name the same file: on a remote file system names are case-sensitive. -/
def UniFs.SameFile (lc : LetterCase) (fs : UniFs) (a b : Str) : Prop :=
  if fs.remote then a = b else lc.Same a b

theorem UniFs.SameFile.same {lc : LetterCase} {fs : UniFs} {a b : Str} (h : fs.SameFile lc a b) :
    lc.Same a b := by
  unfold UniFs.SameFile at h
  split at h
  · rw [h]; rfl
  · exact h

theorem UniFs.sameFile_rfl {lc : LetterCase} {fs : UniFs} {a : Str} : fs.SameFile lc a a := by
  unfold UniFs.SameFile
  split
  · rfl
  · rfl

/-- The file of that name in `dir` is the file itself just when `dir` is its directory. -/
theorem UniFs.sameFile_joinPath_left {lc : LetterCase} {fs : UniFs} {dir path : Str}
    (h : Rooted path) :
    fs.SameFile lc (joinPath dir (fileNameOf path)) path ↔ fs.SameFile lc dir (dirOf path) := by
  obtain ⟨hsplit, -⟩ := joinPath_dirOf_fileNameOf h.slash_mem
  generalize fileNameOf path = name at hsplit ⊢
  generalize dirOf path = own at hsplit ⊢
  subst hsplit
  simp only [UniFs.SameFile, LetterCase.Same, joinPath, List.map_append, List.append_left_inj]

/-- Paths in one directory are the same file just when their file names are the same. -/
theorem UniFs.sameFile_joinPath_right {lc : LetterCase} {fs : UniFs} {dir a b : Str} :
    fs.SameFile lc (joinPath dir a) (joinPath dir b) ↔ fs.SameFile lc a b := by
  simp only [UniFs.SameFile, LetterCase.Same, joinPath, List.map_append, List.map_cons,
    List.append_right_inj, List.cons.injEq, true_and]

/-- `_wcsicmp` finds a name that is the same up to letter case. -/
theorem same_of_wcsicmpEq (lc : LetterCase) {a b : Str}
    (h : wcsicmpEq (a.map Char.toLower) b = true) : lc.Same a b := by
  have heq : (a.map Char.toLower).map Char.toLower = b.map Char.toLower := eq_of_beq h
  clear h
  induction a generalizing b with
  | nil =>
    obtain rfl : b = [] := List.map_eq_nil_iff.mp heq.symm
    rfl
  | cons x xs ih =>
    cases b with
    | nil => cases heq
    | cons y ys =>
      simp only [List.map_cons, List.cons.injEq] at heq
      exact congrArg₂ List.cons (lc.fold_eq_of_toLower heq.1) (ih heq.2)

namespace Doc

variable {I : Type}

/-- With an image on screen and the index in the directory, the file at the index is the one at
`_path`. -/
def Displayed (lc : LetterCase) (d : Doc I) : Prop :=
  ∀ img, d.image = some img → ∀ i : Nat, d.diridx = i → i < d.dirfiles.length →
    img.unifs.SameFile lc (d.filePath i) d.path

/-- The image is that of `_path` on `_unifs`, and paths and names are formed as they should be. -/
structure WellFormed (d : Doc I) : Prop where
  shown : ∀ img, d.image = some img → d.unifs = some img.unifs ∧ img.path = d.path
  path_rooted : d.path ≠ [] → Rooted d.path
  dir_rooted : d.dir ≠ [] → Rooted d.dir
  names : ∀ f ∈ d.dirfiles, '/' ∉ f

theorem displayed_of_closed {lc : LetterCase} {d : Doc I} (h : d.image = none) : Displayed lc d := by
  intro img himg
  rw [h] at himg
  cases himg

theorem displayed_of_noIndex {lc : LetterCase} {d : Doc I} (h : d.diridx = -1) : Displayed lc d := by
  intro img _ i hi
  omega

theorem displayed_iff_at (lc : LetterCase) (d : Doc I) {img : Shown I} {j : Nat}
    (himg : d.image = some img) (hidx : d.diridx = j) (hj : j < d.dirfiles.length) :
    Displayed lc d ↔ img.unifs.SameFile lc (d.filePath j) d.path := by
  constructor
  · intro h
    exact h img himg j hidx hj
  · intro h img' himg' i hi _
    obtain rfl : img = img' := Option.some.inj (himg.symm.trans himg')
    obtain rfl : j = i := Int.ofNat_inj.mp (hidx.symm.trans hi)
    exact h

theorem WellFormed.setListing {d : Doc I} {l : Listing} (h : WellFormed d)
    (hdir : l.dir ≠ [] → Rooted l.dir) (hnames : ∀ f ∈ l.files, '/' ∉ f) :
    WellFormed (d.setListing l) :=
  { h with dir_rooted := hdir, names := hnames }

theorem WellFormed.close {d : Doc I} (h : WellFormed d) : WellFormed d.close :=
  { h with shown := nofun }

theorem WellFormed.clearOpenState (d : Doc I) : WellFormed d.clearOpenState :=
  ⟨nofun, fun h => absurd rfl h, fun h => absurd rfl h, nofun⟩

theorem WellFormed.findTarget {d : Doc I} (h : WellFormed d) (target : Str) :
    WellFormed (d.findTarget target) := by
  unfold Doc.findTarget
  split
  · exact { h with }
  · exact h

/-- The index after the search of step 3, if there was none before. -/
theorem findTarget_displayed_iff {lc : LetterCase} {d : Doc I} {img : Shown I} {target : Str}
    (himg : d.image = some img) (hidx : d.diridx = -1) :
    Displayed lc (d.findTarget target) ↔
      (target ∈ d.dirfiles → img.unifs.SameFile lc (joinPath d.dir target) d.path) := by
  cases hfind : d.dirfiles.findIdx? (· == target) with
  | none =>
    have hsame : d.findTarget target = d := by simp only [Doc.findTarget, hfind]
    have hnot : target ∉ d.dirfiles := fun hmem => by
      have := List.findIdx?_eq_none_iff.mp hfind target hmem
      simp at this
    rw [hsame]
    exact iff_of_true (displayed_of_noIndex hidx) (fun hmem => absurd hmem hnot)
  | some j =>
    obtain ⟨hj, heq, -⟩ := List.findIdx?_eq_some_iff_getElem.mp hfind
    have htarget : d.dirfiles[j] = target := eq_of_beq heq
    have hset : d.findTarget target = { d with diridx := j } := by
      simp only [Doc.findTarget, hfind]
    have hfile : filePath { d with diridx := (j : Int) } j = joinPath d.dir target := by
      rw [filePath, ← List.getElem_eq_getD (h := hj), htarget]
    have hiff := displayed_iff_at lc { d with diridx := j } himg rfl hj
    rw [hset, hiff, hfile]
    exact ⟨fun h _ => h, fun h => h (htarget ▸ List.getElem_mem hj)⟩

/-- The index after a scan for `_path` itself: on a remote file system the first name equal up to
the case of ASCII letters has to be the exact one. -/
theorem setListing_displayed_iff (lc : LetterCase) {d : Doc I} {img : Shown I} {l : Listing}
    (himg : d.image = some img) (hpath : Rooted d.path) (hl : l.Of d.path) :
    Displayed lc (d.setListing l) ↔
      (img.unifs.remote = true → ∀ f,
        l.files.find? (wcsicmpEq ((fileNameOf d.path).map Char.toLower)) = some f →
        f = fileNameOf d.path) := by
  obtain ⟨hjoin, -⟩ := joinPath_dirOf_fileNameOf hpath.slash_mem
  have hidx := hl.idx
  cases hfind : l.files.findIdx? (wcsicmpEq ((fileNameOf d.path).map Char.toLower)) with
  | none =>
    rw [hfind, Option.map_none, Option.getD_none] at hidx
    rw [List.find?_eq_bind_findIdx?_getElem?, hfind]
    exact iff_of_true (displayed_of_noIndex hidx) nofun
  | some j =>
    rw [hfind, Option.map_some, Option.getD_some] at hidx
    obtain ⟨hj, heq, -⟩ := List.findIdx?_eq_some_iff_getElem.mp hfind
    have hdir : l.dir = dirOf d.path := by
      rcases hl.dir with h | ⟨-, h⟩
      · exact h
      · simp only [h, List.length_nil, Nat.not_lt_zero] at hj
    have hfile : (d.setListing l).filePath j = joinPath (dirOf d.path) l.files[j] := by
      simp only [filePath, setListing, hdir, ← List.getElem_eq_getD (h := hj)]
    have hfirst : l.files.find? (wcsicmpEq ((fileNameOf d.path).map Char.toLower)) =
        some l.files[j] := by
      rw [List.find?_eq_bind_findIdx?_getElem?, hfind]
      exact List.getElem?_eq_getElem hj
    -- the file at the index against `_path`, both in the directory of `_path`
    have hsame : img.unifs.SameFile lc ((d.setListing l).filePath j) (d.setListing l).path ↔
        img.unifs.SameFile lc l.files[j] (fileNameOf d.path) := by
      rw [hfile, ← UniFs.sameFile_joinPath_right (b := fileNameOf d.path), hjoin]
      rfl
    rw [displayed_iff_at lc (d.setListing l) himg hidx hj, hsame, hfirst]
    simp only [Option.some.injEq, forall_eq', UniFs.SameFile]
    split
    · rename_i hremote
      exact ⟨fun h _ => h, fun h => h hremote⟩
    · rename_i hlocal
      exact iff_of_true (same_of_wcsicmpEq lc heq).symm (fun h => absurd h hlocal)

end Doc

namespace Sys

variable {W F I : Type} {env : Env W F I} {lc : LetterCase} {s : Sys W I}

/-- The world after the clock has been read for an animation. -/
def clockRead (env : Env W F I) (img : I) (w : W) : W :=
  if env.ops.isAnim img then (env.getTickCount w).2 else w

/-- The condition on a call of `open`, from what the calls it makes give back.
* The fallback gives up: its pick is the file on screen.
* A file is shown and its directory not scanned: if its name is one of `_dirfiles`, it lies in
  `_dir`.
* A file is shown and its directory scanned: on a remote file system the first name equal to its own
  up to the case of ASCII letters is its own. -/
def ProperOpen (env : Env W F I) (lc : LetterCase) (s : Sys W I) (c : OpenCall) : Prop :=
  ∀ fs, s.fsOf c = some fs →
    match acquire env fs c.path c.dirHint s.world with
    | (.gaveUp l, _) => ∀ img, s.doc.image = some img → img.unifs.SameFile lc l.path s.doc.path
    | (.opened uf none retried, w) =>
      ∀ img, (decode env uf c.path w).1 = .image img →
        if c.forceScanDir then
          fs.remote = true → ∀ l r,
            (attempt env fs retried (updateDir env fs c.path)
              (clockRead env img (decode env uf c.path w).2)).1 = .got (some l) r →
            ∀ f, l.files.find? (wcsicmpEq ((fileNameOf c.path).map Char.toLower)) = some f →
              f = fileNameOf c.path
        else fileNameOf c.path ∈ s.doc.dirfiles → fs.SameFile lc s.doc.dir (dirOf c.path)
    | _ => True

/-! ## The fields of the document along `open` -/

theorem clearOpenState_displayed : (s.clearOpenState).doc.Displayed lc :=
  Doc.displayed_of_closed rfl

/-- What `showImage` leaves of a closed document. -/
structure ShownOn (d : Doc I) (img : Shown I) (d' : Doc I) : Prop where
  image : d'.image = some img
  path : d'.path = img.path
  unifs : d'.unifs = d.unifs
  dir : d'.dir = d.dir
  dirfiles : d'.dirfiles = d.dirfiles
  diridx : d'.diridx = d.diridx

theorem showImage_shownOn {d : Doc I} (hdoc : s.doc = d) (img : I) (fs : UniFs) (path : Str)
    (cmdid : Int) : ShownOn d ⟨img, fs, path⟩ (s.showImage env img fs path cmdid).doc := by
  subst hdoc
  unfold showImage
  simp only
  split
  · exact ⟨rfl, rfl, rfl, rfl, rfl, rfl⟩
  · exact ⟨rfl, rfl, rfl, rfl, rfl, rfl⟩

theorem showImage_panel (img : I) (fs : UniFs) (path : Str) (cmdid : Int) :
    (s.showImage env img fs path cmdid).panel = s.panel := by
  unfold showImage
  simp only
  split
  · rfl
  · rfl

theorem showImage_world (img : I) (fs : UniFs) (path : Str) (cmdid : Int) :
    (s.showImage env img fs path cmdid).world = clockRead env img s.world := by
  unfold showImage clockRead
  simp only
  split
  · rfl
  · rfl

section Rescan

variable {before : Doc I} {fs : UniFs} {path target : Str} {scanned retried force : Bool}

theorem rescan_wellFormed (h : s.doc.WellFormed) (hpath : Rooted path) :
    (s.rescan env before fs path target scanned retried force).2.doc.WellFormed := by
  unfold rescan
  split
  · split
    · exact .clearOpenState _
    · exact .clearOpenState _
    · rename_i l r _ hscan
      obtain ⟨w', hdir⟩ := attempt_got (congrArg Prod.fst hscan)
      have hof : l.Of path := updateDir_of hdir
      refine { h.setListing (fun hne => ?_) hof.names with }
      rcases hof.dir with hd | ⟨hd, -⟩
      · rw [hd] at hne ⊢
        exact hpath.dirOf hne
      · exact absurd hd hne
  · exact { h.findTarget target with }

theorem rescan_kept_displayed_iff {img : Shown I} (himg : s.doc.image = some img)
    (hidx : s.doc.diridx = -1) (hkept : ¬ (force = true ∧ ¬ scanned = true)) :
    (s.rescan env before fs path target scanned retried force).2.doc.Displayed lc ↔
      (target ∈ s.doc.dirfiles → img.unifs.SameFile lc (joinPath s.doc.dir target) s.doc.path) := by
  rw [← Doc.findTarget_displayed_iff himg hidx, rescan, if_neg hkept]
  rfl

theorem rescan_scanned_displayed_iff (before : Doc I) (fs : UniFs) (target : Str) (retried : Bool)
    {img : Shown I} (himg : s.doc.image = some img)
    (hpath : Rooted s.doc.path) :
    (s.rescan env before fs s.doc.path target false retried true).2.doc.Displayed lc ↔
      (img.unifs.remote = true → ∀ l r,
        (attempt env fs retried (updateDir env fs s.doc.path) s.world).1 = .got (some l) r →
        ∀ f, l.files.find? (wcsicmpEq ((fileNameOf s.doc.path).map Char.toLower)) = some f →
          f = fileNameOf s.doc.path) := by
  rw [rescan, if_pos ⟨rfl, Bool.false_ne_true⟩]
  split
  · rename_i hscan
    rw [hscan]
    exact iff_of_true clearOpenState_displayed nofun
  · rename_i hscan
    rw [hscan]
    exact iff_of_true clearOpenState_displayed nofun
  · rename_i l r w hscan
    obtain ⟨w', hdir⟩ := attempt_got (congrArg Prod.fst hscan)
    have hiff := Doc.setListing_displayed_iff lc himg hpath (updateDir_of hdir)
    rw [hscan]
    refine hiff.trans ⟨fun h hremote l' r' hl' => ?_, fun h hremote => h hremote l r rfl⟩
    obtain rfl := Option.some.inj (Attempt.got.inj hl').1
    exact h hremote

end Rescan

section Load

variable {c : OpenCall} {fs : UniFs} {uf : F} {picked : Option Listing} {retried : Bool}

/-- Step 2 on a file that decodes: step 3 starts from a document that shows it, without an index. -/
theorem load_decoded (c : OpenCall) (fs : UniFs) (picked : Option Listing) (retried : Bool) {img : I}
    (hdec : (decode env uf ((picked.map Listing.path).getD c.path) s.world).1 = .image img) :
    ∃ s' : Sys W I,
      ShownOn (s.doc.closedFor fs picked) ⟨img, fs, (picked.map Listing.path).getD c.path⟩ s'.doc ∧
      s'.world = clockRead env img
        (decode env uf ((picked.map Listing.path).getD c.path) s.world).2 ∧
      s'.panel = s.panel ∧
      (s.load env c fs uf picked retried).2 =
        (s'.rescan env s.doc fs c.path ((picked.map Listing.name).getD (fileNameOf c.path))
          picked.isSome retried c.forceScanDir).2 := by
  unfold load
  simp only
  split
  · rename_i hdec'
    cases hdec.symm.trans (congrArg Prod.fst hdec')
  · rename_i img' w hdec'
    obtain rfl : img = img' := Decoded.image.inj (hdec.symm.trans (congrArg Prod.fst hdec'))
    refine ⟨_, ?_, ?_, ?_, rfl⟩
    · refine showImage_shownOn ?_ img fs _ c.cmdid
      rfl
    · rw [showImage_world]
      exact congrArg (clockRead env img) (congrArg Prod.snd hdec').symm
    · exact showImage_panel img fs _ c.cmdid

theorem wellFormed_closedFor (h : s.doc.WellFormed)
    (hpicked : ∀ l, picked = some l → (l.dir ≠ [] → Rooted l.dir) ∧ ∀ f ∈ l.files, '/' ∉ f) :
    (s.doc.closedFor fs picked).WellFormed := by
  cases picked with
  | none => exact { h with shown := nofun }
  | some l =>
    obtain ⟨hdir, hnames⟩ := hpicked l rfl
    exact { h.setListing hdir hnames with shown := nofun }

theorem load_wellFormed (h : s.doc.WellFormed) (hpath : Rooted c.path)
    (hpicked : ∀ l, picked = some l → l.dir = dirOf c.path ∧ ∀ f ∈ l.files, '/' ∉ f) :
    (s.load env c fs uf picked retried).2.doc.WellFormed := by
  have hrooted : ∀ l, picked = some l → l.dir ≠ [] → Rooted l.dir := by
    intro l hl hne
    rw [(hpicked l hl).1] at hne ⊢
    exact hpath.dirOf hne
  have hclosed : (s.doc.closedFor fs picked).WellFormed :=
    wellFormed_closedFor h fun l hl => ⟨hrooted l hl, (hpicked l hl).2⟩
  cases hdec : (decode env uf ((picked.map Listing.path).getD c.path) s.world).1 with
  | error res ne =>
    rw [(load_undecoded s c fs picked retried hdec).2]
    exact hclosed
  | image img =>
    obtain ⟨s', hshown, -, -, hload⟩ := load_decoded c fs picked retried hdec
    rw [hload]
    refine rescan_wellFormed ⟨?_, ?_, ?_, ?_⟩ hpath
    · intro img' himg'
      obtain rfl := Option.some.inj (hshown.image.symm.trans himg')
      exact ⟨hshown.unifs, hshown.path.symm⟩
    · intro _
      rw [hshown.path]
      cases picked with
      | none => exact hpath
      | some l => exact rooted_joinPath (hrooted l rfl) _
    · rw [hshown.dir]
      exact hclosed.dir_rooted
    · rw [hshown.dirfiles]
      exact hclosed.names

/-- A file the fallback picked is the one found again in its listing. -/
theorem load_picked_displayed {l : Listing} :
    (s.load env c fs uf (some l) retried).2.doc.Displayed lc := by
  cases hdec : (decode env uf l.path s.world).1 with
  | error res ne =>
    refine Doc.displayed_of_closed ?_
    rw [(load_undecoded s c fs (some l) retried hdec).2]
    rfl
  | image img =>
    obtain ⟨s', hshown, -, -, hload⟩ :=
      load_decoded c fs (some l) retried hdec
    rw [hload]
    refine (rescan_kept_displayed_iff hshown.image hshown.diridx (fun h => h.2 rfl)).mpr fun _ => ?_
    rw [hshown.path, hshown.dir]
    exact UniFs.sameFile_rfl

theorem load_asked_displayed_iff (hpath : Rooted c.path) :
    (s.load env c fs uf none retried).2.doc.Displayed lc ↔
      ∀ img, (decode env uf c.path s.world).1 = .image img →
        if c.forceScanDir then
          fs.remote = true → ∀ l r,
            (attempt env fs retried (updateDir env fs c.path)
              (clockRead env img (decode env uf c.path s.world).2)).1 = .got (some l) r →
            ∀ f, l.files.find? (wcsicmpEq ((fileNameOf c.path).map Char.toLower)) = some f →
              f = fileNameOf c.path
        else fileNameOf c.path ∈ s.doc.dirfiles → fs.SameFile lc s.doc.dir (dirOf c.path) := by
  cases hdec : (decode env uf c.path s.world).1 with
  | error res ne =>
    refine iff_of_true (Doc.displayed_of_closed ?_) nofun
    rw [(load_undecoded s c fs none retried hdec).2]
    rfl
  | image img =>
    obtain ⟨s', hshown, hworld, -, hload⟩ :=
      load_decoded c fs none retried hdec
    simp only [Option.map_none, Option.getD_none] at hshown hworld hload
    have hpath' : s'.doc.path = c.path := hshown.path
    rw [hload]
    simp only [Decoded.image.injEq, forall_eq']
    cases hforce : c.forceScanDir with
    | false =>
      refine (rescan_kept_displayed_iff hshown.image hshown.diridx (by simp)).trans ?_
      rw [hpath', hshown.dirfiles, hshown.dir, if_neg Bool.false_ne_true]
      exact forall_congr' fun _ => UniFs.sameFile_joinPath_left hpath
    | true =>
      have hrooted : Rooted s'.doc.path := hpath' ▸ hpath
      rw [if_pos rfl, ← hworld, ← hpath']
      exact rescan_scanned_displayed_iff s.doc fs (fileNameOf s'.doc.path) retried hshown.image hrooted

end Load

/-- **What an `open` keeps whatever it finds.** -/
theorem open_wellFormed {c : OpenCall} (h : s.doc.WellFormed) (hpath : Rooted c.path) :
    (s.open env c).2.doc.WellFormed := by
  unfold «open»
  split
  · exact h
  · rename_i fs _
    have hpick : ∀ l, (acquire env fs c.path c.dirHint s.world).1.picked = some l →
        l.dir = dirOf c.path ∧ ∀ f ∈ l.files, '/' ∉ f :=
      fun l hl => ⟨(acquire_picked hl).1, (acquire_picked hl).2.1⟩
    split
    · exact h
    · exact .clearOpenState _
    · exact .clearOpenState _
    · exact .clearOpenState _
    · rename_i l w hacq
      obtain ⟨hdir, hnames⟩ := hpick l (by rw [hacq]; rfl)
      refine h.setListing (fun hne => ?_) hnames
      rw [hdir] at hne ⊢
      exact hpath.dirOf hne
    · rename_i uf picked retried w hacq
      rw [hacq] at hpick
      exact load_wellFormed h hpath hpick

/-- **An `open` leaves the index on the file shown** exactly when it is proper. -/
theorem open_displayed_iff {c : OpenCall} (h : s.doc.Displayed lc) (hpath : Rooted c.path) :
    (s.open env c).2.doc.Displayed lc ↔ ProperOpen env lc s c := by
  unfold ProperOpen
  cases hfs : s.fsOf c with
  | none =>
    simp only [«open», hfs]
    exact iff_of_true h fun _ hfs' => by cases hfs'
  | some fs =>
    simp only [Option.some.injEq, forall_eq', «open», hfs]
    generalize hacq : acquire env fs c.path c.dirHint s.world = r
    obtain ⟨got, w⟩ := r
    cases got with
    | refused => exact iff_of_true h trivial
    | lost => exact iff_of_true clearOpenState_displayed trivial
    | noDir => exact iff_of_true clearOpenState_displayed trivial
    | noFiles => exact iff_of_true clearOpenState_displayed trivial
    | gaveUp l =>
      obtain ⟨-, -, i, hidx, hi⟩ := acquire_picked (by rw [hacq]; rfl)
      have hpick : (s.doc.setListing l).filePath i = l.path := by
        rw [Listing.path, Listing.name, hidx]
        rfl
      cases himg : s.doc.image with
      | none => exact iff_of_true (Doc.displayed_of_closed himg) fun _ himg' => by cases himg'
      | some img =>
        have hiff := Doc.displayed_iff_at lc (s.doc.setListing l) himg hidx hi
        rw [hpick] at hiff
        refine hiff.trans ?_
        simp only [Option.some.injEq, forall_eq']
        rfl
    | opened uf picked retried =>
      cases picked with
      | none => exact load_asked_displayed_iff hpath
      | some l => exact iff_of_true load_picked_displayed trivial

end Sys

end ObZrv
