import ObZrv.Doc.Document

/-!
# Doc.Failure

What `Doc::open` leaves behind when it does not return `IM_OK`.

* `load_undecoded`, `load_decoded_failed` : the exits after a file could be opened.
* `failed_open_consistent` : the document is the cleared one or the one before the call, exactly
  when the call does not end in one of two exits, or finds there what they leave.
-/

namespace ObZrv

/-- The document as `clearOpenState` makes it. -/
structure Cleared {I : Type} (d : Doc I) : Prop where
  image : d.image = none
  path : d.path = []
  dir : d.dir = []
  dirfiles : d.dirfiles = []
  unifs : d.unifs = none
  diridx : d.diridx = -1

/-- Image, path, file system and directory are as before. -/
structure Unchanged {I : Type} (d d' : Doc I) : Prop where
  image : d'.image = d.image
  path : d'.path = d.path
  unifs : d'.unifs = d.unifs
  dir : d'.dir = d.dir
  dirfiles : d'.dirfiles = d.dirfiles
  diridx : d'.diridx = d.diridx

theorem Cleared.of_clearOpenState {I : Type} (d : Doc I) : Cleared d.clearOpenState :=
  ⟨rfl, rfl, rfl, rfl, rfl, rfl⟩

/-- A listing that is the directory the document has already. -/
structure SameDirectory {I : Type} (d : Doc I) (l : Listing) : Prop where
  dir : l.dir = d.dir
  files : l.files = d.dirfiles

/-- The document between the closing of the old image and the decoding of the new one. -/
def Doc.closedFor {I : Type} (d : Doc I) (fs : UniFs) (picked : Option Listing) : Doc I :=
  { ((picked.map d.setListing).getD d).close with unifs := some fs }

namespace Sys

variable {W F I : Type} {env : Env W F I} {s : Sys W I}

/-- The document has no image and `fs` already, so that a failed decoding changes nothing. -/
structure Blank (d : Doc I) (fs : UniFs) : Prop where
  image : d.image = none
  unifs : d.unifs = some fs
  diridx : d.diridx = -1

/-- The condition on a call of `open`, from the outcomes of the calls it makes: when the fallback
gives up, its pick is where the document was; when the file cannot be decoded, the document had no
image on this file system, and the fallback, if there was one, found the directory as it was. -/
def KeepsOnFailure (env : Env W F I) (s : Sys W I) (c : OpenCall) : Prop :=
  ∀ fs, s.fsOf c = some fs →
    match acquire env fs c.path c.dirHint s.world with
    | (.gaveUp l, _) => SameDirectory s.doc l ∧ l.idx = s.doc.diridx
    | (.opened uf picked _, w) =>
      ∀ res ne, (decode env uf ((picked.map Listing.path).getD c.path) w).1 = .error res ne →
        Blank s.doc fs ∧ ∀ l, picked = some l → SameDirectory s.doc l
    | _ => True

theorem rescan_failed {before : Doc I} {fs : UniFs} {path target : Str}
    {scanned retried force : Bool}
    (h : (s.rescan env before fs path target scanned retried force).1 ≠ .OK) :
    Cleared (s.rescan env before fs path target scanned retried force).2.doc := by
  unfold rescan at h ⊢
  split at h
  · rename_i hforce
    rw [if_pos hforce]
    split at h
    · exact .of_clearOpenState _
    · exact .of_clearOpenState _
    · exact absurd rfl h
  · exact absurd rfl h

section Load

variable {uf : F}

/-- A file that cannot be decoded: the image is closed and the file system changed. -/
theorem load_undecoded (s : Sys W I) (c : OpenCall) (fs : UniFs) (picked : Option Listing)
    (retried : Bool) {res : IM} {ne : res ≠ .OK}
    (hdec : (decode env uf ((picked.map Listing.path).getD c.path) s.world).1 = .error res ne) :
    (s.load env c fs uf picked retried).1 = res ∧
      (s.load env c fs uf picked retried).2.doc = s.doc.closedFor fs picked := by
  unfold load
  simp only
  split
  · rename_i hdec'
    have := hdec.symm.trans (congrArg Prod.fst hdec')
    cases this
    exact ⟨rfl, rfl⟩
  · rename_i hdec'
    cases hdec.symm.trans (congrArg Prod.fst hdec')

/-- With a decoded image the only failures are those of the scan, which clear the document. -/
theorem load_decoded_failed {c : OpenCall} {fs : UniFs} {picked : Option Listing} {retried : Bool}
    {img : I}
    (hdec : (decode env uf ((picked.map Listing.path).getD c.path) s.world).1 = .image img)
    (h : (s.load env c fs uf picked retried).1 ≠ .OK) :
    Cleared (s.load env c fs uf picked retried).2.doc := by
  unfold load at h ⊢
  simp only at h ⊢
  split at h
  · rename_i hdec'
    cases hdec.symm.trans (congrArg Prod.fst hdec')
  · exact rescan_failed h

end Load

theorem acquire_gaveUp_files {fs : UniFs} {path : Str} {dirHint : Int} {w w' : W} {l : Listing}
    (h : acquire env fs path dirHint w = (.gaveUp l, w')) : l.files ≠ [] := by
  have hpicked : (acquire env fs path dirHint w).1.picked = some l := by rw [h]; rfl
  obtain ⟨-, -, i, -, hi⟩ := acquire_picked hpicked
  exact List.ne_nil_of_length_pos (by omega)

/-- After the fallback has given up the document is consistent just when it was there before. -/
theorem gaveUp_consistent_iff {d : Doc I} {l : Listing} (hfiles : l.files ≠ []) :
    Cleared (d.setListing l) ∨ Unchanged d (d.setListing l) ↔
      SameDirectory d l ∧ l.idx = d.diridx := by
  constructor
  · rintro (h | h)
    · exact absurd h.dirfiles hfiles
    · exact ⟨⟨h.dir, h.dirfiles⟩, h.diridx⟩
  · rintro ⟨⟨hdir, hlist⟩, hidx⟩
    exact .inr ⟨rfl, rfl, rfl, hdir, hlist, hidx⟩

/-- After a failed decoding the document is consistent just when it had no image on this file
system. -/
theorem undecoded_consistent_iff {d : Doc I} {fs : UniFs} {picked : Option Listing} :
    Cleared (d.closedFor fs picked) ∨ Unchanged d (d.closedFor fs picked) ↔
      Blank d fs ∧ ∀ l, picked = some l → SameDirectory d l := by
  constructor
  · rintro (h | h)
    · cases h.unifs
    · refine ⟨⟨h.image.symm, h.unifs.symm, h.diridx.symm⟩, ?_⟩
      rintro l rfl
      exact ⟨h.dir, h.dirfiles⟩
  · rintro ⟨hb, hpicked⟩
    cases picked with
    | none => exact .inr ⟨hb.image.symm, rfl, hb.unifs.symm, rfl, rfl, hb.diridx.symm⟩
    | some l =>
      obtain ⟨hdir, hfiles⟩ := hpicked l rfl
      exact .inr ⟨hb.image.symm, rfl, hb.unifs.symm, hdir, hfiles, hb.diridx.symm⟩

/-- **A failed open leaves a consistent document** exactly under `KeepsOnFailure`: for every
document, every arguments and every outcome of the calls made, an `open` that does not return
`IM_OK` leaves the cleared document or the one before. -/
theorem failed_open_consistent (env : Env W F I) (s : Sys W I) (c : OpenCall) :
    ((s.open env c).1 ≠ .OK →
        Cleared (s.open env c).2.doc ∨ Unchanged s.doc (s.open env c).2.doc) ↔
      KeepsOnFailure env s c := by
  unfold KeepsOnFailure
  cases hfs : s.fsOf c with
  | none =>
    refine iff_of_true (fun _ => .inr ?_) nofun
    simp only [«open», hfs]
    exact ⟨rfl, rfl, rfl, rfl, rfl, rfl⟩
  | some fs =>
    simp only [Option.some.injEq, forall_eq', «open», hfs]
    generalize hacq : acquire env fs c.path c.dirHint s.world = r
    obtain ⟨got, w⟩ := r
    cases got with
    | refused => exact iff_of_true (fun _ => .inr ⟨rfl, rfl, rfl, rfl, rfl, rfl⟩) trivial
    | lost => exact iff_of_true (fun _ => .inl (.of_clearOpenState _)) trivial
    | noDir => exact iff_of_true (fun _ => .inl (.of_clearOpenState _)) trivial
    | noFiles => exact iff_of_true (fun _ => .inl (.of_clearOpenState _)) trivial
    | gaveUp l =>
      simp only
      rw [← gaveUp_consistent_iff (acquire_gaveUp_files hacq)]
      exact forall_prop_of_true nofun
    | opened uf picked retried =>
      simp only
      cases hdec : (decode env uf ((picked.map Listing.path).getD c.path) w).1 with
      | image img =>
        refine iff_of_true (fun hfail => .inl ?_) nofun
        exact load_decoded_failed (s := s.setWorld w) hdec hfail
      | error res ne =>
        obtain ⟨hres, hdoc⟩ := load_undecoded (s.setWorld w) c fs picked retried hdec
        rw [hres, hdoc, show (s.setWorld w).doc = s.doc from rfl, undecoded_consistent_iff]
        exact ⟨fun h _ _ _ => h ne, fun h _ => h res ne rfl⟩

end Sys

/-! ## A disk with bad files -/

/-- A still file system for examples: `files` says which files can be opened and whether they
decode, `listed` what is in a directory, in order. -/
def disk (files : UniFs → Str → Option Bool) (listed : UniFs → Str → Option (List FsEntry)) :
    Env Unit Bool Unit where
  openfile fs path w := (files fs path, w)
  lastStatus _ _ := STATUS_ERR_NOT_FOUND
  reconnect _ w := (false, w)
  readdir fs dir w := (listed fs dir, w)
  removefile _ _ w := (0, w)
  shFileOperation _ _ w := (.done, w)
  zDataFile f := f
  seek _ w := w
  codecs := [⟨["png".toList], fun f w => (if f then .image () else .error .FAIL nofun, w)⟩]
  filetype _ w := ("UNK".toList, w)
  getTickCount w := (0, w)
  ops := ⟨fun _ => 1, fun _ => 0, fun _ => 0, fun img _ => (.OK, img)⟩
  strCmpLogicalW a b := if a = b then 0 else if a < b then -1 else 1
  sort l := l
  sort_perm l := .refl l

def aPng : FsEntry := ⟨"a.png".toList, true, by decide⟩
def bPng : FsEntry := ⟨"b.png".toList, true, by decide⟩

def localFs : UniFs := ⟨false, 0⟩
def remoteFs : UniFs := ⟨true, 1⟩

/-- A directory `/c` with `a.png`, `b.png` and `c.png`. Of these `a.png` is sound, `b.png` cannot be
opened and `c.png` does not decode; the remote server has a `/c/c.png` that does not decode
either. -/
def picturesDisk : Env Unit Bool Unit :=
  disk
    (fun fs path =>
      if path = "/c/c.png".toList then some false
      else if fs = localFs ∧ path = "/c/a.png".toList then some true
      else none)
    (fun _ dir =>
      if dir = "/c".toList then
        some [aPng, bPng, ⟨"c.png".toList, true, by decide⟩]
      else none)

def picturesOpen : Sys Unit Unit :=
  ((Sys.empty ()).open picturesDisk ⟨some localFs, "/c/a.png".toList, -1, true, INT_MIN⟩).2

/-- With `/c/a.png` on screen, a fallback that picks the unreadable `b.png` leaves the index on
`b.png`; an undecodable file of the remote server leaves the old path with the remote file
system. -/
theorem failed_open_mixed :
    let gaveUp := picturesOpen.open picturesDisk ⟨none, "/c/aa.png".toList, -1, false, 1⟩
    let undecoded := picturesOpen.open picturesDisk ⟨some remoteFs, "/c/c.png".toList, -1, true, 1⟩
    picturesOpen.doc.diridx = 0 ∧
      gaveUp.1 = .FAIL ∧ gaveUp.2.doc.path = "/c/a.png".toList ∧ gaveUp.2.doc.diridx = 1 ∧
      ¬ (Cleared gaveUp.2.doc ∨ Unchanged picturesOpen.doc gaveUp.2.doc) ∧
      undecoded.1 = .FAIL ∧ undecoded.2.doc.path = "/c/a.png".toList ∧
      undecoded.2.doc.unifs = some remoteFs ∧
      ¬ (Cleared undecoded.2.doc ∨ Unchanged picturesOpen.doc undecoded.2.doc) := by
  refine ⟨by decide, by decide, by decide, by decide, ?_, by decide, by decide, by decide, ?_⟩
  · rintro (h | h)
    · exact absurd h.path (by decide)
    · exact absurd h.diridx (by decide)
  · rintro (h | h)
    · exact absurd h.path (by decide)
    · exact absurd h.diridx (by decide)

end ObZrv
