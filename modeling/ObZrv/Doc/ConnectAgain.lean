import ObZrv.Doc.ConnectDialog

/-!
# Doc.ConnectAgain

The connection dialog as a walk in the tree of the server, and dialogs one after another, each opened
on the file that the one before it has returned.

* `dirFromPath_dirPath`, `upPath_dirPath` : the way to a directory and back.
* `placed_step`                           : the directory shown is one of the tree.
* `given_kept`                            : what a dialog of the sequence is given.
* `dialog_reopens`                        : the same directory of the same server.
-/

namespace ObZrv

open Lib

open RecentFileRegistry (utf8ToWstr wstrToUtf8)

/-! ## Directories of the tree -/

/-- The path that `names` lead to from the root. -/
def dirPath (names : List EntryName) : Str := names.foldl (fun cwd n => entryPath cwd n.str) ['/']

theorem dirPath_concat (names : List EntryName) (n : EntryName) :
    dirPath (names ++ [n]) = entryPath (dirPath names) n.str := by
  simp only [dirPath, List.foldl_append, List.foldl_cons, List.foldl_nil]

theorem entryPath_absDir (d : AbsDir) (n : EntryName) : ∃ d' : AbsDir, d'.str = entryPath d.str n.str := by
  have hlast : ∀ dir : Str, (dir ++ '/' :: n.str).getLast? ≠ some '/' := by
    intro dir hl
    have hcut := List.getLast?_append_of_ne_nil (dir ++ ['/']) n.ne_nil
    rw [List.append_assoc, List.singleton_append, hl] at hcut
    exact n.no_slash (List.mem_of_getLast? hcut.symm)
  by_cases h : d.str = ['/']
  · refine ⟨⟨entryPath d.str n.str, ?_, .inr ?_⟩, rfl⟩
    · rw [entryPath_root h]
      rfl
    · rw [entryPath_root h]
      exact hlast []
  · refine ⟨⟨entryPath d.str n.str, ?_, .inr ?_⟩, rfl⟩
    · rw [entryPath_other h, Rooted, joinPath, List.head?_append_of_ne_nil _ d.ne_nil]
      exact d.rooted
    · rw [entryPath_other h]
      exact hlast d.str

theorem exists_absDir (names : List EntryName) : ∃ d : AbsDir, d.str = dirPath names := by
  induction names using List.reverseRecOn with
  | nil => exact ⟨⟨['/'], rfl, .inl rfl⟩, rfl⟩
  | append_singleton names n ih =>
    obtain ⟨d, hd⟩ := ih
    rw [dirPath_concat, ← hd]
    exact entryPath_absDir d n

theorem upPath_dirPath (names : List EntryName) (n : EntryName) :
    upPath (dirPath (names ++ [n])) = dirPath names := by
  obtain ⟨d, hd⟩ := exists_absDir names
  rw [dirPath_concat, ← hd, upPath_entryPath]

theorem dirFromPath_dirPath (names : List EntryName) (n : EntryName) :
    dirFromPath (some (dirPath (names ++ [n]))) = dirPath names := by
  obtain ⟨d, hd⟩ := exists_absDir names
  rw [dirPath_concat, ← hd, dirFromPath_entryPath]

namespace ConnectWnd

variable {C W : Type} {env : ConnectEnv C W} {config : Config WStr}
  {existing : Option (OpenRemote C)} {initialPath : Option Str} {s : ConnectWnd C × W}

/-- The names a server lists are names. -/
def NamesListed (env : ConnectEnv C W) : Prop :=
  ∀ c dir w listing, (env.readdir c dir w).1 = some listing →
    ∀ e ∈ listing, e.name ≠ [] ∧ '/' ∉ e.name

/-- The directory shown is one of the tree. -/
def Placed (d : ConnectWnd C) : Prop := ∃ names, d.dlg.cwd = dirPath names

/-- The control shows the address so that it is read as the host and the port. -/
def Reads (r : OpenRemote C) : Prop :=
  readAddress (wstrToUtf8 ((utf8ToWstr (formatAddress r.host r.port)).take 299)) =
    .ok (r.host, r.port)

theorem Placed.navigate {d : ConnectWnd C} (h : Placed d) {dir : Str}
    (hdir : ∃ names, dir = dirPath names) (w : W) : Placed (d.navigate env dir w).1 := by
  rcases navigate_cases env d dir w with ⟨-, hnav⟩ | ⟨-, -, -, hnav⟩ |
    ⟨c, listing, -, -, hnav⟩
  · rw [hnav]
    exact h
  · rw [hnav]
    exact h
  · rw [hnav]
    exact hdir

/-- The path of an entry is in the tree too. -/
theorem Browsing.entryPath {saved : List WStr} {d : ConnectWnd C}
    (h : Browsing env config existing saved d) (hnames : NamesListed env) (hp : Placed d)
    {e : DlgEntry} (he : e ∈ d.dlg.entries) :
    ∃ names n, d.dlg.cwd = dirPath names ∧ n.str = e.name ∧
      ObZrv.entryPath d.dlg.cwd e.name = dirPath (names ++ [n]) := by
  obtain ⟨names, hcwd⟩ := hp
  rcases h.listed with hnil | ⟨c, -, hlisting⟩
  · rw [hnil] at he
    exact (List.not_mem_nil he).elim
  · obtain ⟨w, listing, hread, hmem⟩ := hlisting.mem_iff
    obtain ⟨hne, hslash⟩ := hnames c _ w listing hread e ((hmem e).mp he).1
    refine ⟨names, ⟨e.name, hne, hslash⟩, hcwd, rfl, ?_⟩
    rw [dirPath_concat, hcwd]

theorem Placed.tryOpenSelected {saved : List WStr} {d : ConnectWnd C}
    (h : Browsing env config existing saved d) (hnames : NamesListed env) (hp : Placed d) (w : W) :
    Placed (d.tryOpenSelected env w).1 := by
  unfold ConnectWnd.tryOpenSelected
  cases hsel : d.selected with
  | none => exact hp
  | some e =>
    obtain ⟨names, n, -, -, hpath⟩ := h.entryPath hnames hp (mem_of_selected hsel)
    simp only
    split
    · exact hp.navigate ⟨_, hpath⟩ w
    · exact hp

theorem Placed.up {d : ConnectWnd C} (hp : Placed d) (w : W) : Placed (d.up env w).1 := by
  unfold ConnectWnd.up
  split
  · exact hp
  · rename_i hroot
    obtain ⟨names, hcwd⟩ := hp
    refine Placed.navigate ⟨names, hcwd⟩ ?_ w
    induction names using List.reverseRecOn with
    | nil => exact absurd hcwd hroot
    | append_singleton names n => exact ⟨names, by rw [hcwd, upPath_dirPath]⟩

theorem Placed.connectFromInput {d : ConnectWnd C} (hp : Placed d) (w : W) :
    Placed (d.connectFromInput env w).1 := by
  rcases connectFromInput_cases env d w with ⟨box, hbox, -⟩ | ⟨host, port, c, w', -, -, hnav, -⟩
  · rw [hbox]
    exact hp
  · have hempty : Placed ((d.connected host port c).setBrowserEnabled false) := hp
    rw [hnav]
    exact hempty.navigate ⟨[], rfl⟩ w'

theorem placed_step {saved : List WStr} {s' : ConnectWnd C × W} {m : ConnectMsg}
    (h : Browsing env config existing saved s.1) (hnames : NamesListed env) (hp : Placed s.1)
    (hs : exec env s m = some s') : Placed s'.1 := by
  unfold exec at hs
  split at hs
  · cases hs
  cases m with
  | edit text =>
    cases hs
    exact hp
  | connect =>
    cases hs
    exact hp.connectFromInput _
  | up =>
    simp only [Option.ite_none_right_eq_some, Option.some.injEq] at hs
    obtain ⟨-, rfl⟩ := hs
    exact hp.up _
  | selChange sel =>
    simp only [Option.ite_none_right_eq_some, Option.some.injEq] at hs
    obtain ⟨-, rfl⟩ := hs
    exact hp
  | dblClk =>
    simp only [Option.ite_none_right_eq_some, Option.some.injEq] at hs
    obtain ⟨-, rfl⟩ := hs
    exact hp.tryOpenSelected h hnames _
  | ok =>
    cases hs
    exact hp.tryOpenSelected h hnames _
  | cancel =>
    cases hs
    exact hp

/-- What `WM_INITDIALOG` leaves of the members, and what it shows. -/
theorem initDialog_keeps (env : ConnectEnv C W) (d : ConnectWnd C) (w : W) :
    let d' := (d.initDialog env w).1
    d'.dlg.cwd = d.dlg.cwd ∧ d'.client = d.client ∧
      (d.host ≠ [] → d'.text = utf8ToWstr (formatAddress d.host d.port)) ∧
      ∀ c listing, d.client = some c → (env.readdir c d.dlg.cwd w).1 = some listing →
        d'.dlg.entries = env.sort (entryLess env.strCmpLogicalW)
          (listing.filter (ConnectDlg.listedEntry (env.at c))) := by
  intro d'
  unfold d' ConnectWnd.initDialog
  simp only
  generalize htext : (if d.host ≠ [] then _ else _ : WStr) = text
  have hshown : d.host ≠ [] → text = utf8ToWstr (formatAddress d.host d.port) := by
    intro hne
    rw [← htext, if_pos hne]
  split
  · rename_i hclient
    rcases navigate_cases env { d with combo := loadHistory d.config, text } d.dlg.cwd w with
      ⟨hnone, -⟩ | ⟨c, hc, hread, hnav⟩ | ⟨c, listing, hc, hread, hnav⟩
    · simp only at hnone
      rw [hnone] at hclient
      cases hclient
    · rw [hnav]
      refine ⟨rfl, rfl, hshown, fun c' listing' hc' hread' => ?_⟩
      obtain rfl := Option.some.inj (hc.symm.trans hc')
      rw [hread] at hread'
      cases hread'
    · rw [hnav]
      refine ⟨rfl, rfl, hshown, fun c' listing' hc' hread' => ?_⟩
      obtain rfl := Option.some.inj (hc.symm.trans hc')
      obtain rfl := Option.some.inj (hread.symm.trans hread')
      rfl
  · rename_i hclient
    refine ⟨rfl, rfl, hshown, fun c listing hc => ?_⟩
    rw [hc] at hclient
    exact absurd rfl hclient

theorem Connected.reads {c : C} {host : Str} {port : UInt16} {t : WStr} (h : SavedEntry env t)
    (hread : readAddress (wstrToUtf8 t) = .ok (host, port)) : Reads ⟨c, host, port⟩ :=
  readAddress_shown h.length_le hread

theorem Reads.host_ne {r : OpenRemote C} (h : Reads r) : r.host ≠ [] :=
  (readAddress_ok_iff.mp h).choose_spec.2.2.1

theorem Reads.host_length {r : OpenRemote C} (h : Reads r) : (utf8ToWstr r.host).length ≤ 299 := by
  obtain ⟨portText, hs, -⟩ := readAddress_ok_iff.mp h
  have hnul := nul_not_mem_wstrToUtf8 ((utf8ToWstr (formatAddress r.host r.port)).take 299)
  have hhost : '\x00' ∉ r.host := fun hmem => hnul (hs ▸ List.mem_append_left _ hmem)
  have hle := length_utf8ToWstr_wstrToUtf8 ((utf8ToWstr (formatAddress r.host r.port)).take 299)
  have htake := List.length_take_le 299 (utf8ToWstr (formatAddress r.host r.port))
  rw [RecentFileRegistry.utf8ToWstr_eq hnul, hs, encodeUtf16, List.flatMap_append,
    List.length_append] at hle
  rw [RecentFileRegistry.utf8ToWstr_eq hhost, encodeUtf16]
  omega

/-- What a dialog returns is a path, and an address that can be shown. -/
theorem returned_reads (hexisting : ∀ r, existing = some r → Reads r)
    (h : (machine env config existing initialPath).Reach Machine.always s) {r : OpenRemote C}
    {path : Str} (hret : s.1.returned = some (r, path)) : Reads r ∧ path ≠ [] := by
  obtain ⟨saved, hb⟩ := reach_browsing h
  unfold returned at hret
  split at hret
  · cases hret
  rename_i c hc
  split at hret
  · cases hret
  rename_i hne
  cases hret
  refine ⟨?_, hne⟩
  rcases hb.source c hc with hold | ⟨-, t, hlast, hread⟩
  · exact hexisting _ hold
  · exact Connected.reads (hb.saved t (List.mem_of_getLast? hlast)) hread

theorem reach_placed (hnames : NamesListed env) (hstart : Placed (start config existing initialPath))
    (h : (machine env config existing initialPath).Reach Machine.always s) :
    (∃ saved, Browsing env config existing saved s.1) ∧ Placed s.1 := by
  refine h.holds (P := fun s => (∃ saved, Browsing env config existing saved s.1) ∧ Placed s.1) ?_ ?_
  · rintro s ⟨w, rfl⟩
    refine ⟨reach_browsing (.of_init ⟨w, rfl⟩), ?_⟩
    obtain ⟨hcwd, -, -, -⟩ := initDialog_keeps env (start config existing initialPath) w
    obtain ⟨names, hnames⟩ := hstart
    exact ⟨names, hcwd.trans hnames⟩
  · rintro s m s' ⟨⟨saved, hb⟩, hp⟩ - hs
    exact ⟨⟨_, browsing_step hb hs⟩, placed_step hb hnames hp hs⟩

/-! ## One dialog after another -/

/-- What a dialog can be given in a sequence of dialogs: nothing, or what one before it has returned. -/
inductive Given (env : ConnectEnv C W) : Option (OpenRemote C × Str) → Prop where
  | root : Given env none
  | again {given : Option (OpenRemote C × Str)} {config : Config WStr} {s : ConnectWnd C × W}
      {r : OpenRemote C} {path : Str} : Given env given →
      (machine env config (given.map Prod.fst) (given.map Prod.snd)).Reach Machine.always s →
      s.1.returned = some (r, path) → Given env (some (r, path))

/-- What is returned leads through the tree to a file of the directory shown. -/
theorem returned_placed (hnames : NamesListed env)
    (hstart : Placed (start config existing initialPath))
    (h : (machine env config existing initialPath).Reach Machine.always s) {r : OpenRemote C}
    {path : Str} (hret : s.1.returned = some (r, path)) :
    ∃ names n, s.1.dlg.cwd = dirPath names ∧ path = dirPath (names ++ [n]) := by
  obtain ⟨⟨saved, hb⟩, hp⟩ := reach_placed hnames hstart h
  have hend : s.1.ended = some .IDOK := hb.returned_iff.mp (by rw [hret]; rfl)
  obtain ⟨hclient, e, hsel, -, hresult⟩ := hb.opened hend
  obtain ⟨c, hc⟩ := Option.isSome_iff_exists.mp hclient
  have hne : s.1.dlg.result ≠ [] := by
    rw [hresult]
    exact entryPath_ne_nil _ _
  rw [returned_of_result hc hne, Option.some.injEq, Prod.mk.injEq] at hret
  obtain ⟨-, rfl⟩ := hret
  obtain ⟨names, n, hcwd, -, hpath⟩ := hb.entryPath hnames hp (mem_of_selected hsel)
  exact ⟨names, n, hcwd, hresult.trans hpath⟩

/-- The members when a file of the tree is given. -/
theorem start_dirPath (config : Config WStr) (r : OpenRemote C) {path : Str} {names : List EntryName}
    {n : EntryName} (hne : path ≠ []) (hpath : path = dirPath (names ++ [n])) :
    start config (some r) (some path) =
      { client := some r.client, host := r.host, port := r.port
        dlg := { cwd := dirPath names }, config := config } := by
  rw [start, if_neg hne, hpath, dirFromPath_dirPath]

/-- Every dialog of a sequence starts in the tree, with an address that can be shown. The induction is
on the dialogs before it. -/
theorem given_kept (hnames : NamesListed env) {given : Option (OpenRemote C × Str)}
    (h : Given env given) :
    (∀ config, Placed (start config (given.map Prod.fst) (given.map Prod.snd))) ∧
      ∀ r, given.map Prod.fst = some r → Reads r := by
  induction h with
  | root => exact ⟨fun _ => ⟨[], rfl⟩, fun r hr => by cases hr⟩
  | again _ hrun hret ih =>
    obtain ⟨names, n, -, hpath⟩ := returned_placed hnames (ih.1 _) hrun hret
    obtain ⟨hreads, hne⟩ := returned_reads ih.2 hrun hret
    refine ⟨fun config' => ⟨names, ?_⟩, fun r' hr' => ?_⟩
    · simp only [Option.map_some]
      rw [start_dirPath config' _ hne hpath]
    · obtain rfl := Option.some.inj hr'
      exact hreads

/-- **Opened again.** Take any number of dialogs, the first one opened on the root and each of the
others on the server and the path that one before it has returned. The path that the next one
returns leads through the tree of the server to a file of the directory shown. Given the server
and this path, the dialog opens on the same client in the same directory and, if that can still be
listed, with what is listed; and the address it shows is read as the same host and port. -/
theorem dialog_reopens (hnames : NamesListed env) {given : Option (OpenRemote C × Str)}
    (hgiven : Given env given)
    (h : (machine env config (given.map Prod.fst) (given.map Prod.snd)).Reach Machine.always s)
    {r : OpenRemote C} {path : Str} (hret : s.1.returned = some (r, path)) :
    (∃ names n, s.1.dlg.cwd = dirPath names ∧ path = dirPath (names ++ [n])) ∧ Reads r ∧
      ∀ config' w,
        let again := (doModal env config' (some r) (some path) w).1
        again.client = some r.client ∧ again.dlg.cwd = s.1.dlg.cwd ∧
          readAddress again.input = .ok (r.host, r.port) ∧
          ∀ listing, (env.readdir r.client s.1.dlg.cwd w).1 = some listing →
            again.dlg.entries = env.sort (entryLess env.strCmpLogicalW)
              (listing.filter (ConnectDlg.listedEntry (env.at r.client))) := by
  obtain ⟨hplaced, haddress⟩ := given_kept hnames hgiven
  obtain ⟨names, n, hcwd, hpath⟩ := returned_placed hnames (hplaced config) h hret
  obtain ⟨hreads, hne⟩ := returned_reads haddress h hret
  refine ⟨⟨names, n, hcwd, hpath⟩, hreads, fun config' w => ?_⟩
  have hagain := start_dirPath config' r hne hpath
  rw [← hcwd] at hagain
  obtain ⟨hcwd', hclient', htext, hentries⟩ :=
    initDialog_keeps env (start config' (some r) (some path)) w
  rw [hagain] at hcwd' hclient' htext hentries
  intro again
  unfold again doModal
  rw [hagain]
  refine ⟨hclient', hcwd', ?_, fun listing => hentries r.client listing rfl⟩
  rw [input, htext hreads.host_ne]
  exact hreads

end ConnectWnd

/-- The second dialog, in which the picture is opened once more. -/
def picsOnceMore : Option (ConnectWnd Unit × Unit) :=
  Machine.execAll (ConnectWnd.exec picsServer) Machine.always
    (ConnectWnd.doModal picsServer noSettings (some ⟨(), "h".toList, 80⟩)
      (some "/pics/c.png".toList) ()) [.selChange 0, .ok]

theorem picsOnceMore_returned : picsOnceMore.map (fun s => (s.1.returned, s.1.dlg.cwd)) =
    some (some (⟨(), "h".toList, 80⟩, "/pics/c.png".toList), "/pics".toList) := by
  decide

/-- The third dialog opens on `/pics/c.png` too, lists `/pics` and reads its address as it did. -/
theorem dialog_reopens_pics :
    let again := (ConnectWnd.doModal picsServer noSettings (some ⟨(), "h".toList, 80⟩)
      (some "/pics/c.png".toList) ()).1
    again.dlg.cwd = "/pics".toList ∧ readAddress again.input = .ok ("h".toList, 80) ∧
      again.dlg.entries = [⟨"c.png".toList, false⟩] := by
  obtain ⟨s, hreach, hret, -⟩ := picsRun_reach
  have hnames : ConnectWnd.NamesListed picsServer := by
    intro c dir w listing hread e he
    simp only [picsServer] at hread
    split at hread
    · cases hread
      simp only [List.mem_cons, List.not_mem_nil, or_false] at he
      rcases he with rfl | rfl <;> decide
    split at hread
    · cases hread
      rw [List.mem_singleton] at he
      subst he
      decide
    · cases hread
  obtain ⟨s', hs', heq⟩ := Option.map_eq_some_iff.mp picsOnceMore_returned
  obtain ⟨hret', hcwd'⟩ := Prod.mk.inj heq
  have hreach' : (ConnectWnd.machine picsServer noSettings (some ⟨(), "h".toList, 80⟩)
      (some "/pics/c.png".toList)).Reach Machine.always s' :=
    ⟨_, _, ⟨(), rfl⟩, Machine.run_of_execAll hs'⟩
  obtain ⟨-, -, hagain⟩ := ConnectWnd.dialog_reopens hnames (.again .root hreach hret) hreach' hret'
  obtain ⟨-, hdir, haddr, hlisted⟩ := hagain noSettings ()
  rw [hcwd'] at hdir hlisted
  exact ⟨hdir, haddr, (hlisted [⟨"c.png".toList, false⟩] rfl).trans rfl⟩

end ObZrv
