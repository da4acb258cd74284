import ObZrv.Lib.Machine
import ObZrv.Text.RemoteHistory
import ObZrv.Doc.ConnectDlg

/-!
# Doc.ConnectDialog

A run of the connection dialog of `ConnectDlg.cpp`, from `DoModal` to its return: the address, the
connection, the browser with its controls, and the history.

* `navigate_dlg`          : the browser is the one of `Doc.ConnectDlg`.
* `connectedTo`           : the addresses that a run connects to.
* `browsing_step`         : what a message keeps.
* `dialog_returns_listed` : what the dialog shows, saves and returns.
-/

namespace ObZrv

open Lib

open RecentFileRegistry (utf8ToWstr wstrToUtf8)

/-- The comparison of the entries: directories first. -/
def entryLess (strCmpLogicalW : WStr → WStr → Int) (a b : DlgEntry) : Bool :=
  if a.is_dir != b.is_dir then decide (a.is_dir > b.is_dir)
  else decide (strCmpLogicalW (utf8ToWstr a.name) (utf8ToWstr b.name) < 0)

/-- What the dialog calls. `C` is a client. -/
structure ConnectEnv (C W : Type) where
  /-- `RemoteFs::open`. -/
  connect : Str → UInt16 → W → Option C × W
  readdir : C → Str → W → Option (List DlgEntry) × W
  isSupportedExt : Str → Bool
  strCmpLogicalW : WStr → WStr → Int
  /-- `std::sort` with a comparison. -/
  sort : (DlgEntry → DlgEntry → Bool) → List DlgEntry → List DlgEntry
  sort_perm : ∀ less l, (sort less l).Perm l
  sort_ordered : ∀ l, (sort (entryLess strCmpLogicalW) l).Pairwise fun a b =>
    entryLess strCmpLogicalW b a = false

/-- What the browser calls of a client. -/
def ConnectEnv.at {C W : Type} (env : ConnectEnv C W) (c : C) : DlgEnv W where
  readdir := env.readdir c
  isSupportedExt := env.isSupportedExt
  sort := env.sort (entryLess env.strCmpLogicalW)

inductive ConnectBox where
  | address (e : AddressError)
  | connection
  | directory
deriving DecidableEq, Repr

def ConnectBox.text : ConnectBox → String
  | .address .format => "Please enter address as  host:port"
  | .address .port => "Port must be between 1 and 65535."
  | .connection =>
    "Could not connect to the remote server.\nPlease check the address and try again."
  | .directory => "Cannot open directory."

inductive DlgEnd where
  | IDOK
  | IDCANCEL
deriving DecidableEq, Repr

/-- An open server, as `DoModal` takes and returns it. -/
structure OpenRemote (C : Type) where
  client : C
  host : Str
  port : UInt16
deriving DecidableEq, Repr

/-- The members of the dialog and its controls; `sel` is the selected row, -1 for none. -/
structure ConnectWnd (C : Type) where
  dlg : ConnectDlg := {}
  host : Str := []
  port : UInt16 := 0
  client : Option C := none
  config : Config WStr
  combo : List WStr := []
  text : WStr := []
  pathBar : WStr := []
  rows : List WStr := []
  sel : Int := -1
  pathBarEnabled : Bool := true
  upEnabled : Bool := true
  listEnabled : Bool := true
  okEnabled : Bool := true
  boxes : List ConnectBox := []
  ended : Option DlgEnd := none

def DlgEntry.row (e : DlgEntry) : WStr :=
  utf8ToWstr (if e.is_dir then '[' :: e.name ++ [']'] else e.name)

namespace ConnectWnd

variable {C W : Type} (env : ConnectEnv C W) (d : ConnectWnd C)

def messageBox (box : ConnectBox) : ConnectWnd C := { d with boxes := d.boxes ++ [box] }

def setBrowserEnabled (enabled : Bool) : ConnectWnd C :=
  let d := { d with
    pathBarEnabled := enabled
    upEnabled := enabled && d.dlg.cwd != ['/']
    listEnabled := enabled
    okEnabled := false }
  if enabled then d
  else { d with pathBar := [], rows := [], sel := -1, dlg := { d.dlg with entries := [] } }

def populateList : ConnectWnd C := { d with rows := d.dlg.entries.map DlgEntry.row, sel := -1 }

/-- `Navigate` with the directory open. -/
def showListing (dir : Str) (c : C) (listing : List DlgEntry) : ConnectWnd C :=
  let entries := listing.filter (ConnectDlg.listedEntry (env.at c))
  let entries := env.sort (entryLess env.strCmpLogicalW) entries
  let d := { d with dlg := { d.dlg with cwd := dir, entries } }
  let d := { d.populateList with pathBar := utf8ToWstr dir }
  d.setBrowserEnabled true

def navigate (dir : Str) (w : W) : ConnectWnd C × W :=
  match d.client with
  | none => (d.setBrowserEnabled false, w)
  | some c =>
    match env.readdir c dir w with
    | (none, w) => (d.messageBox .directory, w)
    | (some listing, w) => (d.showListing env dir c listing, w)

/-- The text of the control as `GetDlgItemTextW` and `wstr_to_utf8` give it. -/
def input : Str := wstrToUtf8 (d.text.take 299)

/-- `ConnectFromInput` with the connection made, up to the browser. -/
def connected (host : Str) (port : UInt16) (c : C) : ConnectWnd C :=
  { d with
    host, port, client := some c
    dlg := { d.dlg with result := [] }
    config := saveHistory d.config (utf8ToWstr d.input) }

def connectFromInput (w : W) : ConnectWnd C × W :=
  match readAddress d.input with
  | .error e => (d.messageBox (.address e), w)
  | .ok (host, port) =>
    match env.connect host port w with
    | (none, w) => (d.messageBox .connection, w)
    | (some c, w) => ((d.connected host port c).setBrowserEnabled false).navigate env ['/'] w

/-- The entry of the selected row. -/
def selected : Option DlgEntry := if d.sel < 0 then none else d.dlg.entries[d.sel.toNat]?

def tryOpenSelected (w : W) : ConnectWnd C × W :=
  match d.selected with
  | none => (d, w)
  | some e =>
    if e.is_dir then d.navigate env (entryPath d.dlg.cwd e.name) w
    else
      ({ d with
        dlg := { d.dlg with result := entryPath d.dlg.cwd e.name }
        ended := some .IDOK }, w)

def up (w : W) : ConnectWnd C × W :=
  if d.dlg.cwd = ['/'] then (d, w) else d.navigate env (upPath d.dlg.cwd) w

/-- `LBN_SELCHANGE` after the user has selected row `sel`. -/
def selChange (sel : Int) : ConnectWnd C :=
  let d := { d with sel }
  { d with okEnabled := d.selected.any fun e => !e.is_dir }

/-- `WM_INITDIALOG`. -/
def initDialog (w : W) : ConnectWnd C × W :=
  let hist := loadHistory d.config
  let text := if d.host ≠ [] then utf8ToWstr (formatAddress d.host d.port) else hist.headD []
  let d := { d with combo := hist, text }
  if d.client.isSome then d.navigate env d.dlg.cwd w else (d.setBrowserEnabled false, w)

/-- The members as `DoModal` sets them. -/
def start (config : Config WStr) (existing : Option (OpenRemote C)) (initialPath : Option Str) :
    ConnectWnd C :=
  match existing, initialPath with
  | some r, some path =>
    if path = [] then { config }
    else
      { client := some r.client, host := r.host, port := r.port
        dlg := { cwd := dirFromPath (some path) }, config }
  | _, _ => { config }

/-- `DoModal` up to the first message. -/
def doModal (config : Config WStr) (existing : Option (OpenRemote C)) (initialPath : Option Str)
    (w : W) : ConnectWnd C × W :=
  (start config existing initialPath).initDialog env w

/-- What `DoModal` returns when the dialog has ended. -/
def returned : Option (OpenRemote C × Str) :=
  match d.client with
  | none => none
  | some c => if d.dlg.result = [] then none else some (⟨c, d.host, d.port⟩, d.dlg.result)

end ConnectWnd

inductive ConnectMsg where
  | edit (text : WStr)
  | connect
  | up
  | selChange (sel : Int)
  | dblClk
  | ok
  | cancel

namespace ConnectWnd

variable {C W : Type} (env : ConnectEnv C W)

/-- One message. A disabled button or list sends none; `Enter` is `ok` whether the button is enabled
or not. -/
def exec (s : ConnectWnd C × W) (m : ConnectMsg) : Option (ConnectWnd C × W) :=
  if s.1.ended.isSome then none
  else
    match m with
    | .edit text => some ({ s.1 with text }, s.2)
    | .connect => some (s.1.connectFromInput env s.2)
    | .up => if s.1.upEnabled then some (s.1.up env s.2) else none
    | .selChange sel =>
      if s.1.listEnabled ∧ -1 ≤ sel ∧ sel < s.1.rows.length then some (s.1.selChange sel, s.2) else none
    | .dblClk => if s.1.listEnabled then some (s.1.tryOpenSelected env s.2) else none
    | .ok => some (s.1.tryOpenSelected env s.2)
    | .cancel => some ({ s.1 with ended := some .IDCANCEL }, s.2)

/-- The dialog as `DoModal` runs it. -/
def machine (config : Config WStr) (existing : Option (OpenRemote C)) (initialPath : Option Str) :
    Machine (ConnectWnd C × W) ConnectMsg :=
  .ofExec (fun s => ∃ w, s = doModal env config existing initialPath w) (exec env)

/-- The address that a message connects to, as it is saved. -/
def connects (s : ConnectWnd C × W) : ConnectMsg → List WStr
  | .connect =>
    match readAddress s.1.input with
    | .error _ => []
    | .ok (host, port) =>
      if (env.connect host port s.2).1.isSome then [utf8ToWstr s.1.input] else []
  | .edit _ | .up | .selChange _ | .dblClk | .ok | .cancel => []

/-- The addresses that the messages of a run connect to, the last one last. -/
def connectedTo : ConnectWnd C × W → List ConnectMsg → List WStr
  | _, [] => []
  | s, m :: ms =>
    connects env s m ++
      match exec env s m with
      | none => []
      | some s => connectedTo s ms

/-- The browser is the one of `ConnectDlg`. -/
theorem navigate_dlg {d : ConnectWnd C} {c : C} (hc : d.client = some c) (dir : Str) (w : W) :
    ((d.navigate env dir w).1.dlg, (d.navigate env dir w).2) = d.dlg.navigate (env.at c) dir w := by
  unfold navigate ConnectDlg.navigate
  simp only [hc, ConnectEnv.at]
  cases env.readdir c dir w with
  | mk listing w =>
    cases listing with
    | none => rfl
    | some listing => rfl

theorem navigate_cases (d : ConnectWnd C) (dir : Str) (w : W) :
    (d.client = none ∧ (d.navigate env dir w).1 = d.setBrowserEnabled false) ∨
      (∃ c, d.client = some c ∧ (env.readdir c dir w).1 = none ∧
        (d.navigate env dir w).1 = d.messageBox .directory) ∨
      ∃ c listing, d.client = some c ∧ (env.readdir c dir w).1 = some listing ∧
        (d.navigate env dir w).1 = d.showListing env dir c listing := by
  unfold navigate
  cases hc : d.client with
  | none => exact .inl ⟨rfl, rfl⟩
  | some c =>
    simp only
    cases hread : env.readdir c dir w with
    | mk listing w' =>
      cases listing with
      | none => exact .inr (.inl ⟨c, rfl, by rw [hread], rfl⟩)
      | some listing => exact .inr (.inr ⟨c, listing, rfl, by rw [hread], rfl⟩)

theorem connectFromInput_cases (d : ConnectWnd C) (w : W) :
    (∃ box, (d.connectFromInput env w).1 = d.messageBox box ∧
      connects env (d, w) .connect = []) ∨
      ∃ host port c w', readAddress d.input = .ok (host, port) ∧
        (env.connect host port w).1 = some c ∧ (d.connectFromInput env w).1 =
          (((d.connected host port c).setBrowserEnabled false).navigate env ['/'] w').1 ∧
        connects env (d, w) .connect = [utf8ToWstr d.input] := by
  unfold connectFromInput connects
  simp only
  cases hread : readAddress d.input with
  | error e => exact .inl ⟨_, rfl, rfl⟩
  | ok address =>
    obtain ⟨host, port⟩ := address
    simp only
    cases hconn : env.connect host port w with
    | mk client w' =>
      cases client with
      | none => exact .inl ⟨_, rfl, rfl⟩
      | some c => exact .inr ⟨host, port, c, w', rfl, by rw [hconn], rfl, rfl⟩

/-! ## What a message keeps -/

/-- A client the dialog has connected itself. -/
structure Connected (c : C) (host : Str) (port : UInt16) : Prop where
  host_ne : host ≠ []
  port_ne : port ≠ 0
  connected : ∃ w, (env.connect host port w).1 = some c

/-- An entry of the history that the dialog has saved. -/
structure SavedEntry (t : WStr) : Prop where
  ne_nil : t ≠ []
  length_le : t.length ≤ 299
  reads : ∃ c host port, readAddress (wstrToUtf8 t) = .ok (host, port) ∧ Connected env c host port

/-- A listing the client has given for the directory, as the dialog shows it. -/
def Listing (c : C) (cwd : Str) (entries : List DlgEntry) : Prop :=
  ∃ w listing, (env.readdir c cwd w).1 = some listing ∧
    entries = env.sort (entryLess env.strCmpLogicalW)
      (listing.filter (ConnectDlg.listedEntry (env.at c)))

/-- What holds of the dialog until it ends and when it has ended; `saved` are the addresses that were
connected to, the last one last. -/
structure Browsing (config : Config WStr) (existing : Option (OpenRemote C)) (saved : List WStr)
    (d : ConnectWnd C) : Prop where
  rows : d.rows = d.dlg.entries.map DlgEntry.row
  sel : -1 ≤ d.sel ∧ d.sel < d.rows.length
  listed : d.dlg.entries = [] ∨ ∃ c, d.client = some c ∧ Listing env c d.dlg.cwd d.dlg.entries
  source : ∀ c, d.client = some c → existing = some ⟨c, d.host, d.port⟩ ∨
    Connected env c d.host d.port ∧
      ∃ t, saved.getLast? = some t ∧ readAddress (wstrToUtf8 t) = .ok (d.host, d.port)
  okFile : d.okEnabled = true → d.dlg.entries = [] ∨ d.selected.any (fun e => !e.is_dir) = true
  result : d.ended ≠ some .IDOK → d.dlg.result = []
  opened : d.ended = some .IDOK → d.client.isSome ∧ ∃ e, d.selected = some e ∧ e.is_dir = false ∧
    d.dlg.result = entryPath d.dlg.cwd e.name
  config : d.config = saved.foldl saveHistory config
  saved : ∀ t ∈ saved, SavedEntry env t

theorem negOne_lt (n : Nat) : (-1 : Int) < n := by omega

section Keeps

variable {env} {config : Config WStr} {existing : Option (OpenRemote C)} {saved : List WStr}
  {d : ConnectWnd C}

theorem Browsing.messageBox (h : Browsing env config existing saved d) (box : ConnectBox) :
    Browsing env config existing saved (d.messageBox box) :=
  ⟨h.rows, h.sel, h.listed, h.source, h.okFile, h.result, h.opened, h.config, h.saved⟩

/-- An empty browser. -/
theorem Browsing.disabled (hopen : d.ended ≠ some .IDOK) (hresult : d.dlg.result = [])
    (hsource : ∀ c, d.client = some c → existing = some ⟨c, d.host, d.port⟩ ∨
      Connected env c d.host d.port ∧
        ∃ t, saved.getLast? = some t ∧ readAddress (wstrToUtf8 t) = .ok (d.host, d.port))
    (hconfig : d.config = saved.foldl saveHistory config) (hsaved : ∀ t ∈ saved, SavedEntry env t) :
    Browsing env config existing saved (d.setBrowserEnabled false) := by
  refine ⟨rfl, ⟨Int.le_refl _, negOne_lt _⟩, .inl rfl, hsource, ?_, fun _ => hresult, ?_, hconfig,
    hsaved⟩
  · exact fun hok => by cases hok
  · exact fun hend => absurd hend hopen

theorem Browsing.navigate (h : Browsing env config existing saved d) (hopen : d.ended ≠ some .IDOK)
    (dir : Str) (w : W) : Browsing env config existing saved (d.navigate env dir w).1 := by
  rcases navigate_cases env d dir w with ⟨-, hnav⟩ | ⟨-, -, -, hnav⟩ |
    ⟨c, listing, hc, hread, hnav⟩
  · rw [hnav]
    exact .disabled hopen (h.result hopen) h.source h.config h.saved
  · rw [hnav]
    exact h.messageBox _
  · rw [hnav]
    refine ⟨rfl, ⟨Int.le_refl _, ?_⟩, .inr ⟨c, hc, w, listing, hread, rfl⟩, h.source, ?_,
      fun _ => h.result hopen, ?_, h.config, h.saved⟩
    · exact negOne_lt _
    · exact fun hok => by cases hok
    · exact fun hend => absurd hend hopen

theorem Browsing.tryOpenSelected (h : Browsing env config existing saved d)
    (hopen : d.ended ≠ some .IDOK) (w : W) :
    Browsing env config existing saved (d.tryOpenSelected env w).1 := by
  unfold ConnectWnd.tryOpenSelected
  cases hsel : d.selected with
  | none => exact h
  | some e =>
    simp only
    by_cases hdir : e.is_dir = true
    · rw [if_pos hdir]
      exact h.navigate hopen _ w
    · rw [if_neg hdir]
      refine ⟨h.rows, h.sel, h.listed, h.source, h.okFile, fun hc => absurd rfl hc, ?_, h.config,
        h.saved⟩
      intro _
      refine ⟨?_, e, hsel, by simpa using hdir, rfl⟩
      -- there is an entry, so there is a client that has listed it
      rcases h.listed with hnil | ⟨c, hc, -⟩
      · simp [selected, hnil] at hsel
      · exact Option.isSome_iff_exists.mpr ⟨c, hc⟩

theorem Browsing.connectFromInput (h : Browsing env config existing saved d)
    (hopen : d.ended ≠ some .IDOK) (w : W) :
    Browsing env config existing (saved ++ connects env (d, w) .connect)
      (d.connectFromInput env w).1 := by
  rcases connectFromInput_cases env d w with ⟨box, hbox, hnone⟩ |
    ⟨host, port, c, w', hread, hconn, hnav, hone⟩
  · rw [hbox, hnone, List.append_nil]
    exact h.messageBox box
  · obtain ⟨portText, hinput, -, hhost, -, hport⟩ := readAddress_ok_iff.mp hread
    have hnul : '\x00' ∉ d.input := nul_not_mem_wstrToUtf8 _
    have hback : readAddress (wstrToUtf8 (utf8ToWstr d.input)) = .ok (host, port) := by
      rw [RecentFileRegistry.wstrToUtf8_utf8ToWstr hnul, hread]
    have hconnected : Connected env c host port := ⟨hhost, hport, w, hconn⟩
    have hsaved : SavedEntry env (utf8ToWstr d.input) := by
      refine ⟨RecentFileRegistry.utf8ToWstr_ne_nil hnul ?_, ?_, c, host, port, hback, hconnected⟩
      · rw [hinput]
        simp
      · exact Nat.le_trans (length_utf8ToWstr_wstrToUtf8 _) (List.length_take_le _ _)
    rw [hnav, hone]
    have hempty : Browsing env config existing (saved ++ [utf8ToWstr d.input])
        ((d.connected host port c).setBrowserEnabled false) := by
      refine .disabled hopen rfl ?_ ?_ ?_
      · intro c' hc'
        cases hc'
        exact .inr ⟨hconnected, _, List.getLast?_concat .., hback⟩
      · simp only [connected, h.config, List.foldl_append, List.foldl_cons, List.foldl_nil]
      · intro t ht
        rcases List.mem_append.mp ht with ht | ht
        · exact h.saved t ht
        · rw [List.mem_singleton] at ht
          rw [ht]
          exact hsaved
    exact hempty.navigate hopen _ w'

theorem Browsing.initDialog (h : Browsing env config existing saved d) (hopen : d.ended ≠ some .IDOK)
    (w : W) : Browsing env config existing saved (d.initDialog env w).1 := by
  unfold ConnectWnd.initDialog
  simp only
  generalize (if d.host ≠ [] then _ else _ : WStr) = text
  have hshown : Browsing env config existing saved { d with combo := loadHistory d.config, text } :=
    ⟨h.rows, h.sel, h.listed, h.source, h.okFile, h.result, h.opened, h.config, h.saved⟩
  split
  · exact hshown.navigate hopen _ w
  · exact .disabled hopen (h.result hopen) h.source h.config h.saved

theorem start_browsing (env : ConnectEnv C W) (config : Config WStr)
    (existing : Option (OpenRemote C)) (initialPath : Option Str) :
    Browsing env config existing [] (start config existing initialPath) ∧
      (start config existing initialPath).ended = none := by
  have hempty : ∀ d : ConnectWnd C, d.rows = [] → d.sel = -1 → d.dlg.entries = [] →
      d.dlg.result = [] → d.ended = none → d.config = config →
      (∀ c, d.client = some c → existing = some ⟨c, d.host, d.port⟩) →
      Browsing env config existing [] d := by
    intro d hrows hsel hentries hresult hend hconfig hsource
    refine ⟨by rw [hrows, hentries]; rfl, ?_, .inl hentries, fun c hc => .inl (hsource c hc),
      fun _ => .inl hentries, fun _ => hresult, ?_, hconfig, ?_⟩
    · rw [hsel, hrows]
      decide
    · intro hc
      rw [hend] at hc
      cases hc
    · exact fun t ht => (List.not_mem_nil ht).elim
  unfold start
  split
  · rename_i r path
    split
    · refine ⟨hempty _ rfl rfl rfl rfl rfl rfl ?_, rfl⟩
      exact fun c hc => by cases hc
    · refine ⟨hempty _ rfl rfl rfl rfl rfl rfl ?_, rfl⟩
      intro c hc
      cases hc
      rfl
  · refine ⟨hempty _ rfl rfl rfl rfl rfl rfl ?_, rfl⟩
    exact fun c hc => by cases hc

/-- What one message keeps. -/
theorem browsing_step {s s' : ConnectWnd C × W} {m : ConnectMsg}
    (h : Browsing env config existing saved s.1) (hs : exec env s m = some s') :
    Browsing env config existing (saved ++ connects env s m) s'.1 := by
  unfold exec at hs
  split at hs
  · cases hs
  rename_i hopen
  have hopen : s.1.ended ≠ some .IDOK := by
    intro hc
    simp [hc] at hopen
  cases m with
  | connect =>
    cases hs
    exact h.connectFromInput hopen _
  | edit text =>
    cases hs
    rw [connects, List.append_nil]
    exact ⟨h.rows, h.sel, h.listed, h.source, h.okFile, h.result, h.opened, h.config, h.saved⟩
  | up =>
    simp only [Option.ite_none_right_eq_some, Option.some.injEq] at hs
    obtain ⟨-, rfl⟩ := hs
    rw [connects, List.append_nil]
    unfold up
    split
    · exact h
    · exact h.navigate hopen _ _
  | selChange sel =>
    simp only [Option.ite_none_right_eq_some, Option.some.injEq] at hs
    obtain ⟨⟨-, hlow, hhigh⟩, rfl⟩ := hs
    rw [connects, List.append_nil]
    refine ⟨h.rows, ⟨hlow, hhigh⟩, h.listed, h.source, .inr, h.result, ?_, h.config, h.saved⟩
    exact fun hc => absurd hc hopen
  | dblClk =>
    simp only [Option.ite_none_right_eq_some, Option.some.injEq] at hs
    obtain ⟨-, rfl⟩ := hs
    rw [connects, List.append_nil]
    exact h.tryOpenSelected hopen _
  | ok =>
    cases hs
    rw [connects, List.append_nil]
    exact h.tryOpenSelected hopen _
  | cancel =>
    cases hs
    rw [connects, List.append_nil]
    refine ⟨h.rows, h.sel, h.listed, h.source, h.okFile, fun _ => h.result hopen, ?_, h.config,
      h.saved⟩
    exact fun hc => by cases hc

end Keeps

/-! ## Runs -/

section Runs

variable {env} {config : Config WStr} {existing : Option (OpenRemote C)} {initialPath : Option Str}
  {s : ConnectWnd C × W}

theorem doModal_browsing (env : ConnectEnv C W) (config : Config WStr)
    (existing : Option (OpenRemote C)) (initialPath : Option Str) (w : W) :
    Browsing env config existing [] (doModal env config existing initialPath w).1 := by
  obtain ⟨hstart, hopen⟩ := start_browsing env config existing initialPath
  refine hstart.initDialog ?_ w
  rw [hopen]
  exact fun hc => by cases hc

/-- What a run of messages keeps. -/
theorem browsing_run {s₀ : ConnectWnd C × W} {ms : List ConnectMsg}
    (h : (machine env config existing initialPath).Run Machine.always s₀ ms s) {saved : List WStr}
    (hb : Browsing env config existing saved s₀.1) :
    Browsing env config existing (saved ++ connectedTo env s₀ ms) s.1 := by
  induction h generalizing saved with
  | nil => rwa [connectedTo, List.append_nil]
  | cons hok hs hrun ih =>
    have hs : exec env _ _ = some _ := hs
    have hrest := ih (browsing_step hb hs)
    rw [connectedTo, hs, ← List.append_assoc]
    exact hrest

theorem reach_browsing (h : (machine env config existing initialPath).Reach Machine.always s) :
    ∃ saved, Browsing env config existing saved s.1 := by
  obtain ⟨s₀, ms, ⟨w, rfl⟩, hrun⟩ := h
  exact ⟨_, browsing_run hrun (doModal_browsing env config existing initialPath w)⟩

theorem entryPath_ne_nil (cwd name : Str) : entryPath cwd name ≠ [] := by
  unfold entryPath
  split <;> simp

theorem returned_of_result {d : ConnectWnd C} {c : C} (hc : d.client = some c)
    (hne : d.dlg.result ≠ []) : d.returned = some (⟨c, d.host, d.port⟩, d.dlg.result) := by
  simp [returned, hc, hne]

/-- The dialog returns a path exactly when a file was opened. -/
theorem Browsing.returned_iff {saved : List WStr} {d : ConnectWnd C}
    (h : Browsing env config existing saved d) : d.returned.isSome ↔ d.ended = some .IDOK := by
  constructor
  · intro hret
    refine Decidable.not_not.mp fun hend => ?_
    have hresult := h.result hend
    unfold returned at hret
    split at hret
    · cases hret
    · simp [hresult] at hret
  · intro hend
    obtain ⟨hclient, e, -, -, hresult⟩ := h.opened hend
    obtain ⟨c, hc⟩ := Option.isSome_iff_exists.mp hclient
    have hne : d.dlg.result ≠ [] := by
      rw [hresult]
      exact entryPath_ne_nil _ _
    rw [returned_of_result hc hne]
    rfl

/-- What is listed is shown, and nothing else. -/
theorem Listing.mem_iff {c : C} {cwd : Str} {entries : List DlgEntry} (h : Listing env c cwd entries) :
    ∃ w listing, (env.readdir c cwd w).1 = some listing ∧
      ∀ e, e ∈ entries ↔ e ∈ listing ∧ ConnectDlg.listedEntry (env.at c) e = true := by
  obtain ⟨w, listing, hread, rfl⟩ := h
  refine ⟨w, listing, hread, fun e => ?_⟩
  rw [(env.sort_perm _ _).mem_iff, List.mem_filter]

theorem mem_of_selected {d : ConnectWnd C} {e : DlgEntry} (h : d.selected = some e) :
    e ∈ d.dlg.entries := by
  unfold selected at h
  split at h
  · cases h
  · exact List.mem_of_getElem? h

theorem entryLess_dirs {cmp : WStr → WStr → Int} {a b : DlgEntry} (h : entryLess cmp b a = false) :
    b.is_dir = true → a.is_dir = true := by
  intro hb
  cases ha : a.is_dir with
  | true => rfl
  | false =>
    rw [entryLess, ha, hb, if_pos (by decide)] at h
    exact absurd h (by decide)

/-- **What the dialog shows, saves and returns.** In every run: the rows are the entries, the selection
is one of them, and the button to open is enabled on a file only, once there are entries. The
entries are directories before files; they are those that the client has listed in the directory shown
and that are directories or of a type that can be shown, and no others. The dialog returns a path
exactly when it was ended by opening a file; the path is that of a file that the client returned
has listed in the directory shown, and the client is the one `DoModal` was given, or one that was
connected to the host and port returned. Each address connected to was saved, and in settings that
keep them the history has them in front, the last one first. -/
theorem dialog_returns_listed {w : W} {ms : List ConnectMsg}
    (h : (machine env config existing initialPath).Run Machine.always
      (doModal env config existing initialPath w) ms s) :
    let d := s.1
    let saved := connectedTo env (doModal env config existing initialPath w) ms
    (d.rows = d.dlg.entries.map DlgEntry.row ∧ -1 ≤ d.sel ∧ d.sel < d.rows.length ∧
      (d.okEnabled = true → d.dlg.entries = [] ∨ d.selected.any (fun e => !e.is_dir) = true)) ∧
    (d.dlg.entries.Pairwise fun a b => b.is_dir = true → a.is_dir = true) ∧
    (d.dlg.entries ≠ [] → ∃ c w listing, d.client = some c ∧
      (env.readdir c d.dlg.cwd w).1 = some listing ∧
      ∀ e, e ∈ d.dlg.entries ↔ e ∈ listing ∧ ConnectDlg.listedEntry (env.at c) e = true) ∧
    (d.returned.isSome ↔ d.ended = some .IDOK) ∧
    d.config = saved.foldl saveHistory config ∧ (∀ t ∈ saved, SavedEntry env t) ∧
    (HistoryOk config → (∀ t ∈ saved, IniSafe t) →
      loadHistory d.config = touchAll 5 saved (loadHistory config)) ∧
    ∀ r path, d.returned = some (r, path) →
      (∃ name w listing, path = entryPath d.dlg.cwd name ∧
        (env.readdir r.client d.dlg.cwd w).1 = some listing ∧ ⟨name, false⟩ ∈ listing ∧
        env.isSupportedExt (getExt name) = true) ∧
      (existing = some r ∨ Connected env r.client r.host r.port ∧
        ∃ t, saved.getLast? = some t ∧ readAddress (wstrToUtf8 t) = .ok (r.host, r.port)) := by
  intro d saved
  have hb : Browsing env config existing saved d :=
    browsing_run h (doModal_browsing env config existing initialPath w)
  refine ⟨⟨hb.rows, hb.sel.1, hb.sel.2, hb.okFile⟩, ?_, ?_, hb.returned_iff, hb.config, hb.saved, ?_,
    ?_⟩
  · rcases hb.listed with hnil | ⟨c, -, w, listing, -, hentries⟩
    · rw [hnil]
      exact .nil
    · rw [hentries]
      exact (env.sort_ordered _).imp entryLess_dirs
  · intro hne
    rcases hb.listed with hnil | ⟨c, hc, hlisting⟩
    · exact absurd hnil hne
    · obtain ⟨w, listing, hread, hmem⟩ := hlisting.mem_iff
      exact ⟨c, w, listing, hc, hread, hmem⟩
  · intro hok hsafe
    rw [hb.config]
    refine loadHistory_foldl hok saved fun t ht => ?_
    obtain ⟨hne, hlen, -⟩ := hb.saved t ht
    exact ⟨hne, hsafe t ht, by omega⟩
  · intro r path hret
    have hend : d.ended = some .IDOK := hb.returned_iff.mp (by rw [hret]; rfl)
    obtain ⟨hclient, e, hsel, hfile, hresult⟩ := hb.opened hend
    obtain ⟨c, hc⟩ := Option.isSome_iff_exists.mp hclient
    have hne : d.dlg.result ≠ [] := by
      rw [hresult]
      exact entryPath_ne_nil _ _
    have hmem := mem_of_selected hsel
    rw [returned_of_result hc hne, Option.some.injEq, Prod.mk.injEq] at hret
    obtain ⟨rfl, rfl⟩ := hret
    rw [hresult]
    refine ⟨?_, hb.source c hc⟩
    rcases hb.listed with hnil | ⟨c', hc', hlisting⟩
    · rw [hnil] at hmem
      exact (List.not_mem_nil hmem).elim
    · obtain rfl := Option.some.inj (hc'.symm.trans hc)
      obtain ⟨w, listing, hread, hlisted⟩ := hlisting.mem_iff
      obtain ⟨hin, hshown⟩ := (hlisted e).mp hmem
      obtain ⟨name, is_dir⟩ := e
      cases hfile
      refine ⟨name, w, listing, rfl, hread, hin, ?_⟩
      simp only [ConnectDlg.listedEntry, Bool.false_or, Bool.and_eq_true] at hshown
      exact hshown.2.2

end Runs

end ConnectWnd

/-! ## A server with one folder -/

/-- A server `h:80` with a folder `pics` and a text in the root and a picture in the folder. No two names
are compared on it. -/
def picsServer : ConnectEnv Unit Unit where
  connect host port w := (if host = "h".toList ∧ port = 80 then some () else none, w)
  readdir _ dir w :=
    (if dir = "/".toList then some [⟨"a.txt".toList, false⟩, ⟨"pics".toList, true⟩]
     else if dir = "/pics".toList then some [⟨"c.png".toList, false⟩]
     else none, w)
  isSupportedExt ext := ext = "png".toList
  strCmpLogicalW _ _ := 0
  sort _ l := l.filter (fun e => e.is_dir) ++ l.filter fun e => !e.is_dir
  sort_perm _ l := List.filter_append_perm _ l
  sort_ordered l := by
    have hless : ∀ a b : DlgEntry, (b.is_dir = true → a.is_dir = true) →
        entryLess (fun _ _ => 0) b a = false := by
      rintro ⟨a, adir⟩ ⟨b, bdir⟩ h
      cases adir <;> cases bdir
      · rfl
      · exact absurd (h rfl) Bool.false_ne_true
      · rfl
      · rfl
    refine List.pairwise_append.mpr ⟨?_, ?_, ?_⟩
    · refine List.pairwise_of_forall_mem_list fun a ha b _ => hless a b fun _ => ?_
      exact (List.mem_filter.mp ha).2
    · refine List.pairwise_of_forall_mem_list fun a _ b hb => hless a b fun hdir => ?_
      simp [hdir] at hb
    · exact fun a ha b _ => hless a b fun _ => (List.mem_filter.mp ha).2

def noSettings : Config WStr := ⟨fun _ => none, fun _ => none, .exeIni⟩

/-- The user types the address, enters the folder and opens the picture. -/
def picsMessages : List ConnectMsg :=
  [.edit (wide "h:80".toList), .connect, .selChange 0, .dblClk, .selChange 0, .ok]

def picsOpened : ConnectWnd Unit × Unit := ConnectWnd.doModal picsServer noSettings none none ()

def picsRun : Option (ConnectWnd Unit × Unit) :=
  Machine.execAll (ConnectWnd.exec picsServer) Machine.always picsOpened picsMessages

theorem picsRun_returned : picsRun.map (fun s => (s.1.returned, s.1.dlg.cwd)) =
    some (some (⟨(), "h".toList, 80⟩, "/pics/c.png".toList), "/pics".toList) := by
  decide

theorem picsRun_run : ∃ s,
    (ConnectWnd.machine picsServer noSettings none none).Run Machine.always picsOpened picsMessages s ∧
    s.1.returned = some (⟨(), "h".toList, 80⟩, "/pics/c.png".toList) ∧
      s.1.dlg.cwd = "/pics".toList := by
  obtain ⟨s, hs, heq⟩ := Option.map_eq_some_iff.mp picsRun_returned
  obtain ⟨hret, hcwd⟩ := Prod.mk.inj heq
  exact ⟨s, Machine.run_of_execAll hs, hret, hcwd⟩

theorem picsRun_reach : ∃ s, (ConnectWnd.machine picsServer noSettings none none).Reach Machine.always s ∧
    s.1.returned = some (⟨(), "h".toList, 80⟩, "/pics/c.png".toList) ∧
      s.1.dlg.cwd = "/pics".toList := by
  obtain ⟨s, hrun, hret, hcwd⟩ := picsRun_run
  exact ⟨s, ⟨_, _, ⟨(), rfl⟩, hrun⟩, hret, hcwd⟩

theorem dialog_returns_listed_pics :
    (∃ name, "/pics/c.png".toList = entryPath "/pics".toList name ∧
      picsServer.isSupportedExt (getExt name) = true) ∧
    ∃ t, (ConnectWnd.connectedTo picsServer picsOpened picsMessages).getLast? = some t ∧
      readAddress (wstrToUtf8 t) = .ok ("h".toList, 80) := by
  obtain ⟨s, hrun, hret, hcwd⟩ := picsRun_run
  obtain ⟨-, -, -, -, -, -, -, hfile⟩ := ConnectWnd.dialog_returns_listed hrun
  obtain ⟨⟨name, w, listing, hpath, -, -, hext⟩, hold | ⟨-, hlast⟩⟩ := hfile _ _ hret
  · cases hold
  · rw [hcwd] at hpath
    exact ⟨⟨name, hpath, hext⟩, hlast⟩

end ObZrv
