import ObZrv.Doc.ConnectAgain
import ObZrv.Doc.Failure
import ObZrv.Text.Unipath
import ObZrv.View.Menu

/-!
# View.RecentMenu

The recent files of the main window: the texts that `RecentFileRegistry` shows, the items that
`UpdateRecentFilesMenu` makes of them, and what picking one opens.

* `recentItems_shows`     : the items, one for each entry.
* `menu_lists_recent`     : in every run the submenu lists the entries, and each item opens its own.
* `icons_owned`           : in every run the bitmaps of the menu are those that the program keeps.
* `menu_survives_restart` : the next start lists the same files.
* `dialog_file_listed`    : a file that the dialog for remote files returns comes first.
-/

namespace ObZrv

open Lib

namespace RecentFileRegistry

/-- `MAX_DISPLAY_CHARS`. -/
def maxDisplayChars : Nat := 50

def ellipsis : WStr := wide "...".toList

def clipMiddle (text : WStr) : WStr :=
  if text.length ≤ maxDisplayChars then text
  else
    let keep := maxDisplayChars - ellipsis.length
    let left := keep / 2
    let right := keep - left
    text.take left ++ ellipsis ++ text.drop (text.length - right)

/-- `L"remote:%s:%u"`. -/
def remoteServer (entry : Entry) : WStr :=
  wide "remote:".toList ++ utf8ToWstr entry.host ++ wide ":".toList ++ formatInt entry.port.toNat

/-- `FormatEntry`; `none` where `_snwprintf` has no room for the NUL in its buffer of 320 characters,
which is read up to the next one. -/
def formatEntry (entry : Entry) : Option WStr :=
  match entry.type with
  | .LOCAL => some (utf8ToWstr (localDisplayPath (entry.path.takeWhile (· ≠ '\x00'))))
  | .REMOTE =>
    if (remoteServer entry).length < 320 then some (remoteServer entry ++ utf8ToWstr entry.path)
    else none

def displayText (entries : List Entry) (i : Nat) : Option WStr :=
  match entries[i]? with
  | none => some []
  | some entry => (formatEntry entry).map clipMiddle

end RecentFileRegistry

open RecentFileRegistry (Entry Registry AddCall maxItems maxDisplayChars formatEntry displayText
  clipMiddle)

/-! ## The window -/

/-- What the window opens files with: a new `LocalFs`, and `RemoteFs::open`. -/
structure RecentEnv (W F I G : Type) extends Env W F I where
  newLocalFs : W → Nat × W
  remoteFsOpen : Str → UInt16 → W → Option Nat × W
  gdi : Gdi G

structure RecentWnd (W I G : Type) where
  sys : Sys W I
  recentFiles : Registry
  bar : MenuBar G
  zoomMode : Int
  fileListVisible : Bool := true

/-- The item in place of the recent files where there are none. -/
def emptyItem : MenuItem :=
  { id := ID_FILE_RECENT_EMPTY, text := wide "(Empty)".toList, grayed := true }

def recentItem (entries : List Entry) (i : Nat) : Option MenuItem :=
  (displayText entries i).map fun text => { id := ID_FILE_RECENT_FIRST + i, text }

/-- The items that `UpdateRecentFilesMenu` appends. -/
def recentItems (entries : List Entry) : Option (List MenuItem) :=
  if entries = [] then some [emptyItem]
  else (List.range (min entries.length maxItems)).mapM (recentItem entries)

namespace RecentWnd

variable {W F I G : Type} (env : RecentEnv W F I G) (s : RecentWnd W I G)

def setMenu (menu : MenuTree) : RecentWnd W I G := { s with bar := { s.bar with menu } }

def updateRecentFilesMenu : Option (RecentWnd W I G) :=
  (recentItems s.recentFiles.entries).map fun items => { s with bar := s.bar.replaceRecent items }

/-- The call of `open` in `OpenFile`, `OnCommand` and `OpenRecentFile`. -/
def openCall (fs : UniFs) (path : Str) : OpenCall :=
  { unifs := some fs, path, cmdid := -1, forceScanDir := true, dirHint := INT_MIN }

/-- A file is opened and, if that went well, added to the recent files. -/
def openAndAdd (fs : UniFs) (call : AddCall) : Option (RecentWnd W I G) :=
  let (res, sys) := s.sys.open env.toEnv (openCall fs call.entry.path)
  if res = .OK then
    updateRecentFilesMenu { s with sys, recentFiles := s.recentFiles.apply call }
  else some { s with sys }

def openLocal (path : Str) : Option (RecentWnd W I G) :=
  let (id, w) := env.newLocalFs s.sys.world
  openAndAdd env { s with sys := s.sys.setWorld w } { remote := false, id } (.addLocal path)

def openFile (path : Str) : Option (RecentWnd W I G) := s.openLocal env (toUnipath path)

/-- `ID_FILE_OPEN_REMOTE` with what the dialog returns. -/
def openRemote (r : OpenRemote Nat) (path : Str) : Option (RecentWnd W I G) :=
  if path = [] then some s
  else s.openAndAdd env { remote := true, id := r.client } (.addRemote r.host r.port path)

def openRecentFile (id : Int) : Option (RecentWnd W I G) :=
  let idx := id - ID_FILE_RECENT_FIRST
  if idx < 0 then some s
  else
    match s.recentFiles.entries[idx.toNat]? with
    | none => some s
    | some entry =>
      match entry.type with
      | .LOCAL => s.openLocal env entry.path
      | .REMOTE =>
        let (client, w) := env.remoteFsOpen entry.host entry.port s.sys.world
        let s := { s with sys := s.sys.setWorld w }
        match client with
        | none =>
          some { s with
            sys := s.sys.messageBox "Could not connect to the remote server." "Connection Failed" }
        | some id =>
          s.openAndAdd env { remote := true, id } (.addRemote entry.host entry.port entry.path)

/-- `OnCommand`, as far as it concerns the menu. -/
def onCommand (id : Int) : Option (RecentWnd W I G) :=
  if id ≥ ID_FILE_RECENT_FIRST ∧ id ≤ ID_FILE_RECENT_LAST then s.openRecentFile env id
  else if id = ID_VIEW_FILELIST then
    let shown := !s.fileListVisible
    some { s.setMenu (s.bar.menu.setChecked ID_VIEW_FILELIST shown) with fileListVisible := shown }
  else if id = ID_VIEW_ZOOMMODE then some (s.setMenu (s.bar.menu.showZoomModeMenu s.zoomMode))
  else if id ≥ ID_ZOOMMODE_W2I_ZOOMOUT ∧ id ≤ ID_ZOOMMODE_NOFIT then some { s with zoomMode := id }
  else some s

/-- The menu part of `UpdateButtonStates`, with what the view answers. -/
def updateButtonStates (canZoomIn canZoomOut : Bool) : RecentWnd W I G :=
  let idx := s.sys.doc.diridx
  let cnt : Int := s.sys.doc.dirfiles.length
  let menu := s.bar.menu.enableItem ID_FILE_SAVE_AS (s.sys.doc.path ≠ [])
  let menu := menu.enableItem ID_FILE_PREV (idx > 0)
  let menu := menu.enableItem ID_FILE_NEXT (idx ≥ 0 ∧ idx < cnt - 1)
  let menu := menu.enableItem ID_VIEW_ZOOMIN canZoomIn
  s.setMenu (menu.enableItem ID_VIEW_ZOOMOUT canZoomOut)

def updateMenuIcons : RecentWnd W I G := { s with bar := s.bar.updateMenuIcons env.gdi }

/-- `OnCreate`, with the settings it reads; no image can be zoomed yet. -/
def onCreate (menu : MenuTree) (getStr : WStr → WStr) (getInt : WStr → Int) (zoomMode : Int) (w : W)
    (g : G) : Option (RecentWnd W I G) :=
  let s : RecentWnd W I G :=
    { sys := .empty w
      recentFiles := { entries := RecentFileRegistry.load getStr getInt }
      bar := { menu, gdi := g }
      zoomMode := ID_ZOOMMODE_W2I_ZOOMOUT }
  s.updateRecentFilesMenu.map fun s =>
    let s := s.setMenu (s.bar.menu.setChecked ID_VIEW_FILELIST s.fileListVisible)
    let s := { s with
      zoomMode :=
        if zoomMode < ID_ZOOMMODE_W2I_ZOOMOUT ∨ zoomMode > ID_ZOOMMODE_NOFIT then
          ID_ZOOMMODE_W2I_ZOOMOUT
        else zoomMode }
    (s.updateButtonStates false false).updateMenuIcons env

inductive Event (W I : Type) where
  | openFile (path : Str)
  | openRemote (r : OpenRemote Nat) (path : Str)
  | command (id : Int)
  | initMenuPopup (hPop : HMENU)
  | setInfo (canZoomIn canZoomOut : Bool)
  | dpiChanged (canZoomIn canZoomOut : Bool)
  /-- Anything else that changes the document. -/
  | document (sys : Sys W I)

/-- One message; `none` where it formats an entry that has no room. -/
def exec (s : RecentWnd W I G) : Event W I → Option (RecentWnd W I G)
  | .openFile path => s.openFile env path
  | .openRemote r path => s.openRemote env r path
  | .command id => s.onCommand env id
  | .initMenuPopup hPop => some (s.setMenu (s.bar.menu.initMenuPopup hPop s.zoomMode))
  | .setInfo canZoomIn canZoomOut => some (s.updateButtonStates canZoomIn canZoomOut)
  | .dpiChanged canZoomIn canZoomOut =>
    some ((s.updateMenuIcons env).updateButtonStates canZoomIn canZoomOut)
  | .document sys => some { s with sys }

/-- The runs of the window over a menu; `base` are the bitmaps that are not the program's. -/
def machine (res : MenuResource) (base : HBITMAP → Prop) : Machine (RecentWnd W I G) (Event W I) :=
  .ofExec (fun s => ∃ getStr getInt zoomMode w g, (∀ x, env.gdi.live g x ↔ base x) ∧
    onCreate env res.menu getStr getInt zoomMode w g = some s) (exec env)

end RecentWnd

/-! ## The items of the recent files -/

namespace RecentFileRegistry

theorem clipMiddle_length (text : WStr) : (clipMiddle text).length ≤ maxDisplayChars := by
  unfold clipMiddle
  split
  · assumption
  · have hdots : ellipsis.length = 3 := rfl
    simp only [List.length_append, List.length_take, List.length_drop, hdots, maxDisplayChars]
    omega

/-- The host of an entry leaves room for the rest. -/
theorem formatEntry_isSome {entry : Entry} (h : (utf8ToWstr entry.host).length ≤ 300) :
    (formatEntry entry).isSome := by
  have hport : (formatInt entry.port.toNat).length ≤ 11 := by
    have hlt := entry.port.toNat_lt
    exact formatInt_length ⟨by omega, by omega⟩
  unfold formatEntry
  cases entry.type with
  | LOCAL => rfl
  | REMOTE =>
    have hroom : (remoteServer entry).length < 320 := by
      have hname : (wide "remote:".toList).length = 7 := rfl
      have hcolon : (wide ":".toList).length = 1 := rfl
      simp only [remoteServer, List.length_append, hname, hcolon]
      omega
    simp only [if_pos hroom, Option.isSome_some]

end RecentFileRegistry

section Items

variable {entries : List Entry} {items : List MenuItem}

theorem mapM_eq_some_iff {α β : Type} {f : α → Option β} {l : List α} {l' : List β} :
    l.mapM f = some l' ↔ l.map f = l'.map some := by
  induction l generalizing l' with
  | nil => cases l' <;> simp
  | cons a l ih =>
    rw [List.mapM_cons, List.map_cons]
    cases hf : f a with
    | none => cases l' <;> simp
    | some b =>
      cases l' with
      | nil => cases hl : l.mapM f <;> simp
      | cons b' l' => cases hl : l.mapM f <;> simp [← ih, hl]

theorem mapM_isSome {α β : Type} {f : α → Option β} {l : List α} (h : ∀ a ∈ l, (f a).isSome) :
    ∃ l', l.mapM f = some l' := by
  induction l with
  | nil => exact ⟨[], rfl⟩
  | cons a l ih =>
    obtain ⟨b, hb⟩ := Option.isSome_iff_exists.mp (h a List.mem_cons_self)
    obtain ⟨l', hl'⟩ := ih fun x hx => h x (List.mem_cons_of_mem a hx)
    exact ⟨b :: l', by rw [List.mapM_cons, hb, hl']; rfl⟩

/-- What the submenu shows of the entries. -/
structure ShowsEntries (entries : List Entry) (items : List MenuItem) : Prop where
  empty : entries = [] → items = [emptyItem]
  length_eq : entries ≠ [] → items.length = entries.length
  item : ∀ (i : Nat) entry, entries[i]? = some entry → ∃ text, formatEntry entry = some text ∧
    items[i]? = some ({ id := ID_FILE_RECENT_FIRST + i, text := clipMiddle text } : MenuItem)

theorem recentItem_eq_some {i : Nat} {item : MenuItem} (h : recentItem entries i = some item) :
    item.id = ID_FILE_RECENT_FIRST + i ∧ item.bitmap = none ∧
      ∀ entry, entries[i]? = some entry → ∃ text, formatEntry entry = some text ∧
        item = { id := ID_FILE_RECENT_FIRST + i, text := clipMiddle text } := by
  obtain ⟨text, htext, rfl⟩ := Option.map_eq_some_iff.mp h
  refine ⟨rfl, rfl, fun entry hentry => ?_⟩
  unfold displayText at htext
  rw [hentry] at htext
  obtain ⟨long, hlong, rfl⟩ := Option.map_eq_some_iff.mp htext
  exact ⟨long, hlong, rfl⟩

/-- The items of a list that is not empty, one for each entry there is room for. -/
theorem recentItems_get (hne : entries ≠ []) (h : recentItems entries = some items) :
    items.length = min entries.length maxItems ∧
      ∀ i item, items[i]? = some item → i < min entries.length maxItems ∧
        recentItem entries i = some item := by
  unfold recentItems at h
  rw [if_neg hne] at h
  have hmap := mapM_eq_some_iff.mp h
  have hlength : items.length = min entries.length maxItems := by
    have hlen := congrArg List.length hmap
    simp only [List.length_map, List.length_range] at hlen
    exact hlen.symm
  refine ⟨hlength, fun i item hitem => ?_⟩
  have hlt : i < min entries.length maxItems := by
    obtain ⟨hi, -⟩ := List.getElem?_eq_some_iff.mp hitem
    omega
  have hget := congrArg (·[i]?) hmap
  simp only [List.getElem?_map, List.getElem?_range hlt, hitem, Option.map_some,
    Option.some.injEq] at hget
  exact ⟨hlt, hget⟩

theorem recentItems_shows (hlen : entries.length ≤ maxItems) (h : recentItems entries = some items) :
    ShowsEntries entries items := by
  refine ⟨?_, ?_, ?_⟩
  · rintro rfl
    exact (Option.some.inj h).symm
  · intro hne
    rw [(recentItems_get hne h).1, Nat.min_eq_left hlen]
  · intro i entry hentry
    have hne : entries ≠ [] := by
      rintro rfl
      cases hentry
    obtain ⟨hlength, hget⟩ := recentItems_get hne h
    obtain ⟨hi, -⟩ := List.getElem?_eq_some_iff.mp hentry
    have hlt : i < items.length := by omega
    obtain ⟨-, hitem⟩ := hget i items[i] (List.getElem?_eq_getElem hlt)
    obtain ⟨text, htext, heq⟩ := (recentItem_eq_some hitem).2.2 entry hentry
    exact ⟨text, htext, by rw [List.getElem?_eq_getElem hlt, heq]⟩

theorem recentItems_recent (h : recentItems entries = some items) :
    ∀ item ∈ items, item.Recent := by
  intro item hmem
  by_cases hne : entries = []
  · rw [recentItems, if_pos hne, Option.some.injEq] at h
    subst h
    rw [List.mem_singleton.mp hmem]
    exact ⟨.inl rfl, rfl⟩
  · obtain ⟨i, hi⟩ := List.mem_iff_getElem?.mp hmem
    obtain ⟨hlt, hitem⟩ := (recentItems_get hne h).2 i item hi
    obtain ⟨hid, hbitmap, -⟩ := recentItem_eq_some hitem
    refine ⟨.inr ?_, hbitmap⟩
    simp only [hid, ID_FILE_RECENT_FIRST, ID_FILE_RECENT_LAST]
    unfold maxItems at hlt
    omega

/-- Items can be made where there is room for the text of each entry. -/
theorem recentItems_isSome (h : ∀ e ∈ entries, (formatEntry e).isSome) :
    ∃ items, recentItems entries = some items := by
  by_cases hne : entries = []
  · exact ⟨[emptyItem], if_pos hne⟩
  · unfold recentItems
    rw [if_neg hne]
    refine mapM_isSome fun i hi => ?_
    unfold recentItem displayText
    rw [Option.isSome_map]
    cases hget : entries[i]? with
    | none => rfl
    | some entry =>
      simp only [Option.isSome_map]
      exact h entry (List.mem_of_getElem? hget)

theorem ShowsEntries.formatEntry_isSome (h : ShowsEntries entries items) {entry : Entry}
    (hmem : entry ∈ entries) : (formatEntry entry).isSome := by
  obtain ⟨i, hi⟩ := List.mem_iff_getElem?.mp hmem
  obtain ⟨text, htext, -⟩ := h.item i entry hi
  rw [htext]
  rfl

end Items

/-! ## Runs -/

namespace RecentWnd

variable {W F I G : Type} {env : RecentEnv W F I G} {base : HBITMAP → Prop} {res : MenuResource}
  {s s' : RecentWnd W I G}

/-- What holds of the window in every run. -/
structure Listed (env : RecentEnv W F I G) (base : HBITMAP → Prop) (res : MenuResource)
    (s : RecentWnd W I G) : Prop where
  length_le : s.recentFiles.entries.length ≤ maxItems
  local_plain : ∀ e ∈ s.recentFiles.entries, e.type = .LOCAL → e.host = [] ∧ e.port = 0
  menu : ∃ items, recentItems s.recentFiles.entries = some items ∧
    MenuBar.Ok env.gdi base res items s.bar

theorem Listed.setMenu (h : Listed env base res s) {menu : MenuTree}
    (ht : s.bar.menu.Touched menu) : Listed env base res (s.setMenu menu) := by
  obtain ⟨items, hitems, hok⟩ := h.menu
  exact ⟨h.length_le, h.local_plain, items, hitems, hok.touched (recentItems_recent hitems) ht⟩

theorem Listed.updateMenuIcons (h : Listed env base res s) :
    Listed env base res (s.updateMenuIcons env) := by
  obtain ⟨items, hitems, hok⟩ := h.menu
  exact ⟨h.length_le, h.local_plain, items, hitems, hok.updateMenuIcons (recentItems_recent hitems)⟩

theorem touched_updateButtonStates (s : RecentWnd W I G) (canZoomIn canZoomOut : Bool) :
    s.bar.menu.Touched (s.updateButtonStates canZoomIn canZoomOut).bar.menu := by
  have hone : ∀ (menu : MenuTree) {cmdId : Int} (enable : Bool), cmdId ∈ [ID_FILE_SAVE_AS,
      ID_FILE_PREV, ID_FILE_NEXT, ID_VIEW_ZOOMIN, ID_VIEW_ZOOMOUT] →
      s.bar.menu.Touched menu → s.bar.menu.Touched (menu.enableItem cmdId enable) :=
    fun menu _ enable hmem ht => MenuTree.Touched.trans ht (menu.touched_enableItem hmem enable)
  refine hone _ _ (by decide) (hone _ _ (by decide) (hone _ _ (by decide) (hone _ _ (by decide)
    (hone _ _ (by decide) ?_))))
  exact MenuTree.Touched.refl _

theorem Listed.updateButtonStates (h : Listed env base res s) (canZoomIn canZoomOut : Bool) :
    Listed env base res (s.updateButtonStates canZoomIn canZoomOut) :=
  h.setMenu (touched_updateButtonStates s canZoomIn canZoomOut)

theorem apply_entries (r : Registry) (call : AddCall) :
    (r.apply call).entries =
      if call.entry.path = [] then r.entries else touch maxItems call.entry r.entries := by
  rw [RecentFileRegistry.apply_eq_add]
  split
  · rename_i hpath
    rw [RecentFileRegistry.add_empty hpath]
  · rename_i hpath
    exact RecentFileRegistry.add_entries hpath

/-- The new items take the place of the old ones. -/
theorem Listed.added (h : Listed env base res s) {sys : Sys W I} {call : AddCall}
    (hup : updateRecentFilesMenu { s with sys, recentFiles := s.recentFiles.apply call } = some s') :
    Listed env base res s' ∧ s'.sys = sys ∧ s'.recentFiles = s.recentFiles.apply call := by
  obtain ⟨items, hitems, hok⟩ := h.menu
  obtain ⟨items', hitems', rfl⟩ := Option.map_eq_some_iff.mp hup
  have hentries := apply_entries s.recentFiles call
  refine ⟨⟨?_, ?_, items', hitems', ?_⟩, rfl, rfl⟩
  · simp only
    rw [hentries]
    split
    · exact h.length_le
    · exact touch_length_le
  · simp only
    rw [hentries]
    intro e he hlocal
    split at he
    · exact h.local_plain e he hlocal
    · rcases mem_of_mem_touch he with rfl | hmem
      · exact RecentFileRegistry.entry_local call hlocal
      · exact h.local_plain e hmem hlocal
  · exact hok.replaceRecent (recentItems_recent hitems) (recentItems_recent hitems')

/-- How opening a file ends. -/
theorem openAndAdd_cases (env : RecentEnv W F I G) (s : RecentWnd W I G) (fs : UniFs)
    (call : AddCall) :
    let opened := s.sys.open env.toEnv (openCall fs call.entry.path)
    (opened.1 ≠ .OK ∧ s.openAndAdd env fs call = some { s with sys := opened.2 }) ∨
    (opened.1 = .OK ∧ s.openAndAdd env fs call =
      updateRecentFilesMenu { s with sys := opened.2, recentFiles := s.recentFiles.apply call }) := by
  intro opened
  by_cases hok : opened.1 = .OK
  · exact .inr ⟨hok, if_pos hok⟩
  · exact .inl ⟨hok, if_neg hok⟩

theorem Listed.setSys (h : Listed env base res s) (sys : Sys W I) :
    Listed env base res { s with sys } := ⟨h.length_le, h.local_plain, h.menu⟩

/-- What one message does: it changes the state of items, makes the icons anew, or adds a file. -/
inductive Step (env : RecentEnv W F I G) (s : RecentWnd W I G) : RecentWnd W I G → Prop where
  | state {menu : MenuTree} {sys : Sys W I} {zoomMode : Int} {fileListVisible : Bool}
    (ht : s.bar.menu.Touched menu) :
    Step env s { s.setMenu menu with sys, zoomMode, fileListVisible }
  | icons (canZoomIn canZoomOut : Bool) :
    Step env s ((s.updateMenuIcons env).updateButtonStates canZoomIn canZoomOut)
  | added {sys : Sys W I} {call : AddCall} {s' : RecentWnd W I G}
    (hup : updateRecentFilesMenu { s with sys, recentFiles := s.recentFiles.apply call } = some s') :
    Step env s s'

theorem Step.setSys (s : RecentWnd W I G) (sys : Sys W I) : Step env s { s with sys } :=
  .state (MenuTree.Touched.refl s.bar.menu)

theorem openAndAdd_step {sys : Sys W I} {fs : UniFs} {call : AddCall}
    (hs : openAndAdd env { s with sys } fs call = some s') : Step env s s' := by
  rcases openAndAdd_cases env { s with sys } fs call with ⟨-, heq⟩ | ⟨-, heq⟩
  · rw [heq, Option.some.injEq] at hs
    subst hs
    exact .setSys s _
  · rw [heq] at hs
    exact .added hs

theorem openRecentFile_step {id : Int} (hs : s.openRecentFile env id = some s') : Step env s s' := by
  simp only [openRecentFile] at hs
  split at hs
  · cases hs
    exact .setSys s s.sys
  split at hs
  · cases hs
    exact .setSys s s.sys
  split at hs
  · exact openAndAdd_step hs
  split at hs
  · cases hs
    exact .setSys s _
  · exact openAndAdd_step hs

theorem onCommand_step {id : Int} (hs : s.onCommand env id = some s') : Step env s s' := by
  simp only [onCommand] at hs
  split at hs
  · exact openRecentFile_step hs
  split at hs
  · cases hs
    exact .state (s.bar.menu.touched_setChecked !s.fileListVisible)
  split at hs
  · cases hs
    exact .state (s.bar.menu.touched_showZoomModeMenu s.zoomMode)
  split at hs
  · cases hs
    exact .state (MenuTree.Touched.refl s.bar.menu)
  · cases hs
    exact .setSys s s.sys

theorem exec_step {e : Event W I} (hs : exec env s e = some s') : Step env s s' := by
  cases e with
  | openFile path => exact openAndAdd_step hs
  | openRemote r path =>
    simp only [exec, openRemote] at hs
    split at hs
    · cases hs
      exact .setSys s s.sys
    · exact openAndAdd_step hs
  | command id => exact onCommand_step hs
  | initMenuPopup hPop =>
    cases hs
    exact .state (s.bar.menu.touched_initMenuPopup hPop s.zoomMode)
  | setInfo canZoomIn canZoomOut =>
    cases hs
    exact .state (touched_updateButtonStates s canZoomIn canZoomOut)
  | dpiChanged canZoomIn canZoomOut =>
    cases hs
    exact .icons canZoomIn canZoomOut
  | document sys =>
    cases hs
    exact .setSys s sys

theorem Listed.step (h : Listed env base res s) (hs : Step env s s') : Listed env base res s' := by
  cases hs with
  | state ht =>
    have hmenu := h.setMenu ht
    exact ⟨hmenu.length_le, hmenu.local_plain, hmenu.menu⟩
  | icons canZoomIn canZoomOut => exact h.updateMenuIcons.updateButtonStates canZoomIn canZoomOut
  | added hup => exact (h.added hup).1

theorem load_length_le (getStr : WStr → WStr) (getInt : WStr → Int) :
    (RecentFileRegistry.load getStr getInt).length ≤ maxItems := by
  have hle := List.length_filterMap_le (RecentFileRegistry.loadSlot getStr getInt)
    (List.range maxItems)
  rw [List.length_range] at hle
  exact hle

theorem load_local_plain (getStr : WStr → WStr) (getInt : WStr → Int) :
    ∀ e ∈ RecentFileRegistry.load getStr getInt, e.type = .LOCAL → e.host = [] ∧ e.port = 0 := by
  intro e he hlocal
  obtain ⟨i, -, hslot⟩ := List.mem_filterMap.mp he
  simp only [RecentFileRegistry.loadSlot] at hslot
  split at hslot
  · cases hslot
  split at hslot
  · cases hslot
  split at hslot
  · split at hslot
    · cases hslot
    · cases hslot
      cases hlocal
  · cases hslot
    exact ⟨rfl, rfl⟩

theorem listed_start {getStr : WStr → WStr} {getInt : WStr → Int} {zoomMode : Int} {w : W} {g : G}
    (hbase : ∀ x, env.gdi.live g x ↔ base x)
    (hs : onCreate env res.menu getStr getInt zoomMode w g = some s) : Listed env base res s := by
  obtain ⟨s₀, hup, rfl⟩ := Option.map_eq_some_iff.mp hs
  obtain ⟨items, hitems, rfl⟩ := Option.map_eq_some_iff.mp hup
  have hfirst : Listed env base res { ({
      sys := .empty w
      recentFiles := { entries := RecentFileRegistry.load getStr getInt }
      bar := { menu := res.menu, gdi := g }
      zoomMode := ID_ZOOMMODE_W2I_ZOOMOUT } : RecentWnd W I G) with
        bar := MenuBar.replaceRecent { menu := res.menu, gdi := g } items } :=
    ⟨load_length_le getStr getInt, load_local_plain getStr getInt, items, hitems,
      MenuBar.ok_start hbase (recentItems_recent hitems)⟩
  have hchecked := hfirst.setMenu (MenuTree.touched_setChecked _ true)
  refine Listed.updateMenuIcons (Listed.updateButtonStates ?_ false false)
  exact ⟨hchecked.length_le, hchecked.local_plain, hchecked.menu⟩

theorem reach_listed (h : (machine env res base).Reach Machine.always s) : Listed env base res s := by
  refine h.holds ?_ ?_
  · rintro s ⟨getStr, getInt, zoomMode, w, g, hbase, hs⟩
    exact listed_start hbase hs
  · intro s e s' hl _ hs
    exact hl.step (exec_step hs)

/-! ## Picking an item -/

theorem Listed.formatEntry_isSome (h : Listed env base res s) {entry : Entry}
    (hmem : entry ∈ s.recentFiles.entries) : (formatEntry entry).isSome := by
  obtain ⟨items, hitems, -⟩ := h.menu
  exact (recentItems_shows h.length_le hitems).formatEntry_isSome hmem

theorem Listed.openAndAdd_isSome (h : Listed env base res s) (fs : UniFs) {call : AddCall}
    (hroom : (formatEntry call.entry).isSome) : ∃ s', s.openAndAdd env fs call = some s' := by
  rcases openAndAdd_cases env s fs call with ⟨-, heq⟩ | ⟨-, heq⟩
  · exact ⟨_, heq⟩
  · have hall : ∀ e ∈ (s.recentFiles.apply call).entries, (formatEntry e).isSome := by
      rw [apply_entries]
      intro e he
      split at he
      · exact h.formatEntry_isSome he
      · rcases mem_of_mem_touch he with rfl | hmem
        · exact hroom
        · exact h.formatEntry_isSome hmem
    obtain ⟨items, hitems⟩ := recentItems_isSome hall
    rw [heq]
    exact ⟨_, congrArg (Option.map _) hitems⟩

/-- The file system an entry is opened on. -/
def entryFs (env : RecentEnv W F I G) (entry : Entry) (w : W) : Option UniFs × W :=
  match entry.type with
  | .LOCAL => (some { remote := false, id := (env.newLocalFs w).1 }, (env.newLocalFs w).2)
  | .REMOTE =>
    ((env.remoteFsOpen entry.host entry.port w).1.map fun id => { remote := true, id },
      (env.remoteFsOpen entry.host entry.port w).2)

/-- The entry is opened and comes first, or nothing but the document changes. -/
inductive Picked (env : RecentEnv W F I G) (s : RecentWnd W I G) (entry : Entry) :
    RecentWnd W I G → Prop where
  | lost (h : (entryFs env entry s.sys.world).1 = none) : Picked env s entry { s with
      sys := (s.sys.setWorld (entryFs env entry s.sys.world).2).messageBox
        "Could not connect to the remote server." "Connection Failed" }
  | refused {fs : UniFs} {res : IM} {sys : Sys W I}
    (h : (entryFs env entry s.sys.world).1 = some fs)
    (hopen : (s.sys.setWorld (entryFs env entry s.sys.world).2).open env.toEnv
      (openCall fs entry.path) = (res, sys)) (hres : res ≠ .OK) : Picked env s entry { s with sys }
  | opened {fs : UniFs} {s' : RecentWnd W I G} (h : (entryFs env entry s.sys.world).1 = some fs)
    (hopen : (s.sys.setWorld (entryFs env entry s.sys.world).2).open env.toEnv
      (openCall fs entry.path) = (.OK, s'.sys))
    (hfirst : entry.path ≠ [] →
      s'.recentFiles.entries = touch maxItems entry s.recentFiles.entries) : Picked env s entry s'

theorem openAndAdd_picked (h : Listed env base res s) {fs : UniFs} {entry : Entry} {call : AddCall}
    (hcall : call.entry = entry) (hmem : entry ∈ s.recentFiles.entries)
    (hfs : (entryFs env entry s.sys.world).1 = some fs) :
    ∃ s', openAndAdd env { s with sys := s.sys.setWorld (entryFs env entry s.sys.world).2 } fs call =
      some s' ∧ Picked env s entry s' := by
  subst hcall
  have hl := h.setSys (s.sys.setWorld (entryFs env call.entry s.sys.world).2)
  obtain ⟨s', hs⟩ := hl.openAndAdd_isSome fs (h.formatEntry_isSome hmem)
  refine ⟨s', hs, ?_⟩
  rcases openAndAdd_cases env { s with sys := s.sys.setWorld (entryFs env call.entry s.sys.world).2 }
    fs call with ⟨hres, heq⟩ | ⟨hres, heq⟩
  · rw [heq, Option.some.injEq] at hs
    subst hs
    exact .refused hfs rfl hres
  · rw [heq] at hs
    obtain ⟨-, hsys, hfiles⟩ := hl.added hs
    refine .opened hfs ?_ ?_
    · rw [hsys]
      exact Prod.ext hres rfl
    · intro hpath
      rw [hfiles]
      simp only
      rw [apply_entries, if_neg hpath]

/-- **Picking an item** opens the entry it stands for. -/
theorem Listed.picked (h : Listed env base res s) {i : Nat} {entry : Entry}
    (hentry : s.recentFiles.entries[i]? = some entry) :
    ∃ s', RecentWnd.exec env s (.command (ID_FILE_RECENT_FIRST + i)) = some s' ∧
      Picked env s entry s' := by
  have hmem := List.mem_of_getElem? hentry
  obtain ⟨hi, -⟩ := List.getElem?_eq_some_iff.mp hentry
  have hrange : ID_FILE_RECENT_FIRST + (i : Int) ≥ ID_FILE_RECENT_FIRST ∧
      ID_FILE_RECENT_FIRST + (i : Int) ≤ ID_FILE_RECENT_LAST := by
    have hle := h.length_le
    simp only [maxItems, ID_FILE_RECENT_FIRST, ID_FILE_RECENT_LAST] at hle ⊢
    omega
  have hidx : ID_FILE_RECENT_FIRST + (i : Int) - ID_FILE_RECENT_FIRST = i := by omega
  have hopen : RecentWnd.exec env s (.command (ID_FILE_RECENT_FIRST + i)) =
      s.openRecentFile env (ID_FILE_RECENT_FIRST + i) := if_pos hrange
  rw [hopen]
  unfold RecentWnd.openRecentFile
  simp only [hidx]
  rw [if_neg (by omega), Int.toNat_natCast, hentry]
  simp only
  cases htype : entry.type with
  | LOCAL =>
    have hcall : (AddCall.addLocal entry.path).entry = entry := by
      obtain ⟨hhost, hport⟩ := h.local_plain entry hmem htype
      cases entry
      simp only at hhost hport htype
      subst hhost hport htype
      rfl
    have hfs : entryFs env entry s.sys.world =
        (some { remote := false, id := (env.newLocalFs s.sys.world).1 },
          (env.newLocalFs s.sys.world).2) := by
      unfold entryFs
      rw [htype]
    have hpicked := openAndAdd_picked h hcall hmem (congrArg Prod.fst hfs)
    rw [hfs] at hpicked
    exact hpicked
  | REMOTE =>
    have hcall : (AddCall.addRemote entry.host entry.port entry.path).entry = entry := by
      cases entry
      simp only at htype
      subst htype
      rfl
    have hfs : entryFs env entry s.sys.world =
        ((env.remoteFsOpen entry.host entry.port s.sys.world).1.map fun id => { remote := true, id },
          (env.remoteFsOpen entry.host entry.port s.sys.world).2) := by
      unfold entryFs
      rw [htype]
    cases hclient : (env.remoteFsOpen entry.host entry.port s.sys.world).1 with
    | none =>
      rw [hclient] at hfs
      have hlost : Picked env s entry _ := .lost (congrArg Prod.fst hfs)
      rw [hfs] at hlost
      exact ⟨_, rfl, hlost⟩
    | some id =>
      rw [hclient] at hfs
      have hpicked := openAndAdd_picked h hcall hmem (congrArg Prod.fst hfs)
      rw [hfs] at hpicked
      exact hpicked

theorem Listed.openRecentFile_isSome (h : Listed env base res s) {id : Int}
    (hid : id ≥ ID_FILE_RECENT_FIRST ∧ id ≤ ID_FILE_RECENT_LAST) :
    (s.openRecentFile env id).isSome := by
  obtain ⟨i, hi⟩ := Int.eq_ofNat_of_zero_le (a := id - ID_FILE_RECENT_FIRST) (by omega)
  obtain rfl : id = ID_FILE_RECENT_FIRST + i := by omega
  cases hentry : s.recentFiles.entries[i]? with
  | none =>
    unfold RecentWnd.openRecentFile
    simp only [hi, Int.toNat_natCast, hentry]
    rw [if_neg (by omega)]
    rfl
  | some entry =>
    obtain ⟨s', hs, -⟩ := h.picked hentry
    have hopen : s.onCommand env (ID_FILE_RECENT_FIRST + i) = _ := if_pos hid
    rw [← hopen]
    exact Option.isSome_iff_exists.mpr ⟨s', hs⟩

/-- Every message is handled, if the host of a new entry leaves room for the rest of its text. -/
theorem Listed.exec_isSome (h : Listed env base res s) {e : Event W I}
    (hroom : ∀ r path, e = .openRemote r path →
      (RecentFileRegistry.utf8ToWstr r.host).length ≤ 300) : (RecentWnd.exec env s e).isSome := by
  cases e with
  | openFile path =>
    exact Option.isSome_iff_exists.mpr ((h.setSys _).openAndAdd_isSome _ rfl)
  | openRemote r path =>
    simp only [RecentWnd.exec, RecentWnd.openRemote]
    split
    · rfl
    · exact Option.isSome_iff_exists.mpr (h.openAndAdd_isSome _
        (RecentFileRegistry.formatEntry_isSome (hroom r path rfl)))
  | command id =>
    simp only [RecentWnd.exec, RecentWnd.onCommand]
    split
    · rename_i hid
      exact h.openRecentFile_isSome hid
    · split
      · rfl
      · split
        · rfl
        · split <;> rfl
  | initMenuPopup hPop => rfl
  | setInfo canZoomIn canZoomOut => rfl
  | dpiChanged canZoomIn canZoomOut => rfl
  | document sys => rfl

/-- **The recent files in the menu.** In every run the submenu has the items of the entries in their
order, with texts that fit, and no other; an item opens the entry it stands for, which comes first if
that goes well. Every message is handled, if the host of a new entry leaves room for the rest of its
text. -/
theorem menu_lists_recent (h : (machine env res base).Reach Machine.always s) :
    ∃ p items, s.bar.menu.node? (fun p => p.handle = res.recent) = some (p, .ofList items) ∧
      ShowsEntries s.recentFiles.entries items ∧
      (∀ item ∈ items, item.text.length ≤ maxDisplayChars) ∧
      (∀ (i : Nat) entry, s.recentFiles.entries[i]? = some entry → ∀ item, items[i]? = some item →
        item.grayed = false ∧
          ∃ s', exec env s (.command item.id) = some s' ∧ Picked env s entry s') ∧
      ∀ e, (∀ r path, e = .openRemote r path →
        (RecentFileRegistry.utf8ToWstr r.host).length ≤ 300) → (exec env s e).isSome := by
  have hl := reach_listed h
  obtain ⟨items, hitems, hok⟩ := hl.menu
  obtain ⟨p, hp⟩ := hok.items
  have hshows := recentItems_shows hl.length_le hitems
  refine ⟨p, items, hp, hshows, ?_, ?_, fun e => hl.exec_isSome⟩
  · intro item hmem
    by_cases hne : s.recentFiles.entries = []
    · rw [hshows.empty hne, List.mem_singleton] at hmem
      subst hmem
      decide
    · obtain ⟨i, hi⟩ := List.mem_iff_getElem?.mp hmem
      have hlt : i < s.recentFiles.entries.length := by
        rw [← hshows.length_eq hne]
        exact (List.getElem?_eq_some_iff.mp hi).1
      obtain ⟨text, -, hitem⟩ := hshows.item i _ (List.getElem?_eq_getElem hlt)
      rw [hi, Option.some.injEq] at hitem
      rw [hitem]
      exact RecentFileRegistry.clipMiddle_length text
  · intro i entry hentry item hitem
    obtain ⟨text, -, hshown⟩ := hshows.item i entry hentry
    rw [hitem, Option.some.injEq] at hshown
    rw [hshown]
    exact ⟨rfl, hl.picked hentry⟩

/-- **The icons of the menu.** In every run the bitmaps that the program has made and not freed are
those in the menu, each of them once; and outside the recent files the menu is that of the resource. -/
theorem icons_owned (h : (machine env res base).Reach Machine.always s) :
    s.bar.menu.bitmaps.Nodup ∧ (∀ b ∈ s.bar.menu.bitmaps, ¬ base b) ∧
      (∀ x, env.gdi.live s.bar.gdi x ↔ base x ∨ x ∈ s.bar.menu.bitmaps) ∧
      (∀ x, x ∈ s.bar.menuBitmaps ↔ x ∈ s.bar.menu.bitmaps) ∧
      s.bar.menu.handles = res.menu.handles ∧
      (res.menu.without res.recent).Kept (s.bar.menu.without res.recent) := by
  obtain ⟨items, -, hok⟩ := (reach_listed h).menu
  have howns := hok.owns.perm hok.shown.symm
  exact ⟨howns.nodup, howns.fresh, howns.live, fun x => hok.shown.symm.mem_iff, hok.handles, hok.frame⟩

/-! ## The next start -/

section Restart

open RecentFileRegistry (Slotted Returns Storable load save)

/-- The entries fit their slots, and are saved since the last addition. -/
structure Saved (r : Registry) : Prop where
  slots : Slotted r.entries
  saves : r.saved ≠ [] → ∃ before, r.saved = before ++ save r.entries

theorem Saved.apply {r : Registry} (h : Saved r) (call : AddCall) : Saved (r.apply call) := by
  rw [RecentFileRegistry.apply_eq_add]
  by_cases hpath : call.entry.path = []
  · rw [RecentFileRegistry.add_empty hpath]
    exact h
  · exact ⟨h.slots.add (RecentFileRegistry.entry_local call),
      fun _ => ⟨r.saved, RecentFileRegistry.add_saved hpath⟩⟩

theorem Saved.step (h : Saved s.recentFiles) (hs : Step env s s') : Saved s'.recentFiles := by
  cases hs with
  | state ht => exact h
  | icons canZoomIn canZoomOut => exact h
  | added hup =>
    obtain ⟨items, -, rfl⟩ := Option.map_eq_some_iff.mp hup
    exact h.apply _

variable {getStr : WStr → WStr} {getInt : WStr → Int} {zoomMode : Int} {w : W} {g : G}

theorem onCreate_recentFiles {menu : MenuTree}
    (hs : onCreate env menu getStr getInt zoomMode w g = some s) :
    s.recentFiles = { entries := load getStr getInt } := by
  obtain ⟨s₀, hup, rfl⟩ := Option.map_eq_some_iff.mp hs
  obtain ⟨items, -, rfl⟩ := Option.map_eq_some_iff.mp hup
  rfl

theorem onCreate_isSome (env : RecentEnv W F I G) (menu : MenuTree) {items : List MenuItem}
    (hitems : recentItems (load getStr getInt) = some items) (zoomMode : Int) (w : W) (g : G) :
    ∃ s, onCreate env menu getStr getInt zoomMode w g = some s := by
  unfold onCreate updateRecentFilesMenu
  simp only [hitems, Option.map_some, Option.some.injEq, exists_eq']

/-- **The next start.** After any run in which a file was added, a start with settings that give back
what was saved lists the same files under the same texts, as long as each has a path, a remote one a
host and a port, and none of these a NUL. -/
theorem menu_survives_restart {s₀ : RecentWnd W I G} {es : List (Event W I)}
    (h₀ : (machine env res base).init s₀)
    (hrun : (machine env res base).Run Machine.always s₀ es s) (hsaved : s.recentFiles.saved ≠ [])
    (hstore : ∀ e ∈ s.recentFiles.entries, e.path ≠ [] ∧ Storable e) {before : List (SetCall WStr)}
    (hret : Returns getStr getInt (before ++ s.recentFiles.saved)) {base' : HBITMAP → Prop}
    (hbase : ∀ x, env.gdi.live g x ↔ base' x) (zoomMode : Int) (w : W) :
    ∃ s', onCreate env res.menu getStr getInt zoomMode w g = some s' ∧
      (machine env res base').Reach Machine.always s' ∧
      s'.recentFiles.entries = s.recentFiles.entries ∧
      (s'.bar.menu.node? fun p => p.handle = res.recent).map Prod.snd =
        (s.bar.menu.node? fun p => p.handle = res.recent).map Prod.snd := by
  have hl : Listed env base res s := reach_listed ⟨s₀, es, h₀, hrun⟩
  have hend : Saved s.recentFiles := by
    refine hrun.preserves (P := fun s => Saved s.recentFiles)
      (fun hs _ hstep => hs.step (exec_step hstep)) ?_
    obtain ⟨_, _, _, _, _, -, hs₀⟩ := h₀
    rw [onCreate_recentFiles hs₀]
    exact ⟨RecentFileRegistry.slotted_load _ _, fun hne => absurd rfl hne⟩
  obtain ⟨pre, hpre⟩ := hend.saves hsaved
  rw [hpre, ← List.append_assoc] at hret
  have hload : load getStr getInt = s.recentFiles.entries :=
    RecentFileRegistry.load_save hend.slots (fun e he => (hstore e he).1)
      (fun e he => (hstore e he).2) hret
  obtain ⟨items, hitems, hok⟩ := hl.menu
  obtain ⟨s', hs'⟩ := onCreate_isSome env res.menu (by rw [hload]; exact hitems) zoomMode w g
  have hl' : Listed env base' res s' := listed_start hbase hs'
  have hentries : s'.recentFiles.entries = s.recentFiles.entries := by
    rw [onCreate_recentFiles hs']
    exact hload
  obtain ⟨items', hitems', hok'⟩ := hl'.menu
  rw [hentries, hitems, Option.some.injEq] at hitems'
  subst hitems'
  obtain ⟨p, hp⟩ := hok.items
  obtain ⟨p', hp'⟩ := hok'.items
  refine ⟨s', hs', .of_init ⟨getStr, getInt, zoomMode, w, g, hbase, hs'⟩, hentries, ?_⟩
  rw [hp, hp']
  rfl

end Restart

/-! ## From the dialog -/

section Dialog

variable {C V : Type} {denv : ConnectEnv C V} {config : Config WStr} {existing : Option (OpenRemote C)}
  {initialPath : Option Str} {d : ConnectWnd C × V}

/-- **A remote file.** What the dialog returns in any run of it is opened in any run of the window. If
that goes well the file is the first of the entries and of the items, under the server and the path;
if not, neither is changed. -/
theorem dialog_file_listed (idOf : C → Nat)
    (hexisting : ∀ r, existing = some r → ConnectWnd.Reads r)
    (hd : (ConnectWnd.machine denv config existing initialPath).Reach Machine.always d)
    {r : OpenRemote C} {path : Str} (hret : d.1.returned = some (r, path))
    (h : (machine env res base).Reach Machine.always s) :
    ∃ s', exec env s (.openRemote ⟨idOf r.client, r.host, r.port⟩ path) = some s' ∧
      s'.sys = (s.sys.open env.toEnv (openCall ⟨true, idOf r.client⟩ path)).2 ∧
      ((s.sys.open env.toEnv (openCall ⟨true, idOf r.client⟩ path)).1 ≠ .OK →
        s'.recentFiles = s.recentFiles ∧ s'.bar = s.bar) ∧
      ((s.sys.open env.toEnv (openCall ⟨true, idOf r.client⟩ path)).1 = .OK →
        s'.recentFiles.entries = touch maxItems ⟨.REMOTE, path, r.host, r.port⟩ s.recentFiles.entries ∧
        ∃ p items, s'.bar.menu.node? (fun p => p.handle = res.recent) = some (p, .ofList items) ∧
          items.head? = some ({
            id := ID_FILE_RECENT_FIRST
            text := clipMiddle (wide "remote:".toList ++ RecentFileRegistry.utf8ToWstr r.host ++
              wide ":".toList ++ formatInt r.port.toNat ++
              RecentFileRegistry.utf8ToWstr path) } : MenuItem)) := by
  obtain ⟨hreads, hpath⟩ := ConnectWnd.returned_reads hexisting hd hret
  have hl := reach_listed h
  have hroom : (formatEntry (AddCall.addRemote r.host r.port path).entry).isSome :=
    RecentFileRegistry.formatEntry_isSome (Nat.le_succ_of_le hreads.host_length)
  have hexec : exec env s (.openRemote ⟨idOf r.client, r.host, r.port⟩ path) =
      s.openAndAdd env ⟨true, idOf r.client⟩ (.addRemote r.host r.port path) := if_neg hpath
  rw [hexec]
  rcases openAndAdd_cases env s ⟨true, idOf r.client⟩ (.addRemote r.host r.port path) with
    ⟨hres, heq⟩ | ⟨hres, heq⟩
  · exact ⟨_, heq, rfl, fun _ => ⟨rfl, rfl⟩, fun hok => absurd hok hres⟩
  · obtain ⟨s', hs⟩ := hl.openAndAdd_isSome ⟨true, idOf r.client⟩ hroom
    refine ⟨s', hs, ?_⟩
    rw [heq] at hs
    obtain ⟨hl', hsys, hfiles⟩ := hl.added hs
    have hentries : s'.recentFiles.entries =
        touch maxItems ⟨.REMOTE, path, r.host, r.port⟩ s.recentFiles.entries := by
      rw [hfiles, apply_entries]
      exact if_neg hpath
    obtain ⟨items, hitems, hok⟩ := hl'.menu
    obtain ⟨p, hp⟩ := hok.items
    obtain ⟨text, htext, hitem⟩ := (recentItems_shows hl'.length_le hitems).item 0
      ⟨.REMOTE, path, r.host, r.port⟩ (by rw [hentries]; rfl)
    refine ⟨hsys, fun hne => absurd hres hne, fun _ => ⟨hentries, p, items, hp, ?_⟩⟩
    have hshown : text = RecentFileRegistry.remoteServer ⟨.REMOTE, path, r.host, r.port⟩ ++
        RecentFileRegistry.utf8ToWstr path := by
      simp only [formatEntry, Option.ite_none_right_eq_some, Option.some.injEq] at htext
      exact htext.2.symm
    rw [List.head?_eq_getElem?, hitem, hshown]
    rfl

end Dialog

end RecentWnd

/-! ## The menu of the program -/

def ID_FILE_EXIT : Int := 1001
def ID_HELP_ABOUT : Int := 1003
def ID_ZOOMMODE_W2I : Int := 1011
def ID_ZOOMMODE_I2W_ZOOMOUT : Int := 1012
def ID_ZOOMMODE_I2W : Int := 1013
def ID_EDIT_UNDO : Int := 1016
def ID_EDIT_CUT : Int := 1017
def ID_EDIT_COPY : Int := 1018
def ID_EDIT_PASTE : Int := 1019
def ID_FILE_DELETE : Int := 1024
def ID_FILE_DELETE_PERM : Int := 1025

/-- `MENUITEM`, with or without `GRAYED`, and `MENUITEM SEPARATOR`. -/
def menuItem (text : String) (id : Int) : MenuItem := { id, text := wide text.toList }

def grayedItem (text : String) (id : Int) : MenuItem := { menuItem text id with grayed := true }

def separator : MenuItem := { id := 0 }

def recentPopup : MenuTree := .ofList [grayedItem "(Empty)" ID_FILE_RECENT_EMPTY]

def filePopup : MenuTree :=
  .leaf (menuItem "&Open...\tCtrl+O" ID_FILE_OPEN) <|
  .leaf (menuItem "Open &Remote..." ID_FILE_OPEN_REMOTE) <|
  .node { handle := 2, text := wide "Recent &Files".toList } recentPopup <|
  .ofList [menuItem "Save &As...\tCtrl+S" ID_FILE_SAVE_AS, separator,
    menuItem "&Previous\tLeft" ID_FILE_PREV, menuItem "&Next\tRight" ID_FILE_NEXT, separator,
    menuItem "&Delete\tDel" ID_FILE_DELETE,
    menuItem "Delete (no recycle)\tShift+Del" ID_FILE_DELETE_PERM, separator,
    menuItem "&Refresh\tF5" ID_FILE_REFRESH, separator, menuItem "E&xit\tAlt+F4" ID_FILE_EXIT]

def editPopup : MenuTree :=
  .ofList [grayedItem "&Undo\tCtrl+Z" ID_EDIT_UNDO, separator,
    grayedItem "Cu&t\tCtrl+X" ID_EDIT_CUT, grayedItem "&Copy\tCtrl+C" ID_EDIT_COPY,
    grayedItem "&Paste\tCtrl+V" ID_EDIT_PASTE]

def zoomModePopup : MenuTree :=
  .ofList [menuItem "Window Fit Image, ZoomOut if Large" ID_ZOOMMODE_W2I_ZOOMOUT,
    menuItem "Window Fit Image, No Zoom" ID_ZOOMMODE_W2I, separator,
    menuItem "Image Fit Window, ZoomOut Only" ID_ZOOMMODE_I2W_ZOOMOUT,
    menuItem "Image Fit Window" ID_ZOOMMODE_I2W, separator, menuItem "No Fit" ID_ZOOMMODE_NOFIT]

def viewPopup : MenuTree :=
  .leaf (menuItem "Zoom &In\t+" ID_VIEW_ZOOMIN) <|
  .leaf (menuItem "Zoom &Out\t-" ID_VIEW_ZOOMOUT) <|
  .leaf (grayedItem "Zoom &To..." ID_VIEW_ZOOMTO) <|
  .leaf (grayedItem "Remember Zoom Level" ID_VIEW_ZOOMREM) <|
  .node { handle := 5, text := wide "&Zoom Mode".toList } zoomModePopup <|
  .ofList [grayedItem "Zoom" ID_VIEW_ZOOM, separator, menuItem "&File list" ID_VIEW_FILELIST,
    separator, menuItem "Slide &Show..." ID_VIEW_SLIDESHOW]

/-- `IDR_MAINMENU`. -/
def mainMenu : MenuResource where
  menu :=
    .node { handle := 1, text := wide "&File".toList } filePopup <|
    .node { handle := 3, text := wide "&Edit".toList } editPopup <|
    .node { handle := 4, text := wide "&View".toList } viewPopup <|
    .node { handle := 6, text := wide "&Help".toList }
      (.ofList [menuItem "&About obZrv..." ID_HELP_ABOUT]) .nil
  recent := 2
  handles_nodup := by decide
  bitmaps_nil := rfl
  find := rfl
  no_submenu := by
    intro n hn
    cases hn
    rfl

theorem le_foldr_max {x : Nat} {l : List Nat} (h : x ∈ l) : x ≤ l.foldr max 0 := by
  induction l with
  | nil => cases h
  | cons y l ih =>
    rcases List.mem_cons.mp h with rfl | hmem
    · exact Nat.le_max_left _ _
    · exact (ih hmem).trans (Nat.le_max_right _ _)

/-- Bitmaps are numbered as they are made; those that live are kept as a list. -/
def bitmapList : Gdi (List HBITMAP) where
  live g b := b ∈ g
  create _ g := (some (g.foldr max 0 + 1), (g.foldr max 0 + 1) :: g)
  deleteObject b g := g.filter (· ≠ b)
  create_some := by
    rintro _ g b g' h
    cases h
    exact ⟨fun hmem => Nat.not_succ_le_self _ (le_foldr_max hmem), fun x => List.mem_cons⟩
  create_none := by
    intro _ _ _ h
    cases h
  delete_live := by
    intro b g _ x
    rw [List.mem_filter, decide_eq_true_eq, and_comm]

theorem cPng_ok : '/' ∉ "c.png".toList := by decide

/-- A picture on the disk and one on a server. -/
def picturesWindow : RecentEnv Unit Bool Unit (List HBITMAP) where
  toEnv :=
    disk
      (fun fs path =>
        if path = if fs.remote then "/pics/c.png".toList else "/c/a.png".toList then some true
        else none)
      fun fs _ => some [if fs.remote then ⟨"c.png".toList, true, cPng_ok⟩ else aPng]
  newLocalFs w := (0, w)
  remoteFsOpen _ _ w := (none, w)
  gdi := bitmapList

/-- The picture on the disk has been dropped on the window. -/
def pictureDropped : Option (RecentWnd Unit Unit (List HBITMAP)) :=
  (RecentWnd.onCreate picturesWindow mainMenu.menu (fun _ => []) (fun _ => 0)
    ID_ZOOMMODE_W2I_ZOOMOUT () []).bind fun s =>
    Machine.execAll (RecentWnd.exec picturesWindow) Machine.always s
      [.openFile "C:\\a.png".toList]

theorem pictureDropped_reach {s : RecentWnd Unit Unit (List HBITMAP)} (h : pictureDropped = some s) :
    (RecentWnd.machine picturesWindow mainMenu fun _ => False).Reach Machine.always s := by
  obtain ⟨s₀, hcreate, hrun⟩ := Option.bind_eq_some_iff.mp h
  refine ⟨s₀, _, ⟨_, _, _, (), [], fun x => ?_, hcreate⟩, Machine.run_of_execAll hrun⟩
  exact List.mem_nil_iff x

theorem pictureDropped_entries : (pictureDropped.map fun s => s.recentFiles.entries) =
    some [⟨.LOCAL, "/c/a.png".toList, [], 0⟩] := by decide +kernel

theorem pictureDropped_icons : (pictureDropped.map fun s => s.bar.menuBitmaps.length) = some 15 := by
  decide +kernel

/-- The picture is in the menu under its Windows path, and is opened from there. -/
theorem menu_lists_picture : ∃ s p items s',
    s.bar.menu.node? (fun p => p.handle = mainMenu.recent) = some (p, .ofList items) ∧
      items.map MenuItem.text = [wide "C:\\a.png".toList] ∧
      RecentWnd.exec picturesWindow s (.command 2000) = some s' ∧
      RecentWnd.Picked picturesWindow s ⟨.LOCAL, "/c/a.png".toList, [], 0⟩ s' := by
  obtain ⟨s, hs, hentries⟩ := Option.map_eq_some_iff.mp pictureDropped_entries
  obtain ⟨p, items, hp, hshows, -, hpicked, -⟩ :=
    RecentWnd.menu_lists_recent (pictureDropped_reach hs)
  rw [hentries] at hshows hpicked
  obtain ⟨text, htext, hitem⟩ := hshows.item 0 _ rfl
  obtain ⟨-, s', hexec, hopened⟩ := hpicked 0 _ rfl _ hitem
  have hlength := hshows.length_eq (by decide)
  obtain ⟨item, rfl⟩ := List.length_eq_one_iff.mp hlength
  have htext' : text = wide "C:\\a.png".toList := (Option.some.inj htext).symm
  have hitem' : item = _ := Option.some.inj hitem
  subst htext'
  refine ⟨s, p, [item], s', hp, ?_, hexec, hopened⟩
  rw [hitem']
  rfl

/-- Fifteen icons: those of the commands, of the zoom modes and of the recent files. -/
theorem icons_owned_picture : ∃ s : RecentWnd Unit Unit (List HBITMAP),
    s.bar.menuBitmaps.length = 15 ∧ s.bar.menu.bitmaps.Nodup ∧
      ∀ x, x ∈ s.bar.gdi ↔ False ∨ x ∈ s.bar.menu.bitmaps := by
  obtain ⟨s, hs, hicons⟩ := Option.map_eq_some_iff.mp pictureDropped_icons
  obtain ⟨hnodup, -, hlive, -⟩ := RecentWnd.icons_owned (pictureDropped_reach hs)
  exact ⟨s, hicons, hnodup, hlive⟩

theorem pictureDropped_opens : (pictureDropped.map fun s =>
    (s.sys.open picturesWindow.toEnv (RecentWnd.openCall ⟨true, 1⟩ "/pics/c.png".toList)).1) =
      some .OK := by decide +kernel

/-- The picture that the dialog has found on the server is put before the one on the disk. -/
theorem dialog_file_listed_pics : ∃ (s' : RecentWnd Unit Unit (List HBITMAP)) (p : Popup)
    (items : List MenuItem), s'.recentFiles.entries =
      [⟨.REMOTE, "/pics/c.png".toList, "h".toList, 80⟩, ⟨.LOCAL, "/c/a.png".toList, [], 0⟩] ∧
      s'.bar.menu.node? (fun p => p.handle = mainMenu.recent) = some (p, .ofList items) ∧
      items.head?.map MenuItem.text = some (wide "remote:h:80/pics/c.png".toList) := by
  obtain ⟨s, hs, hentries⟩ := Option.map_eq_some_iff.mp pictureDropped_entries
  have hopens := pictureDropped_opens
  rw [hs, Option.map_some, Option.some.injEq] at hopens
  obtain ⟨d, hd, hret, -⟩ := picsRun_reach
  obtain ⟨s', -, -, -, hlisted⟩ := RecentWnd.dialog_file_listed (fun _ => 1)
    (fun r hr => by cases hr) hd hret (pictureDropped_reach hs)
  obtain ⟨hfirst, p, items, hp, hhead⟩ := hlisted hopens
  rw [hentries] at hfirst
  refine ⟨s', p, items, hfirst, hp, ?_⟩
  rw [hhead]
  rfl

theorem pictureDropped_saved : (pictureDropped.map fun s => s.recentFiles.saved) =
    some (RecentFileRegistry.save [⟨.LOCAL, "/c/a.png".toList, [], 0⟩]) := by decide +kernel

/-- The program is started again with the settings that the first run has left. -/
theorem menu_survives_restart_picture : ∃ (s s' : RecentWnd Unit Unit (List HBITMAP)),
    s'.recentFiles.entries = [⟨.LOCAL, "/c/a.png".toList, [], 0⟩] ∧
      (s'.bar.menu.node? fun p => p.handle = mainMenu.recent).map Prod.snd =
        (s.bar.menu.node? fun p => p.handle = mainMenu.recent).map Prod.snd := by
  obtain ⟨s, hs, hentries⟩ := Option.map_eq_some_iff.mp pictureDropped_entries
  have hsaved := pictureDropped_saved
  rw [hs, Option.map_some, Option.some.injEq] at hsaved
  obtain ⟨s₀, hcreate, hrun⟩ := Option.bind_eq_some_iff.mp hs
  have hinit : (RecentWnd.machine picturesWindow mainMenu fun _ => False).init s₀ :=
    ⟨_, _, _, (), [], fun x => List.mem_nil_iff x, hcreate⟩
  have hstore : ∀ e ∈ s.recentFiles.entries, e.path ≠ [] ∧ RecentFileRegistry.Storable e := by
    rw [hentries]
    intro e he
    rw [List.mem_singleton] at he
    subst he
    exact ⟨by decide, by decide, by decide, nofun⟩
  have hplain : ∀ e ∈ ([⟨.LOCAL, "/c/a.png".toList, [], 0⟩] : List RecentFileRegistry.Entry),
      e.Plain := by
    intro e he
    rw [List.mem_singleton] at he
    subst he
    exact ⟨RecentFileRegistry.iniSafe_of_all rfl (by decide) (by decide) (by decide),
      RecentFileRegistry.iniSafe_nil⟩
  -- the settings of a program that writes beside itself
  have hret : RecentFileRegistry.Returns
      (fun k => (noSettings.run s.recentFiles.saved).getStr k [])
      (fun k => (noSettings.run s.recentFiles.saved).getInt (fun _ => 0) k 0)
      ([] ++ s.recentFiles.saved) := by
    rw [hsaved]
    exact RecentFileRegistry.config_returns_save rfl (fun _ => rfl) hplain
  have hnone : ∀ x, picturesWindow.gdi.live [] x ↔ False := fun x => List.mem_nil_iff x
  have hsome : s.recentFiles.saved ≠ [] := by
    rw [hsaved]
    decide
  obtain ⟨s', -, -, hsame, hmenu⟩ := RecentWnd.menu_survives_restart hinit
    (Machine.run_of_execAll hrun) hsome hstore hret hnone ID_ZOOMMODE_NOFIT ()
  exact ⟨s, s', hsame.trans hentries, hmenu⟩

end ObZrv
