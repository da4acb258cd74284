import ObZrv.Doc.ConnectDialog
import ObZrv.Doc.FullScreen
import ObZrv.Doc.MoveSelection
import ObZrv.Lib.Delimited
import ObZrv.Text.Unipath
import ObZrv.View.ImageView

/-!
# Doc.SlideShowDialog

The slide show dialog, `SlideShowDlg.cpp`: its controls, the files and folders that are added to
the custom list, what the start buttons read off and save, and the dialog as `Show` runs it.

* `readBuffer_buffer` : the file names are read out of the buffer as `GetOpenFileNameW` puts them in.
* `editing_step`      : what a message keeps.
* `show_returns`      : what `Show` returns and saves.
* `show_again`        : the next dialog shows it again.
-/

namespace ObZrv.SlideShowDlg

open Lib

open RecentFileRegistry (wstrToUtf8)

/-! ## Settings and options -/

/-- The keys of the section `SlideShow`. -/
inductive SlideKey where
  | IntervalSec
  | Order
  | Repeat
  | Rounds
deriving DecidableEq, Repr

/-- `SlideShowDlg::Options`. -/
structure Options where
  source : SourceMode := .SOURCE_CURRENT_FOLDER
  order : OrderMode := .ORDER_NORMAL
  «repeat» : RepeatMode := .REPEAT_FOREVER
  start : StartMode := .START_CANCEL
  intervalSec : Int := 5
  rounds : Int := 1
  zoomMode : Int := 0
  customItems : List Item := []
deriving DecidableEq, Repr

def orderInt : OrderMode → Int
  | .ORDER_NORMAL => 0
  | .ORDER_REVERSE => 1
  | .ORDER_RANDOM => 2

def repeatInt : RepeatMode → Int
  | .REPEAT_FOREVER => 0
  | .REPEAT_COUNT => 1

/-- `ZOOMS`. -/
def ZOOMS : List (Int × String) :=
  [(1010, "Window Fit Image, ZoomOut if Large"),
    (1011, "Window Fit Image, No Zoom"),
    (1012, "Image Fit Window, ZoomOut Only"),
    (1013, "Image Fit Window"),
    (1014, "No Fit")]

/-- What the dialog calls. -/
structure SlideDlgEnv where
  /-- How `GetPrivateProfileIntW` reads a value. -/
  profileInt : WStr → Int
  towlower : UInt16 → UInt16
  isSupportedExt : Str → Bool
  strCmpLogicalW : WStr → WStr → Int
  /-- `std::sort` with a comparison. -/
  sort : (WStr → WStr → Bool) → List WStr → List WStr
  sort_perm : ∀ less l, (sort less l).Perm l

/-! ## Files and folders -/

/-- `PathFindExtensionW`: from the last dot on that has no backslash and no blank behind it. -/
def pathFindExtension (path : WStr) : WStr :=
  match path with
  | [] => []
  | c :: rest =>
    let ext := pathFindExtension rest
    if c = 46 ∧ ext = [] ∧ 92 ∉ rest ∧ 32 ∉ rest then c :: rest else ext

def lowerExtNoDot (env : SlideDlgEnv) (path : WStr) : Str :=
  match pathFindExtension path with
  | [] => []
  | c :: ext => wstrToUtf8 ((if c = 46 then ext else c :: ext).map env.towlower)

def isSupportedImage (env : SlideDlgEnv) (path : WStr) : Bool :=
  let ext := lowerExtNoDot env path
  !ext.isEmpty && env.isSupportedExt ext

/-- The item of a path, as `AppendItem` makes it. -/
def itemOf (path : WStr) : Item := ⟨path, utf8Bytes (toUnipath (wstrToUtf8 path))⟩

/-- `AppendItem` for each path, and `RebuildList`. -/
def appendItems (data : DlgData) (paths : List WStr) : DlgData where
  items := data.items ++ paths.map itemOf
  hList := rebuildList (data.items ++ paths.map itemOf)
  shown := .inl (by simp)

def joinW (dir name : WStr) : WStr := dir ++ 92 :: name

/-- What the user chooses among the files: one, by its whole path, or several of a folder. The
buffer has room for it. -/
structure Chosen where
  first : WStr
  names : List WStr
  first_nul : 0 ∉ first
  marked : Marked 0 names
  fits : first.length + (delimited 0 names).length + 2 ≤ 65536

/-- The buffer as `GetOpenFileNameW` fills it. -/
def Chosen.buffer (c : Chosen) : WStr :=
  c.first ++ 0 :: (delimited 0 c.names ++
    0 :: List.replicate (65536 - (c.first.length + (delimited 0 c.names).length + 2)) 0)

/-- The paths that the user has chosen. -/
def Chosen.paths (c : Chosen) : List WStr :=
  if c.names = [] then [c.first] else c.names.map (joinW c.first)

/-- The paths that `AddFiles` reads out of the buffer. -/
def readBuffer (buf : WStr) : List WStr :=
  let first := firstString 0 buf
  let p := buf.drop (first.length + 1)
  if p.headD 0 = 0 then [first] else (readStrings 0 buf.length p).map (joinW first)

/-- `WIN32_FIND_DATAW`. -/
structure FindData where
  isDir : Bool
  cFileName : WStr
deriving DecidableEq, Repr

/-- The paths that `AddFolder` finds. -/
def folderPaths (env : SlideDlgEnv) (folder : WStr) (found : List FindData) : List WStr :=
  let paths := (found.filter fun fd => !fd.isDir).map fun fd => joinW folder fd.cFileName
  env.sort (fun a b => decide (env.strCmpLogicalW a b < 0)) (paths.filter (isSupportedImage env))

/-! ## The dialog -/

/-- The dialog and its controls; `options` and the settings are those of the caller. -/
structure SlideDlg where
  data : DlgData
  hasCurrentFolder : Bool
  source : SourceMode
  order : OrderMode
  «repeat» : RepeatMode
  interval : WStr
  rounds : WStr
  /-- `CB_GETCURSEL`. -/
  zoom : Int
  customEnabled : Bool
  options : Options
  config : Config SlideKey
  boxes : List String := []
  ended : Option DlgEnd := none

namespace SlideDlg

variable (env : SlideDlgEnv) (d : SlideDlg)

def enableCustomControls : SlideDlg := { d with customEnabled := decide (d.source = .SOURCE_CUSTOM) }

def selectedZoom (idx : Int) : Int :=
  if idx < 0 ∨ idx ≥ ZOOMS.length then ID_ZOOMMODE_W2I_ZOOMOUT
  else (ZOOMS.map Prod.fst).getD idx.toNat 0

/-- The line of the zoom box for a mode. -/
def zoomIndex (zoomMode : Int) : Int :=
  forLoop ZOOMS.length (fun i sel => if (ZOOMS.map Prod.fst).getD i 0 = zoomMode then i else sel) 0

def getIntText (text : WStr) (default : Int) : Int :=
  let val := wcstol (text.take 31)
  if val > 0 then val else default

/-- What `ValidateAndSave` reads off the controls. -/
def readOptions (start : StartMode) : Options where
  source := d.source
  order := d.order
  «repeat» := d.repeat
  intervalSec := clampInt (getIntText d.interval 5) 1 3600
  rounds := clampInt (getIntText d.rounds 1) 1 9999
  zoomMode := selectedZoom d.zoom
  start := start
  customItems := d.data.items

/-- What `ValidateAndSave` writes. -/
def saveCalls (opt : Options) : List (SetCall SlideKey) :=
  [.setInt .IntervalSec opt.intervalSec, .setInt .Order (orderInt opt.order),
    .setInt .Repeat (repeatInt opt.repeat), .setInt .Rounds opt.rounds]

def validateAndSave (start : StartMode) : Bool × SlideDlg :=
  let d := { d with options := d.readOptions start }
  if d.options.source = .SOURCE_CUSTOM ∧ d.options.customItems = [] then
    (false, { d with boxes := d.boxes ++ ["Add at least one file to the custom list."] })
  else (true, { d with config := d.config.run (saveCalls d.options) })

/-- `IDC_SS_FULLSCREEN` and `IDC_SS_WINDOWED`. -/
def onStart (start : StartMode) : SlideDlg :=
  match d.validateAndSave start with
  | (true, d) => { d with ended := some .IDOK }
  | (false, d) => d

def readOrder (v : Int) : OrderMode :=
  if v = 1 then .ORDER_REVERSE else if v = 2 then .ORDER_RANDOM else .ORDER_NORMAL

def readRepeat (v : Int) : RepeatMode := if v = 1 then .REPEAT_COUNT else .REPEAT_FOREVER

/-- `Show` up to the end of `WM_INITDIALOG`; the list box is empty until `RebuildList`. -/
def init (options : Options) (hasCurrentFolder : Bool) (currentZoomMode : Int)
    (config : Config SlideKey) : SlideDlg :=
  let options := { options with zoomMode := currentZoomMode }
  enableCustomControls
    { data := { items := options.customItems, hList := .resetContent, shown := .inr rfl }
      hasCurrentFolder
      source := if hasCurrentFolder then .SOURCE_CURRENT_FOLDER else .SOURCE_CUSTOM
      order := readOrder (clampInt (config.getInt env.profileInt .Order 0) 0 2)
      «repeat» := readRepeat (clampInt (config.getInt env.profileInt .Repeat 0) 0 1)
      interval := formatInt (clampInt (config.getInt env.profileInt .IntervalSec 5) 1 3600)
      rounds := formatInt (clampInt (config.getInt env.profileInt .Rounds 1) 1 9999)
      zoom := zoomIndex options.zoomMode
      customEnabled := true
      options
      config }

/-- The options with which `Show` returns true. -/
def returned : Option Options :=
  if d.ended = some .IDOK ∧ d.options.start ≠ .START_CANCEL then some d.options else none

end SlideDlg

inductive SlideMsg where
  | source (s : SourceMode)
  | order (o : OrderMode)
  | «repeat» (r : RepeatMode)
  | interval (text : WStr)
  | rounds (text : WStr)
  | zoom (line : Nat)
  | select (line : Nat) (on : Bool)
  /-- The files chosen, or none. -/
  | addFiles (chosen : Option Chosen)
  /-- The folder chosen and what is found in it; none if the user chose none or it cannot be read. -/
  | addFolder (folder : Option (WStr × List FindData))
  | move (down : Bool)
  | fullscreen
  | windowed
  | cancel

namespace SlideDlg

variable (env : SlideDlgEnv)

def addFiles (d : SlideDlg) : Option Chosen → SlideDlg
  | none => d
  | some c => { d with data := appendItems d.data (readBuffer c.buffer) }

def addFolder (d : SlideDlg) : Option (WStr × List FindData) → SlideDlg
  | none => d
  | some (folder, found) => { d with data := appendItems d.data (folderPaths env folder found) }

/-- The user selects a line of the list box or takes it out of the selection. -/
def select (d : SlideDlg) (line : Nat) (on : Bool) : SlideDlg :=
  { d with data := { d.data with hList := d.data.hList.setSel on line, shown := d.data.shown } }

/-- One message; a control that is not enabled sends none. -/
def exec (d : SlideDlg) (m : SlideMsg) : Option SlideDlg :=
  if d.ended.isSome then none
  else
    match m with
    | .source s =>
      if s = .SOURCE_CURRENT_FOLDER ∧ ¬ d.hasCurrentFolder then none
      else some ({ d with source := s }).enableCustomControls
    | .order o => some { d with order := o }
    | .repeat r => some { d with «repeat» := r }
    | .interval text => some { d with interval := text }
    | .rounds text => some { d with rounds := text }
    | .zoom line => if line < ZOOMS.length then some { d with zoom := line } else none
    | .select line on =>
      if d.customEnabled ∧ line < d.data.hList.strings.length then some (d.select line on) else none
    | .addFiles chosen => if d.customEnabled then some (d.addFiles chosen) else none
    | .addFolder folder => if d.customEnabled then some (d.addFolder env folder) else none
    | .move down =>
      if d.customEnabled then some { d with data := moveSelection d.data down } else none
    | .fullscreen => some (d.onStart .START_FULLSCREEN)
    | .windowed => some (d.onStart .START_WINDOWED)
    | .cancel =>
      some { d with options := { d.options with start := .START_CANCEL }, ended := some .IDCANCEL }

/-- The dialog as `Show` runs it. -/
def machine (options : Options) (hasCurrentFolder : Bool) (currentZoomMode : Int)
    (config : Config SlideKey) : Machine SlideDlg SlideMsg :=
  .ofExec (· = init env options hasCurrentFolder currentZoomMode config) (exec env)

/-! ## The file names -/

theorem readBuffer_buffer (c : Chosen) : readBuffer c.buffer = c.paths := by
  have hfirst : firstString 0 c.buffer = c.first := firstString_append c.first_nul _
  have hrest := drop_firstString (0 : UInt16) c.first (delimited 0 c.names ++
    0 :: List.replicate (65536 - (c.first.length + (delimited 0 c.names).length + 2)) 0)
  have hfuel : c.names.length ≤ c.buffer.length := by
    have hle := length_le_delimited (0 : UInt16) c.names
    simp only [Chosen.buffer, List.length_append, List.length_cons]
    omega
  have hread := readStrings_delimited c.marked
    (List.replicate (65536 - (c.first.length + (delimited 0 c.names).length + 2)) 0) hfuel
  rw [← Chosen.buffer] at hrest
  unfold readBuffer Chosen.paths
  simp only [hfirst, hrest, hread]
  cases hn : c.names with
  | nil => simp [delimited]
  | cons name names =>
    obtain ⟨hname, hnul⟩ := c.marked name (by simp [hn])
    cases name with
    | nil => exact absurd rfl hname
    | cons u name =>
      have hu : u ≠ 0 := fun h0 => hnul (by simp [h0])
      simp [delimited, hu]

@[simp] theorem appendItems_items (data : DlgData) (paths : List WStr) :
    (appendItems data paths).items = data.items ++ paths.map itemOf := rfl

theorem moveSelection_perm (data : DlgData) (down : Bool) :
    (moveSelection data down).items.Perm data.items := by
  cases hhead : (getSelection data.hList).head? with
  | none =>
    unfold moveSelection
    simp [hhead]
  | some front =>
    cases hlast : (getSelection data.hList).getLast? with
    | none =>
      unfold moveSelection
      simp [hlast]
    | some back =>
      by_cases hgoes : (down = false ∧ front = 0) ∨
          (down = true ∧ (back : Int) = data.items.length - 1)
      · unfold moveSelection
        simp [hhead, hlast, hgoes]
      · obtain ⟨order, hmoved⟩ := moveSelection_order ⟨hhead, hlast, hgoes⟩
        exact hmoved.perm

/-! ## Numbers -/

theorem clampInt_range {v lo hi : Int} (h : lo ≤ hi) :
    lo ≤ clampInt v lo hi ∧ clampInt v lo hi ≤ hi := by
  unfold clampInt
  split
  · exact ⟨Int.le_refl _, h⟩
  · split
    · exact ⟨h, Int.le_refl _⟩
    · omega

theorem clampInt_of_range {v lo hi : Int} (h : lo ≤ v ∧ v ≤ hi) : clampInt v lo hi = v := by
  unfold clampInt
  rw [if_neg (Int.not_lt.mpr h.1), if_neg (Int.not_lt.mpr h.2)]

/-- A positive number that the dialog shows is read back. -/
theorem getIntText_formatInt {v : Int} (hpos : 0 < v) (hin : InInt32 v) (default : Int) :
    getIntText (formatInt v) default = v := by
  have hlen := formatInt_length hin
  unfold getIntText
  rw [List.take_of_length_le (by omega), wcstol_formatInt hin]
  exact if_pos hpos

theorem selectedZoom_mem (idx : Int) : selectedZoom idx ∈ ZOOMS.map Prod.fst := by
  unfold selectedZoom
  split
  · decide
  · rename_i h
    have hlt : idx.toNat < (ZOOMS.map Prod.fst).length := by
      rw [List.length_map]
      omega
    rw [List.getD_eq_getElem?_getD, List.getElem?_eq_getElem hlt]
    exact List.getElem_mem hlt

/-- The mode that the box shows is the one that is read. -/
theorem selectedZoom_zoomIndex {zoomMode : Int} (h : zoomMode ∈ ZOOMS.map Prod.fst) :
    selectedZoom (zoomIndex zoomMode) = zoomMode := by
  simp only [ZOOMS, List.map_cons, List.map_nil, List.mem_cons, List.not_mem_nil, or_false] at h
  rcases h with rfl | rfl | rfl | rfl | rfl <;> rfl

/-- Each of the modes is one of the image view. -/
theorem zoomModeOf_isSome {zoomMode : Int} (h : zoomMode ∈ ZOOMS.map Prod.fst) :
    (ImageView.zoomModeOf zoomMode).isSome := by
  simp only [ZOOMS, List.map_cons, List.map_nil, List.mem_cons, List.not_mem_nil, or_false] at h
  rcases h with rfl | rfl | rfl | rfl | rfl <;> rfl

/-! ## The messages -/

/-- The paths that a message adds. -/
def added (env : SlideDlgEnv) : SlideMsg → List WStr
  | .addFiles (some c) => c.paths
  | .addFolder (some (folder, found)) => folderPaths env folder found
  | _ => []

/-- The dialog has ended with a start button. -/
structure Finished (config : Config SlideKey) (d : SlideDlg) : Prop where
  start : d.options.start ≠ .START_CANCEL
  options : d.options = d.readOptions d.options.start
  files : d.source = .SOURCE_CUSTOM → d.data.items ≠ []
  config : d.config = config.run (saveCalls d.options)

/-- The dialog after the messages `ls`. -/
structure Editing (options : Options) (hasCurrentFolder : Bool) (config : Config SlideKey)
    (ls : List SlideMsg) (d : SlideDlg) : Prop where
  items : d.data.items.Perm (options.customItems ++ (ls.flatMap (added env)).map itemOf)
  folder : d.hasCurrentFolder = hasCurrentFolder
  source : d.source = .SOURCE_CURRENT_FOLDER → hasCurrentFolder = true
  kept : d.ended ≠ some .IDOK → d.config = config
  finished : d.ended = some .IDOK → Finished config d

section Messages

variable {env} {options : Options} {hasCurrentFolder : Bool} {config : Config SlideKey}
  {ls : List SlideMsg} {d d' : SlideDlg} {m : SlideMsg}

theorem init_editing (env : SlideDlgEnv) (currentZoomMode : Int) :
    Editing env options hasCurrentFolder config []
      (init env options hasCurrentFolder currentZoomMode config) where
  items := by
    rw [List.flatMap_nil, List.map_nil, List.append_nil]
    exact .refl _
  folder := rfl
  source := by
    cases hasCurrentFolder with
    | true => exact fun _ => rfl
    | false => exact fun h => by cases h
  kept := fun _ => rfl
  finished := fun h => by cases h

/-- A message that leaves the dialog open. -/
theorem Editing.stays (h : Editing env options hasCurrentFolder config ls d)
    (hopen : d.ended = none) (hopen' : d'.ended ≠ some .IDOK) (hconfig : d'.config = d.config)
    (hitems : d'.data.items.Perm (d.data.items ++ (added env m).map itemOf))
    (hfolder : d'.hasCurrentFolder = d.hasCurrentFolder)
    (hsource : d'.source = .SOURCE_CURRENT_FOLDER → hasCurrentFolder = true) :
    Editing env options hasCurrentFolder config (ls ++ [m]) d' where
  items := by
    have hall : options.customItems ++ ((ls ++ [m]).flatMap (added env)).map itemOf =
        options.customItems ++ (ls.flatMap (added env)).map itemOf ++ (added env m).map itemOf := by
      simp
    rw [hall]
    exact hitems.trans (h.items.append_right _)
  folder := hfolder.trans h.folder
  source := hsource
  kept := fun _ => hconfig.trans (h.kept (by rw [hopen]; decide))
  finished := fun hd => absurd hd hopen'

theorem added_nil {data data' : DlgData} (hitems : data'.items.Perm data.items)
    (hm : added env m = []) : data'.items.Perm (data.items ++ (added env m).map itemOf) := by
  rw [hm, List.map_nil, List.append_nil]
  exact hitems

/-- A start button ends the dialog, or shows a message. -/
theorem onStart_cases (d : SlideDlg) (start : StartMode) :
    (d.source = .SOURCE_CUSTOM ∧ d.data.items = [] ∧ d.onStart start =
      { d with
        options := d.readOptions start
        boxes := d.boxes ++ ["Add at least one file to the custom list."] }) ∨
    ((d.source = .SOURCE_CUSTOM → d.data.items ≠ []) ∧ d.onStart start =
      { d with
        options := d.readOptions start
        config := d.config.run (saveCalls (d.readOptions start))
        ended := some .IDOK }) := by
  by_cases hempty : d.source = .SOURCE_CUSTOM ∧ d.data.items = []
  · refine .inl ⟨hempty.1, hempty.2, ?_⟩
    simp [onStart, validateAndSave, readOptions, hempty]
  · refine .inr ⟨fun hs hi => hempty ⟨hs, hi⟩, ?_⟩
    have hsave : d.validateAndSave start = (true, { d with
        options := d.readOptions start
        config := d.config.run (saveCalls (d.readOptions start)) }) := if_neg hempty
    rw [onStart, hsave]

theorem Editing.onStart (h : Editing env options hasCurrentFolder config ls d)
    (hopen : d.ended = none) {start : StartMode} (hstart : start ≠ .START_CANCEL)
    (hm : added env m = []) :
    Editing env options hasCurrentFolder config (ls ++ [m]) (d.onStart start) := by
  have hopen' : d.ended ≠ some .IDOK := by
    rw [hopen]
    decide
  rcases onStart_cases d start with ⟨-, -, heq⟩ | ⟨hfiles, heq⟩
  · rw [heq]
    exact h.stays hopen hopen' rfl (added_nil (.refl _) hm) rfl h.source
  · rw [heq]
    refine ⟨?_, h.folder, h.source, fun hd => absurd rfl hd, fun _ => ⟨hstart, rfl, hfiles, ?_⟩⟩
    · rw [List.flatMap_append, List.flatMap_singleton, hm, List.append_nil]
      exact h.items
    · rw [← h.kept hopen']

theorem editing_step (h : Editing env options hasCurrentFolder config ls d)
    (hs : exec env d m = some d') : Editing env options hasCurrentFolder config (ls ++ [m]) d' := by
  unfold exec at hs
  split at hs
  · cases hs
  rename_i hended
  have hopen : d.ended = none := by simpa using hended
  have hopen' : d.ended ≠ some .IDOK := by
    rw [hopen]
    decide
  cases m with
  | source s =>
    simp only at hs
    split at hs
    · cases hs
    · rename_i hgo
      cases hs
      refine h.stays hopen hopen' rfl (added_nil (.refl _) rfl) rfl ?_
      intro hcur
      by_contra hno
      refine hgo ⟨hcur, ?_⟩
      rwa [h.folder]
  | order o =>
    cases hs
    exact h.stays hopen hopen' rfl (added_nil (.refl _) rfl) rfl h.source
  | «repeat» r =>
    cases hs
    exact h.stays hopen hopen' rfl (added_nil (.refl _) rfl) rfl h.source
  | interval text =>
    cases hs
    exact h.stays hopen hopen' rfl (added_nil (.refl _) rfl) rfl h.source
  | rounds text =>
    cases hs
    exact h.stays hopen hopen' rfl (added_nil (.refl _) rfl) rfl h.source
  | zoom line =>
    simp only [Option.ite_none_right_eq_some, Option.some.injEq] at hs
    obtain ⟨-, rfl⟩ := hs
    exact h.stays hopen hopen' rfl (added_nil (.refl _) rfl) rfl h.source
  | select line on =>
    simp only [Option.ite_none_right_eq_some, Option.some.injEq] at hs
    obtain ⟨-, rfl⟩ := hs
    exact h.stays hopen hopen' rfl (added_nil (.refl _) rfl) rfl h.source
  | addFiles chosen =>
    simp only [Option.ite_none_right_eq_some, Option.some.injEq] at hs
    obtain ⟨-, rfl⟩ := hs
    cases chosen with
    | none => exact h.stays hopen hopen' rfl (added_nil (.refl _) rfl) rfl h.source
    | some c =>
      refine h.stays hopen hopen' rfl ?_ rfl h.source
      rw [addFiles, appendItems_items, readBuffer_buffer]
      exact .refl _
  | addFolder folder =>
    simp only [Option.ite_none_right_eq_some, Option.some.injEq] at hs
    obtain ⟨-, rfl⟩ := hs
    cases folder with
    | none => exact h.stays hopen hopen' rfl (added_nil (.refl _) rfl) rfl h.source
    | some f => exact h.stays hopen hopen' rfl (.refl _) rfl h.source
  | move down =>
    simp only [Option.ite_none_right_eq_some, Option.some.injEq] at hs
    obtain ⟨-, rfl⟩ := hs
    exact h.stays hopen hopen' rfl (added_nil (moveSelection_perm _ _) rfl) rfl h.source
  | fullscreen =>
    cases hs
    exact h.onStart hopen (by decide) rfl
  | windowed =>
    cases hs
    exact h.onStart hopen (by decide) rfl
  | cancel =>
    cases hs
    exact h.stays hopen (fun hd => by cases hd) rfl (added_nil (.refl _) rfl) rfl h.source

end Messages

/-! ## What is returned -/

/-- Options that a show can be started with. -/
structure Ready (o : Options) : Prop where
  start : o.start ≠ .START_CANCEL
  interval : 1 ≤ o.intervalSec ∧ o.intervalSec ≤ 3600
  rounds : 1 ≤ o.rounds ∧ o.rounds ≤ 9999
  zoom : (ImageView.zoomModeOf o.zoomMode).isSome

/-- The options as `StartSlideShow` gets them. -/
structure Shows (o : Options) (s : SlideShowOptions) : Prop where
  source : s.source = o.source
  order : s.order = o.order
  «repeat» : s.repeat = o.repeat
  intervalSec : s.intervalSec = o.intervalSec
  rounds : s.rounds = o.rounds
  items : s.customItems.map utf8Bytes = o.customItems.map Item.path

theorem readOptions_ready (d : SlideDlg) {start : StartMode} (h : start ≠ .START_CANCEL) :
    Ready (d.readOptions start) :=
  ⟨h, clampInt_range (by decide), clampInt_range (by decide),
    zoomModeOf_isSome (selectedZoom_mem d.zoom)⟩

/-- Such a show has files. -/
theorem Shows.files_ne_nil {I : Type} {o : Options} {s : SlideShowOptions} (h : Shows o s)
    {doc : Doc I} (hcurrent : o.source = .SOURCE_CURRENT_FOLDER →
      0 ≤ doc.diridx ∧ 0 < doc.dirfiles.length)
    (hcustom : o.source = .SOURCE_CUSTOM → o.customItems ≠ []) : buildSlideShowFiles doc s ≠ [] := by
  unfold buildSlideShowFiles
  cases hsource : s.source with
  | SOURCE_CUSTOM =>
    have hitems := hcustom (h.source.symm.trans hsource)
    have hne : s.customItems ≠ [] := by
      intro hnil
      have hmap := h.items
      rw [hnil, List.map_nil] at hmap
      exact hitems (List.map_eq_nil_iff.mp hmap.symm)
    simp only
    split
    · simpa using hne
    · exact hne
  | SOURCE_CURRENT_FOLDER =>
    obtain ⟨hidx, hcnt⟩ := hcurrent (h.source.symm.trans hsource)
    have hgo : ¬ (doc.dirfiles.length = 0 ∨ doc.diridx < 0) := by omega
    simp only [if_neg hgo]
    split
    · simp
    · intro hnil
      have hlen := congrArg List.length hnil
      simp only [List.length_map, List.length_append, List.length_range', List.length_range,
        List.length_nil] at hlen
      omega

section Results

variable {env : SlideDlgEnv} {options : Options} {hasCurrentFolder : Bool} {currentZoomMode : Int}
  {config : Config SlideKey} {ls : List SlideMsg} {d : SlideDlg}

theorem run_editing (h : (machine env options hasCurrentFolder currentZoomMode config).Run
      Machine.always (init env options hasCurrentFolder currentZoomMode config) ls d) :
    Editing env options hasCurrentFolder config ls d :=
  h.holds_with (fun h _ hs => editing_step h hs) [] (init_editing env currentZoomMode)

theorem Editing.returned_iff (h : Editing env options hasCurrentFolder config ls d) :
    d.returned.isSome ↔ d.ended = some .IDOK := by
  unfold returned
  constructor
  · intro hret
    split at hret
    · rename_i hok
      exact hok.1
    · cases hret
  · intro hok
    rw [if_pos ⟨hok, (h.finished hok).start⟩]
    rfl

theorem returned_some {o : Options} (h : d.returned = some o) :
    d.ended = some .IDOK ∧ d.options = o := by
  unfold returned at h
  split at h
  · rename_i hok
    exact ⟨hok.1, Option.some.inj h⟩
  · cases h

end Results

end SlideDlg

/-- A system with one type of images, whose folders are in order. -/
def pngDialog : SlideDlgEnv where
  profileInt := wcstol
  towlower c := c
  isSupportedExt ext := ext = "png".toList
  strCmpLogicalW _ _ := 0
  sort _ l := l
  sort_perm _ _ := .refl _

def noSlideSettings : Config SlideKey := ⟨fun _ => none, fun _ => none, .exeIni⟩

/-- The user adds a folder, sets the interval and starts. -/
def tripMessages : List SlideMsg :=
  [.addFolder (some (wide "C:\\trip".toList, [⟨true, wide "raw".toList⟩, ⟨false, wide "a.png".toList⟩,
      ⟨false, wide "b.txt".toList⟩])),
    .interval (wide "9999".toList), .order .ORDER_REVERSE, .windowed]

def tripRun : Option SlideDlg :=
  Machine.execAll (SlideDlg.exec pngDialog) Machine.always
    (SlideDlg.init pngDialog {} false 1013 noSlideSettings) tripMessages

def tripOptions : Options where
  source := .SOURCE_CUSTOM
  order := .ORDER_REVERSE
  start := .START_WINDOWED
  intervalSec := 3600
  zoomMode := 1013
  customItems := [itemOf (wide "C:\\trip\\a.png".toList)]

theorem tripRun_run : ∃ d, (SlideDlg.machine pngDialog {} false 1013 noSlideSettings).Run Machine.always
    (SlideDlg.init pngDialog {} false 1013 noSlideSettings) tripMessages d ∧
      d.returned = some tripOptions := by
  have hret : tripRun.bind SlideDlg.returned = some tripOptions := by decide
  obtain ⟨d, hd, hreturned⟩ := Option.bind_eq_some_iff.mp hret
  exact ⟨d, Machine.run_of_execAll hd, hreturned⟩

namespace SlideDlg

/-- The settings are read from where they are written. -/
def OwnSettings (env : SlideDlgEnv) (config : Config SlideKey) : Prop :=
  config.writeIni = .exeIni ∨
    config.writeIni = .userIni ∧ (∀ k, lookup config.exeIni k 64 = none) ∧
      ∀ v, InInt32 v → env.profileInt (formatInt v) = v

section Again

variable {env : SlideDlgEnv} {config : Config SlideKey} {o : Options}

theorem getInt_run (hown : OwnSettings env config) {calls : List (SetCall SlideKey)} {k : SlideKey}
    {v : Int} (hlast : lastSet k calls = some (.setInt k v)) (hin : InInt32 v) (default : Int) :
    (config.run calls).getInt env.profileInt k default = v := by
  rcases hown with hexe | ⟨huser, hnone, hprofile⟩
  · exact Config.getInt_run_exe hexe hlast hin default
  · have hwritten := Config.run_written config hlast
    have hother : IniFile.exeIni ≠ config.writeIni := by
      rw [huser]
      decide
    have hexe : (config.run calls).exeIni k = config.exeIni k :=
      Config.run_other config calls k hother
    rw [huser] at hwritten
    have hval : (config.run calls).userIni k = some (formatInt v) := hwritten
    unfold Config.getInt
    rw [lookup_congr hexe, hnone k]
    simp only [hval]
    exact hprofile v hin

/-- The number that `ValidateAndSave` writes under a key. -/
def saved (o : Options) : SlideKey → Int
  | .IntervalSec => o.intervalSec
  | .Order => orderInt o.order
  | .Repeat => repeatInt o.repeat
  | .Rounds => o.rounds

theorem lastSet_saveCalls (o : Options) (k : SlideKey) :
    lastSet k (saveCalls o) = some (.setInt k (saved o k)) := by
  cases k <;> rfl

theorem saved_inInt32 (h : Ready o) (k : SlideKey) : InInt32 (saved o k) := by
  obtain ⟨hi, hi'⟩ := h.interval
  obtain ⟨hr, hr'⟩ := h.rounds
  unfold InInt32
  cases k with
  | IntervalSec =>
    simp only [saved]
    omega
  | Order => cases ho : o.order <;> simp [saved, orderInt, ho]
  | Repeat => cases ho : o.repeat <;> simp [saved, repeatInt, ho]
  | Rounds =>
    simp only [saved]
    omega

theorem getInt_saveCalls (hown : OwnSettings env config) (h : Ready o) (k : SlideKey)
    (default : Int) : (config.run (saveCalls o)).getInt env.profileInt k default = saved o k :=
  getInt_run hown (lastSet_saveCalls o k) (saved_inInt32 h k) default

theorem readOrder_orderInt (x : OrderMode) : readOrder (clampInt (orderInt x) 0 2) = x := by
  cases x <;> rfl

theorem readRepeat_repeatInt (x : RepeatMode) : readRepeat (clampInt (repeatInt x) 0 1) = x := by
  cases x <;> rfl

theorem OwnSettings.run (hown : OwnSettings env config) (calls : List (SetCall SlideKey)) :
    OwnSettings env (config.run calls) := by
  rcases hown with hexe | ⟨huser, hnone, hprofile⟩
  · exact .inl ((Config.run_writeIni config calls).trans hexe)
  · refine .inr ⟨(Config.run_writeIni config calls).trans huser, fun k => ?_, hprofile⟩
    have hother : IniFile.exeIni ≠ config.writeIni := by
      rw [huser]
      decide
    have hexe : (config.run calls).exeIni k = config.exeIni k :=
      Config.run_other config calls k hother
    rw [lookup_congr hexe]
    exact hnone k

/-- **The dialog shows it again.** Opened with the options that were returned and the settings that
were written, the dialog shows the same order, rounds and interval and keeps the custom list. A start
button pressed at once returns the same options, but for the source, which is the current folder
where there is one, and the zoom mode of the window; the settings then read as before. -/
theorem show_again {options : Options} {hasCurrentFolder : Bool} {currentZoomMode : Int}
    {ls : List SlideMsg} {d : SlideDlg} (hown : OwnSettings env config)
    (h : (machine env options hasCurrentFolder currentZoomMode config).Run
      Machine.always (init env options hasCurrentFolder currentZoomMode config) ls d)
    (hret : d.returned = some o) (folder : Bool) {zoomMode : Int}
    (hzoom : zoomMode ∈ ZOOMS.map Prod.fst) :
    let again := init env o folder zoomMode d.config
    again.order = o.order ∧ again.repeat = o.repeat ∧ again.interval = formatInt o.intervalSec ∧
      again.rounds = formatInt o.rounds ∧ again.data.items = o.customItems ∧
      OwnSettings env again.config ∧
      ∀ start, start ≠ .START_CANCEL → (folder = true ∨ o.customItems ≠ []) →
        (again.onStart start).returned = some { o with
          source := if folder then .SOURCE_CURRENT_FOLDER else .SOURCE_CUSTOM
          zoomMode := zoomMode
          start := start } ∧
        ∀ k default, (again.onStart start).config.getInt env.profileInt k default =
          d.config.getInt env.profileInt k default := by
  have hedit := run_editing h
  obtain ⟨hok, rfl⟩ := returned_some hret
  have hfin := hedit.finished hok
  have hready := readOptions_ready d hfin.start
  rw [← hfin.options] at hready
  have hread : ∀ k default, d.config.getInt env.profileInt k default = saved d.options k := by
    intro k default
    rw [hfin.config]
    exact getInt_saveCalls hown hready k default
  have hownd : OwnSettings env d.config := by
    rw [hfin.config]
    exact hown.run _
  intro again
  have horder : again.order = d.options.order := by
    change readOrder (clampInt (d.config.getInt env.profileInt .Order 0) 0 2) = _
    rw [hread]
    exact readOrder_orderInt _
  have hrepeat : again.repeat = d.options.repeat := by
    change readRepeat (clampInt (d.config.getInt env.profileInt .Repeat 0) 0 1) = _
    rw [hread]
    exact readRepeat_repeatInt _
  have hinterval : again.interval = formatInt d.options.intervalSec := by
    change formatInt (clampInt (d.config.getInt env.profileInt .IntervalSec 5) 1 3600) = _
    rw [hread, saved, clampInt_of_range hready.interval]
  have hrounds : again.rounds = formatInt d.options.rounds := by
    change formatInt (clampInt (d.config.getInt env.profileInt .Rounds 1) 1 9999) = _
    rw [hread, saved, clampInt_of_range hready.rounds]
  refine ⟨horder, hrepeat, hinterval, hrounds, rfl, hownd, fun start hstart hfiles => ?_⟩
  have hoptions : again.readOptions start = { d.options with
      source := if folder then .SOURCE_CURRENT_FOLDER else .SOURCE_CUSTOM
      zoomMode := zoomMode
      start := start } := by
    have hi : getIntText (formatInt d.options.intervalSec) 5 = d.options.intervalSec :=
      getIntText_formatInt (Int.lt_of_lt_of_le Int.zero_lt_one hready.interval.1)
        (saved_inInt32 hready .IntervalSec) 5
    have hr : getIntText (formatInt d.options.rounds) 1 = d.options.rounds :=
      getIntText_formatInt (Int.lt_of_lt_of_le Int.zero_lt_one hready.rounds.1)
        (saved_inInt32 hready .Rounds) 1
    have hz : selectedZoom again.zoom = zoomMode := selectedZoom_zoomIndex hzoom
    simp only [readOptions, horder, hrepeat, hinterval, hrounds, hi, hr, hz,
      clampInt_of_range hready.interval, clampInt_of_range hready.rounds]
    rfl
  rcases onStart_cases again start with ⟨hcustom, hempty, -⟩ | ⟨-, heq⟩
  · -- the custom list is not empty where it is the source
    exfalso
    rcases hfiles with rfl | hne
    · cases hcustom
    · exact hne hempty
  · rw [heq, hoptions]
    refine ⟨if_pos ⟨rfl, hstart⟩, fun k default => ?_⟩
    have hready' : Ready { d.options with
        source := if folder then .SOURCE_CURRENT_FOLDER else .SOURCE_CUSTOM
        zoomMode := zoomMode
        start := start } :=
      ⟨hstart, hready.interval, hready.rounds, zoomModeOf_isSome hzoom⟩
    rw [hread]
    refine (getInt_saveCalls hownd hready' k default).trans ?_
    cases k <;> rfl

end Again

end SlideDlg

theorem show_again_trip : ∃ config : Config SlideKey,
    let again := SlideDlg.init pngDialog tripOptions true 1010 config
    again.order = .ORDER_REVERSE ∧ again.interval = wide "3600".toList ∧
      (again.onStart .START_FULLSCREEN).returned =
        some { tripOptions with
          source := .SOURCE_CURRENT_FOLDER
          zoomMode := 1010
          start := .START_FULLSCREEN } := by
  obtain ⟨d, hrun, hret⟩ := tripRun_run
  have hown : SlideDlg.OwnSettings pngDialog noSlideSettings := .inl rfl
  obtain ⟨horder, -, hinterval, -, -, -, hstart⟩ :=
    SlideDlg.show_again hown hrun hret true (by decide : (1010 : Int) ∈ ZOOMS.map Prod.fst)
  exact ⟨d.config, horder, hinterval, (hstart .START_FULLSCREEN (by decide) (.inl rfl)).1⟩

end ObZrv.SlideShowDlg
