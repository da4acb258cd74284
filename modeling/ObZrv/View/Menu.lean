import ObZrv.Lib.Forest
import ObZrv.Text.Config
import ObZrv.View.ImageView

/-!
# View.Menu

The menu of the main window in `MainWnd.cpp` and `Menu.cpp`: how a submenu is found, how the items
are checked, enabled and given their icons, and how the items of the recent files are replaced.

The bitmaps of the icons belong to the program: it keeps them in `m_menuBitmaps` as long as the menu
shows them.

* `MenuItem.Kept`      : what never changes of an item of the resource.
* `Ok.updateMenuIcons` : every icon is made anew, and those before are freed.
* `Ok.replaceRecent`   : the items of the recent files are replaced, and nothing else.
-/

namespace ObZrv

open Lib

def ID_VIEW_FILELIST : Int := 1002
def ID_FILE_OPEN : Int := 1004
def ID_VIEW_ZOOMMODE : Int := 1009
def ID_ZOOMMODE_NOFIT : Int := 1014
def ID_FILE_SAVE_AS : Int := 1015
def ID_VIEW_ZOOMTO : Int := 1020
def ID_VIEW_ZOOMREM : Int := 1021
def ID_VIEW_ZOOM : Int := 1022
def ID_FILE_OPEN_REMOTE : Int := 1023
def ID_FILE_REFRESH : Int := 1026
def ID_FILE_RECENT_EMPTY : Int := 1027
def ID_VIEW_SLIDESHOW : Int := 1028
def ID_FILE_RECENT_FIRST : Int := 2000
def ID_FILE_RECENT_LAST : Int := 2099

abbrev HMENU := Nat

abbrev HBITMAP := Nat

/-! ## Items -/

/-- An item with a command; a separator has the id 0. -/
structure MenuItem where
  id : Int
  text : WStr := []
  grayed : Bool := false
  checked : Bool := false
  bitmap : Option HBITMAP := none
deriving DecidableEq, Repr

/-- An item with a submenu. -/
structure Popup where
  handle : HMENU
  text : WStr
  bitmap : Option HBITMAP := none
deriving DecidableEq, Repr

abbrev MenuTree := Forest MenuItem Popup

namespace MenuTree

variable (menu : MenuTree)

/-- `FindSubMenuWith`. -/
def findSubMenuWith (cmdId : Int) : Option HMENU :=
  (menu.findOver fun item => item.id == cmdId).map Popup.handle

/-- `Menu::SetChecked` and `Menu::EnableItem`, by command. A command has one item in the menu. -/
def setChecked (cmdId : Int) (checked : Bool) : MenuTree :=
  menu.map (fun item => if item.id = cmdId then { item with checked } else item) id

def enableItem (cmdId : Int) (enable : Bool) : MenuTree :=
  menu.map (fun item => if item.id = cmdId then { item with grayed := !enable } else item) id

/-- `CheckMenuRadioItem` in a submenu, by command. -/
def checkMenuRadioItem (hMenu : HMENU) (first last check : Int) : MenuTree :=
  menu.modify (fun p => p.handle = hMenu) fun sub =>
    sub.map (fun item =>
      if first ≤ item.id ∧ item.id ≤ last then { item with checked := item.id = check } else item) id

/-- The answer to `WM_INITMENUPOPUP`. -/
def initMenuPopup (hPop : HMENU) (zoomMode : Int) : MenuTree :=
  match menu.node? fun p => p.handle = hPop with
  | none => menu
  | some (_, sub) =>
    if sub.tops.any fun item => item.id == ID_ZOOMMODE_W2I_ZOOMOUT then
      menu.checkMenuRadioItem hPop ID_ZOOMMODE_W2I_ZOOMOUT ID_ZOOMMODE_NOFIT zoomMode
    else menu

/-- The menu part of `ShowZoomModeMenu`. -/
def showZoomModeMenu (zoomMode : Int) : MenuTree :=
  match menu.findSubMenuWith ID_ZOOMMODE_W2I_ZOOMOUT with
  | none => menu
  | some hSub => menu.checkMenuRadioItem hSub ID_ZOOMMODE_W2I_ZOOMOUT ID_ZOOMMODE_NOFIT zoomMode

def getMenuItemCount (hMenu : HMENU) : Nat :=
  ((menu.node? fun p => p.handle = hMenu).map fun n => n.2.count).getD 0

/-- `DeleteMenu` of the first item, and `AppendMenuW`. -/
def deleteMenu (hMenu : HMENU) : MenuTree := menu.modify (fun p => p.handle = hMenu) Forest.tail

def appendMenu (hMenu : HMENU) (item : MenuItem) : MenuTree :=
  menu.modify (fun p => p.handle = hMenu) (Forest.snoc item)

/-- `while (GetMenuItemCount(...) > 0) DeleteMenu(...)`: one round for each item. -/
def deleteItems (hMenu : HMENU) : MenuTree :=
  Nat.iterate (deleteMenu · hMenu) (menu.getMenuItemCount hMenu) menu

def appendItems (hMenu : HMENU) (items : List MenuItem) : MenuTree :=
  items.foldl (fun menu item => appendMenu menu hMenu item) menu

/-- `ClearCommandMenuBitmaps`. -/
def clearCommandMenuBitmaps : MenuTree :=
  menu.map (fun item => { item with bitmap := none }) fun p => { p with bitmap := none }

/-- `SetSubMenuBitmap`; `none` where it returns `false`. -/
def setSubMenuBitmap (hSubMenu : HMENU) (hbmp : HBITMAP) : Option MenuTree :=
  menu.update? (fun p => p.handle = hSubMenu) fun p sub => ({ p with bitmap := some hbmp }, sub)

/-- The bitmaps that the items show. -/
def bitmaps : List HBITMAP := menu.collect (fun item => item.bitmap.toList) fun p => p.bitmap.toList

def handles : List HMENU := menu.collect (fun _ => []) fun p => [p.handle]

end MenuTree

/-! ## Icons -/

/-- Where an icon comes from: the image list of the toolbar or `shell32.dll`. -/
inductive IconSource where
  | toolbar (image : Nat)
  | shell32 (idx : Nat)
deriving DecidableEq, Repr

/-- The bitmaps of Windows. `create` is `GetImageListMenuIcon` or `GetShellMenuIcon`. -/
structure Gdi (G : Type) where
  live : G → HBITMAP → Prop
  create : IconSource → G → Option HBITMAP × G
  deleteObject : HBITMAP → G → G
  create_some : ∀ {src g b g'}, create src g = (some b, g') →
    ¬ live g b ∧ ∀ x, live g' x ↔ x = b ∨ live g x
  create_none : ∀ {src g g'}, create src g = (none, g') → ∀ x, live g' x ↔ live g x
  delete_live : ∀ {b g}, live g b → ∀ x, live (deleteObject b g) x ↔ x ≠ b ∧ live g x

/-- The images in `Toolbar::GetMenuIcon`. -/
def menuImages : List (Int × Nat) :=
  [(ID_FILE_OPEN, 0), (ID_FILE_PREV, 1), (ID_FILE_NEXT, 2), (ID_VIEW_ZOOMIN, 3), (ID_VIEW_ZOOMTO, 4),
    (ID_VIEW_ZOOMOUT, 5), (ID_VIEW_ZOOMMODE, 6), (ID_VIEW_ZOOMREM, 7), (ID_VIEW_ZOOM, 8),
    (ID_VIEW_SLIDESHOW, 8), (ID_VIEW_FILELIST, 9), (ID_FILE_OPEN_REMOTE, 10), (ID_FILE_REFRESH, 11),
    (ID_FILE_SAVE_AS, 12)]

/-- The menu with what `MainWnd` keeps beside it. -/
structure MenuBar (G : Type) where
  menu : MenuTree
  recentMenu : Option HMENU := none
  menuBitmaps : List HBITMAP := []
  gdi : G

namespace MenuBar

open MenuTree

variable {G : Type} (gdi : Gdi G) (m : MenuBar G)

/-- One item in `UpdateCommandMenuBitmaps`, with `Toolbar::GetMenuIcon`. -/
def setItemIcon (item : MenuItem) (s : G × List HBITMAP) : MenuItem × G × List HBITMAP :=
  match menuImages.lookup item.id with
  | none => (item, s)
  | some image =>
    match gdi.create (.toolbar image) s.1 with
    | (none, g) => (item, g, s.2)
    | (some hbmp, g) => ({ item with bitmap := some hbmp }, g, s.2 ++ [hbmp])

def updateCommandMenuBitmaps : MenuBar G :=
  let (menu, g, menuBitmaps) := m.menu.mapAccum (setItemIcon gdi) (m.gdi, m.menuBitmaps)
  { m with menu, menuBitmaps, gdi := g }

def clearMenuBitmaps : MenuBar G :=
  { m with
    menu := m.menu.clearCommandMenuBitmaps
    menuBitmaps := []
    gdi := m.menuBitmaps.foldl (fun g hb => gdi.deleteObject hb g) m.gdi }

/-- The icon of a submenu, freed again if it cannot be set. -/
def setSubMenuIcon (hSubMenu : Option HMENU) (src : IconSource) : MenuBar G :=
  match gdi.create src m.gdi with
  | (none, g) => { m with gdi := g }
  | (some hbmp, g) =>
    match hSubMenu.bind fun h => m.menu.setSubMenuBitmap h hbmp with
    | some menu => { m with menu, menuBitmaps := m.menuBitmaps ++ [hbmp], gdi := g }
    | none => { m with gdi := gdi.deleteObject hbmp g }

def updateMenuIcons : MenuBar G :=
  let m := (m.clearMenuBitmaps gdi).updateCommandMenuBitmaps gdi
  let hZoomSub := m.menu.findSubMenuWith ID_ZOOMMODE_W2I_ZOOMOUT
  let m := m.setSubMenuIcon gdi hZoomSub (.toolbar 6)
  m.setSubMenuIcon gdi m.recentMenu (.shell32 86)

/-- `UpdateRecentFilesMenu` with the items it makes. -/
def replaceRecent (items : List MenuItem) : MenuBar G :=
  let recentMenu := m.recentMenu <|> m.menu.findSubMenuWith ID_FILE_RECENT_EMPTY
  match recentMenu with
  | none => { m with recentMenu }
  | some h => { m with recentMenu, menu := (m.menu.deleteItems h).appendItems h items }

end MenuBar

/-! ## What never changes -/

/-- What stays of an item whatever the program does: the id and the text, and all of the state that
is not the program's to change. -/
structure MenuItem.Kept (item item' : MenuItem) : Prop where
  id : item'.id = item.id
  text : item'.text = item.text
  grayed : item.id ∉ [ID_FILE_SAVE_AS, ID_FILE_PREV, ID_FILE_NEXT, ID_VIEW_ZOOMIN, ID_VIEW_ZOOMOUT] →
    item'.grayed = item.grayed
  checked : item.id ≠ ID_VIEW_FILELIST →
    ¬ (ID_ZOOMMODE_W2I_ZOOMOUT ≤ item.id ∧ item.id ≤ ID_ZOOMMODE_NOFIT) → item'.checked = item.checked
  bitmap : menuImages.lookup item.id = none → item.bitmap = none → item'.bitmap = none

structure Popup.Kept (p p' : Popup) : Prop where
  handle : p'.handle = p.handle
  text : p'.text = p.text

/-- The same menu but for the state of its items. -/
abbrev MenuTree.Kept (menu menu' : MenuTree) : Prop := Forest.Rel MenuItem.Kept Popup.Kept menu menu'

/-- An item of the recent files, or the one in place of them. -/
structure MenuItem.Recent (item : MenuItem) : Prop where
  id : item.id = ID_FILE_RECENT_EMPTY ∨ ID_FILE_RECENT_FIRST ≤ item.id ∧ item.id ≤ ID_FILE_RECENT_LAST
  bitmap : item.bitmap = none

section Kept

variable {item item' item'' : MenuItem} {p p' p'' : Popup}

theorem MenuItem.Kept.refl (item : MenuItem) : item.Kept item :=
  ⟨rfl, rfl, fun _ => rfl, fun _ _ => rfl, fun _ h => h⟩

theorem MenuItem.Kept.trans (h : item.Kept item') (h' : item'.Kept item'') : item.Kept item'' where
  id := h'.id.trans h.id
  text := h'.text.trans h.text
  grayed hid := (h'.grayed (by rw [h.id]; exact hid)).trans (h.grayed hid)
  checked hid hzoom :=
    (h'.checked (by rw [h.id]; exact hid) (by rw [h.id]; exact hzoom)).trans (h.checked hid hzoom)
  bitmap hid hnone := h'.bitmap (by rw [h.id]; exact hid) (h.bitmap hid hnone)

theorem Popup.Kept.refl (p : Popup) : p.Kept p := ⟨rfl, rfl⟩

theorem Popup.Kept.trans (h : p.Kept p') (h' : p'.Kept p'') : p.Kept p'' :=
  ⟨h'.handle.trans h.handle, h'.text.trans h.text⟩

theorem MenuTree.Kept.refl (menu : MenuTree) : menu.Kept menu :=
  Forest.Rel.refl MenuItem.Kept.refl Popup.Kept.refl menu

theorem MenuTree.Kept.trans {menu menu' menu'' : MenuTree} (h : menu.Kept menu')
    (h' : menu'.Kept menu'') : menu.Kept menu'' :=
  Forest.Rel.trans (fun _ _ _ => MenuItem.Kept.trans) (fun _ _ _ => Popup.Kept.trans) h h'

theorem menuImages_ids : ∀ image ∈ menuImages, image.1 ≤ 1028 ∧ image.1 ≠ 1027 := by decide

theorem MenuItem.Recent.lookup_eq_none (h : item.Recent) : menuImages.lookup item.id = none := by
  refine List.lookup_eq_none_iff.mpr ?_
  intro image himage
  obtain ⟨hle, hne⟩ := menuImages_ids image himage
  have hid := h.id
  simp only [ID_FILE_RECENT_EMPTY, ID_FILE_RECENT_FIRST] at hid
  have hneq : item.id ≠ image.1 := by omega
  simp [hneq]

/-- An item of the recent files is not the program's to change. -/
theorem MenuItem.Recent.kept_eq (hr : item.Recent) (h : item.Kept item') : item' = item := by
  have hid := hr.id
  simp only [ID_FILE_RECENT_EMPTY, ID_FILE_RECENT_FIRST, ID_FILE_RECENT_LAST] at hid
  have hgrayed := h.grayed (by
    simp only [ID_FILE_SAVE_AS, ID_FILE_PREV, ID_FILE_NEXT, ID_VIEW_ZOOMIN, ID_VIEW_ZOOMOUT,
      List.mem_cons, List.not_mem_nil, or_false]
    omega)
  have hchecked := h.checked (by unfold ID_VIEW_FILELIST; omega)
    (by unfold ID_ZOOMMODE_W2I_ZOOMOUT ID_ZOOMMODE_NOFIT; omega)
  have hbitmap := (h.bitmap hr.lookup_eq_none hr.bitmap).trans hr.bitmap.symm
  obtain ⟨hsame, htext⟩ := And.intro h.id h.text
  cases item
  cases item'
  simp only at hsame htext hgrayed hchecked hbitmap
  rw [hsame, htext, hgrayed, hchecked, hbitmap]

end Kept

/-! ## Changes of the state of items -/

/-- No bitmap is changed either. -/
structure MenuItem.Touched (item item' : MenuItem) : Prop extends item.Kept item' where
  same : item'.bitmap = item.bitmap

/-- The same menu but for what is grayed and checked. -/
abbrev MenuTree.Touched (menu menu' : MenuTree) : Prop := Forest.Rel MenuItem.Touched Eq menu menu'

namespace MenuTree

variable (menu : MenuTree)

theorem Touched.refl (menu : MenuTree) : menu.Touched menu :=
  Forest.Rel.refl (fun item => ⟨.refl item, rfl⟩) (fun _ => rfl) menu

theorem Touched.trans {menu menu' menu'' : MenuTree} (h : menu.Touched menu')
    (h' : menu'.Touched menu'') : menu.Touched menu'' :=
  Forest.Rel.trans (fun _ _ _ hi hi' => ⟨hi.toKept.trans hi'.toKept, hi'.same.trans hi.same⟩)
    (fun _ _ _ => Eq.trans) h h'

theorem Touched.kept {menu menu' : MenuTree} (h : menu.Touched menu') : menu.Kept menu' :=
  Forest.Rel.imp (fun _ _ hitem => hitem.toKept) (fun p p' (hp : p = p') => hp ▸ Popup.Kept.refl p) h

theorem Touched.bitmaps_eq {menu menu' : MenuTree} (h : menu.Touched menu') :
    menu'.bitmaps = menu.bitmaps :=
  (Forest.Rel.collect_eq (fun _ _ hitem => by rw [hitem.same]) (fun _ _ hp => by rw [hp]) h).symm

theorem touched_map {f : MenuItem → MenuItem} (hf : ∀ item : MenuItem, item.Touched (f item)) :
    menu.Touched (menu.map f id) := Forest.rel_map hf (fun _ => rfl) menu

theorem touched_setChecked (checked : Bool) :
    menu.Touched (menu.setChecked ID_VIEW_FILELIST checked) := by
  refine touched_map menu fun item => ?_
  split
  · rename_i hid
    exact ⟨⟨rfl, rfl, fun _ => rfl, fun h => absurd hid h, fun _ h => h⟩, rfl⟩
  · exact ⟨.refl item, rfl⟩

theorem touched_enableItem {cmdId : Int}
    (h : cmdId ∈ [ID_FILE_SAVE_AS, ID_FILE_PREV, ID_FILE_NEXT, ID_VIEW_ZOOMIN, ID_VIEW_ZOOMOUT])
    (enable : Bool) : menu.Touched (menu.enableItem cmdId enable) := by
  refine touched_map menu fun item => ?_
  split
  · rename_i hid
    exact ⟨⟨rfl, rfl, fun hout => absurd (hid ▸ h) hout, fun _ _ => rfl, fun _ h => h⟩, rfl⟩
  · exact ⟨.refl item, rfl⟩

theorem touched_checkMenuRadioItem (hMenu : HMENU) (check : Int) :
    menu.Touched (menu.checkMenuRadioItem hMenu ID_ZOOMMODE_W2I_ZOOMOUT ID_ZOOMMODE_NOFIT check) := by
  refine Forest.rel_modify (fun item => ⟨.refl item, rfl⟩) (fun _ => rfl) (fun sub => ?_) menu
  refine touched_map sub fun item => ?_
  split
  · rename_i hid
    exact ⟨⟨rfl, rfl, fun _ => rfl, fun _ hout => absurd hid hout, fun _ h => h⟩, rfl⟩
  · exact ⟨.refl item, rfl⟩

theorem touched_initMenuPopup (hPop : HMENU) (zoomMode : Int) :
    menu.Touched (menu.initMenuPopup hPop zoomMode) := by
  unfold initMenuPopup
  split
  · exact Touched.refl menu
  · split
    · exact touched_checkMenuRadioItem menu hPop zoomMode
    · exact Touched.refl menu

theorem touched_showZoomModeMenu (zoomMode : Int) :
    menu.Touched (menu.showZoomModeMenu zoomMode) := by
  unfold showZoomModeMenu
  split
  · exact Touched.refl menu
  · exact touched_checkMenuRadioItem menu _ zoomMode

theorem kept_clearCommandMenuBitmaps : menu.Kept menu.clearCommandMenuBitmaps :=
  Forest.rel_map (fun _ => ⟨rfl, rfl, fun _ => rfl, fun _ _ => rfl, fun _ _ => rfl⟩)
    (fun _ => ⟨rfl, rfl⟩) menu

/-! ### The submenu of the recent files -/

theorem deleteItems_eq (hMenu : HMENU) :
    menu.deleteItems hMenu = menu.modify (fun p => p.handle = hMenu) fun _ => .nil := by
  unfold deleteItems deleteMenu getMenuItemCount
  rw [Forest.modify_iterate]
  cases hn : menu.node? fun p => p.handle = hMenu with
  | none => rw [Forest.modify_of_not_found hn, Forest.modify_of_not_found hn]
  | some n =>
    exact Forest.modify_congr hn (Forest.tail_iterate n.2)

theorem appendItems_eq (hMenu : HMENU) (items : List MenuItem) :
    menu.appendItems hMenu items = menu.modify (fun p => p.handle = hMenu) fun sub =>
      items.foldl (fun sub item => sub.snoc item) sub := by
  induction items generalizing menu with
  | nil => exact (Forest.modify_id menu).symm
  | cons item items ih =>
    rw [appendItems, List.foldl_cons, ← appendItems, ih, appendMenu, Forest.modify_modify]
    rfl

theorem foldl_snoc (items l : List MenuItem) :
    items.foldl (fun sub item => Forest.snoc item sub) (Forest.ofList l : MenuTree) =
      Forest.ofList (l ++ items) := by
  induction items generalizing l with
  | nil => rw [List.foldl_nil, List.append_nil]
  | cons item items ih =>
    rw [List.foldl_cons, Forest.snoc_ofList, ih, List.append_assoc, List.singleton_append]

/-- What `UpdateRecentFilesMenu` makes of a submenu. -/
theorem replaceItems_eq (hMenu : HMENU) (items : List MenuItem) :
    (menu.deleteItems hMenu).appendItems hMenu items =
      menu.modify (fun p => p.handle = hMenu) fun _ => .ofList items := by
  rw [deleteItems_eq, appendItems_eq, Forest.modify_modify]
  have hitems := foldl_snoc items []
  rw [List.nil_append, Forest.ofList_nil] at hitems
  rw [hitems]

/-- The menu without the items of a submenu. -/
def without (hMenu : HMENU) : MenuTree := menu.modify (fun p => p.handle = hMenu) fun _ => .nil

theorem Kept.handles_eq {menu menu' : MenuTree} (h : menu.Kept menu') :
    menu'.handles = menu.handles :=
  (Forest.Rel.collect_eq (fun _ _ _ => rfl) (fun _ _ hp => by rw [hp.handle]) h).symm

theorem Kept.without {menu menu' : MenuTree} (h : menu.Kept menu') (hMenu : HMENU) :
    (menu.without hMenu).Kept (menu'.without hMenu) :=
  Forest.Rel.modify_nil (fun _ _ hp => by rw [hp.handle]) h

end MenuTree

/-! ## The menu of a run -/

/-- A menu as `LoadMenu` gives it: the handles of its submenus are distinct, no item has a bitmap, and
one submenu has the item that stands in place of the recent files, and no submenu of its own. -/
structure MenuResource where
  menu : MenuTree
  recent : HMENU
  handles_nodup : menu.handles.Nodup
  bitmaps_nil : menu.bitmaps = []
  find : menu.findSubMenuWith ID_FILE_RECENT_EMPTY = some recent
  no_submenu : ∀ n, menu.node? (fun p => p.handle = recent) = some n → MenuTree.handles n.2 = []

namespace MenuBar

open MenuTree

variable {G : Type} (gdi : Gdi G)

/-- The bitmaps that the program owns are the ones kept, each once; all others are those that were
there before. -/
structure Owns (base : HBITMAP → Prop) (menuBitmaps : List HBITMAP) (g : G) : Prop where
  nodup : menuBitmaps.Nodup
  fresh : ∀ b ∈ menuBitmaps, ¬ base b
  live : ∀ x, gdi.live g x ↔ base x ∨ x ∈ menuBitmaps

/-- What holds of the menu in a run: the submenu of the recent files has the items given, the rest of
the menu is that of the resource, and the items show the bitmaps that are kept. -/
structure Ok (base : HBITMAP → Prop) (res : MenuResource) (items : List MenuItem) (m : MenuBar G) :
    Prop where
  recent : m.recentMenu = some res.recent
  handles : m.menu.handles = res.menu.handles
  items : ∃ p, m.menu.node? (fun p => p.handle = res.recent) = some (p, .ofList items)
  frame : (res.menu.without res.recent).Kept (m.menu.without res.recent)
  shown : m.menu.bitmaps.Perm m.menuBitmaps
  owns : Owns gdi base m.menuBitmaps m.gdi

section

variable {gdi : Gdi G} {base : HBITMAP → Prop} {res : MenuResource} {items : List MenuItem}
  {m m' : MenuBar G} {menuBitmaps : List HBITMAP} {g : G}

theorem Owns.create (h : Owns gdi base menuBitmaps g) {src : IconSource} {hbmp : HBITMAP} {g' : G}
    (hcreate : gdi.create src g = (some hbmp, g')) : Owns gdi base (menuBitmaps ++ [hbmp]) g' := by
  obtain ⟨hnew, hlive⟩ := gdi.create_some hcreate
  have hout : ¬ (base hbmp ∨ hbmp ∈ menuBitmaps) := fun hin => hnew ((h.live hbmp).mpr hin)
  refine ⟨?_, ?_, ?_⟩
  · refine List.nodup_append.mpr ⟨h.nodup, List.nodup_singleton hbmp, ?_⟩
    rintro b hb _ hmem rfl
    rw [List.mem_singleton] at hmem
    exact hout (.inr (hmem ▸ hb))
  · intro b hb
    rcases List.mem_append.mp hb with hold | hmem
    · exact h.fresh b hold
    · rw [List.mem_singleton.mp hmem]
      exact fun hbase => hout (.inl hbase)
  · intro x
    rw [hlive x, h.live x, List.mem_append, List.mem_singleton]
    constructor
    · rintro (rfl | hbase | hmem)
      · exact .inr (.inr rfl)
      · exact .inl hbase
      · exact .inr (.inl hmem)
    · rintro (hbase | hmem | rfl)
      · exact .inr (.inl hbase)
      · exact .inr (.inr hmem)
      · exact .inl rfl

theorem Owns.create_none (h : Owns gdi base menuBitmaps g) {src : IconSource} {g' : G}
    (hcreate : gdi.create src g = (none, g')) : Owns gdi base menuBitmaps g' :=
  ⟨h.nodup, h.fresh, fun x => (gdi.create_none hcreate x).trans (h.live x)⟩

/-- A bitmap that is freed is one of those kept. -/
theorem Owns.delete {hbmp : HBITMAP} (h : Owns gdi base (hbmp :: menuBitmaps) g) :
    Owns gdi base menuBitmaps (gdi.deleteObject hbmp g) := by
  obtain ⟨hout, hnodup⟩ := List.nodup_cons.mp h.nodup
  have hbase := h.fresh hbmp List.mem_cons_self
  refine ⟨hnodup, fun b hb => h.fresh b (List.mem_cons_of_mem hbmp hb), ?_⟩
  intro x
  rw [gdi.delete_live ((h.live hbmp).mpr (.inr List.mem_cons_self)), h.live x, List.mem_cons]
  constructor
  · rintro ⟨hne, hb | rfl | hmem⟩
    · exact .inl hb
    · exact absurd rfl hne
    · exact .inr hmem
  · rintro (hb | hmem)
    · exact ⟨fun heq => hbase (heq ▸ hb), .inl hb⟩
    · exact ⟨fun heq => hout (heq ▸ hmem), .inr (.inr hmem)⟩

theorem Owns.deleteAll (h : Owns gdi base menuBitmaps g) :
    Owns gdi base [] (menuBitmaps.foldl (fun g hb => gdi.deleteObject hb g) g) := by
  induction menuBitmaps generalizing g with
  | nil => exact h
  | cons hbmp menuBitmaps ih => exact ih h.delete

theorem Owns.perm {l : List HBITMAP} (h : Owns gdi base menuBitmaps g) (hp : menuBitmaps.Perm l) :
    Owns gdi base l g :=
  ⟨hp.nodup_iff.mp h.nodup, fun b hb => h.fresh b (hp.mem_iff.mpr hb),
    fun x => (h.live x).trans (or_congr_right hp.mem_iff)⟩

/-- Items keep their ids and texts, so all but the bitmaps stays true. -/
theorem Ok.kept (h : Ok gdi base res items m) (hitems : ∀ item ∈ items, item.Recent)
    (hk : m.menu.Kept m'.menu) (hrecent : m'.recentMenu = m.recentMenu)
    (hshown : m'.menu.bitmaps.Perm m'.menuBitmaps) (howns : Owns gdi base m'.menuBitmaps m'.gdi) :
    Ok gdi base res items m' where
  recent := hrecent.trans h.recent
  handles := (MenuTree.Kept.handles_eq hk).trans h.handles
  items := by
    obtain ⟨p, hp⟩ := h.items
    rcases Forest.Rel.node? (q := fun p => p.handle = res.recent) (fun _ _ hp => by rw [hp.handle]) hk
      with ⟨hnone, -⟩ | ⟨n, n', hn, hn', -, hrel⟩
    · rw [hp] at hnone
      cases hnone
    · rw [hp] at hn
      cases hn
      have heq := Forest.Rel.ofList_eq (fun item hmem _ hkept => (hitems item hmem).kept_eq hkept) hrel
      exact ⟨n'.1, by rw [hn', ← heq]⟩
  frame := MenuTree.Kept.trans h.frame (MenuTree.Kept.without hk res.recent)
  shown := hshown
  owns := howns

theorem Ok.touched (h : Ok gdi base res items m) (hitems : ∀ item ∈ items, item.Recent)
    {menu : MenuTree} (ht : m.menu.Touched menu) : Ok gdi base res items { m with menu } :=
  h.kept hitems (MenuTree.Touched.kept ht) rfl (by rw [MenuTree.Touched.bitmaps_eq ht]; exact h.shown)
    h.owns

/-! ### The icons -/

theorem kept_setItemIcon (item : MenuItem) (s : G × List HBITMAP) :
    item.Kept (setItemIcon gdi item s).1 := by
  unfold setItemIcon
  split
  · exact .refl item
  · rename_i image hlookup
    split
    · exact .refl item
    · refine ⟨rfl, rfl, fun _ => rfl, fun _ _ => rfl, fun hnone => ?_⟩
      rw [hlookup] at hnone
      cases hnone

theorem Owns.setItemIcon {s : G × List HBITMAP} (h : Owns gdi base s.2 s.1) (item : MenuItem) :
    Owns gdi base (MenuBar.setItemIcon gdi item s).2.2 (MenuBar.setItemIcon gdi item s).2.1 := by
  unfold MenuBar.setItemIcon
  split
  · exact h
  · split
    · rename_i g hcreate
      exact h.create_none hcreate
    · rename_i hbmp g hcreate
      exact h.create hcreate

variable (gdi) in
/-- An item without a bitmap gets the one that is kept for it. -/
theorem setItemIcon_kept (item : MenuItem) (s : G × List HBITMAP) (h : item.bitmap.toList = []) :
    (setItemIcon gdi item s).2.2 = s.2 ++ (setItemIcon gdi item s).1.bitmap.toList := by
  unfold setItemIcon
  split
  · rw [h, List.append_nil]
  · split
    · rw [h, List.append_nil]
    · rfl

/-- The bitmaps that the submenus show. -/
def popupBitmaps (menu : MenuTree) : List HBITMAP :=
  menu.collect (fun _ => []) fun p => p.bitmap.toList

/-- `UpdateCommandMenuBitmaps`, from a menu without icons. -/
theorem updateCommandMenuBitmaps_spec (hnil : m.menu.bitmaps = []) (hkept : m.menuBitmaps = [])
    (howns : Owns gdi base [] m.gdi) :
    let m' := m.updateCommandMenuBitmaps gdi
    m.menu.Kept m'.menu ∧ m'.recentMenu = m.recentMenu ∧ m'.menu.bitmaps = m'.menuBitmaps ∧
      Owns gdi base m'.menuBitmaps m'.gdi ∧ popupBitmaps m'.menu = popupBitmaps m.menu := by
  refine ⟨Forest.rel_mapAccum kept_setItemIcon Popup.Kept.refl _ _, rfl, ?_, ?_, ?_⟩
  · have hstart : (m.gdi, m.menuBitmaps).2 = [] := hkept
    have hcollect := Forest.mapAccum_collect (s := (m.gdi, m.menuBitmaps)) Prod.snd
      (setItemIcon_kept gdi) hnil
    rw [hstart, List.nil_append] at hcollect
    exact hcollect.symm
  · refine Forest.mapAccum_inv (P := fun s : G × List HBITMAP => Owns gdi base s.2 s.1)
      (fun item s hs => hs.setItemIcon item) ?_
    rw [hkept]
    exact howns
  · have hsame : Forest.Rel (fun _ _ => True) Eq m.menu (m.updateCommandMenuBitmaps gdi).menu :=
      Forest.rel_mapAccum (fun _ _ => trivial) (fun _ => rfl) _ _
    exact (Forest.Rel.collect_eq (fun _ _ _ => rfl) (fun _ _ hp => by rw [hp]) hsame).symm

variable (gdi) in
theorem setSubMenuIcon_cases (m : MenuBar G) (hSubMenu : Option HMENU) (src : IconSource) :
    (∃ g, gdi.create src m.gdi = (none, g) ∧ m.setSubMenuIcon gdi hSubMenu src = { m with gdi := g }) ∨
    (∃ hbmp g, gdi.create src m.gdi = (some hbmp, g) ∧
      m.setSubMenuIcon gdi hSubMenu src = { m with gdi := gdi.deleteObject hbmp g }) ∨
    ∃ hbmp g h menu, gdi.create src m.gdi = (some hbmp, g) ∧ hSubMenu = some h ∧
      m.menu.setSubMenuBitmap h hbmp = some menu ∧ m.setSubMenuIcon gdi hSubMenu src =
        { m with menu, menuBitmaps := m.menuBitmaps ++ [hbmp], gdi := g } := by
  unfold setSubMenuIcon
  obtain ⟨created, g⟩ := gdi.create src m.gdi
  cases created with
  | none => exact .inl ⟨g, rfl, rfl⟩
  | some hbmp =>
    cases hset : hSubMenu.bind fun h => m.menu.setSubMenuBitmap h hbmp with
    | none => exact .inr (.inl ⟨hbmp, g, rfl, by simp only [hset]⟩)
    | some menu =>
      obtain ⟨h, hsub, hmenu⟩ := Option.bind_eq_some_iff.mp hset
      exact .inr (.inr ⟨hbmp, g, h, menu, rfl, hsub, hmenu, by simp only [hset]⟩)

/-- A submenu without a bitmap gets one. -/
theorem bitmaps_setSubMenuBitmap {menu menu' : MenuTree} {h : HMENU} {hbmp : HBITMAP}
    (hset : menu.setSubMenuBitmap h hbmp = some menu')
    (hbare : ∀ n, menu.node? (fun p => p.handle = h) = some n → n.1.bitmap = none) :
    menu'.bitmaps.Perm (menu.bitmaps ++ [hbmp]) := by
  obtain ⟨l, r, n, hn, hold, hnew⟩ := (Forest.update?_eq_some_iff.mp hset).collect
    (fun item => item.bitmap.toList) fun p => p.bitmap.toList
  have hnone := hbare n hn
  simp only [hnone, Option.toList_none, List.nil_append] at hold
  rw [MenuTree.bitmaps, MenuTree.bitmaps, hold, hnew]
  simp only [Option.toList_some, List.cons_append, List.nil_append, List.append_assoc]
  have hmove := (List.perm_append_singleton hbmp (n.2.collect (fun item => item.bitmap.toList)
    (fun p => p.bitmap.toList) ++ r)).symm
  exact (hmove.append_left l).trans (by simp only [List.append_assoc]; exact List.Perm.refl _)

/-- The icon of a submenu that has none yet. Only its own bitmap is changed. -/
theorem setSubMenuIcon_spec (hSubMenu : Option HMENU) (src : IconSource)
    (hshown : m.menu.bitmaps.Perm m.menuBitmaps) (howns : Owns gdi base m.menuBitmaps m.gdi)
    (hbare : ∀ h n, hSubMenu = some h → m.menu.node? (fun p => p.handle = h) = some n →
      n.1.bitmap = none) :
    let m' := m.setSubMenuIcon gdi hSubMenu src
    Forest.Rel MenuItem.Kept (fun p p' => p.Kept p' ∧ (hSubMenu ≠ some p.handle → p' = p))
        m.menu m'.menu ∧
      m'.recentMenu = m.recentMenu ∧ m'.menu.bitmaps.Perm m'.menuBitmaps ∧
      Owns gdi base m'.menuBitmaps m'.gdi := by
  have hrefl : Forest.Rel MenuItem.Kept (fun p p' => p.Kept p' ∧ (hSubMenu ≠ some p.handle → p' = p))
      m.menu m.menu :=
    Forest.Rel.refl MenuItem.Kept.refl (fun p => ⟨.refl p, fun _ => rfl⟩) m.menu
  rcases setSubMenuIcon_cases gdi m hSubMenu src with ⟨g, hcreate, heq⟩ | ⟨hbmp, g, hcreate, heq⟩ |
    ⟨hbmp, g, h, menu, hcreate, rfl, hset, heq⟩
  · rw [heq]
    exact ⟨hrefl, rfl, hshown, howns.create_none hcreate⟩
  · rw [heq]
    refine ⟨hrefl, rfl, hshown, ?_⟩
    exact ((howns.create hcreate).perm (List.perm_append_singleton hbmp m.menuBitmaps)).delete
  · rw [heq]
    refine ⟨?_, rfl, ?_, howns.create hcreate⟩
    · refine (Forest.update?_eq_some_iff.mp hset).rel MenuItem.Kept.refl
        (fun p => ⟨.refl p, fun _ => rfl⟩) ?_
      intro p sub hp
      refine ⟨⟨⟨rfl, rfl⟩, fun hne => absurd ?_ hne⟩, ?_⟩
      · rw [of_decide_eq_true hp]
      · exact Forest.Rel.refl MenuItem.Kept.refl (fun p => ⟨.refl p, fun _ => rfl⟩) sub
    · exact (bitmaps_setSubMenuBitmap hset fun n => hbare h n rfl).trans (hshown.append_right [hbmp])

theorem handles_eq_map (menu : MenuTree) :
    menu.handles = menu.nodes.map fun n => n.1.handle := by
  induction menu with
  | nil => rfl
  | leaf item rest ih => exact ih
  | node p sub rest ihSub ihRest =>
    have hsub : Forest.collect (fun _ => []) (fun p => [p.handle]) sub = _ := ihSub
    have hrest : Forest.collect (fun _ => []) (fun p => [p.handle]) rest = _ := ihRest
    rw [MenuTree.handles, Forest.collect, Forest.nodes, hsub, hrest, List.map_cons, List.map_append]
    rfl

/-- The submenu of the zoom modes is not that of the recent files. -/
theorem Ok.zoom_ne (h : Ok gdi base res items m) (hitems : ∀ item ∈ items, item.Recent) :
    m.menu.findSubMenuWith ID_ZOOMMODE_W2I_ZOOMOUT ≠ some res.recent := by
  intro hfind
  obtain ⟨p, hp, hhandle⟩ := Option.map_eq_some_iff.mp hfind
  have hkeys : (m.menu.nodes.map fun n => n.1.handle).Nodup := by
    rw [← handles_eq_map, h.handles]
    exact res.handles_nodup
  obtain ⟨sub, hsub, hany⟩ := Forest.findOver_key hkeys hp
  obtain ⟨p', hp'⟩ := h.items
  rw [hhandle, hp'] at hsub
  cases hsub
  obtain ⟨item, hmem, hid⟩ := List.any_eq_true.mp hany
  rw [Forest.tops_ofList] at hmem
  have hrecent := (hitems item hmem).id
  rw [beq_iff_eq] at hid
  simp only [hid, ID_ZOOMMODE_W2I_ZOOMOUT, ID_FILE_RECENT_EMPTY, ID_FILE_RECENT_FIRST] at hrecent
  omega

theorem popup_bare {menu : MenuTree} (hnil : popupBitmaps menu = []) {q : Popup → Bool}
    {n : Popup × MenuTree} (hn : menu.node? q = some n) : n.1.bitmap = none :=
  Option.toList_eq_nil_iff.mp (Forest.collect_node?_nil hn hnil).1

theorem bitmaps_cleared (menu : MenuTree) : menu.clearCommandMenuBitmaps.bitmaps = [] :=
  Forest.collect_map_eq_nil (fun _ => rfl) (fun _ => rfl) menu

theorem popupBitmaps_cleared (menu : MenuTree) : popupBitmaps menu.clearCommandMenuBitmaps = [] :=
  Forest.collect_map_eq_nil (fun _ => rfl) (fun _ => rfl) menu

/-- **All icons are made anew**, and those before are freed. -/
theorem Ok.updateMenuIcons (h : Ok gdi base res items m) (hitems : ∀ item ∈ items, item.Recent) :
    Ok gdi base res items (m.updateMenuIcons gdi) := by
  have hclear : m.menu.Kept (m.clearMenuBitmaps gdi).menu := kept_clearCommandMenuBitmaps m.menu
  have hnil : (m.clearMenuBitmaps gdi).menu.bitmaps = [] := bitmaps_cleared m.menu
  have hfreed : Owns gdi base [] (m.clearMenuBitmaps gdi).gdi := h.owns.deleteAll
  obtain ⟨hcommands, hrecent, hshown, howns, hpopups⟩ :=
    updateCommandMenuBitmaps_spec hnil rfl hfreed
  have hbare : popupBitmaps ((m.clearMenuBitmaps gdi).updateCommandMenuBitmaps gdi).menu = [] :=
    hpopups.trans (popupBitmaps_cleared m.menu)
  have hperm := List.Perm.of_eq hshown
  have hok : Ok gdi base res items ((m.clearMenuBitmaps gdi).updateCommandMenuBitmaps gdi) :=
    h.kept hitems (MenuTree.Kept.trans hclear hcommands) hrecent hperm howns
  have hne := hok.zoom_ne hitems
  obtain ⟨hzoom, hrecent', hshown', howns'⟩ := setSubMenuIcon_spec
    (((m.clearMenuBitmaps gdi).updateCommandMenuBitmaps gdi).menu.findSubMenuWith
      ID_ZOOMMODE_W2I_ZOOMOUT) (.toolbar 6) hperm howns fun _ _ _ hn => popup_bare hbare hn
  have hok' := hok.kept hitems (Forest.Rel.imp (fun _ _ hk => hk) (fun _ _ hk => hk.1) hzoom) hrecent'
    hshown' howns'
  obtain ⟨hlast, hrecent'', hshown'', howns''⟩ := setSubMenuIcon_spec (some res.recent)
    (.shell32 86) hshown' howns' (by
      rintro _ n ⟨⟩ hn
      rcases hzoom.node? (q := fun p => p.handle = res.recent) (fun _ _ hp => by rw [hp.1.handle])
        with ⟨-, hnone⟩ | ⟨n₀, n₁, hn₀, hn₁, hp, -⟩
      · rw [hn] at hnone
        cases hnone
      · rw [hn] at hn₁
        cases hn₁
        have hhandle : n₀.1.handle = res.recent := of_decide_eq_true (Forest.node?_some hn₀).2
        rw [hp.2 (by rw [hhandle]; exact hne)]
        exact popup_bare hbare hn₀)
  have hfinal := hok'.kept hitems (Forest.Rel.imp (fun _ _ hk => hk) (fun _ _ hk => hk.1) hlast)
    hrecent'' hshown'' howns''
  rw [← hok'.recent] at hfinal
  exact hfinal

/-! ### The recent files -/

theorem handles_ofList (items : List MenuItem) : MenuTree.handles (.ofList items) = [] := by
  rw [MenuTree.handles, Forest.collect_ofList]
  exact List.flatMap_eq_nil_iff.mpr fun _ _ => rfl

theorem bitmaps_ofList (hitems : ∀ item ∈ items, item.Recent) :
    MenuTree.bitmaps (.ofList items) = [] := by
  rw [MenuTree.bitmaps, Forest.collect_ofList]
  refine List.flatMap_eq_nil_iff.mpr fun item hmem => ?_
  rw [(hitems item hmem).bitmap, Option.toList_none]

/-- What a submenu without submenus and icons holds can be replaced, and nothing else is changed. -/
theorem replaced {menu sub : MenuTree} {h : HMENU} {p : Popup}
    (hn : menu.node? (fun p => p.handle = h) = some (p, sub)) (hhandles : MenuTree.handles sub = [])
    (hbitmaps : MenuTree.bitmaps sub = []) (hitems : ∀ item ∈ items, item.Recent) :
    let menu' := menu.modify (fun p => p.handle = h) fun _ => .ofList items
    menu'.node? (fun p => p.handle = h) = some (p, .ofList items) ∧
      MenuTree.handles menu' = menu.handles ∧ MenuTree.bitmaps menu' = menu.bitmaps ∧
      MenuTree.without menu' h = menu.without h := by
  refine ⟨Forest.node?_modify hn _, ?_, ?_, Forest.modify_modify _ _ _⟩
  · exact Forest.collect_modify _ _ hn ((handles_ofList items).trans hhandles.symm)
  · exact Forest.collect_modify _ _ hn ((bitmaps_ofList hitems).trans hbitmaps.symm)

theorem replaceRecent_eq {h : HMENU}
    (hrecent : (m.recentMenu <|> m.menu.findSubMenuWith ID_FILE_RECENT_EMPTY) = some h) :
    m.replaceRecent items = { m with
      recentMenu := some h
      menu := m.menu.modify (fun p => p.handle = h) fun _ => .ofList items } := by
  unfold MenuBar.replaceRecent
  simp only [hrecent, replaceItems_eq]

/-- **The items of the recent files** are replaced, and nothing else is changed. -/
theorem Ok.replaceRecent (h : Ok gdi base res items m) {items' : List MenuItem}
    (hitems : ∀ item ∈ items, item.Recent) (hitems' : ∀ item ∈ items', item.Recent) :
    Ok gdi base res items' (m.replaceRecent items') := by
  obtain ⟨p, hp⟩ := h.items
  obtain ⟨hnode, hhandles, hbitmaps, hwithout⟩ :=
    replaced hp (handles_ofList items) (bitmaps_ofList hitems) hitems'
  rw [replaceRecent_eq (h := res.recent) (by rw [h.recent]; rfl)]
  refine ⟨rfl, hhandles.trans h.handles, ⟨p, hnode⟩, ?_, ?_, h.owns⟩
  · rw [hwithout]
    exact h.frame
  · rw [hbitmaps]
    exact h.shown

/-- The items are put in the menu of the resource. -/
theorem ok_start (hbase : ∀ x, gdi.live g x ↔ base x) (hitems : ∀ item ∈ items, item.Recent) :
    Ok gdi base res items (replaceRecent { menu := res.menu, gdi := g } items) := by
  obtain ⟨p, hp, hhandle⟩ := Option.map_eq_some_iff.mp res.find
  have hkeys : (res.menu.nodes.map fun n => n.1.handle).Nodup := by
    rw [← handles_eq_map]
    exact res.handles_nodup
  obtain ⟨sub, hsub, -⟩ := Forest.findOver_key hkeys hp
  rw [hhandle] at hsub
  have hplain : MenuTree.bitmaps sub = [] := (Forest.collect_node?_nil hsub res.bitmaps_nil).2
  obtain ⟨hnode, hhandles, hbitmaps, hwithout⟩ :=
    replaced hsub (res.no_submenu _ hsub) hplain hitems
  have heq : replaceRecent { menu := res.menu, gdi := g } items = _ :=
    replaceRecent_eq (m := { menu := res.menu, gdi := g }) (h := res.recent) res.find
  rw [heq]
  refine ⟨rfl, hhandles, ⟨p, hnode⟩, ?_, ?_, ?_⟩
  · rw [hwithout]
    exact MenuTree.Kept.refl _
  · rw [hbitmaps, res.bitmaps_nil]
  · refine ⟨List.nodup_nil, fun b hb => absurd hb List.not_mem_nil, fun x => (hbase x).trans ?_⟩
    simp only [List.not_mem_nil, or_false]

end

end MenuBar

end ObZrv
