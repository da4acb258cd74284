import ObZrv.Lib.Recency
import ObZrv.Lib.Utf16
import ObZrv.Text.Config
import ObZrv.Text.Path

/-!
# Text.RecentFiles

`RecentFileRegistry`: the list of recent files, and how it is spread over the keys of the settings.

* `add_cases`       : what one addition does to the list.
* `run_entries`     : the list after any additions.
* `load_save`       : what was saved is loaded, whatever was saved before.
* `recent_files`    : all of it, for every sequence of additions.
-/

namespace ObZrv.RecentFileRegistry

open Lib

/-- `Entry::Type`. -/
inductive EntryType where
  | LOCAL
  | REMOTE
deriving DecidableEq, Repr

/-- `Entry`; the strings are UTF-8. -/
structure Entry where
  type : EntryType
  path : Str
  host : Str
  port : UInt16
deriving DecidableEq, Repr

/-- `MAX_ITEMS`. -/
def maxItems : Nat := 20

/-- `wstr_to_utf8` and `utf8_to_wstr`, which take their string up to the NUL. -/
def wstrToUtf8 (s : WStr) : Str := decodeUtf16 (s.takeWhile (· ≠ 0))
def utf8ToWstr (s : Str) : WStr := encodeUtf16 (s.takeWhile (· ≠ '\x00'))

/-- The four keys of a slot. -/
inductive Field where
  | Type
  | Path
  | Host
  | Port
deriving DecidableEq, Repr

def Field.name : Field → String
  | .Type => "Type"
  | .Path => "Path"
  | .Host => "Host"
  | .Port => "Port"

/-- `wsprintfW(key, L"Type%d", i)` and so on, in the section `RecentFiles`. -/
def key (f : Field) (i : Nat) : WStr := wide f.name.toList ++ formatInt i

/-- One pass of the loop in `Load`; `getStr` and `getInt` are those of `Config`, with the defaults
`L""` and 0. -/
def loadSlot (getStr : WStr → WStr) (getInt : WStr → Int) (i : Nat) : Option Entry :=
  let type := getStr (key .Type i)
  if type = [] then none
  else
    let path := getStr (key .Path i)
    if path = [] then none
    else if type = wide "remote".toList then
      let host := wstrToUtf8 (getStr (key .Host i))
      let port := UInt16.ofInt (getInt (key .Port i))
      if host = [] ∨ port = 0 then none
      else some { type := .REMOTE, path := wstrToUtf8 path, host, port }
    else some { type := .LOCAL, path := wstrToUtf8 path, host := [], port := 0 }

def load (getStr : WStr → WStr) (getInt : WStr → Int) : List Entry :=
  (List.range maxItems).filterMap (loadSlot getStr getInt)

/-- The call of `Save` for one key of a slot. -/
def saveField (entry : Option Entry) (i : Nat) : Field → SetCall WStr
  | .Type =>
    .setStr (key .Type i)
      (match entry with
      | some e => if e.type = .REMOTE then wide "remote".toList else wide "local".toList
      | none => [])
  | .Path => .setStr (key .Path i) ((entry.map fun e => utf8ToWstr e.path).getD [])
  | .Host => .setStr (key .Host i) ((entry.map fun e => utf8ToWstr e.host).getD [])
  | .Port => .setInt (key .Port i) ((entry.map fun e => (e.port.toNat : Int)).getD 0)

/-- One pass of the loop in `Save`. -/
def saveSlot (entries : List Entry) (i : Nat) : List (SetCall WStr) :=
  [Field.Type, .Path, .Host, .Port].map (saveField entries[i]? i)

def save (entries : List Entry) : List (SetCall WStr) :=
  (List.range maxItems).flatMap (saveSlot entries)

/-- The registry; `saved` are the calls it has made to `Config`, in order. -/
structure Registry where
  entries : List Entry := []
  saved : List (SetCall WStr) := []

/-- The comparison of `remove_if`. -/
def sameEntry (item entry : Entry) : Bool :=
  item.type == entry.type && item.path == entry.path && item.host == entry.host &&
    item.port == entry.port

namespace Registry

def add (r : Registry) (entry : Entry) : Registry :=
  if entry.path = [] then r
  else
    let entries := entry :: r.entries.filter fun item => !sameEntry item entry
    let entries := if entries.length > maxItems then entries.take maxItems else entries
    { entries, saved := r.saved ++ save entries }

def addLocal (r : Registry) (path : Str) : Registry := r.add ⟨.LOCAL, path, [], 0⟩

def addRemote (r : Registry) (host : Str) (port : UInt16) (path : Str) : Registry :=
  r.add ⟨.REMOTE, path, host, port⟩

end Registry

/-- A call from outside. -/
inductive AddCall where
  | addLocal (path : Str)
  | addRemote (host : Str) (port : UInt16) (path : Str)

def Registry.apply (r : Registry) : AddCall → Registry
  | .addLocal path => r.addLocal path
  | .addRemote host port path => r.addRemote host port path

def Registry.run (r : Registry) (calls : List AddCall) : Registry := calls.foldl Registry.apply r

/-- The entry of a call. -/
def AddCall.entry : AddCall → Entry
  | .addLocal path => ⟨.LOCAL, path, [], 0⟩
  | .addRemote host port path => ⟨.REMOTE, path, host, port⟩

/-- The list is one that additions make: distinct entries, no more than there is room for, each with
a path; a local one has neither host nor port. -/
structure Wf (entries : List Entry) : Prop where
  nodup : entries.Nodup
  length_le : entries.length ≤ maxItems
  path_ne : ∀ e ∈ entries, e.path ≠ []
  local_plain : ∀ e ∈ entries, e.type = .LOCAL → e.host = [] ∧ e.port = 0

/-- The list fits the slots, with neither host nor port for a local file: so is every list that is
loaded. -/
structure Slotted (entries : List Entry) : Prop where
  length_le : entries.length ≤ maxItems
  local_plain : ∀ e ∈ entries, e.type = .LOCAL → e.host = [] ∧ e.port = 0

theorem Wf.slotted {entries : List Entry} (h : Wf entries) : Slotted entries :=
  ⟨h.length_le, h.local_plain⟩

/-! ## Additions -/

section Add

variable {r : Registry} {entry : Entry} {entries : List Entry}

theorem sameEntry_iff (item entry : Entry) : sameEntry item entry = true ↔ item = entry := by
  cases item
  cases entry
  simp [sameEntry, and_assoc]

theorem apply_eq_add (r : Registry) (call : AddCall) : r.apply call = r.add call.entry := by
  cases call with
  | addLocal path => rfl
  | addRemote host port path => rfl

theorem add_empty (h : entry.path = []) : r.add entry = r := if_pos h

theorem add_entries (h : entry.path ≠ []) :
    (r.add entry).entries = touch maxItems entry r.entries := by
  have hfilter : (r.entries.filter fun item => !sameEntry item entry) =
      r.entries.filter (· ≠ entry) := by
    refine List.filter_congr ?_
    intro item _
    rw [Bool.eq_iff_iff, decide_eq_true_iff, Bool.not_eq_true', ← Bool.not_eq_true, sameEntry_iff]
  unfold Registry.add
  rw [if_neg h, hfilter]
  simp only
  split
  · rfl
  · rename_i hroom
    exact (List.take_of_length_le (Nat.le_of_not_lt hroom)).symm

/-- What one addition does. -/
structure Added (r : Registry) (entry : Entry) (r' : Registry) : Prop where
  empty : entry.path = [] → r' = r
  again : entry.path ≠ [] → entry ∈ r.entries → r'.entries = entry :: r.entries.erase entry
  new : entry.path ≠ [] → entry ∉ r.entries →
    r'.entries = entry :: if r.entries.length = maxItems then r.entries.dropLast else r.entries
  saves : entry.path ≠ [] → r'.saved = r.saved ++ save r'.entries

theorem add_saved (h : entry.path ≠ []) : (r.add entry).saved = r.saved ++ save (r.add entry).entries := by
  unfold Registry.add
  rw [if_neg h]

theorem add_cases (h : Wf r.entries) (entry : Entry) : Added r entry (r.add entry) := by
  refine ⟨add_empty, ?_, ?_, add_saved⟩
  · intro hpath hmem
    rw [add_entries hpath, touch_of_mem h.nodup h.length_le hmem]
  · intro hpath hnew
    rw [add_entries hpath, touch_of_not_mem h.length_le (by decide) hnew]

theorem Slotted.add (h : Slotted r.entries)
    (hlocal : entry.type = .LOCAL → entry.host = [] ∧ entry.port = 0) :
    Slotted (r.add entry).entries := by
  by_cases hpath : entry.path = []
  · rw [add_empty hpath]
    exact h
  · rw [add_entries hpath]
    refine ⟨touch_length_le, fun e he => ?_⟩
    rcases mem_of_mem_touch he with rfl | hmem
    · exact hlocal
    · exact h.local_plain e hmem

theorem Wf.add (h : Wf r.entries) (hlocal : entry.type = .LOCAL → entry.host = [] ∧ entry.port = 0) :
    Wf (r.add entry).entries := by
  by_cases hpath : entry.path = []
  · rw [add_empty hpath]
    exact h
  · obtain ⟨hlength, hplain⟩ := h.slotted.add hlocal
    rw [add_entries hpath] at hlength hplain ⊢
    refine ⟨touch_nodup h.nodup, hlength, fun e he => ?_, hplain⟩
    rcases mem_of_mem_touch he with rfl | hmem
    · exact hpath
    · exact h.path_ne e hmem

theorem entry_local (call : AddCall) (h : call.entry.type = .LOCAL) :
    call.entry.host = [] ∧ call.entry.port = 0 := by
  cases call with
  | addLocal path => exact ⟨rfl, rfl⟩
  | addRemote host port path => cases h

theorem Wf.run (h : Wf r.entries) (calls : List AddCall) : Wf (r.run calls).entries := by
  induction calls generalizing r with
  | nil => exact h
  | cons call calls ih =>
    refine ih ?_
    rw [apply_eq_add]
    exact h.add (entry_local call)

/-- The entries that calls add, the oldest first. -/
def additions (calls : List AddCall) : List Entry :=
  (calls.map AddCall.entry).filter fun e => e.path ≠ []

theorem run_touch (r : Registry) (calls : List AddCall) :
    (r.run calls).entries = touchAll maxItems (additions calls) r.entries := by
  induction calls generalizing r with
  | nil => rfl
  | cons call calls ih =>
    have hrun : r.run (call :: calls) = (r.apply call).run calls := rfl
    rw [hrun, ih, apply_eq_add, additions, additions, List.map_cons]
    by_cases hpath : call.entry.path = []
    · rw [add_empty hpath, List.filter_cons_of_neg (by simp [hpath])]
    · rw [add_entries hpath, List.filter_cons_of_pos (by simp [hpath])]
      rfl

/-- **The list after any additions**: the history, the last first, without repetitions, cut at
`MAX_ITEMS`. -/
theorem run_entries (h : Wf r.entries) (calls : List AddCall) :
    (r.run calls).entries = ((additions calls).reverse ++ r.entries).eraseDups.take maxItems := by
  rw [run_touch, touchAll_eq _ h.nodup h.length_le]

end Add

/-! ## What was saved is loaded -/

/-- `Config` gives back the value set last for each key. -/
structure Returns (getStr : WStr → WStr) (getInt : WStr → Int) (calls : List (SetCall WStr)) :
    Prop where
  str : ∀ k val, lastSet k calls = some (.setStr k val) → getStr k = val
  int : ∀ k val, lastSet k calls = some (.setInt k val) → getInt k = val

/-- What an entry needs to be kept: no NUL in its strings, since `c_str()` ends there, and a host and
a port if it is remote. -/
structure Storable (e : Entry) : Prop where
  path : '\x00' ∉ e.path
  host : '\x00' ∉ e.host
  remote : e.type = .REMOTE → e.host ≠ [] ∧ e.port ≠ 0

section Strings

variable {s : Str}

theorem utf8ToWstr_eq (h : '\x00' ∉ s) : utf8ToWstr s = encodeUtf16 s := by
  have hall : s.takeWhile (· ≠ '\x00') = s := by
    refine List.takeWhile_eq_self_iff.mpr ?_
    intro c hc
    refine decide_eq_true ?_
    rintro rfl
    exact h hc
  rw [utf8ToWstr, hall]

/-- A string survives the way to UTF-16 and back. -/
theorem wstrToUtf8_utf8ToWstr (h : '\x00' ∉ s) : wstrToUtf8 (utf8ToWstr s) = s := by
  have hall : (encodeUtf16 s).takeWhile (· ≠ 0) = encodeUtf16 s := by
    refine List.takeWhile_eq_self_iff.mpr ?_
    intro u hu
    refine decide_eq_true ?_
    rintro rfl
    exact zero_not_mem_encodeUtf16 h hu
  rw [utf8ToWstr_eq h, wstrToUtf8, hall, decodeUtf16_encodeUtf16]

theorem utf8ToWstr_ne_nil (h : '\x00' ∉ s) (hne : s ≠ []) : utf8ToWstr s ≠ [] := by
  intro hnil
  have hback := wstrToUtf8_utf8ToWstr h
  rw [hnil] at hback
  exact hne hback.symm

end Strings

/-! ### The keys -/

section Keys

theorem formatInt_nat_injective {i j : Nat} (h : formatInt i = formatInt j) : i = j := by
  have hvalue := congrArg digitsValue h
  rwa [show formatInt (i : Int) = wide (Nat.toDigits 10 i) from rfl,
    show formatInt (j : Int) = wide (Nat.toDigits 10 j) from rfl, digitsValue_digits,
    digitsValue_digits] at hvalue

def Field.third : Field → UInt16
  | .Type => 112
  | .Path => 116
  | .Host => 115
  | .Port => 114

/-- The names have four letters, and differ in the third. -/
theorem wide_name (f : Field) :
    (wide f.name.toList).length = 4 ∧ (wide f.name.toList)[2]? = some f.third := by
  cases f <;> simp [Field.name, Field.third, wide]

/-- No two fields of any slots share a key. -/
theorem key_injective {f g : Field} {i j : Nat} (h : key f i = key g j) : f = g ∧ i = j := by
  obtain ⟨hf, hfLetter⟩ := wide_name f
  obtain ⟨hg, hgLetter⟩ := wide_name g
  obtain ⟨hname, hnum⟩ := List.append_inj h (hf.trans hg.symm)
  refine ⟨?_, formatInt_nat_injective hnum⟩
  rw [hname, hgLetter, Option.some_inj] at hfLetter
  cases f <;> cases g <;> first | rfl | exact absurd hfLetter (by decide)

@[simp] theorem saveField_key (entry : Option Entry) (i : Nat) (f : Field) :
    (saveField entry i f).key = key f i := by
  cases f <;> rfl

theorem mem_save {entries : List Entry} {call : SetCall WStr} :
    call ∈ save entries ↔ ∃ i < maxItems, ∃ f, call = saveField entries[i]? i f := by
  unfold save saveSlot
  constructor
  · intro h
    obtain ⟨i, hi, hcall⟩ := List.mem_flatMap.mp h
    obtain ⟨f, -, rfl⟩ := List.mem_map.mp hcall
    exact ⟨i, List.mem_range.mp hi, f, rfl⟩
  · rintro ⟨i, hi, f, rfl⟩
    refine List.mem_flatMap.mpr ⟨i, List.mem_range.mpr hi, List.mem_map.mpr ⟨f, ?_, rfl⟩⟩
    cases f <;> decide

/-- The last call for a key of a slot is the one that `Save` makes. -/
theorem lastSet_save (before : List (SetCall WStr)) (entries : List Entry) {i : Nat}
    (hi : i < maxItems) (f : Field) :
    lastSet (key f i) (before ++ save entries) = some (saveField entries[i]? i f) := by
  have hlast : lastSet (saveField entries[i]? i f).key (save entries) =
      some (saveField entries[i]? i f) := by
    refine lastSet_of_unique (mem_save.mpr ⟨i, hi, f, rfl⟩) ?_
    intro call hcall hkey
    obtain ⟨j, -, g, rfl⟩ := mem_save.mp hcall
    rw [saveField_key, saveField_key] at hkey
    obtain ⟨rfl, rfl⟩ := key_injective hkey
    rfl
  rw [saveField_key] at hlast
  rw [lastSet_append, hlast]
  rfl

end Keys

section Load

variable {entries : List Entry} {before : List (SetCall WStr)} {getStr : WStr → WStr}
  {getInt : WStr → Int}

theorem ofInt_toNat (port : UInt16) : UInt16.ofInt (port.toNat : Int) = port := by
  have hlt := port.toNat_lt
  have hmod : ((port.toNat : Int) % 2 ^ 16).toNat = port.toNat := by omega
  rw [UInt16.ofInt, hmod, UInt16.ofNat_toNat]

/-- The slots of a list hold its entries, and the others nothing. -/
theorem loadSlot_eq (hslots : Slotted entries) (hpaths : ∀ e ∈ entries, e.path ≠ [])
    (hstore : ∀ e ∈ entries, Storable e) (hret : Returns getStr getInt (before ++ save entries)) {i : Nat} (hi : i < maxItems) :
    loadSlot getStr getInt i = entries[i]? := by
  have htype := hret.str _ _ (lastSet_save before entries hi .Type)
  have hpath := hret.str _ _ (lastSet_save before entries hi .Path)
  have hhost := hret.str _ _ (lastSet_save before entries hi .Host)
  have hport := hret.int _ _ (lastSet_save before entries hi .Port)
  cases he : entries[i]? with
  | none =>
    simp only [he] at htype
    unfold loadSlot
    simp only [htype, if_true]
  | some e =>
    have hmem : e ∈ entries := List.mem_of_getElem? he
    obtain ⟨hnulPath, hnulHost, hremote⟩ := hstore e hmem
    simp only [he, Option.map_some, Option.getD_some] at htype hpath hhost hport
    have hne := utf8ToWstr_ne_nil hnulPath (hpaths e hmem)
    have hpathBack := wstrToUtf8_utf8ToWstr hnulPath
    have hhostBack := wstrToUtf8_utf8ToWstr hnulHost
    unfold loadSlot
    cases htypeE : e.type with
    | REMOTE =>
      obtain ⟨hhostNe, hportNe⟩ := hremote htypeE
      rw [if_pos htypeE] at htype
      have hsome : wide "remote".toList ≠ [] := by decide
      simp only [htype, hpath, hhost, hport, if_neg hsome, if_neg hne, if_true, hpathBack, hhostBack,
        ofInt_toNat, hhostNe, hportNe, or_self, if_false, ← htypeE]
    | LOCAL =>
      obtain ⟨hhostE, hportE⟩ := hslots.local_plain e hmem htypeE
      rw [if_neg (by simp [htypeE])] at htype
      have hsome : wide "local".toList ≠ [] := by decide
      have hother : wide "local".toList ≠ wide "remote".toList := by decide
      simp only [htype, hpath, if_neg hsome, if_neg hne, if_neg hother, hpathBack, ← htypeE, ← hhostE,
        ← hportE]

theorem filterMap_getElem? {α : Type*} (l : List α) (n : Nat) :
    (List.range n).filterMap (l[·]?) = l.take n := by
  induction n with
  | zero => rfl
  | succ n ih => rw [List.range_succ, List.filterMap_append, ih, List.take_add_one]; rfl

/-- **What was saved is loaded**, whatever was saved before. -/
theorem load_save (hslots : Slotted entries) (hpaths : ∀ e ∈ entries, e.path ≠ [])
    (hstore : ∀ e ∈ entries, Storable e) (hret : Returns getStr getInt (before ++ save entries)) :
    load getStr getInt = entries := by
  have hslot : (List.range maxItems).filterMap (loadSlot getStr getInt) =
      (List.range maxItems).filterMap (entries[·]?) :=
    List.filterMap_congr fun i hi => loadSlot_eq hslots hpaths hstore hret (List.mem_range.mp hi)
  rw [load, hslot, filterMap_getElem?, List.take_of_length_le hslots.length_le]

/-- What is loaded fits the slots it comes from. -/
theorem slotted_load (getStr : WStr → WStr) (getInt : WStr → Int) : Slotted (load getStr getInt) := by
  refine ⟨?_, fun e he hlocal => ?_⟩
  · exact Nat.le_trans (List.length_filterMap_le _ _) (Nat.le_of_eq List.length_range)
  · obtain ⟨i, -, hslot⟩ := List.mem_filterMap.mp he
    unfold loadSlot at hslot
    simp only at hslot
    split at hslot
    · cases hslot
    split at hslot
    · cases hslot
    split at hslot
    · split at hslot
      · cases hslot
      · cases hslot
        cases hlocal
    · cases hslot
      exact ⟨rfl, rfl⟩

/-- A `Config` that writes beside the program and has nothing in the file of the user does, for
values that an INI file keeps as they are. -/
theorem config_returns {profileInt : WStr → Int} {c : Config WStr} (hw : c.writeIni = .exeIni)
    (huser : ∀ k, lookup c.userIni k 512 = none)
    {calls : List (SetCall WStr)}
    (hstr : ∀ k val, .setStr k val ∈ calls → IniSafe val ∧ val.length ≤ 511)
    (hnum : ∀ k val, .setInt k val ∈ calls → InInt32 val) :
    Returns (fun k => (c.run calls).getStr k []) (fun k => (c.run calls).getInt profileInt k 0)
      calls := by
  constructor
  · intro k val hlast
    obtain ⟨hsafe, hlen⟩ := hstr k val (lastSet_mem hlast).1
    exact Config.getStr_run_exe hw hlast hsafe hlen (.inr (huser k))
  · intro k val hlast
    exact Config.getInt_run_exe hw hlast (hnum k val (lastSet_mem hlast).1) 0

/-- The strings of an entry are kept by an INI file. -/
structure Entry.Plain (e : Entry) : Prop where
  path : IniSafe (utf8ToWstr e.path) ∧ (utf8ToWstr e.path).length ≤ 511
  host : IniSafe (utf8ToWstr e.host) ∧ (utf8ToWstr e.host).length ≤ 511

theorem iniSafe_nil : IniSafe [] ∧ ([] : WStr).length ≤ 511 :=
  ⟨⟨nofun, ⟨nofun, nofun, nofun⟩, ⟨nofun, nofun, nofun⟩⟩, Nat.zero_le _⟩

theorem iniSafe_of_all {val : WStr} (h : val.all (fun c => decide (32 ≤ c)) = true)
    (hhead : val.head? ≠ some 32 ∧ val.head? ≠ some 34 ∧ val.head? ≠ some 39)
    (hlast : val.getLast? ≠ some 32 ∧ val.getLast? ≠ some 34 ∧ val.getLast? ≠ some 39)
    (hlen : val.length ≤ 511) : IniSafe val ∧ val.length ≤ 511 :=
  ⟨⟨fun c hc => of_decide_eq_true (List.all_eq_true.mp h c hc), hhead, hlast⟩, hlen⟩

theorem iniSafe_type (type : EntryType) :
    let val := if type = .REMOTE then wide "remote".toList else wide "local".toList
    IniSafe val ∧ val.length ≤ 511 := by
  cases type
  all_goals exact iniSafe_of_all rfl (by decide) (by decide) (by decide)

/-- What `Save` has written in such settings is read. -/
theorem config_returns_save {profileInt : WStr → Int} {c : Config WStr} (hw : c.writeIni = .exeIni)
    (huser : ∀ k, lookup c.userIni k 512 = none) (hplain : ∀ e ∈ entries, e.Plain) :
    Returns (fun k => (c.run (save entries)).getStr k [])
      (fun k => (c.run (save entries)).getInt profileInt k 0) (save entries) := by
  refine config_returns hw huser ?_ ?_
  · intro k val hmem
    obtain ⟨i, -, f, hcall⟩ := mem_save.mp hmem
    cases he : entries[i]? with
    | none => cases f <;> rw [he] at hcall <;> cases hcall <;> exact iniSafe_nil
    | some e =>
      have hkept := hplain e (List.mem_of_getElem? he)
      rw [he] at hcall
      cases f <;> cases hcall
      · exact iniSafe_type e.type
      · exact hkept.path
      · exact hkept.host
  · intro k val hmem
    obtain ⟨i, -, f, hcall⟩ := mem_save.mp hmem
    cases he : entries[i]? with
    | none =>
      cases f <;> rw [he] at hcall <;> cases hcall
      exact ⟨by decide, by decide⟩
    | some e =>
      have hport := e.port.toNat_lt
      cases f <;> rw [he] at hcall <;> cases hcall
      simp only [Option.map_some, Option.getD_some, InInt32]
      omega

end Load

/-! ## Every sequence of additions -/

/-- **The recent files.** From any list that additions make, any further additions leave distinct
entries, no more than there is room for, the last added first; each one moves an entry or drops the
oldest; and the list is the one that is loaded after it was saved. -/
theorem recent_files (entries : List Entry) (hwf : Wf entries) (saved : List (SetCall WStr))
    (calls : List AddCall) :
    let r := Registry.run ⟨entries, saved⟩ calls
    Wf r.entries ∧
    r.entries = ((additions calls).reverse ++ entries).eraseDups.take maxItems ∧
    (∀ call : AddCall, Added r call.entry (r.apply call)) ∧
    ((∀ e ∈ r.entries, Storable e) → ∀ before getStr getInt,
      Returns getStr getInt (before ++ save r.entries) → load getStr getInt = r.entries) := by
  intro r
  have hr : Wf r.entries := Wf.run (r := ⟨entries, saved⟩) hwf calls
  refine ⟨hr, run_entries (r := ⟨entries, saved⟩) hwf calls, ?_, ?_⟩
  · intro call
    rw [apply_eq_add]
    exact add_cases hr call.entry
  · intro hstore before getStr getInt hret
    exact load_save hr.slotted hr.path_ne hstore hret

/-- The settings as a store that keeps the last value of each key. -/
def lastStr (calls : List (SetCall WStr)) (k : WStr) : WStr :=
  match lastSet k calls with
  | some (.setStr _ val) => val
  | _ => []

def lastInt (calls : List (SetCall WStr)) (k : WStr) : Int :=
  match lastSet k calls with
  | some (.setInt _ val) => val
  | _ => 0

theorem last_returns (calls : List (SetCall WStr)) : Returns (lastStr calls) (lastInt calls) calls := by
  constructor
  · intro k val h
    simp only [lastStr, h]
  · intro k val h
    simp only [lastInt, h]

/-- One remote file is added twice, with a local one between: two entries come back, where three had
been saved before. -/
theorem recent_files_two :
    let a : Entry := ⟨.REMOTE, "/p".toList, "h".toList, 80⟩
    let b : Entry := ⟨.LOCAL, "/q".toList, [], 0⟩
    let r := Registry.run ⟨[], []⟩ [.addRemote "h".toList 80 "/p".toList, .addLocal "/q".toList,
      .addRemote "h".toList 80 "/p".toList]
    let calls := save [b, ⟨.LOCAL, "/r".toList, [], 0⟩, a] ++ save r.entries
    r.entries = [a, b] ∧ load (lastStr calls) (lastInt calls) = r.entries := by
  intro a b r calls
  have hwf : Wf [] := ⟨List.nodup_nil, by decide, nofun, nofun⟩
  have h := recent_files [] hwf [] [.addRemote "h".toList 80 "/p".toList, .addLocal "/q".toList,
    .addRemote "h".toList 80 "/p".toList]
  have hentries : r.entries = [a, b] := by decide
  refine ⟨hentries, h.2.2.2 ?_ _ _ _ (last_returns calls)⟩
  intro e he
  change e ∈ r.entries at he
  rw [hentries] at he
  rcases List.mem_cons.mp he with rfl | he
  · exact ⟨by decide, by decide, fun _ => by decide⟩
  · rw [List.mem_singleton] at he
    subst he
    exact ⟨by decide, by decide, nofun⟩

end ObZrv.RecentFileRegistry
