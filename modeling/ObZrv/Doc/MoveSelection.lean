import Mathlib.Data.List.Perm.Basic
import Mathlib.Data.List.Sort
import ObZrv.Lib.Loop
import ObZrv.Text.Config

/-!
# Doc.MoveSelection

The custom list of the slide show dialog, `SlideShowDlg.cpp`: its items, the list box that shows
them, and the buttons that move the selected items up or down.

* `splitSel_spec`     : the loop that parts the selected items from the others.
* `insertAt_range`    : the place of the block, from the indices of the list before.
* `moveSelection_up`, `moveSelection_down` : a block without gaps and its neighbour change places.
* `moveSelection_moved` : what a press of the button does.
-/

namespace ObZrv.SlideShowDlg

open Lib

/-- `SlideShowDlg::Item`. -/
structure Item where
  display : WStr
  path : List UInt8
deriving DecidableEq, Repr

/-- A list box with several selections. -/
structure ListBox where
  strings : List WStr
  selected : Nat → Bool

namespace ListBox

variable (l : ListBox)

/-- `LB_RESETCONTENT`. -/
def resetContent : ListBox := ⟨[], fun _ => false⟩

/-- `LB_ADDSTRING`; the new line is not selected. -/
def addString (s : WStr) : ListBox :=
  ⟨l.strings ++ [s], fun i => if i = l.strings.length then false else l.selected i⟩

/-- `LB_GETSELITEMS`: the lines that are selected, from above. -/
def getSelItems : List Nat := (List.range l.strings.length).filter l.selected

/-- `LB_SETSEL` for one line, and for all of them. -/
def setSel (on : Bool) (i : Int) : ListBox :=
  { l with selected := fun k => if (k : Int) = i then on else l.selected k }
def setSelAll (on : Bool) : ListBox := { l with selected := fun _ => on }

end ListBox

/-- `DlgData`. The list box shows the items, or nothing before the first `RebuildList`. -/
structure DlgData where
  items : List Item
  hList : ListBox
  shown : hList.strings = items.map Item.display ∨ hList.strings = []

def clampInt (v lo hi : Int) : Int := if v < lo then lo else if v > hi then hi else v

def rebuildList (items : List Item) : ListBox :=
  items.foldl (fun l item => l.addString item.display) ListBox.resetContent

def getSelection (l : ListBox) : List Nat := l.getSelItems.insertionSort (· ≤ ·)

def selectRange (l : ListBox) (first : Int) (count : Nat) : ListBox :=
  forLoop count (fun i l => l.setSel true (first + i)) (l.setSelAll false)

/-- The state of the loop that parts the items. -/
structure Split where
  nextSel : Nat := 0
  block : List Item := []
  rest : List Item := []

def splitStep (sel : List Nat) (items : List Item) (i : Nat) (s : Split) : Split :=
  if sel[s.nextSel]? = some i then
    { s with block := s.block ++ items[i]?.toList, nextSel := s.nextSel + 1 }
  else { s with rest := s.rest ++ items[i]?.toList }

def splitSel (sel : List Nat) (items : List Item) : Split :=
  forLoop items.length (splitStep sel items) {}

/-- The index for the block, before it is clamped. -/
def insertAt (front : Nat) (down : Bool) : Int := if down then front + 1 else front - 1

theorem strings_foldl (items : List Item) (l : ListBox) :
    (items.foldl (fun l item => l.addString item.display) l).strings =
      l.strings ++ items.map Item.display := by
  induction items generalizing l with
  | nil => simp
  | cons item items ih =>
    rw [List.foldl_cons, ih]
    simp [ListBox.addString]

@[simp] theorem rebuildList_strings (items : List Item) :
    (rebuildList items).strings = items.map Item.display := strings_foldl items _

@[simp] theorem selectRange_strings (l : ListBox) (first : Int) (count : Nat) :
    (selectRange l first count).strings = l.strings := by
  induction count with
  | zero => rfl
  | succ n ih => exact ih

/-- `MoveSelection`. -/
def moveSelection (data : DlgData) (down : Bool) : DlgData :=
  let sel := getSelection data.hList
  match sel.head?, sel.getLast? with
  | some front, some back =>
    if (down = false ∧ front = 0) ∨ (down = true ∧ (back : Int) = data.items.length - 1) then data
    else
      let s := splitSel sel data.items
      let clamped := clampInt (insertAt front down) 0 s.rest.length
      let items := s.rest.take clamped.toNat ++ s.block ++ s.rest.drop clamped.toNat
      { items
        hList := selectRange (rebuildList items) clamped s.block.length
        shown := .inl (by simp) }
  | _, _ => data

/-! ## The selection -/

section Selection

variable {l : ListBox}

theorem getSelection_eq (l : ListBox) : getSelection l = l.getSelItems := by
  refine List.Pairwise.insertionSort_eq ?_
  exact (List.pairwise_lt_range.filter _).imp Nat.le_of_lt

theorem sorted_getSelection (l : ListBox) : (getSelection l).Pairwise (· < ·) := by
  rw [getSelection_eq]
  exact List.pairwise_lt_range.filter _

theorem selectRange_selected (l : ListBox) (first : Int) (count : Nat) (k : Nat) :
    (selectRange l first count).selected k = decide (first ≤ k ∧ (k : Int) < first + count) := by
  induction count with
  | zero => exact (decide_eq_false (by omega)).symm
  | succ n ih =>
    have hstep : (selectRange l first (n + 1)).selected k =
        if (k : Int) = first + n then true else (selectRange l first n).selected k := rfl
    rw [hstep, ih]
    split
    · exact (decide_eq_true (by omega)).symm
    · exact decide_eq_decide.mpr (by omega)

theorem range_parts {n a m : Nat} (h : a + m ≤ n) :
    List.range n = List.range' 0 a ++ (List.range' a m ++ List.range' (a + m) (n - (a + m))) := by
  have hsum : n = a + (m + (n - (a + m))) := by omega
  rw [List.range'_append_1]
  conv => lhs; rw [hsum, List.range_eq_range', ← List.range'_append_1, Nat.zero_add]

theorem filter_range'_nil {a m : Nat} {p : Nat → Bool}
    (h : ∀ k, a ≤ k → k < a + m → ¬ p k = true) : (List.range' a m).filter p = [] := by
  refine List.filter_eq_nil_iff.mpr ?_
  intro k hk
  obtain ⟨hle, hlt⟩ := List.mem_range'_1.mp hk
  exact h k hle hlt

theorem filter_range'_self {a m : Nat} {p : Nat → Bool}
    (h : ∀ k, a ≤ k → k < a + m → p k = true) : (List.range' a m).filter p = List.range' a m := by
  refine List.filter_eq_self.mpr ?_
  intro k hk
  obtain ⟨hle, hlt⟩ := List.mem_range'_1.mp hk
  exact h k hle hlt

/-- The indices of a block, and those beside it. -/
theorem filter_block {n a m : Nat} (h : a + m ≤ n) {p : Nat → Bool}
    (hp : ∀ k < n, p k = true ↔ a ≤ k ∧ k < a + m) : (List.range n).filter p = List.range' a m := by
  have hbefore : (List.range' 0 a).filter p = [] := by
    refine filter_range'_nil fun k _ hlt hpk => ?_
    have hin := (hp k (by omega)).mp hpk
    omega
  have hafter : (List.range' (a + m) (n - (a + m))).filter p = [] := by
    refine filter_range'_nil fun k hle hlt hpk => ?_
    have hin := (hp k (by omega)).mp hpk
    omega
  have hblock : (List.range' a m).filter p = List.range' a m :=
    filter_range'_self fun k hle hlt => (hp k (by omega)).mpr ⟨hle, hlt⟩
  rw [range_parts h, List.filter_append, List.filter_append, hbefore, hafter, hblock,
    List.append_nil, List.nil_append]

theorem filter_beside {n a m : Nat} (h : a + m ≤ n) {p : Nat → Bool}
    (hp : ∀ k < n, p k = true ↔ k < a ∨ a + m ≤ k) :
    (List.range n).filter p = List.range' 0 a ++ List.range' (a + m) (n - (a + m)) := by
  have hblock : (List.range' a m).filter p = [] := by
    refine filter_range'_nil fun k hle hlt hpk => ?_
    have hout := (hp k (by omega)).mp hpk
    omega
  have hbefore : (List.range' 0 a).filter p = List.range' 0 a :=
    filter_range'_self fun k _ hlt => (hp k (by omega)).mpr (.inl (by omega))
  have hafter : (List.range' (a + m) (n - (a + m))).filter p =
      List.range' (a + m) (n - (a + m)) :=
    filter_range'_self fun k hle hlt => (hp k (by omega)).mpr (.inr hle)
  rw [range_parts h, List.filter_append, List.filter_append, hblock, hbefore, hafter,
    List.nil_append]

/-- After `SelectRange` exactly its range is selected. -/
theorem getSelection_selectRange {first count : Nat} (h : first + count ≤ l.strings.length) :
    getSelection (selectRange l first count) = List.range' first count := by
  rw [getSelection_eq, ListBox.getSelItems, selectRange_strings]
  refine filter_block h ?_
  intro k _
  rw [selectRange_selected, decide_eq_true_iff]
  omega

end Selection

/-! ## The loop that parts the items -/

section Split

variable {items : List Item} {sel : List Nat}

/-- The entry of a selection behind those below `i`, if `i` is the next that is selected. -/
theorem next_selected {n i : Nat} (hi : i < n) (p : Nat → Bool) :
    ((List.range n).filter p)[((List.range i).filter p).length]? = some i ↔ p i = true := by
  have hrange : List.range n = List.range i ++ i :: List.range' (i + 1) (n - (i + 1)) := by
    have hparts := range_parts (show i + 1 ≤ n by omega)
    simpa [List.range_eq_range'] using hparts
  rw [hrange, List.filter_append, List.getElem?_append_right (Nat.le_refl _), Nat.sub_self,
    ← List.head?_eq_getElem?]
  constructor
  · intro h
    have hmem := List.mem_of_head? h
    exact List.of_mem_filter hmem
  · intro h
    rw [List.filter_cons_of_pos h]
    rfl

/-- The loop has sorted the first `i` items into those selected and the others. -/
structure Parted (items : List Item) (p : Nat → Bool) (i : Nat) (s : Split) : Prop where
  nextSel : s.nextSel = ((List.range i).filter p).length
  block : s.block.map some = ((List.range i).filter p).map (items[·]?)
  rest : s.rest.map some = ((List.range i).filter fun k => !p k).map (items[·]?)

theorem Parted.next {p : Nat → Bool} {i : Nat} {s : Split} (h : Parted items p i s)
    (hi : i < items.length) :
    Parted items p (i + 1) (splitStep ((List.range items.length).filter p) items i s) := by
  obtain ⟨item, hitem⟩ : ∃ item, items[i]? = some item := ⟨_, List.getElem?_eq_getElem hi⟩
  have hnext := next_selected hi p
  rw [← h.nextSel] at hnext
  unfold splitStep
  by_cases hp : p i = true
  · rw [if_pos (hnext.mpr hp)]
    refine ⟨?_, ?_, ?_⟩
    · simp [List.range_succ, hp, h.nextSel]
    · simp [List.range_succ, hp, h.block, hitem]
    · simp [List.range_succ, hp, h.rest]
  · rw [if_neg (mt hnext.mp hp)]
    refine ⟨?_, ?_, ?_⟩
    · simp [List.range_succ, hp, h.nextSel]
    · simp [List.range_succ, hp, h.block]
    · simp [List.range_succ, hp, h.rest, hitem]

/-- **The loop**: the selected items and the others, both in the order of the list. -/
theorem splitSel_spec (items : List Item) (p : Nat → Bool) :
    Parted items p items.length (splitSel ((List.range items.length).filter p) items) :=
  forLoop_inv (Parted items p) ⟨rfl, rfl, rfl⟩ fun _ _ hi h => h.next hi

end Split

/-! ## A press of the button -/

/-- The selection goes from `front` to `back`, and `MoveSelection` does not return early. -/
structure Pressed (data : DlgData) (down : Bool) (front back : Nat) : Prop where
  head : (getSelection data.hList).head? = some front
  last : (getSelection data.hList).getLast? = some back
  goes : ¬ ((down = false ∧ front = 0) ∨ (down = true ∧ (back : Int) = data.items.length - 1))

/-- The indices of the items that are not selected. -/
def restIndices (data : DlgData) : List Nat :=
  (List.range data.items.length).filter fun k => !data.hList.selected k

section Press

variable {data : DlgData} {down : Bool} {front back : Nat}

theorem Pressed.selection (h : Pressed data down front back) :
    getSelection data.hList = (List.range data.items.length).filter data.hList.selected := by
  have hhead := h.head
  rw [getSelection_eq, ListBox.getSelItems] at hhead ⊢
  rcases data.shown with hs | hs
  · rw [hs, List.length_map]
  · rw [hs] at hhead
    cases hhead

theorem Pressed.front_mem (h : Pressed data down front back) : front ∈ getSelection data.hList :=
  List.mem_of_head? h.head

theorem Pressed.back_mem (h : Pressed data down front back) : back ∈ getSelection data.hList :=
  List.mem_of_getLast? h.last

theorem Pressed.front_le (h : Pressed data down front back) {k : Nat}
    (hk : k ∈ getSelection data.hList) : front ≤ k := by
  have hsorted := sorted_getSelection data.hList
  have hhead := h.head
  cases hsel : getSelection data.hList with
  | nil =>
    rw [hsel] at hk
    cases hk
  | cons a l =>
    rw [hsel] at hk hsorted hhead
    cases hhead
    rcases List.mem_cons.mp hk with rfl | hmem
    · exact Nat.le_refl _
    · exact Nat.le_of_lt ((List.pairwise_cons.mp hsorted).1 k hmem)

theorem Pressed.le_back (h : Pressed data down front back) {k : Nat}
    (hk : k ∈ getSelection data.hList) : k ≤ back := by
  have hsorted := sorted_getSelection data.hList
  obtain ⟨l, hl⟩ := List.getLast?_eq_some_iff.mp h.last
  rw [hl] at hk hsorted
  rcases List.mem_append.mp hk with hmem | hmem
  · exact Nat.le_of_lt ((List.pairwise_append.mp hsorted).2.2 k hmem back (List.mem_singleton_self _))
  · exact Nat.le_of_eq (List.mem_singleton.mp hmem)

theorem Pressed.lt_length (h : Pressed data down front back) {k : Nat}
    (hk : k ∈ getSelection data.hList) : k < data.items.length := by
  rw [h.selection] at hk
  exact List.mem_range.mp (List.mem_of_mem_filter hk)

theorem Pressed.mem_rest (h : Pressed data down front back) {k : Nat} (hk : k < data.items.length) :
    k ∈ restIndices data ↔ k ∉ getSelection data.hList := by
  rw [h.selection, restIndices]
  simp [hk]

/-- The items above the block, and the one below it that it jumps over, are not selected. -/
theorem Pressed.rest_length (h : Pressed data down front back) :
    front ≤ (restIndices data).length ∧ (down = true → front + 1 ≤ (restIndices data).length) := by
  have hfront := h.lt_length h.front_mem
  have hback := h.lt_length h.back_mem
  have habove : ∀ k ∈ List.range front, k ∈ restIndices data := by
    intro k hk
    have hlt := List.mem_range.mp hk
    refine (h.mem_rest (by omega)).mpr fun hmem => ?_
    exact Nat.not_le.mpr hlt (h.front_le hmem)
  constructor
  · have hle := (List.subperm_of_subset List.nodup_range habove).length_le
    simpa using hle
  · intro hdown
    have hlast : data.items.length - 1 ∈ restIndices data := by
      refine (h.mem_rest (by omega)).mpr fun hmem => ?_
      have hle := h.le_back hmem
      exact h.goes (.inr ⟨hdown, by omega⟩)
    have hnodup : ((data.items.length - 1) :: List.range front).Nodup := by
      refine List.nodup_cons.mpr ⟨?_, List.nodup_range⟩
      rw [List.mem_range]
      have hle := h.le_back h.front_mem
      omega
    have hall : ∀ k ∈ (data.items.length - 1) :: List.range front, k ∈ restIndices data := by
      intro k hk
      rcases List.mem_cons.mp hk with rfl | hmem
      · exact hlast
      · exact habove k hmem
    have hle := (List.subperm_of_subset hnodup hall).length_le
    simpa using hle

/-- **The place of the block** lies among the items that are not selected. -/
theorem insertAt_range (h : Pressed data down front back) :
    0 ≤ insertAt front down ∧ insertAt front down ≤ (restIndices data).length := by
  obtain ⟨hup, hdown⟩ := h.rest_length
  have hgoes := h.goes
  unfold insertAt
  cases down with
  | false =>
    have hpos : front ≠ 0 := fun h0 => hgoes (.inl ⟨rfl, h0⟩)
    constructor
    · exact Int.sub_nonneg_of_le (by omega)
    · simp only [Bool.false_eq_true, if_false]
      omega
  | true =>
    have hroom := hdown rfl
    constructor
    · simp only [if_true]
      omega
    · simp only [if_true]
      omega

/-- The block stands at `insertAt` among the other items. -/
theorem moveSelection_parts (h : Pressed data down front back) :
    ∃ block rest : List Item,
      block.map some = (getSelection data.hList).map (data.items[·]?) ∧
      rest.map some = (restIndices data).map (data.items[·]?) ∧
      (moveSelection data down).items = rest.take (insertAt front down).toNat ++ block ++
        rest.drop (insertAt front down).toNat ∧
      getSelection (moveSelection data down).hList =
        List.range' (insertAt front down).toNat (getSelection data.hList).length := by
  obtain ⟨-, hblock, hrest⟩ := splitSel_spec data.items data.hList.selected
  rw [← h.selection] at hblock hrest
  change _ = (restIndices data).map _ at hrest
  have hrange := insertAt_range h
  have hlenRest := congrArg List.length hrest
  have hlenBlock := congrArg List.length hblock
  rw [List.length_map, List.length_map] at hlenRest hlenBlock
  have hclamp : clampInt (insertAt front down) 0
      (splitSel (getSelection data.hList) data.items).rest.length = insertAt front down := by
    rw [hlenRest, clampInt, if_neg (Int.not_lt.mpr hrange.1), if_neg (Int.not_lt.mpr hrange.2)]
  refine ⟨_, _, hblock, hrest, ?_, ?_⟩
  · unfold moveSelection
    simp only [h.head, h.last, if_neg h.goes, hclamp]
  · unfold moveSelection
    simp only [h.head, h.last, if_neg h.goes, hclamp]
    rw [← hlenBlock, ← Int.toNat_of_nonneg hrange.1]
    refine getSelection_selectRange ?_
    simp only [rebuildList_strings, List.length_map, List.length_append, List.length_take,
      List.length_drop, hlenRest, Int.toNat_natCast]
    omega

end Press

/-! ## A block without gaps -/

section Block

variable {data : DlgData} {down : Bool} {front back m : Nat}

theorem Pressed.of_range (hsel : getSelection data.hList = List.range' front m) (hm : 0 < m)
    (hgoes : ¬ ((down = false ∧ front = 0) ∨
      (down = true ∧ (front : Int) + m = data.items.length))) :
    Pressed data down front (front + m - 1) := by
  refine ⟨?_, ?_, fun hstay => hgoes (hstay.imp_right fun h => ⟨h.1, by omega⟩)⟩
  · obtain ⟨m, rfl⟩ := Nat.exists_eq_add_one.mpr hm
    rw [hsel, List.range'_succ, List.head?_cons]
  · obtain ⟨m, rfl⟩ := Nat.exists_eq_add_one.mpr hm
    rw [hsel, List.range'_1_concat, List.getLast?_concat]
    rfl

theorem Pressed.range_fits (h : Pressed data down front back)
    (hsel : getSelection data.hList = List.range' front m) :
    0 < m ∧ front + m ≤ data.items.length := by
  have hfront := h.front_mem
  rw [hsel, List.mem_range'_1] at hfront
  have hlast : front + m - 1 ∈ getSelection data.hList := by
    rw [hsel, List.mem_range'_1]
    omega
  have hlt := h.lt_length hlast
  omega

theorem map_range'_getElem? {α : Type*} {xs : List α} {a m : Nat} (h : a + m ≤ xs.length) :
    (List.range' a m).map (xs[·]?) = ((xs.drop a).take m).map some := by
  refine List.ext_getElem (by simp; omega) ?_
  intro i h1 h2
  simp only [List.length_map, List.length_range'] at h1
  simp [show a + i < xs.length by omega]

/-- What is moved, and what it is moved among. -/
theorem moveSelection_block (h : Pressed data down front back)
    (hsel : getSelection data.hList = List.range' front m) {a b c : List Item}
    (hitems : data.items = a ++ b ++ c) (ha : a.length = front) (hb : b.length = m) :
    (moveSelection data down).items = (a ++ c).take (insertAt front down).toNat ++ b ++
      (a ++ c).drop (insertAt front down).toNat := by
  have hfit := h.range_fits hsel
  obtain ⟨block, rest, hblock, hrest, heq, -⟩ := moveSelection_parts h
  have hsome := List.map_injective_iff.mpr (Option.some_injective Item)
  have hB : block = b := by
    refine hsome ?_
    rw [hblock, hsel, map_range'_getElem? hfit.2, hitems, List.append_assoc, ← ha,
      List.drop_left, ← hb, List.take_left]
  have hrestIdx : restIndices data = List.range' 0 front ++
      List.range' (front + m) (data.items.length - (front + m)) := by
    refine filter_beside hfit.2 ?_
    intro k hk
    have hmem := h.mem_rest hk
    rw [hsel, List.mem_range'_1, restIndices, List.mem_filter] at hmem
    simp only [List.mem_range, hk, true_and] at hmem
    rw [hmem]
    omega
  have hR : rest = a ++ c := by
    refine hsome ?_
    rw [hrest, hrestIdx, List.map_append, map_range'_getElem? (by omega),
      map_range'_getElem? (by omega), List.map_append]
    congr 2
    · rw [hitems, List.drop_zero, List.append_assoc, ← ha, List.take_left]
    · rw [List.take_of_length_le (by simp), hitems, ← ha, ← hb, ← List.length_append, List.drop_left]
  rw [heq, hB, hR]

/-- The block and the item below it change places. -/
theorem moveSelection_down {a b c : List Item} {x : Item} (hitems : data.items = a ++ b ++ x :: c)
    (hsel : getSelection data.hList = List.range' a.length b.length) (hb : 0 < b.length) :
    (moveSelection data true).items = a ++ x :: b ++ c ∧
      getSelection (moveSelection data true).hList = List.range' (a.length + 1) b.length := by
  have hpress : Pressed data true a.length (a.length + b.length - 1) := by
    refine Pressed.of_range hsel hb ?_
    rintro (hstay | hstay)
    · cases hstay.1
    · have hend := hstay.2
      rw [hitems, List.length_append, List.length_append, List.length_cons] at hend
      push_cast at hend
      omega
  have hat : (insertAt a.length true).toNat = (a ++ [x]).length := by
    simp [insertAt]
  constructor
  · rw [moveSelection_block hpress hsel hitems rfl rfl, hat,
      show a ++ x :: c = (a ++ [x]) ++ c by simp, List.take_left, List.drop_left]
    simp
  · obtain ⟨-, -, -, -, -, hnew⟩ := moveSelection_parts hpress
    rw [hnew, hat, hsel]
    simp

/-- The item above the block and the block change places. -/
theorem moveSelection_up {a b c : List Item} {x : Item} (hitems : data.items = a ++ x :: b ++ c)
    (hsel : getSelection data.hList = List.range' (a.length + 1) b.length) (hb : 0 < b.length) :
    (moveSelection data false).items = a ++ b ++ x :: c ∧
      getSelection (moveSelection data false).hList = List.range' a.length b.length := by
  have hpress : Pressed data false (a.length + 1) (a.length + 1 + b.length - 1) :=
    Pressed.of_range hsel hb (by simp)
  have hat : (insertAt (a.length + 1) false).toNat = a.length := by
    simp [insertAt]
  constructor
  · rw [moveSelection_block hpress hsel (show data.items = (a ++ [x]) ++ b ++ c by simp [hitems])
      (by simp) rfl, hat, show a ++ [x] ++ c = a ++ x :: c by simp, List.take_left, List.drop_left]
  · obtain ⟨-, -, -, -, -, hnew⟩ := moveSelection_parts hpress
    rw [hnew, hat, hsel]
    simp

/-- The items of a list with a block that is pressed down or up, and the items after. -/
theorem Pressed.parts (h : Pressed data down front back)
    (hsel : getSelection data.hList = List.range' front m) :
    ∃ (a b c : List Item) (x : Item), b.length = m ∧
      ((down = true ∧ a.length = front ∧ data.items = a ++ b ++ x :: c) ∨
        (down = false ∧ a.length + 1 = front ∧ data.items = a ++ x :: b ++ c)) := by
  obtain ⟨hm, hfit⟩ := h.range_fits hsel
  have hgoes := h.goes
  cases down with
  | true =>
    have hback : back ∈ getSelection data.hList := h.back_mem
    rw [hsel, List.mem_range'_1] at hback
    have hlast : front + m - 1 ≤ back := h.le_back (by rw [hsel, List.mem_range'_1]; omega)
    have hroom : front + m < data.items.length := by
      by_contra hfull
      exact hgoes (.inr ⟨rfl, by omega⟩)
    refine ⟨data.items.take front, (data.items.drop front).take m, data.items.drop (front + m + 1),
      data.items.get ⟨front + m, hroom⟩, by simp; omega, .inl ⟨rfl, by simp; omega, ?_⟩⟩
    rw [List.get_eq_getElem, ← List.drop_eq_getElem_cons, ← List.take_add, List.take_append_drop]
  | false =>
    obtain ⟨f, rfl⟩ := Nat.exists_eq_add_one_of_ne_zero fun h0 => hgoes (.inl ⟨rfl, h0⟩)
    have hprev : f < data.items.length := by omega
    refine ⟨data.items.take f, (data.items.drop (f + 1)).take m, data.items.drop (f + 1 + m),
      data.items.get ⟨f, hprev⟩, by simp; omega, .inr ⟨rfl, by simp; omega, ?_⟩⟩
    have htail : (data.items.drop (f + 1)).take m ++ data.items.drop (f + 1 + m) =
        data.items.drop (f + 1) := by
      rw [← List.drop_drop (i := m), List.take_append_drop]
    rw [List.get_eq_getElem, List.append_assoc, List.cons_append, htail,
      ← List.drop_eq_getElem_cons, List.take_append_drop]

end Block

/-- What a press of the button makes of the items: `order` lists the indices that the items of the
new list had in the old one. -/
structure Moved (data : DlgData) (down : Bool) (front : Nat) (order : List Nat) (data' : DlgData) :
    Prop where
  inRange : 0 ≤ insertAt front down ∧
    insertAt front down ≤ data.items.length - (getSelection data.hList).length
  items : data'.items.map some = order.map (data.items[·]?)
  indices : order.Perm (List.range data.items.length)
  selected : order.filter (fun k => k ∈ getSelection data.hList) = getSelection data.hList
  others : order.filter (fun k => k ∉ getSelection data.hList) =
    (List.range data.items.length).filter fun k => k ∉ getSelection data.hList
  block : (order.drop (insertAt front down).toNat).take (getSelection data.hList).length =
    getSelection data.hList
  selection : getSelection data'.hList =
    List.range' (insertAt front down).toNat (getSelection data.hList).length

/-- A block without gaps has changed places with its neighbour, and the opposite button undoes it. -/
structure Stepped (data : DlgData) (down : Bool) (m : Nat) (data' : DlgData) : Prop where
  step : ∃ (a b c : List Item) (x : Item), b.length = m ∧
    ((down = true ∧ data.items = a ++ b ++ x :: c ∧ data'.items = a ++ x :: b ++ c) ∨
      (down = false ∧ data.items = a ++ x :: b ++ c ∧ data'.items = a ++ b ++ x :: c))
  undo : (moveSelection data' (!down)).items = data.items

section Results

variable {data : DlgData} {down : Bool} {front back m : Nat}

theorem moveSelection_stepped (h : Pressed data down front back)
    (hsel : getSelection data.hList = List.range' front m) :
    Stepped data down m (moveSelection data down) := by
  obtain ⟨hm, -⟩ := h.range_fits hsel
  obtain ⟨a, b, c, x, hb, ⟨rfl, ha, hitems⟩ | ⟨rfl, ha, hitems⟩⟩ := h.parts hsel
  · rw [← ha, ← hb] at hsel
    obtain ⟨hnew, hnewSel⟩ := moveSelection_down hitems hsel (by omega)
    refine ⟨⟨a, b, c, x, hb, .inl ⟨rfl, hitems, hnew⟩⟩, ?_⟩
    rw [Bool.not_true, (moveSelection_up hnew hnewSel (by omega)).1, hitems]
  · rw [← ha, ← hb] at hsel
    obtain ⟨hnew, hnewSel⟩ := moveSelection_up hitems hsel (by omega)
    refine ⟨⟨a, b, c, x, hb, .inr ⟨rfl, hitems, hnew⟩⟩, ?_⟩
    rw [Bool.not_false, (moveSelection_down hnew hnewSel (by omega)).1, hitems]

theorem moveSelection_order (h : Pressed data down front back) :
    ∃ order, Moved data down front order (moveSelection data down) := by
  obtain ⟨block, rest, hblock, hrest, hitems, hsel⟩ := moveSelection_parts h
  obtain ⟨hlo, hhi⟩ := insertAt_range h
  have hperm : (getSelection data.hList ++ restIndices data).Perm (List.range data.items.length) := by
    rw [h.selection]
    exact List.filter_append_perm _ _
  have hlength := hperm.length_eq
  rw [List.length_append, List.length_range] at hlength
  have hrestNot : ∀ k ∈ restIndices data, k ∉ getSelection data.hList := by
    intro k hk
    exact (h.mem_rest (List.mem_range.mp (List.mem_of_mem_filter hk))).mp hk
  have hothers : (List.range data.items.length).filter (fun k => k ∉ getSelection data.hList) =
      restIndices data := by
    refine List.filter_congr ?_
    intro k hk
    have hmem := h.mem_rest (List.mem_range.mp hk)
    rw [restIndices, List.mem_filter] at hmem
    simp only [hk, true_and] at hmem
    exact Bool.eq_iff_iff.mpr (decide_eq_true_iff.trans hmem.symm)
  generalize hk : (insertAt front down).toNat = k at hitems hsel
  have hsplit := List.take_append_drop k (restIndices data)
  have hlen : ((restIndices data).take k).length = k := by
    rw [List.length_take]
    omega
  have hnone : ∀ l : List Nat, (∀ i ∈ l, i ∈ restIndices data) →
      l.filter (fun k => k ∈ getSelection data.hList) = [] ∧
      l.filter (fun k => k ∉ getSelection data.hList) = l := by
    intro l hl
    constructor
    · refine List.filter_eq_nil_iff.mpr fun i hi => ?_
      simpa using hrestNot i (hl i hi)
    · refine List.filter_eq_self.mpr fun i hi => ?_
      simpa using hrestNot i (hl i hi)
  obtain ⟨hbefore, hbefore'⟩ := hnone _ fun i hi => List.mem_of_mem_take (i := k) hi
  obtain ⟨hafter, hafter'⟩ := hnone _ fun i hi => List.mem_of_mem_drop (i := k) hi
  refine ⟨(restIndices data).take k ++ getSelection data.hList ++ (restIndices data).drop k,
    ⟨hlo, by omega⟩, ?_, ?_, ?_, ?_, ?_, by rw [hsel, hk]⟩
  · rw [hitems, List.map_append, List.map_append, List.map_append, List.map_append, List.map_take,
      List.map_drop, hrest, hblock, ← List.map_take, ← List.map_drop]
  · refine List.Perm.trans ?_ hperm
    rw [List.append_assoc]
    refine (List.perm_append_comm_assoc _ _ _).trans ?_
    rw [hsplit]
  · rw [List.filter_append, List.filter_append, hbefore, hafter, List.nil_append, List.append_nil]
    exact List.filter_eq_self.mpr (by simp)
  · rw [List.filter_append, List.filter_append, hbefore', hafter',
      List.filter_eq_nil_iff.mpr (by simp), List.append_nil, hsplit, hothers]
  · rw [hk, List.append_assoc]
    nth_rewrite 1 [← hlen]
    rw [List.drop_left, List.take_left]

/-- Its items are those of the list before. -/
theorem Moved.perm {order : List Nat} {data' : DlgData} (h : Moved data down front order data') :
    data'.items.Perm data.items := by
  have hold : (List.range data.items.length).map (data.items[·]?) = data.items.map some := by
    refine List.ext_getElem (by simp) ?_
    intro i h1 h2
    simp
  have hmap : (data'.items.map some).Perm (data.items.map some) := by
    rw [h.items, ← hold]
    exact h.indices.map _
  exact (List.map_perm_map_iff (Option.some_injective Item)).mp hmap

/-- **Moving the selected items.** The list is permuted, the selected items and the others keep their
order, and the selected items stand in one block at the index that `SelectRange` gets. A block
without gaps moves by one place. -/
theorem moveSelection_moved (data : DlgData) (down : Bool) (front back : Nat)
    (h : Pressed data down front back) :
    (moveSelection data down).items.Perm data.items ∧
    (∃ order, Moved data down front order (moveSelection data down)) ∧
    ∀ m, getSelection data.hList = List.range' front m →
      Stepped data down m (moveSelection data down) := by
  obtain ⟨order, hmoved⟩ := moveSelection_order h
  exact ⟨hmoved.perm, ⟨order, hmoved⟩, fun _ hsel => moveSelection_stepped h hsel⟩

/-- Four lines, the first and the third selected. -/
def fourLines : DlgData :=
  ⟨[⟨[1], [1]⟩, ⟨[2], [2]⟩, ⟨[3], [3]⟩, ⟨[4], [4]⟩],
    ⟨[[1], [2], [3], [4]], fun k => k == 0 || k == 2⟩, .inl rfl⟩

/-- They are moved down, behind the second line. -/
theorem moveSelection_moved_scattered :
    (∃ order, Moved fourLines true 0 order (moveSelection fourLines true)) ∧
      getSelection (moveSelection fourLines true).hList = [1, 2] := by
  obtain ⟨-, ⟨order, hmoved⟩, -⟩ :=
    moveSelection_moved fourLines true 0 2 ⟨by decide, by decide, by decide⟩
  exact ⟨⟨order, hmoved⟩, hmoved.selection.trans (by decide)⟩

end Results

end ObZrv.SlideShowDlg
