import Mathlib.Data.Finset.Card
import Mathlib.Data.Finset.SymmDiff
import ObZrv.Doc.Panel
import ObZrv.Lib.DoWhile

/-!
# Doc.ListUpdate

The loop of `smoothRebuild` on its indices, edit by edit. `oi` and `ni` walk the two lists of names
while `lv_idx` walks the rows, which the loop is changing.

* `Merging.pass`              : one pass of the loop: the row stays, is deleted, or one is put in.
* `InStep.pass`               : the invariant: the rows are those done with, then the old names left.
* `mergeLoop_eq`              : the loop ends, for any comparison, with the merge of the two lists.
* `smoothRebuild_incremental` : for a strict order of names, with the new rows and no spare edit.
-/

namespace ObZrv

open Lib

/-- The locals of `smoothRebuild`, the rows of the ListView, and the texts of the rows that were
deleted and of those put in. -/
structure Merging where
  lvIdx : Nat := 0
  oi : Nat := 0
  ni : Nat := 0
  rows : List Str
  deleted : List Str := []
  inserted : List Str := []
deriving DecidableEq, Repr

namespace Merging

variable (s : Merging)

def keepRow : Merging := { s with lvIdx := s.lvIdx + 1, oi := s.oi + 1, ni := s.ni + 1 }

/-- `ListView_DeleteItem` at `lv_idx`; where there is no such row it does nothing. -/
def deleteRow : Merging :=
  { s with
    rows := s.rows.eraseIdx s.lvIdx
    deleted := s.deleted ++ s.rows[s.lvIdx]?.toList
    oi := s.oi + 1 }

/-- `ListView_InsertItem` at `lv_idx`. -/
def insertRow (text : Str) : Merging :=
  { s with
    rows := FileList.insertItem s.rows s.lvIdx text
    inserted := s.inserted ++ [text]
    lvIdx := s.lvIdx + 1
    ni := s.ni + 1 }

/-- One pass of the loop, which leaves when both lists are used up. -/
def pass (cmp : Str → Str → Int) (old new : List Str) : Merging ⊕ Merging :=
  match old[s.oi]?, new[s.ni]? with
  | none, none => .inr s
  | none, some n => .inl (s.insertRow n)
  | some _, none => .inl s.deleteRow
  | some o, some n =>
    if cmp o n = 0 then .inl s.keepRow
    else if cmp o n < 0 then .inl s.deleteRow
    else .inl (s.insertRow n)

end Merging

/-- The loop from the first row on. Every pass uses up a name. -/
def mergeLoop (cmp : Str → Str → Int) (old new rows : List Str) : Option Merging :=
  doWhile (fun s : Merging => s.pass cmp old new) (old.length + new.length + 1) { rows }

/-! ## The loop -/

/-- The names that a merge puts in. -/
def mergeAdded (cmp : Str → Str → Int) (old new : List Str) : List Str :=
  mergeDropped (flipped cmp) new old

section Loop

variable {cmp : Str → Str → Int}

theorem mergeAdded_nil_left (new : List Str) : mergeAdded cmp [] new = new := by
  cases new with
  | nil => rw [mergeAdded, mergeDropped]
  | cons n ns => rw [mergeAdded, mergeDropped]

theorem mergeAdded_nil_right (old : List Str) : mergeAdded cmp old [] = [] := by
  rw [mergeAdded, mergeDropped]

theorem mergeAdded_cons (o n : Str) (os ns : List Str) :
    mergeAdded cmp (o :: os) (n :: ns) =
      if cmp o n = 0 then mergeAdded cmp os ns
      else if cmp o n < 0 then mergeAdded cmp os (n :: ns)
      else n :: mergeAdded cmp (o :: os) ns := by
  have hflip : flipped cmp n o = -cmp o n := rfl
  simp only [mergeAdded]
  rw [mergeDropped]
  by_cases heq : cmp o n = 0
  · rw [if_pos heq, if_pos (show flipped cmp n o = 0 by omega)]
  rw [if_neg heq, if_neg (show ¬ flipped cmp n o = 0 by omega)]
  by_cases hlt : cmp o n < 0
  · rw [if_pos hlt, if_neg (show ¬ flipped cmp n o < 0 by omega)]
  · rw [if_neg hlt, if_pos (show flipped cmp n o < 0 by omega)]

/-- With `os` and `ns` the names left, the rows before `lv_idx` are done with and the others are the
old names left; what has been done so far and what is left to do make up the whole merge. -/
structure InStep (cmp : Str → Str → Int) (old new : List Str) (s : Merging) (os ns : List Str) :
    Prop where
  oldLeft : old.drop s.oi = os
  newLeft : new.drop s.ni = ns
  rows : ∃ done, done.length = s.lvIdx ∧ s.rows = done ++ os ∧
    done ++ mergeKept cmp os ns = mergeKept cmp old new
  deleted : s.deleted ++ mergeDropped cmp os ns = mergeDropped cmp old new
  inserted : s.inserted ++ mergeAdded cmp os ns = mergeAdded cmp old new

section Step

variable {old new os ns : List Str} {s : Merging} {o n : Str}

theorem drop_succ {l rest : List Str} {i : Nat} {x : Str} (h : l.drop i = x :: rest) :
    l[i]? = some x ∧ l.drop (i + 1) = rest := by
  constructor
  · rw [← List.head?_drop, h, List.head?_cons]
  · rw [← List.drop_drop, h, List.drop_one, List.tail_cons]

theorem InStep.keepRow (h : InStep cmp old new s (o :: os) (n :: ns)) (heq : cmp o n = 0) :
    InStep cmp old new s.keepRow os ns := by
  obtain ⟨done, hlv, hrows, hkept⟩ := h.rows
  have hdropped := h.deleted
  have hadded := h.inserted
  rw [mergeKept, if_pos heq] at hkept
  rw [mergeDropped, if_pos heq] at hdropped
  rw [mergeAdded_cons, if_pos heq] at hadded
  refine ⟨(drop_succ h.oldLeft).2, (drop_succ h.newLeft).2, ⟨done ++ [o], ?_, ?_, ?_⟩, hdropped, hadded⟩
  · rw [List.length_append, hlv]
    rfl
  · rw [List.append_assoc]
    exact hrows
  · rw [List.append_assoc]
    exact hkept

theorem InStep.deleteRow (h : InStep cmp old new s (o :: os) ns)
    (hkept : mergeKept cmp (o :: os) ns = mergeKept cmp os ns)
    (hdropped : mergeDropped cmp (o :: os) ns = o :: mergeDropped cmp os ns)
    (hadded : mergeAdded cmp (o :: os) ns = mergeAdded cmp os ns) :
    InStep cmp old new s.deleteRow os ns := by
  obtain ⟨done, hlv, hrows, hmerge⟩ := h.rows
  have hrow : s.rows[s.lvIdx]? = some o := by
    rw [hrows, ← hlv, List.getElem?_append_right (Nat.le_refl _), Nat.sub_self,
      List.getElem?_cons_zero]
  refine ⟨(drop_succ h.oldLeft).2, h.newLeft, ⟨done, hlv, ?_, ?_⟩, ?_, ?_⟩
  · change s.rows.eraseIdx s.lvIdx = _
    rw [hrows, ← hlv, FileList.eraseIdx_append_cons]
  · rw [← hmerge, hkept]
  · change (s.deleted ++ s.rows[s.lvIdx]?.toList) ++ _ = _
    rw [hrow, ← h.deleted, hdropped, List.append_assoc]
    rfl
  · rw [← h.inserted, hadded]
    rfl

theorem InStep.insertRow (h : InStep cmp old new s os (n :: ns))
    (hkept : mergeKept cmp os (n :: ns) = n :: mergeKept cmp os ns)
    (hdropped : mergeDropped cmp os (n :: ns) = mergeDropped cmp os ns)
    (hadded : mergeAdded cmp os (n :: ns) = n :: mergeAdded cmp os ns) :
    InStep cmp old new (s.insertRow n) os ns := by
  obtain ⟨done, hlv, hrows, hmerge⟩ := h.rows
  refine ⟨h.oldLeft, (drop_succ h.newLeft).2, ⟨done ++ [n], ?_, ?_, ?_⟩, ?_, ?_⟩
  · rw [List.length_append, hlv]
    rfl
  · change FileList.insertItem s.rows s.lvIdx n = _
    rw [hrows, ← hlv, FileList.insertItem_append]
  · rw [← hmerge, hkept, List.append_assoc]
    rfl
  · rw [← h.deleted, hdropped]
    rfl
  · change (s.inserted ++ [n]) ++ _ = _
    rw [← h.inserted, hadded, List.append_assoc]
    rfl

/-- **One pass** uses up a name and keeps in step, or the loop leaves with nothing left to do. -/
theorem InStep.pass (h : InStep cmp old new s os ns) :
    (∃ s' os' ns', s.pass cmp old new = .inl s' ∧ InStep cmp old new s' os' ns' ∧
        os'.length + ns'.length < os.length + ns.length) ∨
      os = [] ∧ ns = [] ∧ s.pass cmp old new = .inr s := by
  have hnil : ∀ {l : List Str} {i : Nat}, l.drop i = [] → l[i]? = none := by
    intro l i hl
    rw [← List.head?_drop, hl, List.head?_nil]
  unfold Merging.pass
  cases os with
  | nil =>
    rw [hnil h.oldLeft]
    cases ns with
    | nil =>
      rw [hnil h.newLeft]
      exact .inr ⟨rfl, rfl, rfl⟩
    | cons n ns =>
      rw [(drop_succ h.newLeft).1]
      refine .inl ⟨_, [], ns, rfl, h.insertRow ?_ ?_ ?_, Nat.lt_succ_self _⟩
      · rw [mergeKept, mergeKept]
      · rw [mergeDropped, mergeDropped]
      · rw [mergeAdded_nil_left, mergeAdded_nil_left]
  | cons o os =>
    rw [(drop_succ h.oldLeft).1]
    cases ns with
    | nil =>
      rw [hnil h.newLeft]
      refine .inl ⟨_, os, [], rfl, h.deleteRow ?_ ?_ ?_, by simp⟩
      · cases os with
        | nil => simp only [mergeKept]
        | cons _ _ => simp only [mergeKept]
      · cases os with
        | nil => simp only [mergeDropped]
        | cons _ _ => simp only [mergeDropped]
      · rw [mergeAdded_nil_right, mergeAdded_nil_right]
    | cons n ns =>
      rw [(drop_succ h.newLeft).1]
      simp only
      by_cases heq : cmp o n = 0
      · rw [if_pos heq]
        exact .inl ⟨_, os, ns, rfl, h.keepRow heq, by simp; omega⟩
      rw [if_neg heq]
      by_cases hlt : cmp o n < 0
      · rw [if_pos hlt]
        refine .inl ⟨_, os, n :: ns, rfl, h.deleteRow ?_ ?_ ?_, by simp⟩
        · rw [mergeKept, if_neg heq, if_pos hlt]
        · rw [mergeDropped, if_neg heq, if_pos hlt]
        · rw [mergeAdded_cons, if_neg heq, if_pos hlt]
      · rw [if_neg hlt]
        refine .inl ⟨_, o :: os, ns, rfl, h.insertRow ?_ ?_ ?_, by simp⟩
        · rw [mergeKept, if_neg heq, if_neg hlt]
        · rw [mergeDropped, if_neg heq, if_neg hlt]
        · rw [mergeAdded_cons, if_neg heq, if_neg hlt]

end Step

variable (cmp) in
/-- **The loop ends**, whatever the comparison, with the merge of the two lists. -/
theorem mergeLoop_eq (old new : List Str) : ∃ s, mergeLoop cmp old new old = some s ∧
    s.rows = mergeKept cmp old new ∧ s.deleted = mergeDropped cmp old new ∧
    s.inserted = mergeAdded cmp old new := by
  have hstart : InStep cmp old new { rows := old } old new :=
    ⟨rfl, rfl, ⟨[], rfl, rfl, rfl⟩, rfl, rfl⟩
  refine doWhile_leaves (P := fun s => ∃ os ns, InStep cmp old new s os ns)
    (fun s => (old.drop s.oi).length + (new.drop s.ni).length) ?_ ⟨old, new, hstart⟩
    (Nat.lt_succ_self _)
  rintro s ⟨os, ns, h⟩
  rcases h.pass with ⟨s', os', ns', hpass, h', hlt⟩ | ⟨rfl, rfl, hpass⟩
  · refine .inl ⟨s', hpass, ⟨os', ns', h'⟩, ?_⟩
    rw [h.oldLeft, h.newLeft, h'.oldLeft, h'.newLeft]
    exact hlt
  · obtain ⟨done, -, hrows, hkept⟩ := h.rows
    have hdropped := h.deleted
    have hadded := h.inserted
    rw [mergeKept, List.append_nil] at hkept
    rw [mergeDropped, List.append_nil] at hdropped
    rw [mergeAdded_nil_right, List.append_nil] at hadded
    exact .inr ⟨s, hpass, by rw [hrows, List.append_nil, hkept], hdropped, hadded⟩

/-- **The incremental update**, for a strict order of names. With the old list for its rows the
ListView ends with the new one, as after a rebuild. The names deleted are those not in the new list,
the names put in those not in the old one, and their number is that of the names in one list only. -/
theorem smoothRebuild_incremental (hc : TotalComparison cmp) {old new : List Str}
    (ho : StrictlySorted cmp old) (hn : StrictlySorted cmp new) {fl : FileList}
    (hrows : fl.rows = old) :
    ∃ s, mergeLoop cmp old new fl.rows = some s ∧ s.rows = new ∧
      s.rows = (fl.smoothRebuild cmp old new).rows ∧ s.rows = (FileList.rebuild new).rows ∧
      s.deleted = old.filter (· ∉ new) ∧ s.inserted = new.filter (· ∉ old) ∧
      s.deleted.length + s.inserted.length = (symmDiff old.toFinset new.toFinset).card := by
  have hc' := hc.toComparison
  have hkept := (mergeKept_eq_iff hc' ho hn).mpr (hc.agree old new)
  have hdropped := mergeDropped_eq hc ho hn
  have hadded := mergeDropped_eq hc.flipped (hn.flipped hc') (ho.flipped hc')
  obtain ⟨s, hloop, hs, hdel, hins⟩ := mergeLoop_eq cmp old new
  rw [hkept] at hs
  rw [hdropped] at hdel
  rw [mergeAdded, hadded] at hins
  refine ⟨s, hrows ▸ hloop, hs, ?_, ?_, hdel, hins, ?_⟩
  · rw [hs, FileList.smoothRebuild_rows cmp hrows, hkept]
  · rw [hs, FileList.rebuild_rows]
  · have hcard : ∀ a b : List Str, a.Nodup →
        (a.filter (· ∉ b)).length = (a.toFinset \ b.toFinset).card := by
      intro a b ha
      rw [← List.toFinset_card_of_nodup (ha.filter _)]
      congr 1
      ext x
      simp
    rw [hdel, hins, hcard old new (ho.nodup hc'), hcard new old (hn.nodup hc'),
      ← Finset.card_union_of_disjoint disjoint_sdiff_sdiff]
    rfl

end Loop

/-- The lexicographic order of names, as a three-way comparison. -/
theorem lexOrder_total :
    TotalComparison fun a b : Str => if a = b then 0 else if a < b then (-1 : Int) else 1 := by
  refine ⟨comparison_of_key id, ?_⟩
  intro a b h
  by_contra hne
  rw [if_neg hne] at h
  split at h
  · cases h
  · cases h

/-- Two pictures are deleted and one is put in. -/
theorem smoothRebuild_incremental_three :
    let cmp (a b : Str) : Int := if a = b then 0 else if a < b then -1 else 1
    let old : List Str := [['a'], ['c'], ['d']]
    let new : List Str := [['b'], ['c']]
    ∃ s, mergeLoop cmp old new old = some s ∧ s.rows = new ∧
      s.rows = ((⟨old, false⟩ : FileList).smoothRebuild cmp old new).rows ∧
      s.rows = (FileList.rebuild new).rows ∧ s.deleted = old.filter (· ∉ new) ∧
      s.inserted = new.filter (· ∉ old) ∧
      s.deleted.length + s.inserted.length = (symmDiff old.toFinset new.toFinset).card := by
  intro cmp old new
  have ho : StrictlySorted cmp old := by
    unfold StrictlySorted
    decide
  have hn : StrictlySorted cmp new := by
    unfold StrictlySorted
    decide
  exact @smoothRebuild_incremental cmp lexOrder_total old new ho hn ⟨old, false⟩ rfl

end ObZrv
