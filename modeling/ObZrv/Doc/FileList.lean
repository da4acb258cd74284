import ObZrv.Lib.Merge
import ObZrv.Text.Path

/-!
# Doc.FileList

The rows of the file panel (`FileList.cpp`). Selection and scroll position of the ListView are left
out: nothing reads them back.
-/

namespace ObZrv

structure FileList where
  rows : List Str
  rebuilding : Bool
deriving DecidableEq, Repr

namespace FileList

/-- `ListView_InsertItem`; an index behind the end appends. -/
def insertItem (rows : List Str) (i : Nat) (text : Str) : List Str :=
  rows.take i ++ text :: rows.drop i

/-- `rebuild`. With an empty directory it returns before it takes `_rebuilding` back. -/
def rebuild (files : List Str) : FileList :=
  if files = [] then { rows := [], rebuilding := true } else { rows := files, rebuilding := false }

def moveSelection (fl : FileList) : FileList := { fl with rebuilding := false }

def removeItem (fl : FileList) (delIdx : Nat) : FileList :=
  { rows := fl.rows.eraseIdx delIdx, rebuilding := false }

/-- The merge loop of `smoothRebuild` from row `lvIdx` on; `cmp` is `StrCmpLogicalW`. Each round
takes a name off one of the lists. -/
def mergeRows (cmp : Str → Str → Int) : Nat → List Str → List Str → Nat → List Str → List Str
  | 0, _, _, _, rows => rows
  | _ + 1, [], [], _, rows => rows
  | fuel + 1, [], n :: ns, lvIdx, rows =>
    mergeRows cmp fuel [] ns (lvIdx + 1) (insertItem rows lvIdx n)
  | fuel + 1, _ :: os, [], lvIdx, rows => mergeRows cmp fuel os [] lvIdx (rows.eraseIdx lvIdx)
  | fuel + 1, o :: os, n :: ns, lvIdx, rows =>
    if cmp o n = 0 then mergeRows cmp fuel os ns (lvIdx + 1) rows
    else if cmp o n < 0 then mergeRows cmp fuel os (n :: ns) lvIdx (rows.eraseIdx lvIdx)
    else mergeRows cmp fuel (o :: os) ns (lvIdx + 1) (insertItem rows lvIdx n)

def smoothRebuild (cmp : Str → Str → Int) (fl : FileList) (oldFiles newFiles : List Str) :
    FileList :=
  { rows := mergeRows cmp (oldFiles.length + newFiles.length) oldFiles newFiles 0 fl.rows
    rebuilding := false }

/-! ## The rows after a merge -/

theorem insertItem_append (done rows : List Str) (text : Str) :
    insertItem (done ++ rows) done.length text = (done ++ [text]) ++ rows := by
  simp only [insertItem, List.take_left, List.drop_left, List.append_assoc, List.singleton_append]

theorem eraseIdx_append_cons (done os : List Str) (o : Str) :
    (done ++ o :: os).eraseIdx done.length = done ++ os := by
  rw [List.eraseIdx_append_of_length_le (Nat.le_refl _), Nat.sub_self, List.eraseIdx_cons_zero]

/-- With the rows from `lvIdx` on being the old names left, the loop leaves the merge of the two
lists behind the rows it is done with. -/
theorem mergeRows_eq (cmp : Str → Str → Int) (fuel : Nat) (old new done : List Str)
    (hfuel : old.length + new.length ≤ fuel) :
    mergeRows cmp fuel old new done.length (done ++ old) = done ++ Lib.mergeKept cmp old new := by
  induction fuel generalizing old new done with
  | zero =>
    obtain rfl := List.eq_nil_of_length_eq_zero (show old.length = 0 by omega)
    obtain rfl := List.eq_nil_of_length_eq_zero (show new.length = 0 by omega)
    rw [mergeRows, Lib.mergeKept]
  | succ fuel ih =>
    -- a row put in or kept is done with
    have hdone : ∀ x : Str, done.length + 1 = (done ++ [x]).length := fun x => by
      rw [List.length_append, List.length_singleton]
    cases old with
    | nil =>
      cases new with
      | nil => rw [mergeRows, Lib.mergeKept]
      | cons n ns =>
        rw [mergeRows, insertItem_append, hdone n, ih [] ns (done ++ [n]) (by simp at hfuel ⊢; omega),
          Lib.mergeKept, Lib.mergeKept, List.append_assoc, List.singleton_append]
    | cons o os =>
      cases new with
      | nil =>
        rw [mergeRows, eraseIdx_append_cons, ih os [] done (by simp at hfuel ⊢; omega)]
        cases os with
        | nil => simp only [Lib.mergeKept]
        | cons _ _ => simp only [Lib.mergeKept]
      | cons n ns =>
        rw [mergeRows, Lib.mergeKept]
        simp only [List.length_cons] at hfuel
        split
        · have hrows : done ++ o :: os = (done ++ [o]) ++ os := by
            rw [List.append_assoc, List.singleton_append]
          rw [hrows, hdone o, ih os ns (done ++ [o]) (by omega), List.append_assoc,
            List.singleton_append]
        · split
          · rw [eraseIdx_append_cons, ih os (n :: ns) done (by rw [List.length_cons]; omega)]
          · rw [insertItem_append, hdone n, ih (o :: os) ns (done ++ [n]) (by rw [List.length_cons]; omega),
              List.append_assoc, List.singleton_append]

/-- **What the merge leaves**, if the rows were the old names. -/
theorem smoothRebuild_rows (cmp : Str → Str → Int) {fl : FileList} {old : List Str}
    (h : fl.rows = old) (new : List Str) :
    (fl.smoothRebuild cmp old new).rows = Lib.mergeKept cmp old new := by
  subst h
  exact mergeRows_eq cmp _ fl.rows new [] (Nat.le_refl _)

theorem rebuild_rows (files : List Str) : (rebuild files).rows = files := by
  unfold rebuild
  split
  · rename_i h
    exact h.symm
  · rfl

end FileList

end ObZrv
