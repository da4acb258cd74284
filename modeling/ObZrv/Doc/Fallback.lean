import ObZrv.Doc.ListUpdate
import ObZrv.Lib.Nearest

/-!
# Doc.Fallback

The file that `open` falls back to when its target cannot be opened.

* `acquire_fallback`     : the call that step 1 ends with: it opens the file picked.
* `pickFile_nearest_iff` : the pick is the nearest other file exactly when the target is not listed,
  or is listed behind another one and the hint is backwards.
* `fallback_nearest_iff` : the same for the call.
* `retries_itself`       : NEXT onto an unreadable file tries that file again.
-/

namespace ObZrv

open Lib

section

variable {W F I : Type} (env : Env W F I)

/-- The end of step 1, with the file picked. -/
def openPicked (fs : UniFs) (picked : Listing) (retried : Bool) (w : W) : Acquired F × W :=
  match attempt env fs retried (env.openfile fs picked.path) w with
  | (.lost, w) => (.lost, w)
  | (.got none _, w) => (.gaveUp picked, w)
  | (.got (some uf) retried, w) => (.opened uf (some picked) retried, w)

/-- What the fallback is for: the next other file in the direction of the hint, or the last one in
that direction if there is none. -/
def Nearest (cmp : Str → Str → Int) (files : List Str) (target : Str) (dirHint : Int) (i : Nat) :
    Prop :=
  if dirHint ≥ 0 then NextOther cmp files target i else PrevOther cmp files target i

/-- The condition under which the pick is the nearest other file. -/
def PicksOther (files : List Str) (target : Str) (dirHint : Int) : Prop :=
  target ∉ files ∨ dirHint < 0 ∧ files.head? ≠ some target

variable {env} {fs : UniFs} {path : Str} {dirHint : Int} {w w₁ w₂ : W} {retried retried' : Bool}
  {l : Listing} {files : List Str} {target : Str}

/-- **The fallback** opens the file it picks from the listing. -/
theorem acquire_fallback (hint : dirHint ≠ INT_MIN)
    (hfails : attempt env fs false (env.openfile fs path) w = (.got none retried, w₁))
    (hscan : attempt env fs retried (updateDir env fs path) w₁ = (.got (some l) retried', w₂))
    (hne : l.files ≠ []) :
    acquire env fs path dirHint w =
      openPicked env fs { l with idx := pickFile env l.files (fileNameOf path) dirHint }
        retried' w₂ := by
  rw [acquire, hfails]
  simp only
  rw [if_neg hint, hscan]
  simp only
  rw [if_neg hne]
  rfl

theorem pickFile_eq (files : List Str) (target : Str) (dirHint : Int) :
    pickFile env files target dirHint =
      if dirHint ≥ 0 then min (insertPos env.strCmpLogicalW files target) (files.length - 1)
      else insertPos env.strCmpLogicalW files target - 1 := by
  rw [pickFile, insertPos, List.findIdx_eq_getD_findIdx?]

theorem insertPos_le (cmp : Str → Str → Int) (files : List Str) (target : Str) :
    insertPos cmp files target ≤ files.length := List.findIdx_le_length

/-- Where the condition fails the pick is the target itself. -/
theorem pickFile_target (hc : TotalComparison env.strCmpLogicalW)
    (hs : StrictlySorted env.strCmpLogicalW files) (h : ¬ PicksOther files target dirHint) :
    files[pickFile env files target dirHint]? = some target := by
  rw [PicksOther, not_or, not_not] at h
  obtain ⟨hmem, hback⟩ := h
  have hpos := insertPos_of_mem hc hs hmem
  rw [pickFile_eq]
  by_cases hhint : dirHint ≥ 0
  · obtain ⟨hlt, -⟩ := List.getElem?_eq_some_iff.mp hpos
    rw [if_pos hhint, Nat.min_eq_left (by omega)]
    exact hpos
  · rw [if_neg hhint]
    have hfirst : files[0]? = some target := by
      rw [← List.head?_eq_getElem?]
      by_contra hne
      exact hback ⟨by omega, hne⟩
    -- the target is first, and nothing is before it
    obtain ⟨hlen, h0⟩ := List.getElem?_eq_some_iff.mp hfirst
    have hzero : insertPos env.strCmpLogicalW files target = 0 := by
      by_contra hne
      have hlt := lt_of_lt_insertPos hlen (Nat.pos_of_ne_zero hne)
      rw [h0] at hlt
      exact hc.irrefl hlt
    rw [hzero]
    exact hfirst

/-- **The pick** is the nearest other file exactly under the condition. -/
theorem pickFile_nearest_iff (hc : TotalComparison env.strCmpLogicalW)
    (hs : StrictlySorted env.strCmpLogicalW files) (hne : files ≠ []) (target : Str)
    (dirHint : Int) :
    Nearest env.strCmpLogicalW files target dirHint (pickFile env files target dirHint) ↔
      PicksOther files target dirHint := by
  have hlen : 0 < files.length := List.length_pos_iff.mpr hne
  have hle := insertPos_le env.strCmpLogicalW files target
  constructor
  · intro h
    by_contra hnot
    -- the neighbour is another file
    have hitself := pickFile_target hc hs hnot
    unfold Nearest at h
    split at h
    · obtain ⟨y, hy, hyx, -⟩ := h
      exact hyx (Option.some.inj (hy.symm.trans hitself))
    · obtain ⟨y, hy, hyx, -⟩ := h
      exact hyx (Option.some.inj (hy.symm.trans hitself))
  · intro h
    rw [pickFile_eq]
    unfold Nearest
    by_cases hhint : dirHint ≥ 0
    · rw [if_pos hhint, if_pos hhint]
      have hmem : target ∉ files := h.resolve_right fun hback => by omega
      rcases Nat.lt_or_ge (insertPos env.strCmpLogicalW files target) files.length with hlt | hge
      · rw [Nat.min_eq_left (by omega)]
        exact nextOther_place hc hs hmem hlt
      · rw [Nat.min_eq_right (by omega)]
        exact nextOther_last hc hs hne hge
    · rw [if_neg hhint, if_neg hhint]
      rcases Nat.eq_zero_or_pos (insertPos env.strCmpLogicalW files target) with h0 | hpos
      · rw [h0]
        refine prevOther_first hc hs hne (fun hmem => ?_) h0
        -- a target at the place 0 is the first file
        have hfirst := insertPos_of_mem hc hs hmem
        rw [h0, ← List.head?_eq_getElem?] at hfirst
        rcases h with hnot | ⟨-, hhead⟩
        · exact hnot hmem
        · exact hhead hfirst
      · exact prevOther_pred hc hs hpos hle

theorem Nearest.unique {cmp : Str → Str → Int} (hc : TotalComparison cmp)
    (hs : StrictlySorted cmp files) {i j : Nat} (hi : Nearest cmp files target dirHint i)
    (hj : Nearest cmp files target dirHint j) : i = j := by
  have hnodup := hs.nodup hc.toComparison
  unfold Nearest at hi hj
  split at hi
  · rename_i hhint
    rw [if_pos hhint] at hj
    exact NextOther.unique hc hnodup hi hj
  · rename_i hhint
    rw [if_neg hhint] at hj
    exact NextOther.unique hc.reversed hnodup hi hj

/-- **The fallback of `open`**, for a target that could not be opened and a sorted listing with
another name: the index picked is in range, and it is the place of the nearest other file, which is
a single one, exactly when the target is not listed, or the hint is backwards and the target is not
the first file. -/
theorem fallback_nearest_iff (hc : TotalComparison env.strCmpLogicalW) (hint : dirHint ≠ INT_MIN)
    (hfails : attempt env fs false (env.openfile fs path) w = (.got none retried, w₁))
    (hscan : attempt env fs retried (updateDir env fs path) w₁ = (.got (some l) retried', w₂))
    (hs : StrictlySorted env.strCmpLogicalW l.files) (hother : ∃ f ∈ l.files, f ≠ fileNameOf path) :
    ∃ i : Nat, acquire env fs path dirHint w = openPicked env fs { l with idx := i } retried' w₂ ∧
      i < l.files.length ∧
      (Nearest env.strCmpLogicalW l.files (fileNameOf path) dirHint i ↔
        PicksOther l.files (fileNameOf path) dirHint) ∧
      ∀ j, Nearest env.strCmpLogicalW l.files (fileNameOf path) dirHint j →
        PicksOther l.files (fileNameOf path) dirHint → j = i := by
  obtain ⟨f, hf, -⟩ := hother
  have hne : l.files ≠ [] := List.ne_nil_of_mem hf
  have hiff := pickFile_nearest_iff hc hs hne (fileNameOf path) dirHint
  refine ⟨_, acquire_fallback hint hfails hscan hne, pickFile_lt hne _ _, hiff, ?_⟩
  intro j hj hpicks
  exact hj.unique hc hs (hiff.mpr hpicks)

end

/-! ## A directory with an unreadable file -/

deriving instance DecidableEq for Attempt, Acquired

/-- The listing of `/c` for a file in it. -/
def picturesListing (idx : Int) : Listing :=
  ⟨"/c".toList, ["a.png".toList, "b.png".toList, "c.png".toList], idx⟩

theorem picturesListing_sorted (idx : Int) :
    StrictlySorted picturesDisk.strCmpLogicalW (picturesListing idx).files := by
  change List.Pairwise (fun a b => picturesDisk.strCmpLogicalW a b < 0)
    ["a.png".toList, "b.png".toList, "c.png".toList]
  decide

/-- `aa.png` does not exist; the file after it is `b.png`. -/
theorem fallback_nearest_three :
    ∃ i : Nat, acquire picturesDisk localFs "/c/aa.png".toList 1 () =
        openPicked picturesDisk localFs (picturesListing i) false () ∧ i < 3 ∧
      Nearest picturesDisk.strCmpLogicalW (picturesListing i).files "aa.png".toList 1 i := by
  obtain ⟨i, hcall, hlt, hiff, -⟩ := @fallback_nearest_iff Unit Bool Unit picturesDisk localFs
    "/c/aa.png".toList 1 () () () false false (picturesListing (-1)) lexOrder_total (by decide)
    (by decide) (by decide) (picturesListing_sorted _) ⟨"a.png".toList, by decide, by decide⟩
  exact ⟨i, hcall, hlt, hiff.mpr (.inl (by decide))⟩

/-- With `/c/a.png` on screen, NEXT goes to `b.png`, which is listed and cannot be opened. The
fallback picks it once more, and the call fails although `c.png` could be opened. -/
theorem retries_itself :
    (picturesOpen.navigate picturesDisk .next).1 = some .FAIL ∧
      picturesOpen.doc.navigateCall .next =
        some ⟨some localFs, "/c/b.png".toList, 3, false, 1⟩ ∧
      acquire picturesDisk localFs "/c/b.png".toList 1 () =
        openPicked picturesDisk localFs (picturesListing 1) false () ∧
      (picturesListing 1).path = "/c/b.png".toList ∧
      (picturesDisk.openfile localFs "/c/c.png".toList ()).1.isSome ∧
      ¬ Nearest picturesDisk.strCmpLogicalW (picturesListing 1).files "b.png".toList 1 1 := by
  refine ⟨by decide, by decide, by decide, by decide, by decide, ?_⟩
  rintro ⟨y, hy, hyx, -⟩
  cases hy
  exact hyx rfl

end ObZrv
