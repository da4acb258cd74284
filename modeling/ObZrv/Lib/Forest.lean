import Mathlib.Data.List.Basic
import Mathlib.Data.List.Nodup
import Mathlib.Logic.Function.Iterate

/-!
# Lib.Forest

Lists of items of which some hold such lists again: menus, folders, outlines. A leaf and a node are
each followed by the rest of their list.

* `nodes`           : the nodes in the order of a search, each with what it holds.
* `findOver_key`    : the search for the node that holds a leaf itself.
* `update?`         : the first node that a test holds of is changed; `Changed` says how.
* `Changed.collect` : all that is collected from the items, before and after a change.
* `Rel`             : the same shape, item by item related.
-/

namespace Lib

inductive Forest (α β : Type*) where
  | nil
  | leaf (a : α) (rest : Forest α β)
  | node (b : β) (sub rest : Forest α β)
deriving DecidableEq, Repr

namespace Forest

variable {α β γ σ : Type*}

/-- The leaves of the list itself. -/
def tops : Forest α β → List α
  | nil => []
  | leaf a rest => a :: rest.tops
  | node _ _ rest => rest.tops

/-- The items of the list itself. -/
def count : Forest α β → Nat
  | nil => 0
  | leaf _ rest => rest.count + 1
  | node _ _ rest => rest.count + 1

/-- The list without its first item. -/
def tail : Forest α β → Forest α β
  | nil => nil
  | leaf _ rest => rest
  | node _ _ rest => rest

/-- A leaf behind the last item. -/
def snoc (a : α) : Forest α β → Forest α β
  | nil => leaf a nil
  | leaf x rest => leaf x (rest.snoc a)
  | node b sub rest => node b sub (rest.snoc a)

def ofList (l : List α) : Forest α β := l.foldr leaf nil

def nodes : Forest α β → List (β × Forest α β)
  | nil => []
  | leaf _ rest => rest.nodes
  | node b sub rest => (b, sub) :: (sub.nodes ++ rest.nodes)

/-- The first node with `q`, and what it holds. -/
def node? (q : β → Bool) (t : Forest α β) : Option (β × Forest α β) := t.nodes.find? fun n => q n.1

/-- The label of the first node that holds a leaf with `p` itself. -/
def findOver (p : α → Bool) : Forest α β → Option β
  | nil => none
  | leaf _ rest => rest.findOver p
  | node b sub rest =>
    if sub.tops.any p then some b
    else
      match sub.findOver p with
      | some c => some c
      | none => rest.findOver p

/-- The first node with `q` becomes `u` of it; `none` where there is no such node. -/
def update? (q : β → Bool) (u : β → Forest α β → β × Forest α β) : Forest α β → Option (Forest α β)
  | nil => none
  | leaf a rest => (rest.update? q u).map (leaf a)
  | node b sub rest =>
    if q b then some (node (u b sub).1 (u b sub).2 rest)
    else
      match sub.update? q u with
      | some sub' => some (node b sub' rest)
      | none => (rest.update? q u).map (node b sub)

/-- What the first node with `q` holds is changed. -/
def modify (q : β → Bool) (g : Forest α β → Forest α β) (t : Forest α β) : Forest α β :=
  (t.update? q fun b sub => (b, g sub)).getD t

def map (f : α → α) (g : β → β) : Forest α β → Forest α β
  | nil => nil
  | leaf a rest => leaf (f a) (rest.map f g)
  | node b sub rest => node (g b) (sub.map f g) (rest.map f g)

/-- The leaves are changed one after the other. -/
def mapAccum (step : α → σ → α × σ) : Forest α β → σ → Forest α β × σ
  | nil, s => (nil, s)
  | leaf a rest, s =>
    let (a, s) := step a s
    let (rest, s) := rest.mapAccum step s
    (leaf a rest, s)
  | node b sub rest, s =>
    let (sub, s) := sub.mapAccum step s
    let (rest, s) := rest.mapAccum step s
    (node b sub rest, s)

/-- What the items hold, in order. -/
def collect (f : α → List γ) (g : β → List γ) : Forest α β → List γ
  | nil => []
  | leaf a rest => f a ++ rest.collect f g
  | node b sub rest => g b ++ (sub.collect f g ++ rest.collect f g)

/-! ## Lists of leaves -/

section Leaves

variable {a : α} {l : List α}

@[simp] theorem ofList_nil : (ofList [] : Forest α β) = nil := rfl

@[simp] theorem ofList_cons : (ofList (a :: l) : Forest α β) = leaf a (ofList l) := rfl

@[simp] theorem tops_ofList (l : List α) : (ofList l : Forest α β).tops = l := by
  induction l with
  | nil => rfl
  | cons a l ih => rw [ofList_cons, tops, ih]

@[simp] theorem snoc_ofList (a : α) (l : List α) :
    (ofList l : Forest α β).snoc a = ofList (l ++ [a]) := by
  induction l with
  | nil => rfl
  | cons x l ih => rw [ofList_cons, snoc, ih, List.cons_append, ofList_cons]

theorem collect_map_eq_nil {f : α → List γ} {g : β → List γ} {h : α → α} {k : β → β}
    (hf : ∀ a, f (h a) = []) (hg : ∀ b, g (k b) = []) (t : Forest α β) :
    (t.map h k).collect f g = [] := by
  induction t with
  | nil => rfl
  | leaf a rest ih =>
    rw [map, collect, hf, ih]
    rfl
  | node b sub rest ihSub ihRest =>
    rw [map, collect, hg, ihSub, ihRest]
    rfl

theorem collect_ofList (f : α → List γ) (g : β → List γ) (l : List α) :
    (ofList l : Forest α β).collect f g = l.flatMap f := by
  induction l with
  | nil => rfl
  | cons a l ih => rw [ofList_cons, collect, ih, List.flatMap_cons]

/-- Taking the first item away until none is left. -/
theorem tail_iterate (t : Forest α β) : Nat.iterate tail t.count t = nil := by
  induction t with
  | nil => rfl
  | leaf a rest ih => exact ih
  | node b sub rest _ ih => exact ih

end Leaves

/-! ## Searches -/

section Search

variable {q : β → Bool} {p : α → Bool} {t : Forest α β}

theorem findOver_eq (p : α → Bool) (t : Forest α β) :
    t.findOver p = (t.nodes.find? fun n => n.2.tops.any p).map Prod.fst := by
  induction t with
  | nil => rfl
  | leaf a rest ih => exact ih
  | node b sub rest ihSub ihRest =>
    rw [findOver, nodes, List.find?_cons, List.find?_append, ihSub, ihRest]
    cases sub.tops.any p with
    | true => rfl
    | false => cases sub.nodes.find? fun n => n.2.tops.any p <;> rfl

theorem node?_node_pos {b : β} (h : q b = true) (sub rest : Forest α β) :
    (node b sub rest).node? q = some (b, sub) := List.find?_cons_of_pos h

theorem node?_node_neg {b : β} (h : q b = false) (sub rest : Forest α β) :
    (node b sub rest).node? q = (sub.node? q).or (rest.node? q) := by
  rw [node?, nodes, List.find?_cons_of_neg (by simp [h]), List.find?_append]
  rfl

theorem node?_some {n : β × Forest α β} (h : t.node? q = some n) : n ∈ t.nodes ∧ q n.1 = true :=
  ⟨List.mem_of_find?_eq_some h, List.find?_some (p := fun n : β × Forest α β => q n.1) h⟩

/-- **The search**, where the nodes have keys of their own: the node found holds the leaf, and it is
the one its key leads to. -/
theorem findOver_key {κ : Type*} [DecidableEq κ] {key : β → κ}
    (hkeys : (t.nodes.map fun n => key n.1).Nodup) {b : β} (h : t.findOver p = some b) :
    ∃ sub, t.node? (fun c => key c = key b) = some (b, sub) ∧ sub.tops.any p = true := by
  rw [findOver_eq, Option.map_eq_some_iff] at h
  obtain ⟨⟨b', sub⟩, hfind, rfl⟩ := h
  have hmem := List.mem_of_find?_eq_some hfind
  refine ⟨sub, ?_, List.find?_some (p := fun n : β × Forest α β => n.2.tops.any p) hfind⟩
  cases hn : t.node? (fun c => key c = key b') with
  | none =>
    have hnone := List.find?_eq_none.mp hn (b', sub) hmem
    simp at hnone
  | some n =>
    obtain ⟨hmem', hkey⟩ := node?_some hn
    exact congrArg some (List.inj_on_of_nodup_map hkeys hmem' hmem (of_decide_eq_true hkey))

end Search

/-! ## Changes of a node -/

/-- The first node with `q` is changed, and nothing else. -/
inductive Changed (q : β → Bool) (u : β → Forest α β → β × Forest α β) :
    Forest α β → Forest α β → Prop where
  | here {b : β} {sub rest : Forest α β} (h : q b = true) :
    Changed q u (node b sub rest) (node (u b sub).1 (u b sub).2 rest)
  | leaf {rest rest' : Forest α β} (a : α) (h : Changed q u rest rest') :
    Changed q u (leaf a rest) (leaf a rest')
  | sub {b : β} {sub sub' : Forest α β} (rest : Forest α β) (hb : q b = false)
    (h : Changed q u sub sub') : Changed q u (node b sub rest) (node b sub' rest)
  | rest {b : β} {sub rest rest' : Forest α β} (hb : q b = false) (hsub : sub.node? q = none)
    (h : Changed q u rest rest') : Changed q u (node b sub rest) (node b sub rest')

section Update

variable {q : β → Bool} {u v : β → Forest α β → β × Forest α β} {t t' : Forest α β}

theorem update?_cases (q : β → Bool) (u : β → Forest α β → β × Forest α β) (t : Forest α β) :
    (t.node? q = none ∧ t.update? q u = none) ∨ ∃ t', t.update? q u = some t' ∧ Changed q u t t' := by
  induction t with
  | nil => exact .inl ⟨rfl, rfl⟩
  | leaf a rest ih =>
    rcases ih with ⟨hnode, hnone⟩ | ⟨rest', hsome, hchanged⟩
    · exact .inl ⟨hnode, by rw [update?, hnone]; rfl⟩
    · exact .inr ⟨leaf a rest', by rw [update?, hsome]; rfl, hchanged.leaf a⟩
  | node b sub rest ihSub ihRest =>
    cases hq : q b with
    | true => exact .inr ⟨_, by rw [update?, if_pos hq], .here hq⟩
    | false =>
      have hneg : ¬ q b = true := by simp [hq]
      rcases ihSub with ⟨hnode, hnone⟩ | ⟨sub', hsome, hchanged⟩
      · rcases ihRest with ⟨hnode', hnone'⟩ | ⟨rest', hsome', hchanged'⟩
        · refine .inl ⟨?_, ?_⟩
          · rw [node?_node_neg hq, hnode, hnode']
            rfl
          · rw [update?, if_neg hneg, hnone, hnone']
            rfl
        · refine .inr ⟨node b sub rest', ?_, hchanged'.rest hq hnode⟩
          rw [update?, if_neg hneg, hnone, hsome']
          rfl
      · refine .inr ⟨node b sub' rest, ?_, hchanged.sub rest hq⟩
        rw [update?, if_neg hneg, hsome]

theorem Changed.node?_isSome (h : Changed q u t t') : (t.node? q).isSome := by
  induction h with
  | here hb => rw [node?_node_pos hb]; rfl
  | leaf a h ih => exact ih
  | sub rest hb h ih => rw [node?_node_neg hb, Option.isSome_or, ih]; rfl
  | rest hb hsub h ih => rw [node?_node_neg hb, hsub]; exact ih

theorem update?_of_not_found (h : t.node? q = none) : t.update? q u = none := by
  rcases update?_cases q u t with ⟨-, hnone⟩ | ⟨_, -, hchanged⟩
  · exact hnone
  · have hsome := hchanged.node?_isSome
    rw [h] at hsome
    cases hsome

theorem update?_eq_some_iff : t.update? q u = some t' ↔ Changed q u t t' := by
  constructor
  · intro h
    rcases update?_cases q u t with ⟨-, hnone⟩ | ⟨_, hsome, hchanged⟩
    · rw [h] at hnone
      cases hnone
    · rw [h] at hsome
      cases hsome
      exact hchanged
  · intro h
    induction h with
    | here hb => rw [update?, if_pos hb]
    | leaf a h ih => rw [update?, ih]; rfl
    | sub rest hb h ih => rw [update?, if_neg (by simp [hb]), ih]
    | rest hb hsub h ih =>
      rw [update?, if_neg (by simp [hb]), update?_of_not_found hsub, ih]
      rfl

theorem exists_changed {n : β × Forest α β} (h : t.node? q = some n)
    (u : β → Forest α β → β × Forest α β) : ∃ t', Changed q u t t' := by
  rcases update?_cases q u t with ⟨hnone, -⟩ | ⟨t', -, hchanged⟩
  · rw [h] at hnone
    cases hnone
  · exact ⟨t', hchanged⟩

/-- The node that was changed is found where it was. -/
theorem Changed.node? (hu : ∀ b sub, q b = true → q (u b sub).1 = true) (h : Changed q u t t') :
    t'.node? q = (t.node? q).map fun n => u n.1 n.2 := by
  induction h with
  | @here b sub rest hb =>
    rw [node?_node_pos hb, node?_node_pos (hu b sub hb)]
    rfl
  | leaf a h ih => exact ih
  | sub rest hb h ih =>
    obtain ⟨n, hn⟩ := Option.isSome_iff_exists.mp h.node?_isSome
    rw [node?_node_neg hb, node?_node_neg hb, ih, hn]
    rfl
  | rest hb hsub h ih =>
    rw [node?_node_neg hb, node?_node_neg hb, ih, hsub]
    rfl

/-- Two changes of a node are one. -/
theorem Changed.comp {t'' : Forest α β} (hu : ∀ b sub, q b = true → q (u b sub).1 = true)
    (h : Changed q u t t') (h' : Changed q v t' t'') :
    Changed q (fun b sub => v (u b sub).1 (u b sub).2) t t'' := by
  induction h generalizing t'' with
  | @here b sub rest hb =>
    cases h' with
    | here hb' => exact .here hb
    | sub _ hb' _ => rw [hu b sub hb] at hb'; cases hb'
    | rest hb' _ _ => rw [hu b sub hb] at hb'; cases hb'
  | leaf a h ih =>
    cases h' with
    | leaf _ h' => exact (ih h').leaf a
  | sub rest hb h ih =>
    cases h' with
    | here hb' => rw [hb] at hb'; cases hb'
    | sub _ _ h' => exact (ih h').sub rest hb
    | rest _ hsub _ =>
      have hfound := h.node?_isSome
      rw [← Option.isSome_map (f := fun n => u n.1 n.2), ← h.node? hu, hsub] at hfound
      cases hfound
  | rest hb hsub h ih =>
    cases h' with
    | here hb' => rw [hb] at hb'; cases hb'
    | sub _ _ h' =>
      have hfound := h'.node?_isSome
      rw [hsub] at hfound
      cases hfound
    | rest _ _ h' => exact (ih h').rest hb hsub

/-- **What is collected** changes where the node is, and nowhere else. -/
theorem Changed.collect (f : α → List γ) (g : β → List γ) (h : Changed q u t t') :
    ∃ l r n, t.node? q = some n ∧
      t.collect f g = l ++ (g n.1 ++ n.2.collect f g) ++ r ∧
      t'.collect f g = l ++ (g (u n.1 n.2).1 ++ (u n.1 n.2).2.collect f g) ++ r := by
  induction h with
  | @here b sub rest hb =>
    refine ⟨[], rest.collect f g, (b, sub), node?_node_pos hb _ _, ?_, ?_⟩ <;>
      simp only [Forest.collect, List.nil_append, List.append_assoc]
  | leaf a h ih =>
    obtain ⟨l, r, n, hn, hold, hnew⟩ := ih
    refine ⟨f a ++ l, r, n, hn, ?_, ?_⟩
    · simp only [Forest.collect, hold, List.append_assoc]
    · simp only [Forest.collect, hnew, List.append_assoc]
  | @sub b sub sub' rest hb h ih =>
    obtain ⟨l, r, n, hn, hold, hnew⟩ := ih
    refine ⟨g b ++ l, r ++ rest.collect f g, n, ?_, ?_, ?_⟩
    · rw [node?_node_neg hb, hn]
      rfl
    · simp only [Forest.collect, hold, List.append_assoc]
    · simp only [Forest.collect, hnew, List.append_assoc]
  | @rest b sub rest rest' hb hsub h ih =>
    obtain ⟨l, r, n, hn, hold, hnew⟩ := ih
    refine ⟨g b ++ (sub.collect f g ++ l), r, n, ?_, ?_, ?_⟩
    · rw [node?_node_neg hb, hsub, hn]
      rfl
    · simp only [Forest.collect, hold, List.append_assoc]
    · simp only [Forest.collect, hnew, List.append_assoc]

/-- What a node holds is among what is collected. -/
theorem collect_node? {n : β × Forest α β} (hn : t.node? q = some n) (f : α → List γ)
    (g : β → List γ) : ∃ l r, t.collect f g = l ++ (g n.1 ++ n.2.collect f g) ++ r := by
  obtain ⟨t', hchanged⟩ := exists_changed hn fun b sub => (b, sub)
  obtain ⟨l, r, m, hm, hold, -⟩ := hchanged.collect f g
  rw [hn] at hm
  cases hm
  exact ⟨l, r, hold⟩

theorem collect_node?_nil {n : β × Forest α β} {f : α → List γ} {g : β → List γ}
    (hn : t.node? q = some n) (hnil : t.collect f g = []) : g n.1 = [] ∧ n.2.collect f g = [] := by
  obtain ⟨l, r, heq⟩ := collect_node? hn f g
  rw [heq] at hnil
  obtain ⟨hleft, -⟩ := List.append_eq_nil_iff.mp hnil
  obtain ⟨-, hnode⟩ := List.append_eq_nil_iff.mp hleft
  exact List.append_eq_nil_iff.mp hnode

/-! ### What a node holds -/

theorem modify_of_not_found {g : Forest α β → Forest α β} (h : t.node? q = none) :
    t.modify q g = t := by
  rw [modify, update?_of_not_found h, Option.getD_none]

theorem modify_changed {n : β × Forest α β} (h : t.node? q = some n)
    (g : Forest α β → Forest α β) : Changed q (fun b sub => (b, g sub)) t (t.modify q g) := by
  obtain ⟨t', hchanged⟩ := exists_changed h fun b sub => (b, g sub)
  rw [modify, update?_eq_some_iff.mpr hchanged, Option.getD_some]
  exact hchanged

theorem node?_modify {n : β × Forest α β} (h : t.node? q = some n) (g : Forest α β → Forest α β) :
    (t.modify q g).node? q = some (n.1, g n.2) := by
  rw [(modify_changed h g).node? (fun _ _ hb => hb), h]
  rfl

/-- What is collected stays, if what is collected from the node does. -/
theorem collect_modify {n : β × Forest α β} {h : Forest α β → Forest α β} (f : α → List γ)
    (g : β → List γ) (hn : t.node? q = some n) (hsame : (h n.2).collect f g = n.2.collect f g) :
    (t.modify q h).collect f g = t.collect f g := by
  obtain ⟨l, r, m, hm, hold, hnew⟩ := (modify_changed hn h).collect f g
  rw [hn] at hm
  cases hm
  rw [hold, hnew, hsame]

theorem modify_eq {g : Forest α β → Forest α β} (h : Changed q (fun b sub => (b, g sub)) t t') :
    t.modify q g = t' := by
  rw [modify, update?_eq_some_iff.mpr h, Option.getD_some]

theorem modify_modify (g g' : Forest α β → Forest α β) (t : Forest α β) :
    (t.modify q g).modify q g' = t.modify q fun sub => g' (g sub) := by
  cases hn : t.node? q with
  | none => rw [modify_of_not_found hn, modify_of_not_found hn, modify_of_not_found hn]
  | some n =>
    have hchanged := modify_changed hn g
    have hchanged' := modify_changed (node?_modify hn g) g'
    exact (modify_eq (g := fun sub => g' (g sub)) (hchanged.comp (fun _ _ hb => hb) hchanged')).symm

section Constructors

variable (g : Forest α β → Forest α β)

theorem modify_leaf (a : α) (rest : Forest α β) :
    (leaf a rest).modify q g = leaf a (rest.modify q g) := by
  unfold modify
  rw [update?]
  cases rest.update? q fun b sub => (b, g sub) <;> rfl

theorem modify_node_pos {b : β} (h : q b = true) (sub rest : Forest α β) :
    (node b sub rest).modify q g = node b (g sub) rest := by
  rw [modify, update?, if_pos h, Option.getD_some]

theorem modify_node_sub {b : β} (h : q b = false) {sub : Forest α β} {n : β × Forest α β}
    (hn : sub.node? q = some n) (rest : Forest α β) :
    (node b sub rest).modify q g = node b (sub.modify q g) rest :=
  modify_eq ((modify_changed hn g).sub rest h)

theorem modify_node_rest {b : β} (h : q b = false) {sub : Forest α β} (hsub : sub.node? q = none)
    (rest : Forest α β) : (node b sub rest).modify q g = node b sub (rest.modify q g) := by
  cases hn : rest.node? q with
  | none =>
    rw [modify_of_not_found hn, modify_of_not_found]
    rw [node?_node_neg h, hsub, hn]
    rfl
  | some n => exact modify_eq ((modify_changed hn g).rest h hsub)

end Constructors

/-- Only what the first node with `q` holds is changed. -/
theorem modify_congr {n : β × Forest α β} {g g' : Forest α β → Forest α β}
    (hn : t.node? q = some n) (h : g n.2 = g' n.2) : t.modify q g = t.modify q g' := by
  induction t with
  | nil => rfl
  | leaf a rest ih => rw [modify_leaf, modify_leaf, ih hn]
  | node b sub rest ihSub ihRest =>
    cases hq : q b with
    | true =>
      rw [node?_node_pos hq] at hn
      cases hn
      rw [modify_node_pos _ hq, modify_node_pos _ hq, h]
    | false =>
      rw [node?_node_neg hq] at hn
      cases hsub : sub.node? q with
      | none =>
        rw [hsub] at hn
        rw [modify_node_rest _ hq hsub, modify_node_rest _ hq hsub, ihRest hn]
      | some m =>
        rw [hsub] at hn
        rw [modify_node_sub _ hq hsub, modify_node_sub _ hq hsub, ihSub (hsub.trans hn)]

theorem modify_id (t : Forest α β) : t.modify q (fun sub => sub) = t := by
  induction t with
  | nil => rfl
  | leaf a rest ih => rw [modify_leaf, ih]
  | node b sub rest ihSub ihRest =>
    cases hq : q b with
    | true => rw [modify_node_pos _ hq]
    | false =>
      cases hn : sub.node? q with
      | none => rw [modify_node_rest _ hq hn, ihRest]
      | some n => rw [modify_node_sub _ hq hn, ihSub]

theorem modify_iterate (g : Forest α β → Forest α β) (t : Forest α β) (k : Nat) :
    Nat.iterate (modify q g) k t = t.modify q (Nat.iterate g k) := by
  induction k generalizing t with
  | zero => exact (modify_id t).symm
  | succ k ih =>
    rw [Function.iterate_succ_apply, ih, modify_modify]
    rfl

end Update

/-! ## The same shape -/

inductive Rel (R : α → α → Prop) (S : β → β → Prop) : Forest α β → Forest α β → Prop where
  | nil : Rel R S nil nil
  | leaf {a a' : α} {rest rest' : Forest α β} (h : R a a') (hrest : Rel R S rest rest') :
    Rel R S (leaf a rest) (leaf a' rest')
  | node {b b' : β} {sub sub' rest rest' : Forest α β} (h : S b b') (hsub : Rel R S sub sub')
    (hrest : Rel R S rest rest') : Rel R S (node b sub rest) (node b' sub' rest')

section Rel

variable {R : α → α → Prop} {S : β → β → Prop} {t t' t'' : Forest α β}

theorem Rel.refl (hR : ∀ a, R a a) (hS : ∀ b, S b b) (t : Forest α β) : Rel R S t t := by
  induction t with
  | nil => exact .nil
  | leaf a rest ih => exact .leaf (hR a) ih
  | node b sub rest ihSub ihRest => exact .node (hS b) ihSub ihRest

theorem Rel.trans (hR : ∀ a b c, R a b → R b c → R a c) (hS : ∀ a b c, S a b → S b c → S a c)
    (h : Rel R S t t') (h' : Rel R S t' t'') : Rel R S t t'' := by
  induction h generalizing t'' with
  | nil => exact h'
  | leaf ha _ ih =>
    cases h' with
    | leaf ha' hrest' => exact .leaf (hR _ _ _ ha ha') (ih hrest')
  | node hb _ _ ihSub ihRest =>
    cases h' with
    | node hb' hsub' hrest' => exact .node (hS _ _ _ hb hb') (ihSub hsub') (ihRest hrest')

theorem Rel.imp {R' : α → α → Prop} {S' : β → β → Prop} (hR : ∀ a a', R a a' → R' a a')
    (hS : ∀ b b', S b b' → S' b b') (h : Rel R S t t') : Rel R' S' t t' := by
  induction h with
  | nil => exact .nil
  | leaf ha _ ih => exact .leaf (hR _ _ ha) ih
  | node hb _ _ ihSub ihRest => exact .node (hS _ _ hb) ihSub ihRest

theorem rel_map {f : α → α} {g : β → β} (hf : ∀ a, R a (f a)) (hg : ∀ b, S b (g b))
    (t : Forest α β) : Rel R S t (t.map f g) := by
  induction t with
  | nil => exact .nil
  | leaf a rest ih => exact .leaf (hf a) ih
  | node b sub rest ihSub ihRest => exact .node (hg b) ihSub ihRest

theorem rel_mapAccum {step : α → σ → α × σ} (hstep : ∀ a s, R a (step a s).1) (hS : ∀ b, S b b)
    (t : Forest α β) (s : σ) : Rel R S t (t.mapAccum step s).1 := by
  induction t generalizing s with
  | nil => exact .nil
  | leaf a rest ih => exact .leaf (hstep a s) (ih _)
  | node b sub rest ihSub ihRest => exact .node (hS b) (ihSub s) (ihRest _)

variable {q : β → Bool} {u : β → Forest α β → β × Forest α β}

theorem Changed.rel (hR : ∀ a, R a a) (hS : ∀ b, S b b)
    (hu : ∀ b sub, q b = true → S b (u b sub).1 ∧ Rel R S sub (u b sub).2)
    (h : Changed q u t t') : Rel R S t t' := by
  induction h with
  | @here b sub rest hb => exact .node (hu b sub hb).1 (hu b sub hb).2 (.refl hR hS rest)
  | leaf a h ih => exact .leaf (hR a) ih
  | sub rest hb h ih => exact .node (hS _) ih (.refl hR hS rest)
  | rest hb hsub h ih => exact .node (hS _) (.refl hR hS _) ih

theorem rel_modify (hR : ∀ a, R a a) (hS : ∀ b, S b b) {g : Forest α β → Forest α β}
    (hg : ∀ sub, Rel R S sub (g sub)) (t : Forest α β) : Rel R S t (t.modify q g) := by
  cases hn : t.node? q with
  | none =>
    rw [modify_of_not_found hn]
    exact .refl hR hS t
  | some n => exact (modify_changed hn g).rel hR hS fun b sub _ => ⟨hS b, hg sub⟩

/-- A node is found in both or in neither. -/
theorem Rel.node? (hq : ∀ b b', S b b' → q b = q b') (h : Rel R S t t') :
    (t.node? q = none ∧ t'.node? q = none) ∨ ∃ n n', t.node? q = some n ∧ t'.node? q = some n' ∧
      S n.1 n'.1 ∧ Rel R S n.2 n'.2 := by
  induction h with
  | nil => exact .inl ⟨rfl, rfl⟩
  | leaf ha hrest ih => exact ih
  | @node b b' sub sub' rest rest' hb hsub hrest ihSub ihRest =>
    cases hqb : q b with
    | true =>
      refine .inr ⟨_, _, node?_node_pos hqb _ _, node?_node_pos ?_ _ _, hb, hsub⟩
      rw [← hq b b' hb, hqb]
    | false =>
      have hqb' : q b' = false := by rw [← hq b b' hb, hqb]
      rw [node?_node_neg hqb, node?_node_neg hqb']
      rcases ihSub with ⟨hnone, hnone'⟩ | ⟨n, n', hn, hn', hrel⟩
      · rw [hnone, hnone']
        exact ihRest
      · rw [hn, hn']
        exact .inr ⟨n, n', rfl, rfl, hrel⟩

/-- Without what a node holds the shape is still the same. -/
theorem Rel.modify_nil (hq : ∀ b b', S b b' → q b = q b') (h : Rel R S t t') :
    Rel R S (t.modify q fun _ => Forest.nil) (t'.modify q fun _ => Forest.nil) := by
  induction h with
  | nil => exact .nil
  | leaf ha hrest ih =>
    rw [modify_leaf, modify_leaf]
    exact .leaf ha ih
  | @node b b' sub sub' rest rest' hb hsub hrest ihSub ihRest =>
    cases hqb : q b with
    | true =>
      rw [modify_node_pos _ hqb, modify_node_pos _ (by rw [← hq b b' hb, hqb])]
      exact .node hb .nil hrest
    | false =>
      have hqb' : q b' = false := by rw [← hq b b' hb, hqb]
      rcases hsub.node? hq with ⟨hnone, hnone'⟩ | ⟨n, n', hn, hn', -⟩
      · rw [modify_node_rest _ hqb hnone, modify_node_rest _ hqb' hnone']
        exact .node hb hsub ihRest
      · rw [modify_node_sub _ hqb hn, modify_node_sub _ hqb' hn']
        exact .node hb ihSub hrest

theorem Rel.collect_eq {f : α → List γ} {g : β → List γ} (hf : ∀ a a', R a a' → f a = f a')
    (hg : ∀ b b', S b b' → g b = g b') (h : Rel R S t t') : t.collect f g = t'.collect f g := by
  induction h with
  | nil => rfl
  | leaf ha hrest ih => rw [collect, collect, hf _ _ ha, ih]
  | node hb hsub hrest ihSub ihRest => rw [collect, collect, hg _ _ hb, ihSub, ihRest]

/-- Leaves that the relation holds fast stay as they are. -/
theorem Rel.ofList_eq {l : List α} (hl : ∀ a ∈ l, ∀ a', R a a' → a' = a)
    (h : Rel R S (ofList l) t) : t = ofList l := by
  induction l generalizing t with
  | nil =>
    cases h
    rfl
  | cons a l ih =>
    cases h with
    | leaf ha hrest =>
      rw [hl a List.mem_cons_self _ ha, ih (fun b hb => hl b (List.mem_cons_of_mem a hb)) hrest,
        ofList_cons]

end Rel

/-! ## One leaf after the other -/

section MapAccum

variable {step : α → σ → α × σ} {t : Forest α β} {s : σ}

theorem mapAccum_inv {P : σ → Prop} (hstep : ∀ a s, P s → P (step a s).2) (hs : P s) :
    P (t.mapAccum step s).2 := by
  induction t generalizing s with
  | nil => exact hs
  | leaf a rest ih => exact ih (hstep a s hs)
  | node b sub rest ihSub ihRest => exact ihRest (ihSub hs)

/-- What each step notes is what the leaves hold in the end, if nothing was held before. -/
theorem mapAccum_collect (log : σ → List γ) {f : α → List γ} {g : β → List γ}
    (hstep : ∀ a s, f a = [] → log (step a s).2 = log s ++ f (step a s).1)
    (hnil : t.collect f g = []) :
    log (t.mapAccum step s).2 = log s ++ (t.mapAccum step s).1.collect f g := by
  induction t generalizing s with
  | nil => exact (List.append_nil _).symm
  | leaf a rest ih =>
    obtain ⟨ha, hrest⟩ := List.append_eq_nil_iff.mp hnil
    have hlog := ih (s := (step a s).2) hrest
    rw [hstep a s ha, List.append_assoc] at hlog
    exact hlog
  | node b sub rest ihSub ihRest =>
    obtain ⟨hb, hboth⟩ := List.append_eq_nil_iff.mp hnil
    obtain ⟨hsub, hrest⟩ := List.append_eq_nil_iff.mp hboth
    have hlog := ihRest (s := (sub.mapAccum step s).2) hrest
    rw [ihSub hsub, List.append_assoc] at hlog
    change log (rest.mapAccum step (sub.mapAccum step s).2).2 =
      log s ++ (g b ++ ((sub.mapAccum step s).1.collect f g ++ _))
    rw [hb, List.nil_append]
    exact hlog

end MapAccum

end Forest

end Lib
