import Mathlib.Data.Fintype.Card
import Mathlib.Data.List.Nodup
import Mathlib.Data.List.Perm.Subperm
import Mathlib.Data.Set.Finite.List

/-!
# Forests read off parent links

A list of nodes with a partial function to parents is a graph in which every node has
at most one way up.  The way may end at a root, or run into a cycle and never end.  A
walk that starts from the roots and goes down comes to the nodes of the first sort.

* **depth** — `DepthIs`, which a node has when its way up ends; `DepthIs.unique` and
  `DepthIs.lt_length`, the bound that lets a walk end;
* **the walk** — `preorder`, over lists of children that are those of the links
  (`ChildLists`);
* **what it lists** — `ChildLists.mem_preorder_iff`: exactly the nodes with a depth,
  with it; `ChildLists.nodup_preorder`: each once; `ChildLists.parent_sublist`: each
  after its parent; `ChildLists.perm_preorder_iff`: when that is all of them.
-/

namespace Library

universe u

variable {α : Type u}

/-! ## Depth -/

/-- The number of links from a node up to a root, where the way up ends. -/
inductive DepthIs (parent : α → Option α) : α → Nat → Prop
  | root {a : α} (h : parent a = none) : DepthIs parent a 0
  | child {a p : α} {d : Nat} (h : parent a = some p) (up : DepthIs parent p d) :
      DepthIs parent a (d + 1)

namespace DepthIs

variable {parent : α → Option α} {a p : α} {d e : Nat}

theorem unique (h : DepthIs parent a d) (h' : DepthIs parent a e) : d = e := by
  induction h generalizing e with
  | root hroot =>
    cases h' with
    | root => rfl
    | child hlink => rw [hroot] at hlink; cases hlink
  | child hlink _ ih =>
    cases h' with
    | root hroot => rw [hroot] at hlink; cases hlink
    | child hlink' up' =>
      rw [hlink] at hlink'
      obtain rfl := Option.some.inj hlink'
      rw [ih up']

/-- A child of a node is one deeper. -/
theorem of_parent (h : DepthIs parent a (d + 1)) (hlink : parent a = some p) :
    DepthIs parent p d := by
  cases h with
  | child hlink' up =>
    rw [hlink] at hlink'
    obtain rfl := Option.some.inj hlink'
    exact up

/-- On the way up from a node there is a node of every lesser depth. -/
theorem exists_of_le {nodes : List α} (closed : ∀ a ∈ nodes, ∀ p, parent a = some p → p ∈ nodes)
    (h : DepthIs parent a d) (ha : a ∈ nodes) : ∀ k ≤ d, ∃ b ∈ nodes, DepthIs parent b k := by
  induction h with
  | @root a hroot =>
    intro k hk
    obtain rfl : k = 0 := Nat.le_zero.mp hk
    exact ⟨a, ha, .root hroot⟩
  | @child a p d hlink up ih =>
    intro k hk
    rcases Nat.le_succ_iff.mp hk with hk | rfl
    · exact ih (closed a ha p hlink) k hk
    · exact ⟨a, ha, .child hlink up⟩

/-- The way up from a node passes no node twice, so it is shorter than the list. -/
theorem lt_length {nodes : List α} (closed : ∀ a ∈ nodes, ∀ p, parent a = some p → p ∈ nodes)
    (h : DepthIs parent a d) (ha : a ∈ nodes) : d < nodes.length := by
  have hstands := h.exists_of_le closed ha
  choose node hmem hdepth using fun k : Fin (d + 1) => hstands k (Nat.le_of_lt_succ k.isLt)
  have hnodup : ((List.finRange (d + 1)).map node).Nodup := by
    refine (List.nodup_finRange _).map fun i j hij => Fin.ext ?_
    have hj := hdepth j
    rw [← hij] at hj
    exact (hdepth i).unique hj
  have hsub : ((List.finRange (d + 1)).map node) ⊆ nodes := by
    intro b hb
    obtain ⟨k, -, rfl⟩ := List.mem_map.mp hb
    exact hmem k
  have hlen := (List.subperm_of_subset hnodup hsub).length_le
  rw [List.length_map, List.length_finRange] at hlen
  exact hlen

/-- An ancestor is less deep. -/
theorem of_ancestor (h : DepthIs parent a d)
    (hup : Relation.TransGen (fun x y => parent x = some y) a p) : ∃ e < d, DepthIs parent p e := by
  induction hup with
  | single hlink =>
    cases h with
    | root hroot => rw [hroot] at hlink; cases hlink
    | child hlink' up => exact ⟨_, Nat.lt_succ_self _, (up.child hlink').of_parent hlink⟩
  | tail _ hlink ih =>
    obtain ⟨e, hlt, hdepth⟩ := ih
    cases hdepth with
    | root hroot => rw [hroot] at hlink; cases hlink
    | child hlink' up =>
      exact ⟨_, Nat.lt_of_succ_lt hlt, (up.child hlink').of_parent hlink⟩

/-- **The ways up end where there is no cycle.** -/
theorem forall_exists_iff_acyclic {nodes : List α}
    (closed : ∀ a ∈ nodes, ∀ p, parent a = some p → p ∈ nodes) :
    (∀ a ∈ nodes, ∃ d, DepthIs parent a d) ↔
      ∀ a ∈ nodes, ¬ Relation.TransGen (fun x y => parent x = some y) a a := by
  constructor
  · intro hends a ha hcycle
    obtain ⟨d, hdepth⟩ := hends a ha
    obtain ⟨e, hlt, hdepth'⟩ := hdepth.of_ancestor hcycle
    exact Nat.lt_irrefl d (hdepth'.unique hdepth ▸ hlt)
  · intro hacyclic a ha
    -- on finitely many nodes, an order without cycles ends on every way up
    let above : {a // a ∈ nodes} → {a // a ∈ nodes} → Prop := fun p a =>
      Relation.TransGen (fun x y => parent x = some y) a.1 p.1
    have : Finite {a // a ∈ nodes} := nodes.finite_toSet.to_subtype
    have : IsTrans _ above := ⟨fun _ _ _ hab hbc => hbc.trans hab⟩
    have : Std.Irrefl above := ⟨fun a => hacyclic a.1 a.2⟩
    have hwf : WellFounded above := Finite.wellFounded_of_trans_of_irrefl above
    suffices h : ∀ a : {a // a ∈ nodes}, ∃ d, DepthIs parent a.1 d from h ⟨a, ha⟩
    intro a
    induction a using hwf.induction with
    | _ a ih =>
      cases hlink : parent a.1 with
      | none => exact ⟨0, .root hlink⟩
      | some p =>
        obtain ⟨d, hdepth⟩ := ih ⟨p, closed a.1 a.2 p hlink⟩ (Relation.TransGen.single hlink)
        exact ⟨d + 1, .child hlink hdepth⟩

end DepthIs

/-! ## The walk -/

/-- A level and what is below it, each node before its children, to at most `fuel` levels. -/
def preorder (below : α → List α) : Nat → List α → Nat → List (α × Nat)
  | 0, _, _ => []
  | fuel + 1, level, depth =>
    level.flatMap fun a => (a, depth) :: preorder below fuel (below a) (depth + 1)

theorem preorder_nil (below : α → List α) (fuel depth : Nat) :
    preorder below fuel [] depth = [] := by
  cases fuel <;> rfl

/-- The lists of roots and of children are those of the links. -/
structure ChildLists (nodes : List α) (parent : α → Option α) (roots : List α)
    (below : α → List α) : Prop where
  closed : ∀ a ∈ nodes, ∀ p, parent a = some p → p ∈ nodes
  mem_roots : ∀ a, a ∈ roots ↔ a ∈ nodes ∧ parent a = none
  nodup_roots : roots.Nodup
  mem_below : ∀ p ∈ nodes, ∀ a, a ∈ below p ↔ a ∈ nodes ∧ parent a = some p
  nodup_below : ∀ p ∈ nodes, (below p).Nodup

namespace ChildLists

variable {nodes roots : List α} {parent : α → Option α} {below : α → List α}

/-- The order of a list of children is not part of it. -/
theorem of_perm (h : ChildLists nodes parent roots below) {roots' : List α} {below' : α → List α}
    (hroots : roots'.Perm roots) (hbelow : ∀ a, (below' a).Perm (below a)) :
    ChildLists nodes parent roots' below' where
  closed := h.closed
  mem_roots a := hroots.mem_iff.trans (h.mem_roots a)
  nodup_roots := hroots.nodup_iff.mpr h.nodup_roots
  mem_below p hp a := (hbelow p).mem_iff.trans (h.mem_below p hp a)
  nodup_below p hp := (hbelow p).nodup_iff.mpr (h.nodup_below p hp)

/-- A level: nodes of one depth. -/
def Level (nodes : List α) (parent : α → Option α) (level : List α) (depth : Nat) : Prop :=
  ∀ a ∈ level, a ∈ nodes ∧ DepthIs parent a depth

theorem level_roots (h : ChildLists nodes parent roots below) : Level nodes parent roots 0 :=
  fun a ha => ⟨((h.mem_roots a).mp ha).1, .root ((h.mem_roots a).mp ha).2⟩

theorem level_below (h : ChildLists nodes parent roots below) {p : α} {depth : Nat}
    (hp : p ∈ nodes) (hdepth : DepthIs parent p depth) :
    Level nodes parent (below p) (depth + 1) :=
  fun a ha => ⟨((h.mem_below p hp a).mp ha).1, .child ((h.mem_below p hp a).mp ha).2 hdepth⟩

/-- What the walk lists are nodes with their depths, none above the level it starts from. -/
theorem depthIs_of_mem (h : ChildLists nodes parent roots below) {fuel depth m : Nat}
    {level : List α} {x : α} (hlevel : Level nodes parent level depth)
    (hx : (x, m) ∈ preorder below fuel level depth) :
    x ∈ nodes ∧ DepthIs parent x m ∧ depth ≤ m := by
  induction fuel generalizing level depth with
  | zero => cases hx
  | succ fuel ih =>
    obtain ⟨a, ha, hx⟩ := List.mem_flatMap.mp hx
    obtain ⟨hnode, hdepth⟩ := hlevel a ha
    rcases List.mem_cons.mp hx with heq | hx
    · obtain ⟨rfl, rfl⟩ := Prod.mk.inj heq
      exact ⟨hnode, hdepth, Nat.le_refl _⟩
    · obtain ⟨hxnode, hxdepth, hle⟩ := ih (h.level_below hnode hdepth) hx
      exact ⟨hxnode, hxdepth, Nat.le_of_succ_le hle⟩

/-- **A node comes after its parent**: what the walk lists is of the level it starts from, or its
parent stands before it, one less deep. -/
theorem parent_sublist (h : ChildLists nodes parent roots below) {fuel depth m : Nat}
    {level : List α} {x : α} (hlevel : Level nodes parent level depth)
    (hx : (x, m) ∈ preorder below fuel level depth) :
    x ∈ level ∧ m = depth ∨ ∃ p k, parent x = some p ∧ m = k + 1 ∧
      [(p, k), (x, m)].Sublist (preorder below fuel level depth) := by
  induction fuel generalizing level depth with
  | zero => cases hx
  | succ fuel ih =>
    obtain ⟨a, ha, hx⟩ := List.mem_flatMap.mp hx
    obtain ⟨hnode, hdepth⟩ := hlevel a ha
    have hpart : ((a, depth) :: preorder below fuel (below a) (depth + 1)).Sublist
        (preorder below (fuel + 1) level depth) := by
      rw [preorder, List.flatMap_def]
      exact List.sublist_flatten_of_mem (List.mem_map.mpr ⟨a, ha, rfl⟩)
    rcases List.mem_cons.mp hx with heq | hx
    · obtain ⟨rfl, rfl⟩ := Prod.mk.inj heq
      exact Or.inl ⟨ha, rfl⟩
    · rcases ih (h.level_below hnode hdepth) hx with ⟨hbelow, rfl⟩ | ⟨p, k, hlink, hm, hsub⟩
      · have hlink := ((h.mem_below a hnode x).mp hbelow).2
        have hpair : [(a, depth), (x, depth + 1)].Sublist
            ((a, depth) :: preorder below fuel (below a) (depth + 1)) :=
          (List.singleton_sublist.mpr hx).cons_cons _
        exact Or.inr ⟨a, depth, hlink, rfl, hpair.trans hpart⟩
      · exact Or.inr ⟨p, k, hlink, hm, (hsub.cons _).trans hpart⟩

/-- A node is below one node of a level at most. -/
theorem eq_of_mem_both (h : ChildLists nodes parent roots below) {fuel depth m : Nat} {a b x : α}
    (ha : Level nodes parent [a] depth) (hb : Level nodes parent [b] depth)
    (hxa : (x, m) ∈ preorder below fuel [a] depth) (hxb : (x, m) ∈ preorder below fuel [b] depth) :
    a = b := by
  induction m generalizing x with
  | zero =>
    rcases h.parent_sublist ha hxa with ⟨hx, -⟩ | ⟨_, _, -, hm, -⟩
    · rcases h.parent_sublist hb hxb with ⟨hx', -⟩ | ⟨_, _, -, hm, -⟩
      · rw [← List.mem_singleton.mp hx, ← List.mem_singleton.mp hx']
      · cases hm
    · cases hm
  | succ m ih =>
    rcases h.parent_sublist ha hxa with ⟨hx, hm⟩ | ⟨p, k, hlink, hm, hsub⟩
    · rcases h.parent_sublist hb hxb with ⟨hx', -⟩ | ⟨p, k, -, hm', hsub⟩
      · rw [← List.mem_singleton.mp hx, ← List.mem_singleton.mp hx']
      · have hle := (h.depthIs_of_mem hb (hsub.subset List.mem_cons_self)).2.2
        omega
    · have hpa := hsub.subset List.mem_cons_self
      have hle := (h.depthIs_of_mem ha hpa).2.2
      rcases h.parent_sublist hb hxb with ⟨-, hm'⟩ | ⟨q, l, hlink', hm', hsub'⟩
      · omega
      · rw [hlink] at hlink'
        obtain rfl := Option.some.inj hlink'
        obtain rfl := Nat.succ.inj hm
        obtain rfl := Nat.succ.inj hm'
        exact ih hpa (hsub'.subset List.mem_cons_self)

/-- **The walk lists each node once.** -/
theorem nodup_preorder (h : ChildLists nodes parent roots below) {fuel depth : Nat}
    {level : List α} (hlevel : Level nodes parent level depth) (hnodup : level.Nodup) :
    ((preorder below fuel level depth).map Prod.fst).Nodup := by
  induction fuel generalizing level depth with
  | zero => exact List.nodup_nil
  | succ fuel ih =>
    have hone : ∀ a ∈ level, Level nodes parent [a] depth := fun a ha b hb =>
      List.mem_singleton.mp hb ▸ hlevel a ha
    have hsingle : ∀ a, preorder below (fuel + 1) [a] depth =
        (a, depth) :: preorder below fuel (below a) (depth + 1) := fun a => List.flatMap_singleton ..
    rw [preorder, List.map_flatMap, List.nodup_flatMap]
    refine ⟨fun a ha => ?_, hnodup.imp_of_mem fun {a b} ha hb hne => ?_⟩
    · obtain ⟨hnode, hdepth⟩ := hlevel a ha
      have hbelow := h.level_below hnode hdepth
      refine List.nodup_cons.mpr ⟨fun hself => ?_, ih hbelow (h.nodup_below a hnode)⟩
      -- everything below the node is deeper than it
      obtain ⟨⟨x, m⟩, hx, rfl⟩ := List.mem_map.mp hself
      obtain ⟨-, hxdepth, hle⟩ := h.depthIs_of_mem hbelow hx
      have := hxdepth.unique hdepth
      omega
    · refine List.disjoint_left.mpr ?_
      intro x hina hinb
      obtain ⟨⟨_, m⟩, hxa, rfl⟩ := List.mem_map.mp hina
      obtain ⟨⟨y, n⟩, hxb, hxy⟩ := List.mem_map.mp hinb
      obtain rfl : y = _ := hxy
      rw [← hsingle] at hxa hxb
      have hm := (h.depthIs_of_mem (hone a ha) hxa).2.1
      obtain rfl := hm.unique (h.depthIs_of_mem (hone b hb) hxb).2.1
      exact hne (h.eq_of_mem_both (hone a ha) (hone b hb) hxa hxb)

/-- With a turn for every level, the children of what the walk lists are listed, too. -/
theorem mem_of_parent (h : ChildLists nodes parent roots below) {fuel depth m : Nat}
    {level : List α} {x p : α} (hfuel : nodes.length < fuel + depth)
    (hlevel : Level nodes parent level depth) (hp : (p, m) ∈ preorder below fuel level depth)
    (hx : x ∈ nodes) (hlink : parent x = some p) :
    (x, m + 1) ∈ preorder below fuel level depth := by
  induction fuel generalizing level depth with
  | zero => cases hp
  | succ fuel ih =>
    obtain ⟨a, ha, hp⟩ := List.mem_flatMap.mp hp
    obtain ⟨hnode, hdepth⟩ := hlevel a ha
    have hbelow := h.level_below hnode hdepth
    refine List.mem_flatMap.mpr ⟨a, ha, List.mem_cons_of_mem _ ?_⟩
    rcases List.mem_cons.mp hp with heq | hp
    · obtain ⟨rfl, rfl⟩ := Prod.mk.inj heq
      have hchild : x ∈ below p := (h.mem_below p hnode x).mpr ⟨hx, hlink⟩
      have hlt := (hbelow x hchild).2.lt_length h.closed hx
      obtain ⟨fuel, rfl⟩ : ∃ n, fuel = n + 1 := ⟨fuel - 1, by omega⟩
      exact List.mem_flatMap.mpr ⟨x, hchild, List.mem_cons_self⟩
    · exact ih (by omega) hbelow hp

/-- **The walk from the roots lists exactly the nodes whose way up ends**, each with its depth. -/
theorem mem_preorder_iff (h : ChildLists nodes parent roots below) {fuel m : Nat} {x : α}
    (hfuel : nodes.length < fuel) :
    (x, m) ∈ preorder below fuel roots 0 ↔ x ∈ nodes ∧ DepthIs parent x m := by
  constructor
  · intro hx
    obtain ⟨hnode, hdepth, -⟩ := h.depthIs_of_mem h.level_roots hx
    exact ⟨hnode, hdepth⟩
  · rintro ⟨hx, hdepth⟩
    induction hdepth with
    | @root a hroot =>
      obtain ⟨fuel, rfl⟩ : ∃ n, fuel = n + 1 := ⟨fuel - 1, by omega⟩
      exact List.mem_flatMap.mpr ⟨a, (h.mem_roots a).mpr ⟨hx, hroot⟩, List.mem_cons_self⟩
    | @child a p d hlink _ ih =>
      exact h.mem_of_parent hfuel h.level_roots (ih (h.closed a hx p hlink)) hx hlink

/-- The walk lists all nodes exactly where every way up ends. -/
theorem perm_preorder_iff (h : ChildLists nodes parent roots below) {fuel : Nat}
    (hfuel : nodes.length < fuel) (hnodup : nodes.Nodup) :
    ((preorder below fuel roots 0).map Prod.fst).Perm nodes ↔
      ∀ a ∈ nodes, ∃ d, DepthIs parent a d := by
  rw [List.perm_ext_iff_of_nodup (h.nodup_preorder h.level_roots h.nodup_roots) hnodup]
  constructor
  · intro hall a ha
    obtain ⟨⟨_, d⟩, hmem, rfl⟩ := List.mem_map.mp ((hall a).mpr ha)
    exact ⟨d, ((h.mem_preorder_iff hfuel).mp hmem).2⟩
  · intro hends a
    constructor
    · intro ha
      obtain ⟨⟨_, d⟩, hmem, rfl⟩ := List.mem_map.mp ha
      exact ((h.mem_preorder_iff hfuel).mp hmem).1
    · intro ha
      obtain ⟨d, hdepth⟩ := hends a ha
      exact List.mem_map.mpr ⟨(a, d), (h.mem_preorder_iff hfuel).mpr ⟨ha, hdepth⟩, rfl⟩

end ChildLists

end Library
