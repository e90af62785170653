import Mathlib.Algebra.BigOperators.Group.List.Basic
import Mathlib.Algebra.Order.BigOperators.Group.List
import Mathlib.Algebra.Order.Ring.Nat
import RuntimeTrail.Library.Loop

/-!
# Walks over an explicit stack

A loop that pops an entry and pushes what is below it walks a forest without
recursion.  What it pops, and in which order, is what a recursion over the same
forest comes to, so a total the loop keeps is the total the recursion returns.

* **the order** — `StackWalk.order`, the entries of one entry's tree as a recursion
  lists them, and `StackWalk.stackInduct`, the induction over a stack;
* **a walk to the end** — `Walks.run_eq`: the loop folds its visit over the order of
  its stack, and `Walks.popped_eq`: it pops each entry of that order once;
* **recursion** — `StackWalk.foldl_order`: a function with the recursive equation
  computes the fold, and `StackWalk.foldl_flatMap_order_assoc` gathers with an
  associative operation;
* **a walk that may stop** — `Searches.run_eq` and `Searches.popped_isPrefix`: the loop
  answers whether some entry of the order is sought, and pops no entry past the first.
-/

namespace Library

universe u v

/-- What takes the place of a popped entry, under a weight that shows that the walk ends. -/
structure StackWalk (α : Type u) where
  pushed : α → List α
  weight : α → Nat
  weight_pushed : ∀ a, ((pushed a).map weight).sum < weight a

namespace StackWalk

variable {α : Type u} {σ : Type v} (W : StackWalk α)

theorem weight_lt {a b : α} (h : b ∈ W.pushed a) : W.weight b < W.weight a :=
  Nat.lt_of_le_of_lt
    (List.single_le_sum (fun _ _ => Nat.zero_le _) _ (List.mem_map_of_mem h)) (W.weight_pushed a)

/-! ## The order -/

/-- An entry, and then the trees of what takes its place. -/
def order (a : α) : List α :=
  a :: (W.pushed a).attach.flatMap fun b => order b.1
termination_by W.weight a
decreasing_by exact W.weight_lt b.2

theorem order_eq (a : α) : W.order a = a :: (W.pushed a).flatMap W.order := by
  rw [order]
  congr 1
  conv_rhs => rw [← List.attach_map_subtype_val (W.pushed a), List.flatMap_map]

/-- **Recursion is the fold.**  A function that takes an entry by visiting it and then taking
what takes its place is the fold of the visit over the entry's order. -/
theorem foldl_order {visit g : σ → α → σ}
    (hg : ∀ acc a, g acc a = (W.pushed a).foldl g (visit acc a)) (acc : σ) (a : α) :
    (W.order a).foldl visit acc = g acc a := by
  generalize hn : W.weight a = n
  induction n using Nat.strongRecOn generalizing acc a with
  | _ n ih =>
    rw [order_eq, List.foldl_cons, List.foldl_flatMap, hg]
    refine List.foldl_ext _ _ _ fun acc b hb => ?_
    exact ih (W.weight b) (hn ▸ W.weight_lt hb) acc b rfl

/-- What an associative operation gathers: a function that gathers from an entry's own part and
from what takes its place gathers the own parts of the entry's order. -/
theorem foldl_order_assoc {op : σ → σ → σ} [Std.Associative op] {own f : α → σ}
    (hf : ∀ a, f a = ((W.pushed a).map f).foldl op (own a)) (acc : σ) (a : α) :
    (W.order a).foldl (fun acc b => op acc (own b)) acc = op acc (f a) := by
  refine W.foldl_order (g := fun acc a => op acc (f a)) (fun acc a => ?_) acc a
  have hmap : (W.pushed a).foldl (fun acc b => op acc (f b)) (op acc (own a)) =
      ((W.pushed a).map f).foldl op (op acc (own a)) := List.foldl_map.symm
  rw [hmap, hf a]
  exact List.foldl_assoc.symm

/-- Over a stack, too. -/
theorem foldl_flatMap_order_assoc {op : σ → σ → σ} [Std.Associative op] {own f : α → σ}
    (hf : ∀ a, f a = ((W.pushed a).map f).foldl op (own a)) (acc : σ) (stack : List α) :
    (stack.flatMap W.order).foldl (fun acc b => op acc (own b)) acc = (stack.map f).foldl op acc := by
  rw [List.foldl_flatMap, List.foldl_map]
  exact List.foldl_ext _ _ _ fun acc a _ => W.foldl_order_assoc hf acc a

/-- The order of a stack whose top entry was replaced. -/
theorem flatMap_order_cons (a : α) (stack : List α) :
    (a :: stack).flatMap W.order = a :: (W.pushed a ++ stack).flatMap W.order := by
  rw [List.flatMap_cons, order_eq, List.flatMap_append, List.cons_append]

/-- **Stack induction.**  What holds of an empty stack, and of a stack where it holds of the one
whose top entry was replaced, holds of every stack. -/
@[elab_as_elim]
theorem stackInduct {P : List α → Prop} (nil : P [])
    (cons : ∀ a stack, P (W.pushed a ++ stack) → P (a :: stack)) (stack : List α) : P stack := by
  generalize hn : (stack.map W.weight).sum = n
  induction n using Nat.strongRecOn generalizing stack with
  | _ n ih =>
    cases stack with
    | nil => exact nil
    | cons a stack =>
      refine cons a stack (ih _ ?_ _ rfl)
      have hlt := W.weight_pushed a
      rw [List.map_cons, List.sum_cons] at hn
      rw [List.map_append, List.sum_append]
      omega

end StackWalk

/-- The entries a loop over a stack pops, in order: the tops of its states' stacks. -/
def Loop.popped {α : Type u} {σ : Type v} (L : Loop (σ × List α)) (s : σ × List α) : List α :=
  (L.trace s).filterMap fun t => t.2.head?

theorem Loop.popped_of_none {α : Type u} {σ : Type v} {L : Loop (σ × List α)} {s : σ × List α}
    (h : L.step s = none) : L.popped s = [] := by
  rw [popped, trace_of_none h, List.filterMap_nil]

theorem Loop.popped_of_some {α : Type u} {σ : Type v} {L : Loop (σ × List α)} {acc : σ} {a : α}
    {stack : List α} {s' : σ × List α} (h : L.step (acc, a :: stack) = some s') :
    L.popped (acc, a :: stack) = a :: L.popped s' := by
  rw [popped, trace_of_some h]
  rfl

/-! ## A walk to the end -/

/-- The loop visits what it pops, until its stack is empty. -/
structure Walks {α : Type u} {σ : Type v} (W : StackWalk α) (L : Loop (σ × List α))
    (visit : σ → α → σ) : Prop where
  ends : ∀ acc, L.step (acc, []) = none
  turns : ∀ acc a stack, L.step (acc, a :: stack) = some (visit acc a, W.pushed a ++ stack)

namespace Walks

variable {α : Type u} {σ : Type v} {W : StackWalk α} {L : Loop (σ × List α)} {visit : σ → α → σ}

/-- The loop leaves the fold of its visit over the order of its stack. -/
theorem run_eq (h : Walks W L visit) (acc : σ) (stack : List α) :
    L.run (acc, stack) = ((stack.flatMap W.order).foldl visit acc, []) := by
  induction stack using W.stackInduct generalizing acc with
  | nil => exact Loop.run_of_none (h.ends acc)
  | cons a stack ih =>
    rw [Loop.run_of_some (h.turns acc a stack), ih, W.flatMap_order_cons, List.foldl_cons]

/-- **Each entry is popped once**, in the order of the recursion. -/
theorem popped_eq (h : Walks W L visit) (acc : σ) (stack : List α) :
    L.popped (acc, stack) = stack.flatMap W.order := by
  induction stack using W.stackInduct generalizing acc with
  | nil => exact Loop.popped_of_none (h.ends acc)
  | cons a stack ih =>
    rw [Loop.popped_of_some (h.turns acc a stack), ih, W.flatMap_order_cons]

end Walks

/-! ## A walk that may stop -/

/-- The loop looks for an entry with a property, and is over where it has popped one. -/
structure Searches {α : Type u} (W : StackWalk α) (L : Loop (Bool × List α)) (sought : α → Bool) :
    Prop where
  ends : L.step (false, []) = none
  found : ∀ stack, L.step (true, stack) = none
  finds : ∀ a stack, sought a = true → L.step (false, a :: stack) = some (true, [])
  turns : ∀ a stack, sought a = false →
    L.step (false, a :: stack) = some (false, W.pushed a ++ stack)

namespace Searches

variable {α : Type u} {W : StackWalk α} {L : Loop (Bool × List α)} {sought : α → Bool}

/-- The search answers whether some entry of the order is sought. -/
theorem run_eq (h : Searches W L sought) (stack : List α) :
    (L.run (false, stack)).1 = (stack.flatMap W.order).any sought := by
  induction stack using W.stackInduct with
  | nil => rw [Loop.run_of_none h.ends, List.flatMap_nil, List.any_nil]
  | cons a stack ih =>
    rw [W.flatMap_order_cons, List.any_cons]
    cases ha : sought a with
    | true =>
      rw [Loop.run_of_some (h.finds a stack ha), Loop.run_of_none (h.found []), Bool.true_or]
    | false => rw [Loop.run_of_some (h.turns a stack ha), ih, Bool.false_or]

/-- **No entry is popped twice**: what is popped is a first part of the order, and all of it
where the search finds nothing. -/
theorem popped_isPrefix (h : Searches W L sought) (stack : List α) :
    L.popped (false, stack) <+: stack.flatMap W.order ∧
      ((L.run (false, stack)).1 = false → L.popped (false, stack) = stack.flatMap W.order) := by
  induction stack using W.stackInduct with
  | nil =>
    rw [Loop.popped_of_none h.ends]
    exact ⟨List.nil_prefix, fun _ => rfl⟩
  | cons a stack ih =>
    rw [W.flatMap_order_cons]
    cases ha : sought a with
    | true =>
      have hstep := h.finds a stack ha
      rw [Loop.popped_of_some hstep, Loop.popped_of_none (h.found []), Loop.run_of_some hstep,
        Loop.run_of_none (h.found [])]
      exact ⟨(List.prefix_cons_inj a).mpr List.nil_prefix, fun hfalse => by cases hfalse⟩
    | false =>
      have hstep := h.turns a stack ha
      rw [Loop.popped_of_some hstep, Loop.run_of_some hstep]
      exact ⟨(List.prefix_cons_inj a).mpr ih.1, fun hfalse => congrArg _ (ih.2 hfalse)⟩

end Searches

end Library
