import Mathlib.Data.List.Nodup
import Mathlib.Data.List.Perm.Basic

/-!
# Pairs of a list, and its classes

`pairs l` lists every unordered pair of positions once, the earlier one first.
A key splits a list into classes, and the pairs within the classes are the pairs
whose two members agree on the key (`pairs_classes_perm`).
-/

namespace Library

universe u v

variable {α : Type u} {β : Type v}

/-- Every element with every later one. -/
def pairs : List α → List (α × α)
  | [] => []
  | a :: l => l.map (fun b => (a, b)) ++ pairs l

theorem pairs_map (f : α → β) (l : List α) :
    pairs (l.map f) = (pairs l).map fun p => (f p.1, f p.2) := by
  induction l with
  | nil => rfl
  | cons a l ih => simp [pairs, ih]

theorem length_pairs_le (l : List α) : (pairs l).length ≤ l.length * l.length := by
  induction l with
  | nil => exact Nat.le_refl _
  | cons a l ih =>
    rw [pairs, List.length_append, List.length_map, List.length_cons]
    calc l.length + (pairs l).length
        ≤ l.length + l.length * l.length := Nat.add_le_add_left ih _
      _ = l.length * (l.length + 1) := by rw [Nat.mul_succ, Nat.add_comm]
      _ ≤ (l.length + 1) * (l.length + 1) := Nat.mul_le_mul_right _ (Nat.le_succ _)

/-- A pair of a list is two of its positions, one before the other. -/
theorem mem_pairs_iff {l : List α} {a b : α} :
    (a, b) ∈ pairs l ↔ List.Sublist [a, b] l := by
  induction l with
  | nil => simp [pairs]
  | cons c l ih =>
    rw [pairs, List.mem_append, List.mem_map, ih]
    constructor
    · rintro (⟨d, hd, h⟩ | h)
      · obtain ⟨rfl, rfl⟩ := Prod.mk.inj h
        exact (List.singleton_sublist.mpr hd).cons_cons c
      · exact h.cons c
    · intro h
      rcases List.sublist_cons_iff.mp h with h | ⟨r, hr, h⟩
      · exact Or.inr h
      · obtain ⟨rfl, rfl⟩ := List.cons.inj hr
        exact Or.inl ⟨b, List.singleton_sublist.mp h, rfl⟩

/-- The first element comes before the last of the others. -/
theorem first_last_sublist {l : List α} {a b : α} (hfirst : l.head? = some a)
    (hlast : l.tail.getLast? = some b) : List.Sublist [a, b] l := by
  cases l with
  | nil => cases hfirst
  | cons c l =>
    obtain rfl := Option.some.inj hfirst
    exact (List.singleton_sublist.mpr (List.mem_of_getLast? hlast)).cons_cons c

/-- No pair of a list relates what its positions do not. -/
theorem pairwise_iff_pairs {R : α → α → Prop} {l : List α} :
    l.Pairwise R ↔ ∀ p ∈ pairs l, R p.1 p.2 := by
  rw [List.pairwise_iff_forall_sublist]
  constructor
  · rintro h ⟨a, b⟩ hp
    exact h (mem_pairs_iff.mp hp)
  · intro h a b hab
    exact h (a, b) (mem_pairs_iff.mpr hab)

theorem pairs_filter (p : α → Bool) (l : List α) :
    pairs (l.filter p) = (pairs l).filter fun q => p q.1 && p q.2 := by
  induction l with
  | nil => rfl
  | cons a l ih =>
    rw [pairs, List.filter_append, List.filter_map, ← ih]
    by_cases h : p a = true
    · rw [List.filter_cons_of_pos h, pairs]
      congr 2
      refine List.filter_congr fun b _ => ?_
      simp [h]
    · rw [List.filter_cons_of_neg h]
      have hnone : (l.filter ((fun q : α × α => p q.1 && p q.2) ∘ fun b => (a, b))) = [] := by
        refine List.filter_eq_nil_iff.mpr fun b _ => ?_
        simp [h]
      rw [hnone, List.map_nil, List.nil_append]

variable {κ : Type v} [DecidableEq κ]

/-- The classes of distinct keys, one behind the other, are what has one of the keys. -/
theorem classes_perm (key : α → κ) (l : List α) {keys : List κ} (h : keys.Nodup) :
    (keys.flatMap fun k => l.filter fun a => decide (key a = k)).Perm
      (l.filter fun a => decide (key a ∈ keys)) := by
  induction keys with
  | nil => simp
  | cons k keys ih =>
    obtain ⟨hk, hnodup⟩ := List.nodup_cons.mp h
    rw [List.flatMap_cons]
    refine ((ih hnodup).append_left _).trans ?_
    -- what has one of the keys has the first one, or not
    have hsplit := (List.filter_append_perm (fun a => decide (key a = k))
      (l.filter fun a => decide (key a ∈ k :: keys))).symm
    rw [List.filter_filter, List.filter_filter] at hsplit
    refine (List.Perm.of_eq ?_).trans hsplit.symm
    congr 1
    · refine List.filter_congr fun a _ => ?_
      by_cases ha : key a = k <;> simp [ha]
    · refine List.filter_congr fun a _ => ?_
      by_cases ha : key a = k <;> simp [ha, hk]

/-- **Pairs within classes.**  Over keys that cover the list, the pairs of its classes are its pairs
of equal keys. -/
theorem pairs_classes_perm (key : α → κ) {l : List α} {keys : List κ} (h : keys.Nodup)
    (hcover : ∀ a ∈ l, key a ∈ keys) :
    (keys.flatMap fun k => pairs (l.filter fun a => decide (key a = k))).Perm
      ((pairs l).filter fun p => decide (key p.1 = key p.2)) := by
  -- within the pairs of equal keys, the classes are those of the first member
  have hclass : ∀ k, pairs (l.filter fun a => decide (key a = k)) =
      ((pairs l).filter fun p => decide (key p.1 = key p.2)).filter
        fun p => decide (key p.1 = k) := by
    intro k
    rw [pairs_filter, List.filter_filter]
    refine List.filter_congr fun p _ => ?_
    by_cases hp : key p.1 = k
    · subst hp
      simp [eq_comm]
    · simp [hp]
  simp only [hclass]
  refine (classes_perm (fun p : α × α => key p.1) _ h).trans (List.Perm.of_eq ?_)
  refine List.filter_eq_self.mpr fun p hp => ?_
  have hmem : p.1 ∈ l :=
    (mem_pairs_iff.mp (List.mem_filter.mp hp).1).subset (List.mem_cons_self ..)
  exact decide_eq_true (hcover _ hmem)

end Library
