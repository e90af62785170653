import Mathlib.Data.UInt
import Mathlib.Logic.Function.Basic

/-!
# Digests taken item by item

A digest that folds a list into a state: each item is mixed in by a step.  Where the
step loses neither the state nor the item, two lists that differ in one place only never
share a digest, whatever stands before and after.

* **the fold** — `foldl_injective`, `foldl_ne_of_apart`;
* **words** — `mul_right_injective_of_inverse`: multiplying by a word that has an
  inverse loses nothing.
-/

namespace Library

universe u v

/-! ## The fold -/

section Fold

variable {σ : Type u} {β : Type v} {step : σ → β → σ}

/-- Two lists that differ in one place. -/
def Apart (l m : List β) : Prop :=
  ∃ front x y back, x ≠ y ∧ l = front ++ x :: back ∧ m = front ++ y :: back

/-- Items mixed in without loss of the state leave it told apart. -/
theorem foldl_injective (hstate : ∀ x, Function.Injective fun s => step s x) (l : List β) :
    Function.Injective fun s => l.foldl step s := by
  induction l with
  | nil => exact fun _ _ h => h
  | cons x l ih => exact fun s t h => hstate x (ih h)

/-- **One place is never lost.** -/
theorem foldl_ne_of_apart (hstate : ∀ x, Function.Injective fun s => step s x)
    (hitem : ∀ s, Function.Injective (step s)) {l m : List β} (h : Apart l m) (s : σ) :
    l.foldl step s ≠ m.foldl step s := by
  obtain ⟨front, x, y, back, hxy, rfl, rfl⟩ := h
  rw [List.foldl_append, List.foldl_append, List.foldl_cons, List.foldl_cons]
  intro heq
  exact hxy (hitem _ (foldl_injective hstate back heq))

end Fold

/-! ## Words -/

theorem mul_right_injective_of_inverse {a b : UInt64} (h : a * b = 1) :
    Function.Injective fun s => s * a := by
  intro s t hst
  have hst : s * a * b = t * a * b := congrArg (· * b) hst
  rwa [UInt64.mul_assoc, UInt64.mul_assoc, h, UInt64.mul_one, UInt64.mul_one] at hst

end Library
