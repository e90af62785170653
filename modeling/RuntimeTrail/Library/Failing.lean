import RuntimeTrail.Library.Recovery

/-!
# What a computation can fail with

`FailsWithin P x`: if `x` fails, it is with an error that satisfies `P`.  A bound on the
errors of a whole decoder is assembled from its steps: a sequence fails where one of its
steps does, and a walk over a list where it does at an element.
-/

namespace Library

universe u v

variable {ε ε' : Type u} {α β : Type v} {P : ε → Prop} {Q : ε' → Prop}

/-- If the computation fails, it is with an error of this kind. -/
def FailsWithin (P : ε → Prop) : Except ε α → Prop
  | .ok _ => True
  | .error e => P e

namespace FailsWithin

theorem ok (a : α) : FailsWithin P (.ok a : Except ε α) := trivial

/-- A sequence fails in its first step, or in the second from what the first answered. -/
theorem bind {x : Except ε α} {f : α → Except ε β} (hx : FailsWithin P x)
    (hf : ∀ a, x = .ok a → FailsWithin P (f a)) : FailsWithin P (x >>= f) := by
  cases x with
  | ok a => exact hf a rfl
  | error e => exact hx

theorem map_iff {x : Except ε α} {f : α → β} : FailsWithin P (x.map f) ↔ FailsWithin P x := by
  cases x with
  | ok a => exact Iff.rfl
  | error e => exact Iff.rfl

theorem map {x : Except ε α} (f : α → β) (hx : FailsWithin P x) : FailsWithin P (x.map f) :=
  map_iff.mpr hx

theorem mapError {x : Except ε α} {f : ε → ε'} (hx : FailsWithin (fun e => Q (f e)) x) :
    FailsWithin Q (x.mapError f) := by
  cases x with
  | ok a => trivial
  | error e => exact hx

/-- A walk over a list fails at one of its elements. -/
theorem mapM {f : α → Except ε β} {l : List α} (h : ∀ a ∈ l, FailsWithin P (f a)) :
    FailsWithin P (l.mapM f) := by
  induction l with
  | nil => trivial
  | cons a l ih =>
    rw [List.mapM_cons]
    refine bind (h a List.mem_cons_self) fun b _ => ?_
    exact bind (ih fun a' ha' => h a' (List.mem_cons_of_mem _ ha')) fun _ _ => ok _

end FailsWithin

end Library
