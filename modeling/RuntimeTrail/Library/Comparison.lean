import Mathlib.Order.Compare

/-!
# Comparisons that order

A hand-written comparison is fit to keep a map in order only if it orders totally and
answers `eq` on exactly the pairs its owner takes for equal, whatever fields it ignores.

* **the law** — `TotalCmp`; its `congr`, that equal values compare alike with
  everything, is what a map's lookups rest on;
* **making comparisons** — a comparison on a key (`transCmp_on`), field after field
  (`transCmp_then`), and the step of a recursion over fields (`isLE_then_trans`).
-/

namespace Library

universe u v

variable {α : Type u} {β : Type v}

/-- A comparison orders totally, and answers `eq` exactly on the pairs that count as the same. -/
structure TotalCmp (cmp : α → α → Ordering) (same : α → α → Prop) : Prop where
  total : ∀ a b, (cmp a b).isLE ∨ (cmp b a).isLE
  swap : ∀ a b, cmp a b = (cmp b a).swap
  antisymm : ∀ a b, (cmp a b).isLE → (cmp b a).isLE → same a b
  trans : ∀ a b c, (cmp a b).isLE → (cmp b c).isLE → (cmp a c).isLE
  eq_iff : ∀ a b, cmp a b = .eq ↔ same a b
  congr : ∀ a b c, same a b → cmp a c = cmp b c

/-- A transitive comparison that tells apart what is not the same orders totally. -/
theorem TotalCmp.of_transCmp {cmp : α → α → Ordering} {same : α → α → Prop} [Std.TransCmp cmp]
    (h : ∀ a b, cmp a b = .eq ↔ same a b) : TotalCmp cmp same where
  total a b := by
    rcases hcmp : cmp a b with _ | _ | _
    · exact Or.inl rfl
    · exact Or.inl rfl
    · exact Or.inr (by rw [Std.OrientedCmp.lt_of_gt hcmp]; rfl)
  swap _ _ := Std.OrientedCmp.eq_swap
  antisymm a b hab hba := (h a b).mp (Std.OrientedCmp.isLE_antisymm hab hba)
  trans _ _ _ := Std.TransCmp.isLE_trans
  eq_iff := h
  congr a b c hab := Std.TransCmp.congr_left ((h a b).mpr hab)

/-! ## Making comparisons -/

/-- Values compared by a key. -/
theorem transCmp_on (f : α → β) {cmp : β → β → Ordering} (h : Std.TransCmp cmp) :
    Std.TransCmp fun a b => cmp (f a) (f b) where
  eq_swap := h.eq_swap
  isLE_trans := h.isLE_trans

/-- Values compared by one comparison, and where it answers `eq` by the next. -/
theorem transCmp_then {first next : α → α → Ordering} (hfirst : Std.TransCmp first)
    (hnext : Std.TransCmp next) : Std.TransCmp fun a b => (first a b).then (next a b) :=
  inferInstanceAs (Std.TransCmp (compareLex first next))

/-- One step of a comparison field after field: the fields before decide, and where they answer
`eq` both times, the fields after do. -/
theorem isLE_then_trans {first first' first'' next next' next'' : Ordering}
    (hle : first.isLE → first'.isLE → first''.isLE)
    (heq : first.isLE → first'.isLE → first'' = .eq → first = .eq ∧ first' = .eq)
    (hnext : next.isLE → next'.isLE → next''.isLE)
    (h : (first.then next).isLE) (h' : (first'.then next').isLE) :
    (first''.then next'').isLE := by
  have hfirst : first.isLE := by cases first <;> first | rfl | exact absurd h (by simp)
  have hfirst' : first'.isLE := by cases first' <;> first | rfl | exact absurd h' (by simp)
  have hle := hle hfirst hfirst'
  rcases hfirst'' : first'' with _ | _ | _
  · rfl
  · obtain ⟨rfl, rfl⟩ := heq hfirst hfirst' hfirst''
    exact hnext h h'
  · rw [hfirst''] at hle
    cases hle

end Library
