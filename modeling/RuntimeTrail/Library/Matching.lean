import Mathlib.Data.List.Forall2
import Mathlib.Data.List.Perm.Basic
import Mathlib.Data.List.Sort

/-!
# Lists that match in some order

Two lists match under a relation when one of them can be reordered so that they
are related element by element.  This is what a table of rows and an ordered
index of the same records are to each other.

* **matching** — `Matched`: built by `cons`, taken apart by `of_cons`, blind to
  the order of either side (`perm_left`, `perm_right`);
* **order recovered** — `Matched.forall₂`: when the relation fixes a key both
  sides are strictly ordered by, the lists are related as they stand;
* **walks** — `mapM_ok_forall₂`: a walk that does not fail relates what it read to
  what it answers;
* **merging** — `forall₂_merge`: lists related element by element stay so when
  they are merged by a comparison the relation respects.
-/

namespace Library

universe u v w

section Matched

variable {α : Type u} {β : Type v} {R : α → β → Prop}

/-- Some reordering of `l` is related to `m` element by element. -/
def Matched (R : α → β → Prop) (l : List α) (m : List β) : Prop :=
  ∃ l', l.Perm l' ∧ List.Forall₂ R l' m

namespace Matched

variable {l l' : List α} {m m' : List β}

theorem nil : Matched R [] [] := ⟨[], List.Perm.refl _, List.Forall₂.nil⟩

theorem of_forall₂ (h : List.Forall₂ R l m) : Matched R l m := ⟨l, List.Perm.refl _, h⟩

theorem perm_left (h : Matched R l m) (hl : l'.Perm l) : Matched R l' m := by
  obtain ⟨k, hk, hrel⟩ := h
  exact ⟨k, hl.trans hk, hrel⟩

theorem perm_right (h : Matched R l m) (hm : m.Perm m') : Matched R l m' := by
  obtain ⟨k, hk, hrel⟩ := h
  -- the reordering of the right side is carried to the left
  obtain ⟨k', hrel', hk'⟩ := List.perm_comp_forall₂ hm.symm hrel.flip
  exact ⟨k', hk.trans hk'.symm, hrel'.flip⟩

theorem cons {a : α} {b : β} (hab : R a b) (h : Matched R l m) : Matched R (a :: l) (b :: m) := by
  obtain ⟨k, hk, hrel⟩ := h
  exact ⟨a :: k, hk.cons a, hrel.cons hab⟩

/-- The match of the right side's head, and the match of the rest. -/
theorem of_cons {b : β} (h : Matched R l (b :: m)) :
    ∃ a rest, l.Perm (a :: rest) ∧ R a b ∧ Matched R rest m := by
  obtain ⟨k, hk, hrel⟩ := h
  obtain ⟨a, rest, hab, hrest, rfl⟩ := List.forall₂_cons_right_iff.mp hrel
  exact ⟨a, rest, hk, hab, of_forall₂ hrest⟩

theorem exists_right (h : Matched R l m) {a : α} (ha : a ∈ l) : ∃ b ∈ m, R a b := by
  obtain ⟨k, hk, hrel⟩ := h
  have ha' : a ∈ k := hk.mem_iff.mp ha
  clear hk ha
  induction hrel with
  | nil => exact absurd ha' (by simp)
  | cons hab _ ih =>
    rcases List.mem_cons.mp ha' with rfl | ha'
    · exact ⟨_, List.mem_cons_self, hab⟩
    · obtain ⟨b, hb, hab⟩ := ih ha'
      exact ⟨b, List.mem_cons_of_mem _ hb, hab⟩

theorem flip (h : Matched R l m) : Matched (fun b a => R a b) m l := by
  obtain ⟨k, hk, hrel⟩ := h
  exact (of_forall₂ hrel.flip).perm_right hk.symm

theorem trans {γ : Type w} {S : β → γ → Prop} {T : α → γ → Prop} {n : List γ}
    (h : Matched R l m) (h' : Matched S m n) (hT : ∀ a b c, R a b → S b c → T a c) :
    Matched T l n := by
  obtain ⟨k', hk', hrel'⟩ := h'
  obtain ⟨k, hk, hrel⟩ := h.perm_right hk'
  refine ⟨k, hk, ?_⟩
  clear hk hk'
  induction hrel generalizing n with
  | nil =>
    cases hrel'
    exact List.Forall₂.nil
  | cons hab _ ih =>
    cases hrel' with
    | cons hbc hrest => exact List.Forall₂.cons (hT _ _ _ hab hbc) (ih hrest)

/-- What the relation fixes is listed alike on both sides, up to order. -/
theorem map_perm {γ : Type w} {f : α → γ} {g : β → γ} (h : Matched R l m)
    (hfg : ∀ a b, R a b → f a = g b) : (l.map f).Perm (m.map g) := by
  obtain ⟨k, hk, hrel⟩ := h
  have heq : k.map f = m.map g := by
    clear hk
    induction hrel with
    | nil => rfl
    | cons hab _ ih => rw [List.map_cons, List.map_cons, hfg _ _ hab, ih]
  rw [← heq]
  exact hk.map f

/-- Mapping the right side keeps the match. -/
theorem map_right {γ : Type w} {S : α → γ → Prop} {f : β → γ} (h : Matched R l m)
    (hS : ∀ a b, R a b → S a (f b)) : Matched S l (m.map f) := by
  obtain ⟨k, hk, hrel⟩ := h
  exact ⟨k, hk, List.forall₂_map_right_iff.mpr (hrel.imp hS)⟩

/-- **The order is recovered** from a key that the relation fixes and both sides increase in. -/
theorem forall₂ {κ : Type w} [Preorder κ] {f : α → κ} {g : β → κ} (h : Matched R l m)
    (hkey : ∀ a b, R a b → f a = g b) (hl : l.Pairwise (fun a a' => f a < f a'))
    (hm : m.Pairwise (fun b b' => g b < g b')) : List.Forall₂ R l m := by
  obtain ⟨k, hk, hrel⟩ := h
  have hsorted : k.Pairwise (fun a a' => f a < f a') := by
    clear hk
    induction hrel with
    | nil => exact List.Pairwise.nil
    | cons hab hrest ih =>
      obtain ⟨hhead, htail⟩ := List.pairwise_cons.mp hm
      refine List.pairwise_cons.mpr ⟨fun a' ha' => ?_, ih htail⟩
      obtain ⟨b', hb', hab'⟩ := (of_forall₂ hrest).exists_right ha'
      rw [hkey _ _ hab, hkey _ _ hab']
      exact hhead b' hb'
  have heq : l = k :=
    hk.eq_of_pairwise (fun a a' _ _ hlt hgt => absurd hgt (lt_asymm hlt)) hl hsorted
  rw [heq]
  exact hrel

end Matched

end Matched

/-- A walk none of whose steps fails answers its results in order. -/
theorem mapM_ok_forall₂ {α : Type u} {β ε : Type v} {f : α → Except ε β} {l : List α}
    (h : ∀ a ∈ l, ∃ b, f a = .ok b) :
    ∃ l', l.mapM f = .ok l' ∧ List.Forall₂ (fun a b => f a = .ok b) l l' := by
  induction l with
  | nil => exact ⟨[], rfl, List.Forall₂.nil⟩
  | cons a l ih =>
    obtain ⟨b, hb⟩ := h a List.mem_cons_self
    obtain ⟨l', hl', hrel⟩ := ih fun a' ha' => h a' (List.mem_cons_of_mem _ ha')
    refine ⟨b :: l', ?_, List.Forall₂.cons hb hrel⟩
    rw [List.mapM_cons, hb, hl']
    rfl

/-! ## Merging -/

/-- Related lists stay related when they are merged. -/
theorem forall₂_merge {α : Type u} {β : Type v} {R : α → β → Prop} {le : α → α → Bool}
    {le' : β → β → Bool} (hle : ∀ a b a' b', R a b → R a' b' → le a a' = le' b b')
    {xs : List α} {xs' : List β} (hxs : List.Forall₂ R xs xs') :
    ∀ {ys : List α} {ys' : List β}, List.Forall₂ R ys ys' →
      List.Forall₂ R (List.merge xs ys le) (List.merge xs' ys' le') := by
  induction hxs with
  | nil =>
    intro ys ys' hys
    rw [List.nil_merge, List.nil_merge]
    exact hys
  | @cons x x' xs xs' hx hxs ih =>
    intro ys ys' hys
    induction hys with
    | nil =>
      rw [List.merge_right, List.merge_right]
      exact List.Forall₂.cons hx hxs
    | @cons y y' ys ys' hy hys ihys =>
      cases h : le' x' y' with
      | true =>
        rw [List.cons_merge_cons_pos _ _ _ (by rw [hle _ _ _ _ hx hy, h]),
          List.cons_merge_cons_pos _ _ _ h]
        exact List.Forall₂.cons hx (ih (List.Forall₂.cons hy hys))
      | false =>
        rw [List.cons_merge_cons_neg _ _ _ (by rw [hle _ _ _ _ hx hy, h]; simp),
          List.cons_merge_cons_neg _ _ _ (by rw [h]; simp)]
        exact List.Forall₂.cons hy ihys

end Library
