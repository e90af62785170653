import Mathlib.Algebra.Order.BigOperators.Group.List
import Mathlib.Algebra.Order.Ring.Nat
import Mathlib.Data.List.Pairwise
import Mathlib.Data.List.Sort

/-!
# Decoders that can be read backwards

A decoder recovers its input when what it answers can be written back to a normal
form of what it read, and the normal form is accepted with the same answer.  Then
two accepted inputs decode alike exactly when their normal forms agree
(`Recovers.eq_iff`): nothing else is lost, and nothing of the normal form is
invented.

* **fallible steps** — `bind_eq_ok_iff`, `mapM_eq_ok_iff`, `forM_eq_ok_iff`: what each
  step of an accepted run answered;
* **composition** — `Recovers.mapM`;
* **lists read as maps** — `insertionSort_eq_of_perm`: the list in key order is the
  normal form of a list whose keys are distinct.
-/

namespace Library

universe u v w

/-! ## Fallible steps -/

section Except

variable {ε : Type u} {α β : Type v}

theorem bind_eq_ok_iff {x : Except ε α} {f : α → Except ε β} {b : β} :
    (x >>= f) = .ok b ↔ ∃ a, x = .ok a ∧ f a = .ok b := by
  cases x with
  | error e => simp [bind, Except.bind]
  | ok a => simp [bind, Except.bind]

theorem map_eq_ok_iff {x : Except ε α} {f : α → β} {b : β} :
    x.map f = .ok b ↔ ∃ a, x = .ok a ∧ f a = b := by
  cases x with
  | error e => simp [Except.map]
  | ok a => simp [Except.map]

theorem mapError_eq_ok_iff {ε' : Type u} {x : Except ε α} {f : ε → ε'} {a : α} :
    x.mapError f = .ok a ↔ x = .ok a := by
  cases x with
  | error e => simp [Except.mapError]
  | ok a => simp [Except.mapError]

/-- A list is accepted exactly when each element is, in order. -/
theorem mapM_eq_ok_iff {f : α → Except ε β} {l : List α} {r : List β} :
    l.mapM f = .ok r ↔ List.Forall₂ (fun a b => f a = .ok b) l r := by
  induction l generalizing r with
  | nil =>
    rw [List.mapM_nil, List.forall₂_nil_left_iff]
    exact ⟨fun h => (Except.ok.inj h).symm, fun h => h ▸ rfl⟩
  | cons a l ih =>
    rw [List.mapM_cons, bind_eq_ok_iff]
    constructor
    · rintro ⟨b, ha, hrest⟩
      obtain ⟨rest, hl, hr⟩ := bind_eq_ok_iff.mp hrest
      obtain rfl := Except.ok.inj hr
      exact .cons ha (ih.mp hl)
    · intro h
      cases h with
      | cons ha hl => exact ⟨_, ha, bind_eq_ok_iff.mpr ⟨_, ih.mpr hl, rfl⟩⟩

/-- A walk is done exactly when no element stops it. -/
theorem forM_eq_ok_iff {f : α → Except ε PUnit} {l : List α} :
    l.forM f = .ok () ↔ ∀ a ∈ l, f a = .ok () := by
  induction l with
  | nil => exact ⟨fun _ a ha => absurd ha List.not_mem_nil, fun _ => rfl⟩
  | cons a l ih =>
    change (f a >>= fun _ => l.forM f) = .ok () ↔ _
    rw [bind_eq_ok_iff, List.forall_mem_cons]
    exact ⟨fun ⟨_, ha, hl⟩ => ⟨ha, ih.mp hl⟩, fun ⟨ha, hl⟩ => ⟨_, ha, ih.mpr hl⟩⟩

/-- Every answer of an accepted list is some element's. -/
theorem exists_of_mapM_eq_ok {f : α → Except ε β} {l : List α} {r : List β} (h : l.mapM f = .ok r)
    {b : β} (hb : b ∈ r) : ∃ a, f a = .ok b := by
  replace h := mapM_eq_ok_iff.mp h
  induction h with
  | nil => exact absurd hb List.not_mem_nil
  | cons ha _ ih =>
    rcases List.mem_cons.mp hb with rfl | hb
    · exact ⟨_, ha⟩
    · exact ih hb

/-- A list has answers exactly when each element has one. -/
theorem exists_mapM_eq_ok_iff {f : α → Except ε β} {l : List α} :
    (∃ r, l.mapM f = .ok r) ↔ ∀ a ∈ l, ∃ b, f a = .ok b := by
  simp only [mapM_eq_ok_iff]
  induction l with
  | nil => exact ⟨fun _ a ha => absurd ha List.not_mem_nil, fun _ => ⟨[], .nil⟩⟩
  | cons a l ih =>
    rw [List.forall_mem_cons, ← ih]
    constructor
    · rintro ⟨r, h⟩
      cases h with
      | cons ha hl => exact ⟨⟨_, ha⟩, ⟨_, hl⟩⟩
    · rintro ⟨⟨b, hb⟩, ⟨r, hr⟩⟩
      exact ⟨b :: r, .cons hb hr⟩

/-- A list written from answers is accepted with those answers. -/
theorem mapM_map_eq_ok {f : α → Except ε β} {g : β → α} {r : List β}
    (h : ∀ b ∈ r, f (g b) = .ok b) : (r.map g).mapM f = .ok r := by
  rw [mapM_eq_ok_iff, List.forall₂_map_left_iff]
  exact List.forall₂_same.mpr h

end Except

/-! ## Recovery -/

section Recovery

variable {ε : Type u} {α β : Type v}

/-- What is decoded can be written back to the normal form of what was read, and the normal form
decodes to the same. -/
structure Recovers (decode : α → Except ε β) (normal : α → α) (recover : β → α) : Prop where
  recover_eq : ∀ {a b}, decode a = .ok b → recover b = normal a
  decode_normal : ∀ {a b}, decode a = .ok b → decode (normal a) = .ok b

namespace Recovers

variable {decode : α → Except ε β} {normal : α → α} {recover : β → α}

/-- **Two accepted inputs decode alike exactly when their normal forms agree.** -/
theorem eq_iff (h : Recovers decode normal recover) {a a' : α} {b b' : β} (ha : decode a = .ok b)
    (ha' : decode a' = .ok b') : b = b' ↔ normal a = normal a' := by
  constructor
  · rintro rfl
    rw [← h.recover_eq ha, ← h.recover_eq ha']
  · intro hnormal
    have hb := h.decode_normal ha
    rw [hnormal, h.decode_normal ha'] at hb
    exact (Except.ok.inj hb).symm

/-- A decoder that loses nothing is its own normal form. -/
theorem exact (h : ∀ {a b}, decode a = .ok b → recover b = a) : Recovers decode id recover :=
  ⟨h, id⟩

/-- A list recovers element by element. -/
theorem mapM (h : Recovers decode normal recover) :
    Recovers (List.mapM decode) (List.map normal) (List.map recover) where
  recover_eq := by
    intro l r hl
    replace hl := mapM_eq_ok_iff.mp hl
    induction hl with
    | nil => rfl
    | cons ha _ ih => rw [List.map_cons, List.map_cons, h.recover_eq ha, ih]
  decode_normal := by
    intro l r hl
    replace hl := mapM_eq_ok_iff.mp hl
    refine mapM_eq_ok_iff.mpr ?_
    induction hl with
    | nil => exact .nil
    | cons ha _ ih => exact .cons (h.decode_normal ha) ih

end Recovers

end Recovery

/-! ## Lists read as maps -/

section Keyed

variable {α : Type u} {κ : Type v} [LinearOrder κ] {key : α → κ}

/-- A list in strict key order is what sorting any permutation of it by key gives. -/
theorem insertionSort_eq_of_perm {l s : List α} (hperm : l.Perm s)
    (hsorted : s.Pairwise fun a b => key a < key b) :
    l.insertionSort (fun a b => key a ≤ key b) = s := by
  have hsort : (l.insertionSort fun a b => key a ≤ key b).Perm s :=
    (List.perm_insertionSort _ l).trans hperm
  have htotal : Std.Total fun a b => key a ≤ key b := ⟨fun a b => le_total (key a) (key b)⟩
  have htrans : IsTrans α fun a b => key a ≤ key b := ⟨fun _ _ _ => le_trans⟩
  refine List.Perm.eq_of_pairwise ?_ (List.pairwise_insertionSort (fun a b => key a ≤ key b) l)
    (hsorted.imp le_of_lt) hsort
  intro a b ha hb hab hba
  -- two entries of a strictly sorted list that share a key are one entry
  by_contra hne
  have hsymm : Std.Symm fun a b : α => key a ≠ key b := ⟨fun _ _ h => h.symm⟩
  have hkeys : s.Pairwise fun a b => key a ≠ key b := hsorted.imp fun h => h.ne
  exact hkeys.forall (hsort.mem_iff.mp ha) hb hne (le_antisymm hab hba)

/-- With distinct keys, sorting by key forgets the order and nothing else. -/
theorem insertionSort_eq_iff_perm {l l' : List α} (hl : (l.map key).Nodup) :
    l.insertionSort (fun a b => key a ≤ key b) = l'.insertionSort (fun a b => key a ≤ key b) ↔
      l.Perm l' := by
  have htotal : Std.Total fun a b => key a ≤ key b := ⟨fun a b => le_total (key a) (key b)⟩
  have htrans : IsTrans α fun a b => key a ≤ key b := ⟨fun _ _ _ => le_trans⟩
  constructor
  · intro h
    exact (List.perm_insertionSort _ l).symm.trans (h ▸ List.perm_insertionSort _ l')
  · intro h
    refine (insertionSort_eq_of_perm
      (h.symm.trans (List.perm_insertionSort (fun a b => key a ≤ key b) l).symm) ?_).symm
    have hnodup : ((l.insertionSort fun a b => key a ≤ key b).map key).Nodup :=
      ((List.perm_insertionSort _ l).map key).nodup_iff.mpr hl
    have hne := List.pairwise_map.mp hnodup
    exact (hne.and (List.pairwise_insertionSort _ l)).imp fun h => lt_of_le_of_ne h.2 h.1

end Keyed

end Library
