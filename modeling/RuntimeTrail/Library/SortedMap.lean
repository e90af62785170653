import Mathlib.Algebra.Order.BigOperators.Group.List
import Mathlib.Algebra.Order.Ring.Nat
import Mathlib.Data.List.Pairwise
import Mathlib.Data.List.Perm.Basic

/-!
# Ordered maps as key-sorted lists

An ordered map is a list of entries whose keys strictly increase; the order is
a field of the structure, so a map out of order cannot be built.  What a caller
needs is stated once:

* **orders** — `linearOrderOfCmp`: a comparison function with the laws of one is
  a linear order, so a key type brings its own comparison;
* **lookup** — `get?_eq_some_iff`: a lookup answers exactly the entry listed
  under the key;
* **insertion** — `insert_perm`, for everything that sums over the entries;
* **the least entry** — `entries_of_firstKey?`, `firstKey?_le`: the first key is below
  all the others.
-/

namespace Library

universe u v

/-! ## Orders given by a comparison -/

/-- A lawful comparison is a linear order. -/
@[reducible] def linearOrderOfCmp {α : Type u} [DecidableEq α] (cmp : α → α → Ordering)
    [Std.TransCmp cmp] [Std.LawfulEqCmp cmp] : LinearOrder α where
  le a b := (cmp a b).isLE
  lt a b := cmp a b = .lt
  le_refl _ := Std.ReflCmp.isLE_rfl
  le_trans _ _ _ := Std.TransCmp.isLE_trans
  lt_iff_le_not_ge a b := by
    constructor
    · intro h
      exact ⟨by simp [h], Std.OrientedCmp.not_isLE_of_lt h⟩
    · rintro ⟨-, h⟩
      exact Std.OrientedCmp.lt_of_not_isLE h
  le_antisymm _ _ hab hba :=
    Std.LawfulEqCmp.eq_of_compare (Std.OrientedCmp.isLE_antisymm hab hba)
  le_total a b := by
    rcases h : cmp a b with _ | _ | _
    · exact Or.inl (by simp)
    · exact Or.inl (by simp)
    · exact Or.inr (by simp [Std.OrientedCmp.lt_of_gt h])
  toDecidableLE a b := inferInstanceAs (Decidable ((cmp a b).isLE = true))
  toDecidableLT a b := inferInstanceAs (Decidable (cmp a b = .lt))
  toDecidableEq := inferInstance

/-! ## The map -/

/-- A map from an ordered key type, held as its entries in key order. -/
structure SortedMap (κ : Type u) [LinearOrder κ] (β : Type v) where
  /-- The entries, keys strictly increasing. -/
  entries : List (κ × β)
  sorted : entries.Pairwise (fun a b => a.1 < b.1)

namespace SortedMap

variable {κ : Type u} [LinearOrder κ] {β : Type v}

@[ext] theorem ext {m n : SortedMap κ β} (h : m.entries = n.entries) : m = n := by
  cases m; cases n; simpa using h

instance [DecidableEq β] : DecidableEq (SortedMap κ β) :=
  fun m n => decidable_of_iff (m.entries = n.entries) ⟨ext, fun h => h ▸ rfl⟩

/-- The map with no entry. -/
def empty : SortedMap κ β := ⟨[], List.Pairwise.nil⟩

/-- The value listed under a key. -/
def get? (m : SortedMap κ β) (k : κ) : Option β :=
  (m.entries.find? (fun p => p.1 = k)).map (·.2)

/-- Whether a key is listed. -/
def contains (m : SortedMap κ β) (k : κ) : Bool := m.entries.any (fun p => p.1 = k)

/-- How many entries stand. -/
def length (m : SortedMap κ β) : Nat := m.entries.length

/-- One pass over the entries: replace the value of an equal key, or enter the key in place. -/
def insertEntry (k : κ) (v : β) : List (κ × β) → List (κ × β)
  | [] => [(k, v)]
  | p :: rest =>
    if k < p.1 then (k, v) :: p :: rest
    else if k = p.1 then (k, v) :: rest
    else p :: insertEntry k v rest

/-! ## Membership -/

theorem mem_insertEntry_imp {k : κ} {v : β} {p : κ × β} {l : List (κ × β)}
    (h : p ∈ insertEntry k v l) : p = (k, v) ∨ p ∈ l := by
  induction l with
  | nil => exact Or.inl (by simpa [insertEntry] using h)
  | cons q rest ih =>
    unfold insertEntry at h
    split at h
    · rcases List.mem_cons.mp h with h | h
      · exact Or.inl h
      · exact Or.inr h
    · split at h
      · rcases List.mem_cons.mp h with h | h
        · exact Or.inl h
        · exact Or.inr (List.mem_cons_of_mem _ h)
      · rcases List.mem_cons.mp h with h | h
        · exact Or.inr (by simp [h])
        · rcases ih h with h | h
          · exact Or.inl h
          · exact Or.inr (List.mem_cons_of_mem _ h)

theorem pairwise_insertEntry (k : κ) (v : β) {l : List (κ × β)}
    (h : l.Pairwise (fun a b => a.1 < b.1)) :
    (insertEntry k v l).Pairwise (fun a b => a.1 < b.1) := by
  induction l with
  | nil => simp [insertEntry]
  | cons q rest ih =>
    obtain ⟨hq, hrest⟩ := List.pairwise_cons.mp h
    unfold insertEntry
    split
    · rename_i hlt
      refine List.pairwise_cons.mpr ⟨fun p hp => ?_, h⟩
      rcases List.mem_cons.mp hp with rfl | hp
      · exact hlt
      · exact hlt.trans (hq p hp)
    · rename_i hnlt
      split
      · rename_i heq
        exact List.pairwise_cons.mpr ⟨fun p hp => heq ▸ hq p hp, hrest⟩
      · rename_i hne
        refine List.pairwise_cons.mpr ⟨fun p hp => ?_, ih hrest⟩
        rcases mem_insertEntry_imp hp with rfl | hp
        · exact lt_of_le_of_ne (not_lt.mp hnlt) (Ne.symm hne)
        · exact hq p hp

/-- Enter a value under a key; an equal key has its value replaced. -/
def insert (m : SortedMap κ β) (k : κ) (v : β) : SortedMap κ β :=
  ⟨insertEntry k v m.entries, pairwise_insertEntry k v m.sorted⟩

/-- Remove a key. -/
def erase (m : SortedMap κ β) (k : κ) : SortedMap κ β :=
  ⟨m.entries.filter (fun p => p.1 ≠ k), m.sorted.sublist List.filter_sublist⟩

/-- The least key. -/
def firstKey? (m : SortedMap κ β) : Option κ := m.entries.head?.map (·.1)

theorem eq_of_mem_of_mem {m : SortedMap κ β} {k : κ} {v w : β}
    (hv : (k, v) ∈ m.entries) (hw : (k, w) ∈ m.entries) : v = w := by
  have hne : m.entries.Pairwise (fun a b => a.1 ≠ b.1) := m.sorted.imp (fun h => h.ne)
  have : Std.Symm (fun a b : κ × β => a.1 ≠ b.1) := ⟨fun _ _ h => h.symm⟩
  by_contra h
  exact hne.forall hv hw (fun heq => h (Prod.mk.inj heq).2) rfl

/-- **A lookup answers exactly the entry listed under the key.** -/
theorem get?_eq_some_iff {m : SortedMap κ β} {k : κ} {v : β} :
    m.get? k = some v ↔ (k, v) ∈ m.entries := by
  unfold get?
  constructor
  · intro h
    obtain ⟨p, hp, rfl⟩ := Option.map_eq_some_iff.mp h
    have hk : p.1 = k := by simpa using List.find?_some hp
    exact hk ▸ List.mem_of_find?_eq_some hp
  · intro h
    cases hf : m.entries.find? (fun p => p.1 = k) with
    | none => exact absurd (List.find?_eq_none.mp hf _ h) (by simp)
    | some p =>
      have hk : p.1 = k := by simpa using List.find?_some hf
      have hmem : (k, p.2) ∈ m.entries := hk ▸ List.mem_of_find?_eq_some hf
      simp [eq_of_mem_of_mem hmem h]

/-! ## Insertion and removal as permutations -/

/-- Entering an absent key adds one entry and moves nothing else. -/
theorem insert_perm {m : SortedMap κ β} {k : κ} {v : β} (h : ∀ p ∈ m.entries, p.1 ≠ k) :
    (m.insert k v).entries.Perm ((k, v) :: m.entries) := by
  have key : ∀ l : List (κ × β), (∀ p ∈ l, p.1 ≠ k) →
      (insertEntry k v l).Perm ((k, v) :: l) := by
    intro l
    induction l with
    | nil => intro _; exact List.Perm.refl _
    | cons q rest ih =>
      intro hl
      unfold insertEntry
      split
      · exact List.Perm.refl _
      · rw [if_neg (fun hk => hl q (by simp) hk.symm)]
        exact ((ih (fun p hp => hl p (List.mem_cons_of_mem _ hp))).cons q).trans
          (List.Perm.swap _ _ _)
  exact key m.entries h

/-- A map is what its entries are, in whatever order they are listed. -/
theorem ext_of_perm {m n : SortedMap κ β} (h : m.entries.Perm n.entries) : m = n := by
  refine ext (List.Perm.eq_of_pairwise ?_ m.sorted n.sorted h)
  intro a b _ _ hab hba
  exact absurd (hab.trans hba) (lt_irrefl a.1)

/-! ## The least entry -/

theorem firstKey?_eq_none_iff {m : SortedMap κ β} : m.firstKey? = none ↔ m.entries = [] := by
  simp [firstKey?]

/-- The least key heads the entries, and its removal leaves the tail. -/
theorem entries_of_firstKey? {m : SortedMap κ β} {k : κ} (h : m.firstKey? = some k) :
    ∃ v, m.entries = (k, v) :: (m.erase k).entries := by
  obtain ⟨entries, sorted⟩ := m
  cases entries with
  | nil => exact absurd h (by simp [firstKey?])
  | cons p rest =>
    obtain rfl : p.1 = k := by simpa [firstKey?] using h
    obtain ⟨hp, -⟩ := List.pairwise_cons.mp sorted
    have hf : rest.filter (fun q => q.1 ≠ p.1) = rest :=
      List.filter_eq_self.mpr (fun q hq => by simpa using (hp q hq).ne')
    refine ⟨p.2, ?_⟩
    simp only [erase]
    rw [List.filter_cons_of_neg (by simp), hf]

theorem firstKey?_le {m : SortedMap κ β} {k : κ} (h : m.firstKey? = some k)
    {p : κ × β} (hp : p ∈ m.entries) : k ≤ p.1 := by
  obtain ⟨entries, sorted⟩ := m
  cases entries with
  | nil => exact absurd hp (by simp)
  | cons q rest =>
    obtain rfl : q.1 = k := by simpa [firstKey?] using h
    rcases List.mem_cons.mp hp with rfl | hp
    · exact le_refl _
    · exact (List.rel_of_pairwise_cons sorted hp).le

/-! ## Values mapped -/

/-- The map with every value mapped. -/
def mapValues {γ : Type v} (f : β → γ) (m : SortedMap κ β) : SortedMap κ γ :=
  ⟨m.entries.map fun p => (p.1, f p.2), List.pairwise_map.mpr m.sorted⟩

end SortedMap

end Library
