import Mathlib.Algebra.Order.BigOperators.Group.List
import Mathlib.Algebra.Order.Ring.Nat
import Mathlib.Data.List.Pairwise
import Mathlib.Data.List.Perm.Basic

/-!
# Maps keyed by content

A map whose keys are compared by an equivalence coarser than equality: two keys
may be equal to the map and still be different values, so the map keeps the
*first* key it was given and answers every equal one.  This is what a hash map
or an ordered map does with a key type whose own equality ignores a field.

* **lookup** — `getPair?_eq_some_iff`, `getPair?_congr`: equal keys are answered
  alike, with the standing key;
* **updates** — `get?_insert`, `get?_erase`: an update changes exactly the keys
  equal to its own;
* **sums** — `entries_insert_of_none`, `erase_perm`: a fresh entry adds itself, a
  removal takes out the standing entry, which is what an account charged per
  entry is proved with; `distinctSum_eq_sum` compares such an account with a sum
  over a list that repeats keys.
-/

namespace Library

universe u v

/-- A comparison that reads two values through one key is an equivalence. -/
theorem equivBEq_of_key {α : Type u} {β : Type v} [BEq α] (key : α → β)
    (h : ∀ a b : α, (a == b) = true ↔ key a = key b) : EquivBEq α where
  rfl := (h _ _).mpr rfl
  symm hab := (h _ _).mpr ((h _ _).mp hab).symm
  trans hab hbc := (h _ _).mpr (((h _ _).mp hab).trans ((h _ _).mp hbc))

/-- A map from keys compared by `==`, held as entries with pairwise different keys. -/
structure ContentMap (κ : Type u) [BEq κ] (β : Type v) where
  entries : List (κ × β)
  distinct : entries.Pairwise (fun a b => (a.1 == b.1) = false)

namespace ContentMap

variable {κ : Type u} [BEq κ] {β : Type v}

/-- The map with no entry. -/
def empty : ContentMap κ β := ⟨[], List.Pairwise.nil⟩

/-- The standing key and its value. -/
def getPair? (m : ContentMap κ β) (k : κ) : Option (κ × β) :=
  m.entries.find? (fun p => p.1 == k)

/-- The value standing under a key. -/
def get? (m : ContentMap κ β) (k : κ) : Option β := (m.getPair? k).map (·.2)

def contains (m : ContentMap κ β) (k : κ) : Bool := (m.getPair? k).isSome

def length (m : ContentMap κ β) : Nat := m.entries.length

/-- Replace the value under a standing key, keeping the key. -/
def setValue (k : κ) (v : β) (l : List (κ × β)) : List (κ × β) :=
  l.map (fun p => if p.1 == k then (p.1, v) else p)

theorem setValue_fst (k : κ) (v : β) (l : List (κ × β)) :
    (setValue k v l).map (·.1) = l.map (·.1) := by
  simp only [setValue, List.map_map]
  refine List.map_congr_left fun p _ => ?_
  simp only [Function.comp]
  split <;> rfl

theorem pairwise_fst {l : List (κ × β)} :
    l.Pairwise (fun a b => (a.1 == b.1) = false) ↔
      (l.map (·.1)).Pairwise (fun a b => (a == b) = false) := by
  rw [List.pairwise_map]

theorem pairwise_setValue (k : κ) (v : β) {l : List (κ × β)}
    (h : l.Pairwise (fun a b => (a.1 == b.1) = false)) :
    (setValue k v l).Pairwise (fun a b => (a.1 == b.1) = false) := by
  rw [pairwise_fst, setValue_fst, ← pairwise_fst]
  exact h

theorem pairwise_append_of_find?_none {k : κ} {v : β} {l : List (κ × β)}
    (h : l.Pairwise (fun a b => (a.1 == b.1) = false))
    (hk : l.find? (fun p => p.1 == k) = none) :
    (l ++ [(k, v)]).Pairwise (fun a b => (a.1 == b.1) = false) := by
  rw [List.pairwise_append]
  refine ⟨h, List.pairwise_singleton _ _, fun p hp q hq => ?_⟩
  obtain rfl := List.mem_singleton.mp hq
  simpa using List.find?_eq_none.mp hk p hp

/-- Enter a value: a standing equal key keeps its place and its handle. -/
def insert (m : ContentMap κ β) (k : κ) (v : β) : ContentMap κ β :=
  match h : m.entries.find? (fun p => p.1 == k) with
  | some _ => ⟨setValue k v m.entries, pairwise_setValue k v m.distinct⟩
  | none => ⟨m.entries ++ [(k, v)], pairwise_append_of_find?_none m.distinct h⟩

/-- Remove a key. -/
def erase (m : ContentMap κ β) (k : κ) : ContentMap κ β :=
  ⟨m.entries.filter (fun p => !(p.1 == k)), m.distinct.sublist List.filter_sublist⟩

theorem ext {m n : ContentMap κ β} (h : m.entries = n.entries) : m = n := by
  cases m; cases n; cases h; rfl

/-! ## Lookup -/

theorem getPair?_eq_none_iff {m : ContentMap κ β} {k : κ} :
    m.getPair? k = none ↔ ∀ p ∈ m.entries, (p.1 == k) = false := by
  simp [getPair?, List.find?_eq_none]

theorem contains_eq_false_iff {m : ContentMap κ β} {k : κ} :
    m.contains k = false ↔ ∀ p ∈ m.entries, (p.1 == k) = false := by
  rw [← getPair?_eq_none_iff]
  simp [contains]

theorem get?_eq_none_iff {m : ContentMap κ β} {k : κ} :
    m.get? k = none ↔ ∀ p ∈ m.entries, (p.1 == k) = false := by
  simp [get?, getPair?_eq_none_iff]

theorem contains_eq_isSome_get? (m : ContentMap κ β) (k : κ) :
    m.contains k = (m.get? k).isSome := by
  simp [contains, get?]

theorem entries_insert_of_none {m : ContentMap κ β} {k : κ} {v : β}
    (h : m.getPair? k = none) : (m.insert k v).entries = m.entries ++ [(k, v)] := by
  unfold insert
  split
  · rename_i p hp
    exact absurd (h.symm.trans hp) (by simp)
  · rfl

theorem entries_insert_of_some {m : ContentMap κ β} {k : κ} {v : β} {p : κ × β}
    (h : m.getPair? k = some p) : (m.insert k v).entries = setValue k v m.entries := by
  unfold insert
  split
  · rfl
  · rename_i hp
    exact absurd (h.symm.trans hp) (by simp)

theorem find?_setValue (k k' : κ) (v : β) (l : List (κ × β)) :
    (setValue k v l).find? (fun p => p.1 == k') =
      (l.find? (fun p => p.1 == k')).map (fun p => if p.1 == k then (p.1, v) else p) := by
  rw [setValue, List.find?_map]
  congr 2
  funext p
  simp only [Function.comp]
  split <;> rfl

theorem mem_erase {m : ContentMap κ β} {k : κ} {p : κ × β} :
    p ∈ (m.erase k).entries ↔ p ∈ m.entries ∧ (p.1 == k) = false := by
  simp [erase]

theorem keys_insert_of_some {m : ContentMap κ β} {k : κ} {v : β} {p : κ × β}
    (h : m.getPair? k = some p) :
    (m.insert k v).entries.map (·.1) = m.entries.map (·.1) := by
  rw [entries_insert_of_some h, setValue_fst]

/-- An insertion stands no key but those standing and its own. -/
theorem mem_keys_insert {m : ContentMap κ β} {k k' : κ} {v : β}
    (h : k' ∈ (m.insert k v).entries.map (·.1)) : k' ∈ m.entries.map (·.1) ∨ k' = k := by
  cases hk : m.getPair? k with
  | none =>
    rw [entries_insert_of_none hk, List.map_append, List.mem_append] at h
    exact h.imp_right fun h => by simpa using h
  | some p =>
    rw [keys_insert_of_some hk] at h
    exact Or.inl h

theorem length_insert (m : ContentMap κ β) (k : κ) (v : β) :
    (m.insert k v).length = if m.contains k then m.length else m.length + 1 := by
  cases h : m.getPair? k with
  | none => simp [length, contains, h, entries_insert_of_none h]
  | some p => simp [length, contains, h, entries_insert_of_some h, setValue]

theorem length_erase_le (m : ContentMap κ β) (k : κ) : (m.erase k).length ≤ m.length :=
  List.length_filter_le _ _

variable [EquivBEq κ]

theorem eq_of_mem_of_beq {m : ContentMap κ β} {p q : κ × β} (hp : p ∈ m.entries)
    (hq : q ∈ m.entries) (h : p.1 == q.1) : p = q := by
  have : Std.Symm (fun a b : κ × β => (a.1 == b.1) = false) :=
    ⟨fun a b h => by rw [BEq.comm, h]⟩
  by_contra hne
  rw [m.distinct.forall hp hq hne] at h
  exact absurd h (by simp)

/-- **A lookup answers the one standing entry whose key is equal.** -/
theorem getPair?_eq_some_iff {m : ContentMap κ β} {k : κ} {p : κ × β} :
    m.getPair? k = some p ↔ p ∈ m.entries ∧ p.1 == k := by
  unfold getPair?
  constructor
  · intro h
    exact ⟨List.mem_of_find?_eq_some h, by simpa using List.find?_some h⟩
  · rintro ⟨hp, hk⟩
    cases hf : m.entries.find? (fun q => q.1 == k) with
    | none => exact absurd hk (by simpa using List.find?_eq_none.mp hf p hp)
    | some q =>
      have hqk : q.1 == k := by simpa using List.find?_some hf
      rw [eq_of_mem_of_beq (List.mem_of_find?_eq_some hf) hp (BEq.trans hqk (BEq.symm hk))]

theorem get?_eq_some_iff {m : ContentMap κ β} {k : κ} {v : β} :
    m.get? k = some v ↔ ∃ k', (k', v) ∈ m.entries ∧ k' == k := by
  simp only [get?, Option.map_eq_some_iff, getPair?_eq_some_iff]
  constructor
  · rintro ⟨p, hp, rfl⟩; exact ⟨p.1, hp⟩
  · rintro ⟨k', hp⟩; exact ⟨(k', v), hp, rfl⟩

theorem contains_iff {m : ContentMap κ β} {k : κ} :
    m.contains k = true ↔ ∃ p ∈ m.entries, p.1 == k := by
  simp only [contains, Option.isSome_iff_exists, getPair?_eq_some_iff]

/-- Equal keys are answered alike. -/
theorem getPair?_congr (m : ContentMap κ β) {k k' : κ} (h : k == k') :
    m.getPair? k = m.getPair? k' := by
  simp only [getPair?]
  congr 1
  funext p
  exact BEq.congr_right h

theorem contains_congr (m : ContentMap κ β) {k k' : κ} (h : k == k') :
    m.contains k = m.contains k' := by
  rw [contains, contains, getPair?_congr m h]

/-! ## Updates -/

/-- A key that stood under nothing is the only one that changes. -/
theorem getPair?_insert_of_none {m : ContentMap κ β} {k k' : κ} {v : β}
    (h : m.getPair? k = none) :
    (m.insert k v).getPair? k' = if k == k' then some (k, v) else m.getPair? k' := by
  rw [getPair?, entries_insert_of_none h, List.find?_append]
  by_cases hsame : (k == k') = true
  · have hnone : m.getPair? k' = none := by rw [← getPair?_congr m hsame, h]
    rw [show m.entries.find? (fun p => p.1 == k') = none from hnone]
    simp [hsame]
  · simp [hsame, getPair?]

/-- An insertion changes exactly the keys equal to its own. -/
theorem get?_insert (m : ContentMap κ β) (k k' : κ) (v : β) :
    (m.insert k v).get? k' = if k == k' then some v else m.get? k' := by
  cases hk : m.getPair? k with
  | none =>
    rw [get?, getPair?_insert_of_none hk]
    split <;> rfl
  | some p =>
    obtain ⟨hp, hpk⟩ := getPair?_eq_some_iff.mp hk
    rw [get?, getPair?, entries_insert_of_some hk, find?_setValue, Option.map_map]
    by_cases h : k == k'
    · have hk' : m.getPair? k' = some p := by rw [← getPair?_congr m h, hk]
      simp only [getPair?] at hk'
      simp [hk', h, hpk]
    · rw [if_neg h, get?, getPair?]
      cases hf : m.entries.find? (fun q => q.1 == k') with
      | none => rfl
      | some q =>
        have hqk' : q.1 == k' := by simpa using List.find?_some hf
        have hqk : ¬ (q.1 == k) = true := fun hqk => h (BEq.trans (BEq.symm hqk) hqk')
        simp [hqk]

theorem get?_erase (m : ContentMap κ β) (k k' : κ) :
    (m.erase k).get? k' = if k == k' then none else m.get? k' := by
  by_cases h : k == k'
  · rw [if_pos h, get?_eq_none_iff]
    intro p hp
    have hpk : (p.1 == k) = false := by simpa using (List.mem_filter.mp hp).2
    rw [← BEq.congr_right h, hpk]
  · rw [if_neg h, get?, get?, getPair?, getPair?, erase, List.find?_filter]
    congr 2
    funext p
    by_cases hp : p.1 == k'
    · have hpk : ¬ (p.1 == k) = true := fun hpk => h (BEq.trans (BEq.symm hpk) hp)
      simp [hp, hpk]
    · simp [hp]

theorem contains_insert (m : ContentMap κ β) (k k' : κ) (v : β) :
    (m.insert k v).contains k' = (k == k' || m.contains k') := by
  rw [contains_eq_isSome_get?, get?_insert, contains_eq_isSome_get?]
  cases k == k' <;> simp

/-- An entered key is the only one a map gains. -/
theorem getPair?_insert_eq_none_iff {m : ContentMap κ β} {k k' : κ} {v : β} :
    (m.insert k v).getPair? k' = none ↔ m.getPair? k' = none ∧ (k == k') = false := by
  have hcontains : ∀ {m : ContentMap κ β}, m.getPair? k' = none ↔ m.contains k' = false := by
    intro m
    simp [contains]
  rw [hcontains, hcontains, contains_insert, Bool.or_eq_false_iff, and_comm]

theorem contains_erase (m : ContentMap κ β) (k k' : κ) :
    (m.erase k).contains k' = (!(k == k') && m.contains k') := by
  rw [contains_eq_isSome_get?, get?_erase, contains_eq_isSome_get?]
  cases k == k' <;> simp

/-- Taking back a fresh entry leaves what stood before it. -/
theorem erase_insert_of_none {m : ContentMap κ β} {k : κ} {v : β} (h : m.getPair? k = none) :
    (m.insert k v).erase k = m := by
  refine ext ?_
  change (m.insert k v).entries.filter _ = m.entries
  rw [entries_insert_of_none h, List.filter_append]
  rw [List.filter_eq_self.mpr fun p hp => by simp [getPair?_eq_none_iff.mp h p hp]]
  simp

/-! ## Entries as a whole -/

/-- Removing a standing key takes out its one entry. -/
theorem erase_perm {m : ContentMap κ β} {k : κ} {p : κ × β} (h : m.getPair? k = some p) :
    m.entries.Perm (p :: (m.erase k).entries) := by
  obtain ⟨hp, hpk⟩ := getPair?_eq_some_iff.mp h
  have key : ∀ l : List (κ × β), l.Pairwise (fun a b => (a.1 == b.1) = false) → p ∈ l →
      l.Perm (p :: l.filter (fun q => !(q.1 == k))) := by
    intro l
    induction l with
    | nil => intro _ h; exact absurd h (by simp)
    | cons q rest ih =>
      intro hl hmem
      obtain ⟨hq, hrest⟩ := List.pairwise_cons.mp hl
      rcases List.mem_cons.mp hmem with rfl | hmem
      · have hf : rest.filter (fun r => !(r.1 == k)) = rest := by
          refine List.filter_eq_self.mpr fun r hr => ?_
          have hpr := hq r hr
          rw [BEq.congr_left hpk, BEq.comm] at hpr
          simp [hpr]
        rw [List.filter_cons_of_neg (by simp [hpk]), hf]
      · have hqk : (q.1 == k) = false := by
          rw [← BEq.congr_right hpk]
          exact hq p hmem
        rw [List.filter_cons_of_pos (by simp [hqk])]
        exact ((ih hrest hmem).cons q).trans (List.Perm.swap _ _ _)
  exact key m.entries m.distinct hp

/-- A map that is these entries is, without the first one's key, the rest of them. -/
theorem erase_perm_of_cons {m : ContentMap κ β} {p : κ × β} {rest : List (κ × β)}
    (h : m.entries.Perm (p :: rest)) : (m.erase p.1).entries.Perm rest := by
  have hget : m.getPair? p.1 = some p :=
    getPair?_eq_some_iff.mpr ⟨h.mem_iff.mpr List.mem_cons_self, BEq.rfl⟩
  exact ((erase_perm hget).symm.trans h).cons_inv

omit [EquivBEq κ] in
/-- A fresh key adds its one entry. -/
theorem insert_perm_of_none {m : ContentMap κ β} {k : κ} {v : β} (h : m.getPair? k = none) :
    (m.insert k v).entries.Perm ((k, v) :: m.entries) := by
  rw [entries_insert_of_none h]
  exact List.perm_append_singleton _ _

end ContentMap

/-! ## Sums over distinct keys -/

section DistinctSum

variable {κ : Type u} [BEq κ] (size : κ → Nat)

/-- A sum that counts each key once, however often an equal one is listed. -/
def distinctSum : List κ → Nat
  | [] => 0
  | k :: rest => if rest.any (· == k) then distinctSum rest else size k + distinctSum rest

variable {size} [EquivBEq κ]

/-- Pairwise different keys that stand for the same classes, with sizes that agree, have the same
sum. -/
theorem distinctSum_eq_sum : ∀ {l reps : List κ},
    reps.Pairwise (fun a b => (a == b) = false) → (∀ k ∈ l, ∃ r ∈ reps, r == k) →
    (∀ r ∈ reps, ∃ k ∈ l, r == k) → (∀ r ∈ reps, ∀ k ∈ l, r == k → size r = size k) →
    distinctSum size l = (reps.map size).sum := by
  intro l
  induction l with
  | nil =>
    intro reps _ _ hback _
    obtain rfl : reps = [] := List.eq_nil_iff_forall_not_mem.mpr fun r hr => by
      obtain ⟨k, hk, -⟩ := hback r hr
      exact absurd hk (by simp)
    rfl
  | cons a rest ih =>
    intro reps hdistinct hcover hback hsize
    by_cases ha : rest.any (· == a) = true
    · -- an equal key follows: the same representatives cover the rest
      rw [distinctSum, if_pos ha]
      obtain ⟨b, hb, hba⟩ := List.any_eq_true.mp ha
      refine ih hdistinct (fun k hk => hcover k (by simp [hk])) (fun r hr => ?_)
        (fun r hr k hk => hsize r hr k (by simp [hk]))
      obtain ⟨k, hk, hrk⟩ := hback r hr
      rcases List.mem_cons.mp hk with rfl | hk
      · exact ⟨b, hb, BEq.trans hrk (BEq.symm hba)⟩
      · exact ⟨k, hk, hrk⟩
    · -- the last of its class: its representative covers nothing else
      rw [distinctSum, if_neg ha]
      have hlast : ∀ k ∈ rest, (k == a) = false := fun k hk => by
        simpa using fun h => ha (List.any_eq_true.mpr ⟨k, hk, h⟩)
      obtain ⟨r, hr, hra⟩ := hcover a (by simp)
      obtain ⟨pre, post, rfl⟩ := List.append_of_mem hr
      have hperm : (pre ++ r :: post).Perm (r :: (pre ++ post)) := List.perm_middle
      have hsymm : ∀ {a b : κ}, (a == b) = false → (b == a) = false :=
        fun h => by rw [BEq.comm, h]
      obtain ⟨hne, hdistinct'⟩ :=
        List.pairwise_cons.mp ((hperm.pairwise_iff hsymm).mp hdistinct)
      have hothers : ∀ q ∈ pre ++ post, q ∈ pre ++ r :: post := fun q hq =>
        hperm.mem_iff.mpr (List.mem_cons_of_mem _ hq)
      rw [(hperm.map size).sum_eq, List.map_cons, List.sum_cons, hsize r hr a (by simp) hra]
      congr 1
      refine ih hdistinct' (fun k hk => ?_) (fun q hq => ?_)
        (fun q hq k hk => hsize q (hothers q hq) k (by simp [hk]))
      · obtain ⟨q, hq, hqk⟩ := hcover k (by simp [hk])
        rcases List.mem_cons.mp (hperm.mem_iff.mp hq) with rfl | hq
        · exact absurd (BEq.trans (BEq.symm hqk) hra) (by simp [hlast k hk])
        · exact ⟨q, hq, hqk⟩
      · obtain ⟨k, hk, hqk⟩ := hback q (hothers q hq)
        rcases List.mem_cons.mp hk with rfl | hk
        · exact absurd (BEq.trans hra (BEq.symm hqk)) (by simp [hne q hq])
        · exact ⟨k, hk, hqk⟩

/-- Pairwise different keys, each stood for by a key of the same size, add up to no more. -/
theorem sum_le_of_cover : ∀ {l reps : List κ}, l.Pairwise (fun a b => (a == b) = false) →
    (∀ k ∈ l, ∃ r ∈ reps, r == k ∧ size r = size k) → (l.map size).sum ≤ (reps.map size).sum := by
  intro l
  induction l with
  | nil => intro reps _ _; exact Nat.zero_le _
  | cons a rest ih =>
    intro reps hdistinct hcover
    obtain ⟨hne, hrest⟩ := List.pairwise_cons.mp hdistinct
    obtain ⟨r, hr, hra, hsize⟩ := hcover a List.mem_cons_self
    obtain ⟨pre, post, rfl⟩ := List.append_of_mem hr
    have hperm : (pre ++ r :: post).Perm (r :: (pre ++ post)) := List.perm_middle
    rw [(hperm.map size).sum_eq, List.map_cons, List.sum_cons, List.map_cons, List.sum_cons, hsize]
    refine Nat.add_le_add_left (ih hrest fun k hk => ?_) _
    obtain ⟨q, hq, hqk, hqsize⟩ := hcover k (List.mem_cons_of_mem _ hk)
    rcases List.mem_cons.mp (hperm.mem_iff.mp hq) with rfl | hq
    · -- the head's own representative stands for no other key
      exact absurd (BEq.trans (BEq.symm hra) hqk) (by simp [hne k hk])
    · exact ⟨q, hq, hqk, hqsize⟩

end DistinctSum

end Library
