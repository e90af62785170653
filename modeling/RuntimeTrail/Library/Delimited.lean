import Mathlib.Algebra.Order.BigOperators.Group.List
import Mathlib.Algebra.Order.Ring.Nat
import Mathlib.Data.List.DropRight

/-!
# Delimited text

A text split at a separator into members, a member split once into two halves,
and a half trimmed of what surrounds it.  Rewriting every member in place
(`mapMembers`) is what a reader that normalises members, and keeps their order,
does to the whole text.

* **halves** — `splitOnce_eq_some_iff`: the first separator is where a member is cut;
* **trimming** — `trim_sublist`, `trim_trim`, `trim_append`;
* **members** — `not_mem_of_mem_splitOn`, `splitOn_mapMembers`: rewritten members
  are found again where they were; `mapMembers_sublist`: dropping characters of the
  members drops characters of the text.
-/

namespace Library

universe u

variable {α : Type u}

/-! ## Halves -/

section Halves

variable [DecidableEq α]

/-- Cut at the first separator; none when there is no separator. -/
def splitOnce (sep : α) : List α → Option (List α × List α)
  | [] => none
  | a :: rest =>
    if a = sep then some ([], rest)
    else (splitOnce sep rest).map fun halves => (a :: halves.1, halves.2)

theorem splitOnce_eq_some_iff {sep : α} {l first second : List α} :
    splitOnce sep l = some (first, second) ↔ l = first ++ sep :: second ∧ sep ∉ first := by
  induction l generalizing first with
  | nil => simp [splitOnce]
  | cons a rest ih =>
    unfold splitOnce
    by_cases ha : a = sep
    · rw [if_pos ha]
      constructor
      · intro h
        obtain ⟨rfl, rfl⟩ := Prod.mk.inj (Option.some.inj h)
        exact ⟨by rw [ha, List.nil_append], List.not_mem_nil⟩
      · rintro ⟨hl, hsep⟩
        cases first with
        | nil => rw [(List.cons.inj hl).2]
        | cons b first =>
          have hb : a = b := (List.cons.inj hl).1
          exact absurd (by simp [← hb, ha]) hsep
    · rw [if_neg ha]
      constructor
      · intro h
        obtain ⟨⟨first', second'⟩, hrest, heq⟩ := Option.map_eq_some_iff.mp h
        obtain ⟨rfl, rfl⟩ := Prod.mk.inj heq
        obtain ⟨hl, hsep⟩ := ih.mp hrest
        refine ⟨by rw [hl, List.cons_append], ?_⟩
        rw [List.mem_cons]
        rintro (h | h)
        · exact ha h.symm
        · exact hsep h
      · rintro ⟨hl, hsep⟩
        cases first with
        | nil => exact absurd (List.cons.inj hl).1 ha
        | cons b first =>
          obtain ⟨rfl, hrest⟩ := List.cons.inj hl
          rw [ih.mpr ⟨hrest, fun h => hsep (List.mem_cons_of_mem _ h)⟩]
          rfl

end Halves

/-! ## Trimming -/

section Trim

variable (p : α → Bool)

/-- Drop what satisfies `p` from both ends. -/
def trim (l : List α) : List α := (l.dropWhile p).rdropWhile p

theorem trim_sublist (l : List α) : (trim p l).Sublist l :=
  (List.rdropWhile_prefix p (l.dropWhile p)).sublist.trans (List.dropWhile_sublist p)

theorem trim_trim (l : List α) : trim p (trim p l) = trim p l := by
  have hdrop : (trim p l).dropWhile p = trim p l := by
    -- the trimmed text is a prefix of one whose first element is already kept
    refine List.dropWhile_eq_self_iff.mpr fun hlen => ?_
    have hprefix : trim p l <+: l.dropWhile p := List.rdropWhile_prefix p _
    have hlen' : 0 < (l.dropWhile p).length := hlen.trans_le hprefix.length_le
    have hhead : (trim p l)[0] = (l.dropWhile p)[0] := hprefix.getElem hlen
    rw [hhead]
    exact List.dropWhile_eq_self_iff.mp (List.dropWhile_idempotent p l) hlen'
  rw [trim, hdrop, trim, List.rdropWhile_idempotent]

/-- What nothing is dropped of stays between what is. -/
theorem trim_append {before kept behind : List α} (hbefore : ∀ a ∈ before, p a = true)
    (hbehind : ∀ a ∈ behind, p a = true) (hkept : ∀ a ∈ kept, p a = false) :
    trim p (before ++ kept ++ behind) = kept := by
  have hends : ∀ l : List α, (∀ a ∈ l, p a = false) → l.dropWhile p = l := by
    intro l hl
    cases l with
    | nil => rfl
    | cons a l => exact List.dropWhile_cons_of_neg (by simp [hl a List.mem_cons_self])
  rw [trim, List.append_assoc, List.dropWhile_append_of_pos hbefore]
  cases kept with
  | nil =>
    have hnone : behind.dropWhile p = [] := List.dropWhile_eq_nil_iff.mpr hbehind
    rw [List.nil_append, hnone]
    rfl
  | cons a kept =>
    rw [List.cons_append, List.dropWhile_cons_of_neg (by simp [hkept a List.mem_cons_self]),
      ← List.cons_append, List.rdropWhile, List.reverse_append,
      List.dropWhile_append_of_pos (by simpa using hbehind),
      hends _ (fun x hx => hkept x (List.mem_reverse.mp hx)), List.reverse_reverse]

end Trim

/-! ## Members -/

theorem intercalate_map_sublist (sep : α) {f : List α → List α} {members : List (List α)}
    (hf : ∀ m ∈ members, (f m).Sublist m) :
    ([sep].intercalate (members.map f)).Sublist ([sep].intercalate members) := by
  induction members with
  | nil => exact List.Sublist.refl _
  | cons m rest ih =>
    have hm : (f m).Sublist m := hf m List.mem_cons_self
    cases rest with
    | nil => simpa using hm
    | cons m' rest =>
      rw [List.map_cons, List.map_cons, List.intercalate_cons_cons, List.intercalate_cons_cons]
      have hrest := ih fun m h => hf m (List.mem_cons_of_mem _ h)
      rw [List.map_cons] at hrest
      exact (hm.append (List.Sublist.refl _)).append hrest

/-- Each member is a part of the joined text. -/
theorem sublist_intercalate_of_mem (sep : α) {members : List (List α)} :
    ∀ m ∈ members, m.Sublist ([sep].intercalate members) := by
  induction members with
  | nil => exact fun m hm => absurd hm List.not_mem_nil
  | cons first rest ih =>
    intro m hm
    cases rest with
    | nil =>
      rw [List.mem_singleton.mp hm]
      simp
    | cons second rest =>
      rw [List.intercalate_cons_cons]
      rcases List.mem_cons.mp hm with rfl | hm
      · exact (List.sublist_append_left m [sep]).trans (List.sublist_append_left _ _)
      · exact (ih m hm).trans (List.sublist_append_right _ _)

section Members

variable [DecidableEq α]

/-- A member of a split text is a part of it. -/
theorem sublist_of_mem_splitOn {sep : α} {l m : List α} (h : m ∈ l.splitOn sep) : m.Sublist l := by
  have hpart := sublist_intercalate_of_mem sep m h
  rwa [List.intercalate_splitOn] at hpart

/-- A text begins with the first member it splits into. -/
theorem prefix_of_head?_splitOn {sep : α} {l m : List α} (h : (l.splitOn sep).head? = some m) :
    m <+: l := by
  cases hmembers : l.splitOn sep with
  | nil => exact absurd hmembers (List.splitOn_ne_nil sep l)
  | cons first rest =>
    rw [hmembers] at h
    obtain rfl := Option.some.inj h
    have hjoined : [sep].intercalate (l.splitOn sep) = l := List.intercalate_splitOn sep
    rw [hmembers] at hjoined
    cases rest with
    | nil =>
      rw [List.intercalate_singleton] at hjoined
      exact hjoined ▸ List.prefix_refl _
    | cons second rest =>
      rw [List.intercalate_cons_cons] at hjoined
      rw [← hjoined, List.append_assoc]
      exact List.prefix_append _ _

/-- No member of a split text holds the separator. -/
theorem not_mem_of_mem_splitOn {sep : α} {l m : List α} (h : m ∈ l.splitOn sep) : sep ∉ m := by
  induction l generalizing m with
  | nil =>
    rw [List.splitOn_nil, List.mem_singleton] at h
    rw [h]
    exact List.not_mem_nil
  | cons a rest ih =>
    rw [List.splitOn_cons_eq_if_modifyHead] at h
    by_cases ha : a = sep
    · rw [if_pos (by simpa using ha), List.mem_cons] at h
      rcases h with rfl | h
      · exact List.not_mem_nil
      · exact ih h
    · rw [if_neg (by simpa using ha)] at h
      cases hmembers : rest.splitOn sep with
      | nil => exact absurd hmembers (List.splitOn_ne_nil sep rest)
      | cons head tail =>
        rw [hmembers] at h ih
        rcases List.mem_cons.mp h with rfl | h
        · rw [List.mem_cons]
          rintro (h | h)
          · exact ha h.symm
          · exact ih (List.mem_cons_self) h
        · exact ih (List.mem_cons_of_mem _ h)

/-- The text with every member rewritten in place. -/
def mapMembers (sep : α) (f : List α → List α) (l : List α) : List α :=
  [sep].intercalate ((l.splitOn sep).map f)

/-- Rewritten members that hold no separator are the members of the rewritten text. -/
theorem splitOn_mapMembers {sep : α} {f : List α → List α} {l : List α}
    (hf : ∀ m ∈ l.splitOn sep, sep ∉ f m) :
    (mapMembers sep f l).splitOn sep = (l.splitOn sep).map f := by
  refine List.splitOn_intercalate sep ?_ ?_
  · intro m hm
    obtain ⟨m', hm', rfl⟩ := List.mem_map.mp hm
    exact hf m' hm'
  · rw [ne_eq, List.map_eq_nil_iff]
    exact List.splitOn_ne_nil sep l

/-- Dropping characters of the members drops characters of the text. -/
theorem mapMembers_sublist {sep : α} {f : List α → List α} {l : List α}
    (hf : ∀ m ∈ l.splitOn sep, (f m).Sublist m) : (mapMembers sep f l).Sublist l := by
  have h := intercalate_map_sublist sep hf
  rwa [List.intercalate_splitOn] at h

end Members

end Library
