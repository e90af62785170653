import RuntimeTrail.Library.JsonTree

/-!
# What a rendering tells

A function into a format keeps part of its argument.  `Tells` says which part: two
values are rendered alike exactly where they agree in it.  What a rendering tells of a
list or an object is what it tells of their parts.

* **lists** — `Tells.map`;
* **objects** — `ofMembers_eq_iff`, for objects with the same keys, and
  `mem_iff_of_ofMembers_eq` for any.
-/

namespace Library

universe u v w

variable {α : Type u} {β : Type v} {γ : Type w}

/-- A rendering tells of a value exactly what `shown` keeps of it. -/
def Tells (render : α → β) (shown : α → γ) : Prop :=
  ∀ a b, render a = render b ↔ shown a = shown b

namespace Tells

variable {render : α → β} {shown : α → γ}

/-- Of a list, what it tells of each item. -/
theorem map (h : Tells render shown) : Tells (List.map render) (List.map shown) := by
  intro xs
  induction xs with
  | nil =>
    intro ys
    cases ys with
    | nil => exact iff_of_true rfl rfl
    | cons y ys => exact iff_of_false nofun nofun
  | cons x xs ih =>
    intro ys
    cases ys with
    | nil => exact iff_of_false nofun nofun
    | cons y ys =>
      simp only [List.map_cons, List.cons.injEq, h x y, ih ys]

end Tells

namespace JsonValue

/-- Objects that are the same have the same members. -/
theorem mem_iff_of_ofMembers_eq {entries entries' : List (String × JsonValue)}
    (h : (entries.map Prod.fst).Nodup) (h' : (entries'.map Prod.fst).Nodup)
    (heq : ofMembers entries = ofMembers entries') (p : String × JsonValue) :
    p ∈ entries ↔ p ∈ entries' := by
  have hentries : (members entries).entries = (members entries').entries := object.inj heq
  exact (members_perm h).mem_iff.symm.trans (hentries ▸ (members_perm h').mem_iff)

/-- An object with a key is none without it. -/
theorem ofMembers_ne (key : String) {entries entries' : List (String × JsonValue)}
    (h : (entries.map Prod.fst).Nodup) (h' : (entries'.map Prod.fst).Nodup)
    (hmem : key ∈ entries.map Prod.fst) (hout : key ∉ entries'.map Prod.fst) :
    ofMembers entries ≠ ofMembers entries' := by
  intro heq
  obtain ⟨p, hp, rfl⟩ := List.mem_map.mp hmem
  exact hout (List.mem_map_of_mem ((mem_iff_of_ofMembers_eq h h' heq p).mp hp))

/-- The members of an object, under their keys. -/
theorem map_get_ofMembers {entries : List (String × JsonValue)} (h : (entries.map Prod.fst).Nodup) :
    (entries.map Prod.fst).map (ofMembers entries).get = (entries.map Prod.snd).map some := by
  rw [List.map_map, List.map_map]
  exact List.map_congr_left fun _ hmem => get_ofMembers h hmem

/-- **Objects with the same keys** are the same exactly where their members are. -/
theorem ofMembers_eq_iff {entries entries' : List (String × JsonValue)}
    (hkeys : entries.map Prod.fst = entries'.map Prod.fst) (h : (entries.map Prod.fst).Nodup) :
    ofMembers entries = ofMembers entries' ↔ entries = entries' := by
  refine ⟨fun heq => ?_, fun heq => by rw [heq]⟩
  have hmembers := map_get_ofMembers h
  rw [heq, hkeys, map_get_ofMembers (hkeys ▸ h)] at hmembers
  have hvalues := List.map_injective_iff.mpr (Option.some_injective _) hmembers
  rw [List.zip_of_prod hkeys hvalues.symm, ← List.zip_of_prod rfl rfl]

end JsonValue

end Library
