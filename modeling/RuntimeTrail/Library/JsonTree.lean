import RuntimeTrail.Library.Json
import RuntimeTrail.Library.SortedMap
import Mathlib.Data.String.Basic

/-!
# JSON trees

What a program that builds a JSON document relies on, beside its print: objects made
of members entered one after the other, and the values that stand inside a value.

* **counts** — `JsonNumber.asNat`, what a literal of decimal digits writes;
* **objects** — `ofMembers`, in key order whatever the order of entering;
  `members_perm`: under distinct keys every member is kept, and `get_ofMembers`;
* **inside** — `Within`, a value anywhere inside another one, and `atPath`, the value at
  a path.
-/

namespace Library

/-! ## Counts -/

/-- The count that a literal of decimal digits writes; a sign, a fraction or an exponent makes
another kind of number. -/
def JsonNumber.asNat (number : JsonNumber) : Option Nat :=
  if number.literal.all Char.isDigit then some (Nat.ofDigitChars 10 number.literal 0) else none

theorem JsonNumber.asNat_ofNat (n : Nat) : (JsonNumber.ofNat n).asNat = some n := by
  have hall : (Nat.toDigits 10 n).all Char.isDigit = true :=
    List.all_eq_true.mpr fun _ hc => Nat.isDigit_of_mem_toDigits (by decide) (by decide) hc
  change (if (Nat.toDigits 10 n).all Char.isDigit then _ else none) = _
  rw [if_pos hall]
  exact congrArg some Nat.ofDigitChars_ten_toDigits

theorem JsonNumber.ofNat_injective : Function.Injective JsonNumber.ofNat := by
  intro a b h
  have ha := JsonNumber.asNat_ofNat a
  rw [h, JsonNumber.asNat_ofNat] at ha
  exact (Option.some.inj ha).symm

namespace JsonValue

/-! ## Objects -/

/-- Members entered one after the other into a map in key order; a later one replaces an
earlier one under its key. -/
def members (entries : List (String × JsonValue)) : SortedMap String JsonValue :=
  entries.foldl (fun map e => map.insert e.1 e.2) SortedMap.empty

/-- The object of members entered one after the other. -/
def ofMembers (entries : List (String × JsonValue)) : JsonValue := object (members entries).entries

/-- **Distinct keys are all kept.** -/
theorem members_perm {entries : List (String × JsonValue)} (h : (entries.map Prod.fst).Nodup) :
    (members entries).entries.Perm entries := by
  have hfold : ∀ (rest : List (String × JsonValue)) (map : SortedMap String JsonValue),
      ((map.entries ++ rest).map Prod.fst).Nodup →
      (rest.foldl (fun map e => map.insert e.1 e.2) map).entries.Perm (map.entries ++ rest) := by
    intro rest
    induction rest with
    | nil => intro map _; rw [List.append_nil]; exact List.Perm.refl _
    | cons e rest ih =>
      intro map hnodup
      have hnew : ∀ p ∈ map.entries, p.1 ≠ e.1 := by
        intro p hp
        rw [List.map_append, List.nodup_append] at hnodup
        exact hnodup.2.2 _ (List.mem_map_of_mem hp) _ (List.mem_map_of_mem List.mem_cons_self)
      have hinsert : ((map.insert e.1 e.2).entries ++ rest).Perm (map.entries ++ e :: rest) :=
        ((SortedMap.insert_perm hnew).append_right rest).trans List.perm_middle.symm
      exact (ih _ ((hinsert.map Prod.fst).nodup_iff.mpr hnodup)).trans hinsert
  exact hfold entries SortedMap.empty h

/-- A key finds the member entered under it. -/
theorem get_ofMembers {entries : List (String × JsonValue)} (h : (entries.map Prod.fst).Nodup)
    {key : String} {value : JsonValue} (hmem : (key, value) ∈ entries) :
    (ofMembers entries).get key = some value := by
  have hperm := members_perm h
  obtain ⟨before, behind, hsplit⟩ := List.append_of_mem (hperm.mem_iff.mpr hmem)
  have hnodup := (hperm.map Prod.fst).nodup_iff.mpr h
  rw [hsplit, List.map_append, List.nodup_append] at hnodup
  refine List.lookup_eq_some_iff.mpr ⟨before, behind, hsplit, fun p hp => ?_⟩
  have hne := hnodup.2.2 _ (List.mem_map_of_mem hp) key (by simp)
  simpa using Ne.symm hne

/-- Under any other key there is none. -/
theorem get_ofMembers_eq_none {entries : List (String × JsonValue)}
    (h : (entries.map Prod.fst).Nodup) {key : String} (hout : key ∉ entries.map Prod.fst) :
    (ofMembers entries).get key = none := by
  refine List.lookup_eq_none_iff.mpr fun p hp => ?_
  have hne : p.1 ≠ key := by
    rintro rfl
    exact hout (List.mem_map_of_mem ((members_perm h).mem_iff.mp hp))
  simpa using Ne.symm hne

/-! ## Inside -/

/-- A value stands inside another one, at any depth. -/
inductive Within (inner : JsonValue) : JsonValue → Prop
  | self : Within inner inner
  | item {items : List JsonValue} {item : JsonValue} (mem : item ∈ items)
    (h : Within inner item) : Within inner (array items)
  | member {entries : List (String × JsonValue)} {entry : String × JsonValue}
    (mem : entry ∈ entries) (h : Within inner entry.2) : Within inner (object entries)

theorem within_array_iff {inner : JsonValue} {items : List JsonValue}
    (h : inner ≠ array items) :
    Within inner (array items) ↔ ∃ item ∈ items, Within inner item := by
  constructor
  · intro hwithin
    cases hwithin with
    | self => exact absurd rfl h
    | item hmem hitem => exact ⟨_, hmem, hitem⟩
  · rintro ⟨item, hmem, hitem⟩
    exact .item hmem hitem

theorem within_object_iff {inner : JsonValue} {entries : List (String × JsonValue)}
    (h : inner ≠ object entries) :
    Within inner (object entries) ↔ ∃ entry ∈ entries, Within inner entry.2 := by
  constructor
  · intro hwithin
    cases hwithin with
    | self => exact absurd rfl h
    | member hmem hentry => exact ⟨_, hmem, hentry⟩
  · rintro ⟨entry, hmem, hentry⟩
    exact .member hmem hentry

/-! ## Paths -/

/-- A step down into an object or an array. -/
inductive Step where
  | member (key : String)
  | item (index : Nat)
deriving DecidableEq

/-- The value a step comes to. -/
def step (value : JsonValue) : Step → Option JsonValue
  | .member key => value.get key
  | .item index =>
    match value with
    | array items => items[index]?
    | _ => none

/-- The value at a path. -/
def atPath (value : JsonValue) : List Step → Option JsonValue
  | [] => some value
  | first :: rest => (value.step first).bind fun inner => inner.atPath rest

/-- A path into an object goes on from the member entered under its key. -/
theorem atPath_member {entries : List (String × JsonValue)} (h : (entries.map Prod.fst).Nodup)
    {key : String} {value : JsonValue} (hmem : (key, value) ∈ entries) (rest : List Step) :
    (ofMembers entries).atPath (.member key :: rest) = value.atPath rest := by
  rw [atPath, step, get_ofMembers h hmem, Option.bind_some]

theorem atPath_append (value : JsonValue) (steps rest : List Step) :
    value.atPath (steps ++ rest) = (value.atPath steps).bind fun inner => inner.atPath rest := by
  induction steps generalizing value with
  | nil => rfl
  | cons first steps ih =>
    rw [List.cons_append, atPath, atPath, Option.bind_assoc]
    exact congrArg _ (funext ih)

/-- The value at a member of an object within an object. -/
theorem atPath_member_member {outer inner : List (String × JsonValue)}
    (houter : (outer.map Prod.fst).Nodup) (hinner : (inner.map Prod.fst).Nodup)
    {key key' : String} {value : JsonValue} (hmem : (key, ofMembers inner) ∈ outer)
    (hmem' : (key', value) ∈ inner) :
    (ofMembers outer).atPath [.member key, .member key'] = some value := by
  rw [atPath_member houter hmem, atPath_member hinner hmem', atPath]

end JsonValue

end Library
