import Mathlib.Algebra.Order.BigOperators.Group.List
import Mathlib.Algebra.Order.Ring.Nat
import Mathlib.Data.String.Basic
import RuntimeTrail.Library.Loop
import RuntimeTrail.Library.Recovery
import RuntimeTrail.Library.SortedMap

/-!
# The value union and attribute maps

A value is exactly one of string, boolean, 64-bit integer, 64-bit float, bytes,
array or key-value list.  Doubles are held by their bit pattern, which is what
their comparison reads: a NaN equals itself and the two zeros differ.  Attribute
maps are key-sorted, so two maps with the same content are equal however their
emitter batched them.

* **the derived order** — `Value.cmp` compares the variant first and then the
  fields; `Value.cmp_eq_iff` says that it answers `eq` on equal values only,
  which is what lets identity live in ordered maps;
* **walks** — `Value.nodes_eq` counts the work of a walk over an explicit stack, and
  `Value.exceedsNesting` is the walk the admission gate bounds values with, over at the
  first container past the limit; `Value.nestingDepth` walks to the end.
-/

namespace RuntimeTrail

open Library

/-- A 64-bit float that compares by bit pattern. -/
structure Float where
  bits : Nat
deriving DecidableEq

/-- The kind of a value: exactly one of the seven kinds in the union. -/
inductive ValueKind where
  | string
  | bool
  | int
  | double
  | bytes
  | array
  | kvList
deriving DecidableEq

/-- The position of a kind in the union, the first thing the derived order compares. -/
def ValueKind.index : ValueKind → Nat
  | string => 0
  | bool => 1
  | int => 2
  | double => 3
  | bytes => 4
  | array => 5
  | kvList => 6

/-- The model's value union. -/
inductive Value where
  | string (text : String)
  | bool (flag : Bool)
  | int (number : Int)
  | double (number : Float)
  | bytes (payload : List UInt8)
  | array (items : List Value)
  | kvList (entries : List (String × Value))

namespace Value

/-- The kind of this value. -/
def kind : Value → ValueKind
  | string _ => .string
  | bool _ => .bool
  | int _ => .int
  | double _ => .double
  | bytes _ => .bytes
  | array _ => .array
  | kvList _ => .kvList

/-! ## The derived order -/

mutual

/-- The derived order: variant order first, then fields. -/
def cmp : Value → Value → Ordering
  | string a, string b => compare a b
  | bool a, bool b => compare a b
  | int a, int b => compare a b
  | double a, double b => compare a.bits b.bits
  | bytes a, bytes b => compare a b
  | array a, array b => cmpItems a b
  | kvList a, kvList b => cmpEntries a b
  | a, b => compare a.kind.index b.kind.index

/-- Vectors compare lexicographically. -/
def cmpItems : List Value → List Value → Ordering
  | [], [] => .eq
  | [], _ :: _ => .lt
  | _ :: _, [] => .gt
  | a :: as, b :: bs => (cmp a b).then (cmpItems as bs)

/-- Keyed entries compare lexicographically, key before value. -/
def cmpEntries : List (String × Value) → List (String × Value) → Ordering
  | [], [] => .eq
  | [], _ :: _ => .lt
  | _ :: _, [] => .gt
  | (k, a) :: as, (l, b) :: bs => (compare k l).then ((cmp a b).then (cmpEntries as bs))

end

instance : Ord Value := ⟨cmp⟩

/-- The derived order answers `eq` on equal values only. -/
theorem cmp_eq_iff : ∀ a b : Value, cmp a b = .eq ↔ a = b := by
  refine Value.rec
    (motive_1 := fun a => ∀ b, cmp a b = .eq ↔ a = b)
    (motive_2 := fun as => ∀ bs, cmpItems as bs = .eq ↔ as = bs)
    (motive_3 := fun as => ∀ bs, cmpEntries as bs = .eq ↔ as = bs)
    (motive_4 := fun p => ∀ b, cmp p.2 b = .eq ↔ p.2 = b)
    ?string ?bool ?int ?double ?bytes ?array ?kvList ?nil ?cons ?fnil ?fcons ?mk
  case string => intro a b; cases b <;> simp [cmp, kind, ValueKind.index]
  case bool => intro a b; cases b <;> simp [cmp, kind, ValueKind.index]
  case int => intro a b; cases b <;> simp [cmp, kind, ValueKind.index]
  case double =>
    intro a b
    cases b with
    | double b => obtain ⟨a⟩ := a; obtain ⟨b⟩ := b; simp [cmp]
    | _ => simp [cmp, kind, ValueKind.index]
  case bytes => intro a b; cases b <;> simp [cmp, kind, ValueKind.index]
  case array => intro as ih b; cases b <;> simp [cmp, kind, ValueKind.index, ih]
  case kvList => intro as ih b; cases b <;> simp [cmp, kind, ValueKind.index, ih]
  case nil => intro bs; cases bs <;> simp [cmpItems]
  case cons =>
    intro a as iha ihas bs
    cases bs <;> simp [cmpItems, Ordering.then_eq_eq, iha, ihas]
  case fnil => intro bs; cases bs <;> simp [cmpEntries]
  case fcons =>
    rintro ⟨k, a⟩ as iha ihas bs
    rcases bs with _ | ⟨⟨l, b⟩, bs⟩
    · simp [cmpEntries]
    · simp [cmpEntries, Ordering.then_eq_eq, iha, ihas, and_assoc]
  case mk => intro k a ih b; exact ih b

theorem cmpEntries_eq_iff : ∀ as bs : List (String × Value), cmpEntries as bs = .eq ↔ as = bs := by
  intro as
  induction as with
  | nil => intro bs; cases bs <;> simp [cmpEntries]
  | cons a as ih =>
    intro bs
    obtain ⟨k, a⟩ := a
    rcases bs with _ | ⟨⟨l, b⟩, bs⟩
    · simp [cmpEntries]
    · simp [cmpEntries, Ordering.then_eq_eq, cmp_eq_iff, ih, and_assoc]

instance : DecidableEq Value := fun a b => decidable_of_iff _ (cmp_eq_iff a b)

/-! ## Walking a value

Every walk over a value is a loop over an explicit stack, never a recursion; what it pops is
replaced by the children of what it popped, so the nodes still to visit go down by one. -/

/-- The values one level down, in order. -/
def children : Value → List Value
  | array items => items
  | kvList entries => entries.map (·.2)
  | _ => []

mutual

/-- How many nodes a value has, itself included. -/
def nodes : Value → Nat
  | array items => nodesItems items + 1
  | kvList entries => nodesEntries entries + 1
  | _ => 1

def nodesItems : List Value → Nat
  | [] => 0
  | item :: rest => nodes item + nodesItems rest

def nodesEntries : List (String × Value) → Nat
  | [] => 0
  | (_, value) :: rest => nodes value + nodesEntries rest

end

theorem nodesItems_eq (items : List Value) : nodesItems items = (items.map nodes).sum := by
  induction items with
  | nil => rfl
  | cons item rest ih => simp [nodesItems, ih]

theorem nodesEntries_eq (entries : List (String × Value)) :
    nodesEntries entries = (entries.map (fun e => nodes e.2)).sum := by
  induction entries with
  | nil => rfl
  | cons e rest ih => simp [nodesEntries, ih]

/-- A value is one node more than its children. -/
theorem nodes_eq (v : Value) : v.nodes = (v.children.map nodes).sum + 1 := by
  cases v with
  | array items => simp [nodes, children, nodesItems_eq]
  | kvList entries => simp [nodes, children, nodesEntries_eq, Function.comp_def]
  | _ => simp [nodes, children]

/-- Whether a value is one of the two containers, the kinds nesting counts. -/
def isContainer : Value → Bool
  | array _ => true
  | kvList _ => true
  | _ => false

/-- The work still to do of a walk that carries a depth with each value. -/
def stackNodes (stack : List (Value × Nat)) : Nat := (stack.map (fun p => p.1.nodes)).sum

theorem stackNodes_push (v : Value) (depth : Nat) (stack : List (Value × Nat)) :
    stackNodes ((v.children.map (fun child => (child, depth))).reverse ++ stack) <
      v.nodes + stackNodes stack := by
  have h : ((v.children.map (fun child => (child, depth))).map (fun p => p.1.nodes)).sum
      = (v.children.map nodes).sum := by
    rw [List.map_map]; rfl
  simp only [stackNodes, List.map_append, List.map_reverse, List.sum_append, List.sum_reverse, h,
    nodes_eq v]
  omega

/-- One turn of the nesting walk: pop a value, and push its children one level deeper.  The
walk stops at the first container past the limit, leaving the verdict `true`. -/
def nestingStep (limit : Nat) :
    Bool × List (Value × Nat) → Option (Bool × List (Value × Nat))
  | (true, _) => none
  | (false, []) => none
  | (false, (value, below) :: stack) =>
    if value.isContainer then
      if below + 1 > limit then some (true, [])
      else some (false, (value.children.map (fun child => (child, below + 1))).reverse ++ stack)
    else some (false, stack)

/-- The nesting walk as a loop that ends. -/
def nestingLoop (limit : Nat) : Loop (Bool × List (Value × Nat)) where
  step := nestingStep limit
  fuel s := if s.1 then 0 else stackNodes s.2 + 1
  decreases := by
    rintro ⟨found, stack⟩ s' h
    cases found with
    | true => exact absurd h (by simp [nestingStep])
    | false =>
      cases stack with
      | nil => exact absurd h (by simp [nestingStep])
      | cons p stack =>
        have hp : 0 < p.1.nodes := by rw [nodes_eq]; omega
        have hcons : stackNodes (p :: stack) = p.1.nodes + stackNodes stack := by
          simp [stackNodes]
        simp only [nestingStep] at h
        split at h
        · split at h
          · obtain rfl := Option.some.inj h
            simp
          · obtain rfl := Option.some.inj h
            have := stackNodes_push p.1 (p.2 + 1) stack
            simp only [Bool.false_eq_true, if_false, hcons]
            omega
        · obtain rfl := Option.some.inj h
          simp only [Bool.false_eq_true, if_false, hcons]
          omega

/-- Whether the nesting depth of this value exceeds `limit`: every container level counts. -/
def exceedsNesting (v : Value) (limit : Nat) : Bool :=
  ((nestingLoop limit).run (false, [(v, 0)])).1

/-- One turn of the depth walk: pop a value, and push its children one level deeper, keeping
the deepest level come to. -/
def nestingDepthStep : Nat × List (Value × Nat) → Option (Nat × List (Value × Nat))
  | (_, []) => none
  | (deepest, (value, below) :: stack) =>
    if value.isContainer then
      some (max deepest (below + 1),
        (value.children.map (fun child => (child, below + 1))).reverse ++ stack)
    else some (deepest, stack)

/-- The depth walk as a loop that ends. -/
def nestingDepthLoop : Loop (Nat × List (Value × Nat)) where
  step := nestingDepthStep
  fuel s := stackNodes s.2
  decreases := by
    rintro ⟨deepest, stack⟩ s' h
    cases stack with
    | nil => exact absurd h (by simp [nestingDepthStep])
    | cons p stack =>
      have hp : 0 < p.1.nodes := by rw [nodes_eq]; omega
      have hcons : stackNodes (p :: stack) = p.1.nodes + stackNodes stack := by
        simp [stackNodes]
      simp only [nestingDepthStep] at h
      split at h
      · obtain rfl := Option.some.inj h
        have := stackNodes_push p.1 (p.2 + 1) stack
        simp only [hcons]
        omega
      · obtain rfl := Option.some.inj h
        simp only [hcons]
        omega

/-- The full nesting depth of this value, where a top-level container counts as depth 1. -/
def nestingDepth (v : Value) : Nat := (nestingDepthLoop.run (0, [(v, 0)])).1

end Value

/-! ## Attribute maps -/

/-- A keyed container was offered one key twice. -/
structure DuplicateKey where
  key : String
deriving DecidableEq

/-- An attribute map: keys to values, compared as a map. -/
structure Attributes where
  entries : SortedMap String Value
deriving DecidableEq

namespace Attributes

/-- The map of no attribute. -/
def default : Attributes := ⟨SortedMap.empty⟩

/-- Insert-and-test from the left, refusing the first key seen twice. -/
def insertPairs (entries : SortedMap String Value) :
    List (String × Value) → Except DuplicateKey (SortedMap String Value)
  | [] => .ok entries
  | (key, value) :: rest =>
    if entries.contains key then .error ⟨key⟩ else insertPairs (entries.insert key value) rest

/-- Builds a map from emitter-ordered pairs; a duplicated key refuses the whole map. -/
def fromPairs (pairs : List (String × Value)) : Except DuplicateKey Attributes :=
  (insertPairs SortedMap.empty pairs).map Attributes.mk

/-- Insertion is accepted exactly when what stands and what is offered list the map's entries. -/
theorem insertPairs_eq_ok_iff {pairs : List (String × Value)} {entries made : SortedMap String Value} :
    insertPairs entries pairs = .ok made ↔ (entries.entries ++ pairs).Perm made.entries := by
  induction pairs generalizing entries with
  | nil =>
    rw [List.append_nil]
    constructor
    · intro h
      obtain rfl := Except.ok.inj h
      exact List.Perm.refl _
    · intro h
      rw [insertPairs, SortedMap.ext_of_perm h]
  | cons pair rest ih =>
    obtain ⟨key, value⟩ := pair
    unfold insertPairs
    by_cases hkey : entries.contains key = true
    · rw [if_pos hkey]
      refine iff_of_false (by simp) fun h => ?_
      -- the key stands, so no strictly sorted list holds it a second time
      obtain ⟨standing, hstanding, hsame⟩ := List.any_eq_true.mp hkey
      have hkeys : (entries.entries ++ (key, value) :: rest).Pairwise fun a b => a.1 ≠ b.1 :=
        h.symm.pairwise (made.sorted.imp fun h => h.ne) fun h => h.symm
      exact (List.pairwise_append.mp hkeys).2.2 standing hstanding (key, value)
        List.mem_cons_self (of_decide_eq_true hsame)
    · rw [if_neg hkey, ih]
      have habsent : ∀ p ∈ entries.entries, p.1 ≠ key := fun p hp hsame =>
        hkey (List.any_eq_true.mpr ⟨p, hp, decide_eq_true hsame⟩)
      have hinsert := (SortedMap.insert_perm (v := value) habsent).append_right rest
      have hmove : (entries.entries ++ (key, value) :: rest).Perm
          ((key, value) :: entries.entries ++ rest) := List.perm_middle
      exact ⟨fun h => hmove.trans (hinsert.symm.trans h), fun h => hinsert.trans (hmove.symm.trans h)⟩

/-- **A map is built from exactly the lists of its entries**: keys distinct, order forgotten. -/
theorem fromPairs_eq_ok_iff {pairs : List (String × Value)} {a : Attributes} :
    fromPairs pairs = .ok a ↔ pairs.Perm a.entries.entries := by
  rw [fromPairs, map_eq_ok_iff]
  constructor
  · rintro ⟨made, hmade, rfl⟩
    exact insertPairs_eq_ok_iff.mp hmade
  · intro h
    exact ⟨a.entries, insertPairs_eq_ok_iff.mpr h, rfl⟩

/-- The value carried under `key`, if the key is present. -/
def get (a : Attributes) (key : String) : Option Value := a.entries.get? key

def len (a : Attributes) : Nat := a.entries.length

def isEmpty (a : Attributes) : Bool := a.entries.entries.isEmpty

/-- The derived order walks the key-sorted entries. -/
def cmp (a b : Attributes) : Ordering := Value.cmpEntries a.entries.entries b.entries.entries

instance : Ord Attributes := ⟨cmp⟩

theorem cmp_eq_iff (a b : Attributes) : cmp a b = .eq ↔ a = b := by
  rw [cmp, Value.cmpEntries_eq_iff]
  constructor
  · intro h
    cases a; cases b
    exact congrArg Attributes.mk (SortedMap.ext h)
  · intro h; rw [h]

end Attributes

end RuntimeTrail
