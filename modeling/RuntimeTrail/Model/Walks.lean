import RuntimeTrail.Library.StackWalk
import RuntimeTrail.Model.Size

/-!
# The walks over a value

Nesting and size are read off a value by loops over an explicit stack, so that a
value nested deeper than any limit overflows nothing before it is refused.  Here
stands what each loop replaces: a recursion over the value's own shape.

* **the recursions** — `Value.depth`, `Value.byteSize` and `Value.subvalues`, each
  with its equation over `Value.children`, and `Value.induct_children`;
* **the size walk** — `sizeLoop_walks`, so `valueStackBytes_eq_sum`;
* **the nesting walks** — `nestingDepthLoop_walks` and `nestingLoop_searches`, the
  second stopping at the first container past its limit;
* **the law** — `Value.walks_eq_recursion`: the loops answer what the recursions do,
  and pop every node once.
-/

namespace RuntimeTrail

open Library

namespace Value

/-! ## The recursions -/

mutual

/-- The deepest chain of nested containers, a container itself included. -/
def depth : Value → Nat
  | array items => depthItems items + 1
  | kvList entries => depthEntries entries + 1
  | _ => 0

def depthItems : List Value → Nat
  | [] => 0
  | item :: rest => max (depth item) (depthItems rest)

def depthEntries : List (String × Value) → Nat
  | [] => 0
  | (_, value) :: rest => max (depth value) (depthEntries rest)

end

mutual

/-- The payload bytes of a value: an array is charged a slot for each item, a key-value list
its key and one entry's overhead for each entry, and both are charged what they hold. -/
def byteSize : Value → Nat
  | string text => text.utf8ByteSize
  | bool _ => 1
  | int _ => 8
  | double _ => 8
  | bytes payload => payload.length
  | array items => items.length * slotBytes valueBytesInline + byteSizeItems items
  | kvList entries => byteSizeEntries entries

def byteSizeItems : List Value → Nat
  | [] => 0
  | item :: rest => byteSize item + byteSizeItems rest

def byteSizeEntries : List (String × Value) → Nat
  | [] => 0
  | (key, value) :: rest =>
    keyedEntryBytes + key.utf8ByteSize + byteSize value + byteSizeEntries rest

end

mutual

/-- Every node of a value, itself first and then its children's, the last child's first. -/
def subvalues : Value → List Value
  | array items => array items :: subvaluesItems items
  | kvList entries => kvList entries :: subvaluesEntries entries
  | value => [value]

def subvaluesItems : List Value → List Value
  | [] => []
  | item :: rest => subvaluesItems rest ++ subvalues item

def subvaluesEntries : List (String × Value) → List Value
  | [] => []
  | (_, value) :: rest => subvaluesEntries rest ++ subvalues value

end

theorem depthItems_eq (items : List Value) :
    depthItems items = (items.map depth).foldr max 0 := by
  induction items with
  | nil => rfl
  | cons item rest ih => rw [depthItems, ih]; rfl

theorem depthEntries_eq (entries : List (String × Value)) :
    depthEntries entries = ((entries.map (·.2)).map depth).foldr max 0 := by
  induction entries with
  | nil => rfl
  | cons e rest ih => rw [depthEntries, ih]; rfl

/-- A container is one deeper than the deepest of its children. -/
theorem depth_eq (v : Value) :
    v.depth = if v.isContainer then (v.children.map depth).foldr max 0 + 1 else 0 := by
  cases v with
  | array items => simp [depth, isContainer, children, depthItems_eq]
  | kvList entries => simp only [depth, isContainer, children, depthEntries_eq, if_true]
  | _ => rfl

theorem byteSizeItems_eq (items : List Value) :
    byteSizeItems items = (items.map byteSize).sum := by
  induction items with
  | nil => rfl
  | cons item rest ih => simp [byteSizeItems, ih]

theorem byteSizeEntries_eq (entries : List (String × Value)) : byteSizeEntries entries =
    (entries.map fun e => keyedEntryBytes + e.1.utf8ByteSize).sum +
      ((entries.map (·.2)).map byteSize).sum := by
  induction entries with
  | nil => rfl
  | cons e rest ih => simp [byteSizeEntries, ih]; omega

/-- A value is charged for itself and for its children. -/
theorem byteSize_eq (v : Value) : v.byteSize = v.ownBytes + (v.children.map byteSize).sum := by
  cases v with
  | array items => simp only [byteSize, ownBytes, children, byteSizeItems_eq]
  | kvList entries => simp only [byteSize, ownBytes, children, byteSizeEntries_eq]
  | _ => simp [byteSize, ownBytes, children]

theorem subvaluesItems_eq (items : List Value) :
    subvaluesItems items = items.reverse.flatMap subvalues := by
  induction items with
  | nil => rfl
  | cons item rest ih => simp [subvaluesItems, ih]

theorem subvaluesEntries_eq (entries : List (String × Value)) :
    subvaluesEntries entries = (entries.map (·.2)).reverse.flatMap subvalues := by
  induction entries with
  | nil => rfl
  | cons e rest ih => simp [subvaluesEntries, ih]

theorem subvalues_eq (v : Value) : v.subvalues = v :: v.children.reverse.flatMap subvalues := by
  cases v with
  | array items => simp only [subvalues, children, subvaluesItems_eq]
  | kvList entries => simp only [subvalues, children, subvaluesEntries_eq]
  | _ => rfl

theorem mem_subvalues_iff {v node : Value} :
    node ∈ v.subvalues ↔ node = v ∨ ∃ child ∈ v.children, node ∈ child.subvalues := by
  rw [subvalues_eq, List.mem_cons, List.mem_flatMap]
  simp only [List.mem_reverse]

/-- What holds of a value if it holds of its children holds of every value. -/
theorem induct_children {P : Value → Prop} (h : ∀ v, (∀ child ∈ v.children, P child) → P v)
    (v : Value) : P v := by
  generalize hn : v.nodes = n
  induction n using Nat.strongRecOn generalizing v with
  | _ n ih =>
    refine h v fun child hchild => ih child.nodes ?_ child rfl
    have hle : child.nodes ≤ (v.children.map nodes).sum :=
      List.single_le_sum (fun _ _ => Nat.zero_le _) _ (List.mem_map_of_mem hchild)
    rw [← hn, nodes_eq v]
    exact Nat.lt_succ_of_le hle

end Value

/-! ## The size walk -/

/-- The size walk pushes the children of what it pops. -/
def sizeWalk : StackWalk Value where
  pushed v := v.children.reverse
  weight := Value.nodes
  weight_pushed v := by
    rw [List.map_reverse, List.sum_reverse, Value.nodes_eq v]
    exact Nat.lt_succ_self _

theorem sizeLoop_walks : Walks sizeWalk sizeLoop (fun total v => total + v.ownBytes) where
  ends _ := rfl
  turns _ _ _ := rfl

/-- The walk totals the recursive sizes of its stack. -/
theorem valueStackBytes_eq_byteSize (stack : List Value) :
    valueStackBytes stack = (stack.map Value.byteSize).sum := by
  have hrec : ∀ v : Value,
      v.byteSize = ((sizeWalk.pushed v).map Value.byteSize).foldl (· + ·) v.ownBytes := by
    intro v
    change _ = (v.children.reverse.map Value.byteSize).foldl (· + ·) v.ownBytes
    rw [v.byteSize_eq, ← Nat.add_zero v.ownBytes, List.foldl_assoc, ← List.sum_eq_foldl,
      List.map_reverse, List.sum_reverse, Nat.add_zero]
  rw [valueStackBytes, sizeLoop_walks.run_eq]
  change (stack.flatMap sizeWalk.order).foldl _ 0 = _
  rw [sizeWalk.foldl_flatMap_order_assoc hrec, List.sum_eq_foldl]

/-- **The walk totals its stack.** -/
theorem valueStackBytes_eq_sum (stack : List Value) :
    valueStackBytes stack = (stack.map accountedSize).sum := by
  rw [valueStackBytes_eq_byteSize]
  congr 1
  refine List.map_congr_left fun v _ => ?_
  change v.byteSize = valueStackBytes [v]
  rw [valueStackBytes_eq_byteSize, List.map_singleton, List.sum_singleton]

/-- What a walk that pushes children gathers of the nodes is their list. -/
theorem Value.foldl_subvalues (v : Value) :
    v.subvalues = (v.children.reverse.map Value.subvalues).foldl (· ++ ·) [v] := by
  rw [v.subvalues_eq, List.foldl_map, List.foldl_append_eq_append, List.flatMap_def]
  rfl

/-- The size walk pops what the recursion lists. -/
theorem sizeWalk_order (v : Value) : sizeWalk.order v = v.subvalues := by
  have h : (sizeWalk.order v).foldl (fun acc b => acc ++ [b]) [] = [] ++ v.subvalues :=
    sizeWalk.foldl_order_assoc Value.foldl_subvalues [] v
  rw [List.foldl_append_eq_append, ← List.flatMap_def, List.flatMap_singleton'] at h
  exact h

namespace Value

/-! ## The nesting walks -/

/-- The nesting walks push the children of what they pop, one level deeper. -/
def nestingWalk : StackWalk (Value × Nat) where
  pushed p := (p.1.children.map fun child => (child, p.2 + 1)).reverse
  weight p := p.1.nodes
  weight_pushed p := by
    have h := stackNodes_push p.1 (p.2 + 1) []
    rw [List.append_nil] at h
    exact h

/-- The level of a popped container, and no level for any other value. -/
def levelOf (p : Value × Nat) : Nat := if p.1.isContainer then p.2 + 1 else 0

theorem children_of_not_container {v : Value} (h : v.isContainer = false) : v.children = [] := by
  cases v with
  | array => cases h
  | kvList => cases h
  | _ => rfl

theorem nestingDepthLoop_walks :
    Walks nestingWalk nestingDepthLoop (fun deepest p => max deepest (levelOf p)) where
  ends _ := rfl
  turns deepest p stack := by
    obtain ⟨v, below⟩ := p
    change nestingDepthStep (deepest, (v, below) :: stack) = _
    cases h : v.isContainer with
    | true => simp only [nestingDepthStep, levelOf, nestingWalk, h, if_true]
    | false =>
      simp [nestingDepthStep, levelOf, nestingWalk, h, children_of_not_container h]

theorem nestingLoop_searches (limit : Nat) :
    Searches nestingWalk (nestingLoop limit) (fun p => decide (limit < levelOf p)) where
  ends := rfl
  found _ := rfl
  finds p stack hsought := by
    obtain ⟨v, below⟩ := p
    have hlevel := of_decide_eq_true hsought
    change nestingStep limit (false, (v, below) :: stack) = _
    cases h : v.isContainer with
    | true =>
      simp only [levelOf, h, if_true] at hlevel
      simp only [nestingStep, h, if_true, if_pos hlevel]
    | false => simp [levelOf, h] at hlevel
  turns p stack hsought := by
    obtain ⟨v, below⟩ := p
    have hlevel := of_decide_eq_false hsought
    change nestingStep limit (false, (v, below) :: stack) = _
    cases h : v.isContainer with
    | true =>
      simp only [levelOf, h, if_true] at hlevel
      simp only [nestingStep, h, if_true, if_neg hlevel, nestingWalk]
    | false => simp [nestingStep, nestingWalk, h, children_of_not_container h]

/-- The deepest level of a value that stands on a level. -/
def deepestLevel (p : Value × Nat) : Nat := if p.1.isContainer then p.2 + p.1.depth else 0

/-- On the level below a container, the deepest level is counted from that level. -/
theorem foldl_deepestLevel (children : List Value) (below own : Nat) (hown : below + 1 ≤ own) :
    (children.map fun child => deepestLevel (child, below + 1)).foldl max own =
      max own (below + 1 + (children.map depth).foldr max 0) := by
  induction children generalizing own with
  | nil => simp [hown]
  | cons child rest ih =>
    rw [List.map_cons, List.foldl_cons, ih _ (Nat.le_trans hown (Nat.le_max_left _ _)),
      List.map_cons, List.foldr_cons]
    have hchild : max own (deepestLevel (child, below + 1)) = max own (below + 1 + child.depth) := by
      unfold deepestLevel
      cases h : child.isContainer with
      | true => rfl
      | false =>
        have hdepth : child.depth = 0 := by rw [depth_eq, h]; rfl
        simp [hdepth, hown]
    rw [hchild, Nat.max_assoc, Nat.add_max_add_left]

theorem deepestLevel_eq (p : Value × Nat) : deepestLevel p =
    ((nestingWalk.pushed p).map deepestLevel).foldl max (levelOf p) := by
  obtain ⟨v, below⟩ := p
  change _ = ((v.children.map fun child => (child, below + 1)).reverse.map deepestLevel).foldl max _
  cases h : v.isContainer with
  | true =>
    have hperm : ((v.children.map fun child => (child, below + 1)).reverse.map deepestLevel).Perm
        (v.children.map fun child => deepestLevel (child, below + 1)) := by
      rw [List.map_reverse, List.map_map]
      exact List.reverse_perm _
    rw [hperm.foldl_eq, foldl_deepestLevel _ _ _ (by simp [levelOf, h])]
    simp only [deepestLevel, levelOf, h, if_true, depth_eq v]
    omega
  | false => simp [deepestLevel, levelOf, h, children_of_not_container h]

/-- **The depth walk is the recursion.** -/
theorem nestingDepth_eq_depth (v : Value) : v.nestingDepth = v.depth := by
  rw [nestingDepth, nestingDepthLoop_walks.run_eq, List.flatMap_singleton]
  change (nestingWalk.order (v, 0)).foldl (fun deepest p => max deepest (levelOf p)) 0 = _
  rw [nestingWalk.foldl_order_assoc deepestLevel_eq, Nat.zero_max, deepestLevel, Nat.zero_add]
  cases h : v.isContainer with
  | true => rfl
  | false => rw [depth_eq, h]; rfl

/-- A level goes past the limit where the deepest does. -/
theorem lt_foldl_levelOf_iff (limit start : Nat) (entries : List (Value × Nat)) :
    limit < entries.foldl (fun deepest p => max deepest (levelOf p)) start ↔
      limit < start ∨ entries.any (fun p => decide (limit < levelOf p)) = true := by
  induction entries generalizing start with
  | nil => simp
  | cons p rest ih =>
    rw [List.foldl_cons, ih, lt_max_iff, List.any_cons, Bool.or_eq_true, decide_eq_true_iff,
      or_assoc]

/-- The search of the gate goes past its limit where the value is nested deeper. -/
theorem exceedsNesting_iff (v : Value) (limit : Nat) :
    v.exceedsNesting limit = true ↔ limit < v.nestingDepth := by
  rw [exceedsNesting, (nestingLoop_searches limit).run_eq, nestingDepth,
    nestingDepthLoop_walks.run_eq, lt_foldl_levelOf_iff]
  exact (or_iff_right (Nat.not_lt_zero limit)).symm

/-- The nesting walks pop what the recursion lists, each with its level. -/
theorem nestingWalk_order (p : Value × Nat) :
    (nestingWalk.order p).map (·.1) = p.1.subvalues := by
  have hrec : ∀ p : Value × Nat, p.1.subvalues =
      ((nestingWalk.pushed p).map fun q => q.1.subvalues).foldl (· ++ ·) [p.1] := by
    intro p
    rw [p.1.foldl_subvalues]
    change _ = ((p.1.children.map fun child => (child, p.2 + 1)).reverse.map fun q =>
      q.1.subvalues).foldl (· ++ ·) [p.1]
    rw [List.map_reverse, List.map_reverse, List.map_map]
    rfl
  have h : (nestingWalk.order p).foldl (fun acc q => acc ++ [q.1]) [] = [] ++ p.1.subvalues :=
    nestingWalk.foldl_order_assoc hrec [] p
  rw [List.foldl_append_eq_append, ← List.flatMap_def] at h
  rw [List.nil_append, List.nil_append] at h
  rw [List.map_eq_flatMap, h]

/-- **A value's walks are its recursions.**  The gate's search goes past its limit exactly where
the value is nested deeper, the depth and the size walks answer what the recursions do, and both
pop each node of the value once; so does the gate's search, up to the node it stops at. -/
theorem walks_eq_recursion (v : Value) (limit : Nat) :
    (v.exceedsNesting limit = true ↔ limit < v.nestingDepth) ∧
    v.nestingDepth = v.depth ∧
    accountedSize v = v.byteSize ∧
    (nestingDepthLoop.popped (0, [(v, 0)])).map (·.1) = v.subvalues ∧
    sizeLoop.popped (0, [v]) = v.subvalues ∧
    ((nestingLoop limit).popped (false, [(v, 0)])).map (·.1) <+: v.subvalues ∧
    (v.exceedsNesting limit = false →
      ((nestingLoop limit).popped (false, [(v, 0)])).map (·.1) = v.subvalues) := by
  obtain ⟨hstarts, hall⟩ := (nestingLoop_searches limit).popped_isPrefix [(v, 0)]
  rw [List.flatMap_singleton] at hstarts hall
  refine ⟨v.exceedsNesting_iff limit, v.nestingDepth_eq_depth, ?_, ?_, ?_, ?_, ?_⟩
  · change valueStackBytes [v] = _
    rw [valueStackBytes_eq_byteSize, List.map_singleton, List.sum_singleton]
  · rw [nestingDepthLoop_walks.popped_eq, List.flatMap_singleton, nestingWalk_order]
  · rw [sizeLoop_walks.popped_eq, List.flatMap_singleton, sizeWalk_order]
  · rw [← nestingWalk_order (v, 0)]
    exact hstarts.map _
  · intro hfalse
    rw [hall hfalse, nestingWalk_order]

end Value

end RuntimeTrail
