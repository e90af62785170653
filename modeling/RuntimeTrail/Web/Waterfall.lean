import Mathlib.Data.List.Perm.Basic
import RuntimeTrail.Library.ParentLinks

/-!
# The client's waterfall

The web client lays a trace out again from the flat list of its spans.  `buildTree`
puts each span among the children of the span its parent link names, or among the
roots where the list has no such span, and sorts every array it comes to from the
roots; `rows` lists what it comes to from the roots, depth first.

The runtime returns every member of a trace, also the members no chain of parents
reaches.  A span whose chain of parents runs into a cycle is somebody's child and
below no root.

* **the arrays** — `link_apply`: what linking puts into each array, so
  `link_childLists`;
* **the sort** — `sortAll_eq_some`: it comes to an end, and leaves every array with
  what it held;
* **the rows** — `visit_eq_some`: they are the walk over the links from the roots;
* **the law** — `rows_iff_acyclic`.
-/

namespace RuntimeTrail.Web

open Library

/-- One span of a trace as the client receives it. -/
structure SpanView where
  traceId : String
  spanId : String
  parentSpanId : Option String
  name : String
  startTimeUnixNano : Nat
  endTimeUnixNano : Option Nat
deriving DecidableEq

/-! ## The tree -/

/-- Sets a node in the map by id: a key that stands keeps its place. -/
def setById : List SpanView → SpanView → List SpanView
  | [], view => [view]
  | standing :: rest, view =>
    if standing.spanId = view.spanId then view :: rest else standing :: setById rest view

/-- The nodes by id, in the order their ids were first set. -/
def byId (spans : List SpanView) : List SpanView := spans.foldl setById []

/-- The node a span's parent link names, if there is one. -/
def parentOf (nodes : List SpanView) (node : SpanView) : Option SpanView :=
  node.parentSpanId.bind fun pid => nodes.find? fun parent => decide (parent.spanId = pid)

/-- An array of the tree: the roots, or the children of a node. -/
inductive Slot where
  | roots
  | childrenOf (spanId : String)
deriving DecidableEq

/-- What the arrays hold. -/
abbrev Arrays := Slot → List SpanView

/-- The array a node is pushed to. -/
def slotOf (nodes : List SpanView) (node : SpanView) : Slot :=
  match parentOf nodes node with
  | some parent => .childrenOf parent.spanId
  | none => .roots

/-- Pushes a node to its parent's children, or to the roots. -/
def linkNode (nodes : List SpanView) (arrays : Arrays) (node : SpanView) : Arrays :=
  Function.update arrays (slotOf nodes node) (arrays (slotOf nodes node) ++ [node])

/-- Pushes every node, in the order of the map. -/
def link (nodes : List SpanView) : Arrays := nodes.foldl (linkNode nodes) fun _ => []

/-- The comparator: earlier starts first, and never equal. -/
def byStartTime (a b : SpanView) : Int :=
  if a.startTimeUnixNano < b.startTimeUnixNano then -1 else 1

section Sorting

-- The engine's sort of an array: a comparator that calls no two nodes equal is not consistent,
-- so which order it leaves is the engine's.
variable (sort : (SpanView → SpanView → Int) → List SpanView → List SpanView)

/-- Sorts an array in place, and then the children of each of its nodes. -/
def sortAll : Nat → Slot → Arrays → Option Arrays
  | 0, _, _ => none
  | fuel + 1, slot, arrays =>
    (sort byStartTime (arrays slot)).foldlM
      (fun arrays node => sortAll fuel (.childrenOf node.spanId) arrays)
      (Function.update arrays slot (sort byStartTime (arrays slot)))

/-- Builds the span tree from a flat list using parent links. -/
def buildTree (fuel : Nat) (spans : List SpanView) : Option Arrays :=
  sortAll sort fuel .roots (link (byId spans))

end Sorting

/-! ## The rows -/

/-- Which span ids are collapsed; a missing key means expanded. -/
def isExpanded (expandedById : String → Option Bool) (spanId : String) : Bool :=
  (expandedById spanId).getD true

structure WaterfallRow where
  span : SpanView
  depth : Nat
  hasChildren : Bool
  expanded : Bool
deriving DecidableEq

/-- Depth-first rows, skipping the subtrees of collapsed spans. -/
def visit (expandedById : String → Option Bool) (tree : Arrays) :
    Nat → List SpanView → Nat → List WaterfallRow → Option (List WaterfallRow)
  | 0, _, _, _ => none
  | fuel + 1, nodes, depth, out =>
    nodes.foldlM (fun out node =>
      let expanded := isExpanded expandedById node.spanId
      let children := tree (.childrenOf node.spanId)
      let hasChildren := !children.isEmpty
      let out := out ++ [⟨node, depth, hasChildren, expanded⟩]
      if expanded && hasChildren then visit expandedById tree fuel children (depth + 1) out
      else some out) out

/-- The rows of a list of spans. -/
def rows (sort : (SpanView → SpanView → Int) → List SpanView → List SpanView)
    (expandedById : String → Option Bool) (fuel : Nat) (spans : List SpanView) :
    Option (List WaterfallRow) :=
  (buildTree sort fuel spans).bind fun tree => visit expandedById tree fuel (tree .roots) 0 []

/-! ## The arrays -/

/-- Distinct ids make a map of the list as it is. -/
theorem byId_eq_self {spans : List SpanView} (h : (spans.map SpanView.spanId).Nodup) :
    byId spans = spans := by
  have hset : ∀ (before : List SpanView) (view : SpanView),
      (∀ b ∈ before, b.spanId ≠ view.spanId) → setById before view = before ++ [view] := by
    intro before view
    induction before with
    | nil => intro _; rfl
    | cons standing rest ih =>
      intro hne
      rw [setById, if_neg (hne standing List.mem_cons_self),
        ih fun b hb => hne b (List.mem_cons_of_mem _ hb), List.cons_append]
  have hfold : ∀ (rest before : List SpanView), ((before ++ rest).map SpanView.spanId).Nodup →
      rest.foldl setById before = before ++ rest := by
    intro rest
    induction rest with
    | nil => intro before _; rw [List.append_nil]; rfl
    | cons view rest ih =>
      intro before hnodup
      have hne : ∀ b ∈ before, b.spanId ≠ view.spanId := by
        intro b hb
        rw [List.map_append, List.nodup_append] at hnodup
        exact hnodup.2.2 _ (List.mem_map_of_mem hb) _ (List.mem_map_of_mem List.mem_cons_self)
      have happend : before ++ view :: rest = before ++ [view] ++ rest := by simp
      rw [List.foldl_cons, hset before view hne, ih _ (happend ▸ hnodup), happend]
  exact hfold spans [] h

/-- Linking leaves in each array the nodes whose array it is, in the order of the map. -/
theorem link_apply (nodes : List SpanView) (slot : Slot) :
    link nodes slot = nodes.filter fun node => decide (slotOf nodes node = slot) := by
  have hfold : ∀ (rest : List SpanView) (arrays : Arrays),
      rest.foldl (linkNode nodes) arrays slot =
        arrays slot ++ rest.filter fun node => decide (slotOf nodes node = slot) := by
    intro rest
    induction rest with
    | nil => intro arrays; simp
    | cons node rest ih =>
      intro arrays
      rw [List.foldl_cons, ih]
      by_cases hslot : slotOf nodes node = slot
      · rw [List.filter_cons, if_pos (decide_eq_true hslot), linkNode, hslot,
          Function.update_self, List.append_assoc, List.singleton_append]
      · rw [List.filter_cons, if_neg (by simpa using hslot), linkNode,
          Function.update_of_ne (Ne.symm hslot)]
  exact hfold nodes fun _ => []

theorem parentOf_mem {nodes : List SpanView} {node parent : SpanView}
    (h : parentOf nodes node = some parent) : parent ∈ nodes := by
  obtain ⟨pid, -, hfind⟩ := Option.bind_eq_some_iff.mp h
  exact List.mem_of_find?_eq_some hfind

theorem slotOf_eq_roots_iff (nodes : List SpanView) (node : SpanView) :
    slotOf nodes node = .roots ↔ parentOf nodes node = none := by
  unfold slotOf
  cases parentOf nodes node <;> simp

theorem slotOf_eq_childrenOf_iff (nodes : List SpanView) (node : SpanView) (spanId : String) :
    slotOf nodes node = .childrenOf spanId ↔
      ∃ parent, parentOf nodes node = some parent ∧ parent.spanId = spanId := by
  unfold slotOf
  cases parentOf nodes node <;> simp

/-- The children of a node. -/
def childrenIn (arrays : Arrays) (node : SpanView) : List SpanView :=
  arrays (.childrenOf node.spanId)

/-- **The arrays are the lists of the parent links**, where ids are distinct. -/
theorem link_childLists {nodes : List SpanView} (h : (nodes.map SpanView.spanId).Nodup) :
    ChildLists nodes (parentOf nodes) (link nodes .roots) (childrenIn (link nodes)) where
  closed _ _ _ hparent := parentOf_mem hparent
  mem_roots a := by
    rw [link_apply, List.mem_filter, decide_eq_true_iff, slotOf_eq_roots_iff]
  nodup_roots := by
    rw [link_apply]
    exact (List.Nodup.of_map _ h).filter _
  mem_below p hp a := by
    rw [childrenIn, link_apply, List.mem_filter, decide_eq_true_iff, slotOf_eq_childrenOf_iff]
    refine and_congr_right fun _ => ⟨?_, fun hparent => ⟨p, hparent, rfl⟩⟩
    rintro ⟨q, hparent, hid⟩
    rw [hparent, List.inj_on_of_nodup_map h (parentOf_mem hparent) hp hid]
  nodup_below p _ := by
    rw [childrenIn, link_apply]
    exact (List.Nodup.of_map _ h).filter _

/-! ## The sort -/

section SortAll

variable {sort : (SpanView → SpanView → Int) → List SpanView → List SpanView}
  {nodes : List SpanView} {parent : SpanView → Option SpanView} {arrays₀ : Arrays}

/-- **The sort comes to an end**, where it starts from an array whose nodes are of one depth, and
leaves in each array what it held. -/
theorem sortAll_eq_some (hsort : ∀ l, (sort byStartTime l).Perm l)
    (hlists : ChildLists nodes parent (arrays₀ .roots) (childrenIn arrays₀)) {fuel depth : Nat}
    {slot : Slot} {arrays : Arrays} (hfuel : nodes.length < fuel + depth) (hpos : 0 < fuel)
    (hlevel : ChildLists.Level nodes parent (arrays₀ slot) depth)
    (hheld : ∀ s, (arrays s).Perm (arrays₀ s)) :
    ∃ sorted, sortAll sort fuel slot arrays = some sorted ∧ ∀ s, (sorted s).Perm (arrays₀ s) := by
  induction fuel generalizing depth slot arrays with
  | zero => cases hpos
  | succ fuel ih =>
    have hstep : ∀ (level : List SpanView), (∀ a ∈ level, a ∈ arrays₀ slot) →
        ∀ arrays : Arrays, (∀ s, (arrays s).Perm (arrays₀ s)) → ∃ sorted,
          level.foldlM (fun arrays node => sortAll sort fuel (.childrenOf node.spanId) arrays)
            arrays = some sorted ∧ ∀ s, (sorted s).Perm (arrays₀ s) := by
      intro level
      induction level with
      | nil => intro _ arrays hheld; exact ⟨arrays, rfl, hheld⟩
      | cons a rest ihrest =>
        intro hmem arrays hheld
        obtain ⟨hnode, hdepth⟩ := hlevel a (hmem a List.mem_cons_self)
        have hlt := hdepth.lt_length hlists.closed hnode
        have hchildren : ChildLists.Level nodes parent (arrays₀ (.childrenOf a.spanId)) (depth + 1) :=
          hlists.level_below hnode hdepth
        obtain ⟨below, hbelow, hheld⟩ := ih (by omega) (by omega) hchildren hheld
        obtain ⟨sorted, hrest, hheld⟩ :=
          ihrest (fun b hb => hmem b (List.mem_cons_of_mem _ hb)) below hheld
        exact ⟨sorted, by rw [List.foldlM_cons, hbelow]; exact hrest, hheld⟩
    have hsorted := (hsort (arrays slot)).trans (hheld slot)
    refine hstep _ (fun a ha => hsorted.subset ha) _ fun s => ?_
    by_cases hs : s = slot
    · rw [hs, Function.update_self]
      exact hsorted
    · rw [Function.update_of_ne hs]
      exact hheld s

end SortAll

/-! ## The rows -/

section Rows

variable {nodes : List SpanView} {parent : SpanView → Option SpanView} {tree : Arrays}
  {expandedById : String → Option Bool}

/-- **The rows are the walk**, where every node is expanded and the level is of one depth. -/
theorem visit_eq_some (hexpanded : ∀ spanId, isExpanded expandedById spanId = true)
    (hlists : ChildLists nodes parent (tree .roots) (childrenIn tree)) {fuel depth : Nat}
    {level : List SpanView} (hfuel : nodes.length < fuel + depth) (hpos : 0 < fuel)
    (hlevel : ChildLists.Level nodes parent level depth) (out : List WaterfallRow) :
    ∃ listed, visit expandedById tree fuel level depth out = some (out ++ listed) ∧
      listed.map (fun row => (row.span, row.depth)) =
        preorder (childrenIn tree) fuel level depth := by
  induction fuel generalizing depth level out with
  | zero => cases hpos
  | succ fuel ih =>
    induction level generalizing out with
    | nil => exact ⟨[], by rw [List.append_nil]; rfl, rfl⟩
    | cons a rest ihrest =>
      obtain ⟨hnode, hdepth⟩ := hlevel a List.mem_cons_self
      have hrest : ChildLists.Level nodes parent rest depth := fun b hb =>
        hlevel b (List.mem_cons_of_mem _ hb)
      have hlt := hdepth.lt_length hlists.closed hnode
      let row : WaterfallRow := ⟨a, depth, !(childrenIn tree a).isEmpty, true⟩
      obtain ⟨below, hbelow, hpairs⟩ := ih (by omega) (by omega)
        (hlists.level_below hnode hdepth) (out ++ [row])
      obtain ⟨listed, hlisted, hlistedPairs⟩ := ihrest hrest (out ++ [row] ++ below)
      have hstep : (if isExpanded expandedById a.spanId && !(childrenIn tree a).isEmpty then
          visit expandedById tree fuel (childrenIn tree a) (depth + 1)
            (out ++ [⟨a, depth, !(childrenIn tree a).isEmpty, isExpanded expandedById a.spanId⟩])
          else some (out ++ [⟨a, depth, !(childrenIn tree a).isEmpty,
            isExpanded expandedById a.spanId⟩])) = some (out ++ [row] ++ below) := by
        rw [hexpanded, Bool.true_and]
        split
        · exact hbelow
        · -- a node without children has no row below it
          rename_i hleaf
          have hnone : childrenIn tree a = [] := by simpa using hleaf
          rw [hnone, preorder_nil] at hpairs
          rw [List.map_eq_nil_iff.mp hpairs, List.append_nil]
      refine ⟨row :: (below ++ listed), ?_, ?_⟩
      · rw [visit, List.foldlM_cons]
        refine (congrArg (· >>= _) hstep).trans ?_
        refine Eq.trans hlisted ?_
        simp only [List.append_assoc, List.cons_append, List.nil_append]
      · rw [List.map_cons, List.map_append, hpairs, hlistedPairs]
        rfl

end Rows

/-! ## Fuel -/

/-- A fold goes on where each of its steps does. -/
theorem foldlM_of_steps {β γ : Type} {f g : β → γ → Option β}
    (h : ∀ b c r, f b c = some r → g b c = some r) {l : List γ} {b r : β}
    (hf : l.foldlM f b = some r) : l.foldlM g b = some r := by
  induction l generalizing b with
  | nil => exact hf
  | cons c rest ih =>
    rw [List.foldlM_cons] at hf ⊢
    obtain ⟨b', hb', hrest⟩ := Option.bind_eq_some_iff.mp hf
    exact Option.bind_eq_some_iff.mpr ⟨b', h b c b' hb', ih hrest⟩

/-- What the sort answers with some fuel it answers with more. -/
theorem sortAll_mono {sort : (SpanView → SpanView → Int) → List SpanView → List SpanView}
    {fuel more : Nat} (hle : fuel ≤ more) {slot : Slot} {arrays sorted : Arrays}
    (h : sortAll sort fuel slot arrays = some sorted) :
    sortAll sort more slot arrays = some sorted := by
  induction fuel generalizing more slot arrays sorted with
  | zero => cases h
  | succ fuel ih =>
    obtain ⟨more, rfl⟩ : ∃ n, more = n + 1 := ⟨more - 1, by omega⟩
    exact foldlM_of_steps (fun _ _ _ hstep => ih (Nat.le_of_succ_le_succ hle) hstep) h

/-- So does the listing of the rows. -/
theorem visit_mono {expandedById : String → Option Bool} {tree : Arrays} {fuel more : Nat}
    (hle : fuel ≤ more) {level : List SpanView} {depth : Nat} {out listed : List WaterfallRow}
    (h : visit expandedById tree fuel level depth out = some listed) :
    visit expandedById tree more level depth out = some listed := by
  induction fuel generalizing more level depth out listed with
  | zero => cases h
  | succ fuel ih =>
    obtain ⟨more, rfl⟩ : ∃ n, more = n + 1 := ⟨more - 1, by omega⟩
    refine foldlM_of_steps (fun out node listed hstep => ?_) h
    simp only at hstep ⊢
    split at hstep
    · rename_i hinner
      rw [if_pos hinner]
      exact ih (Nat.le_of_succ_le_succ hle) hstep
    · rename_i hleaf
      rw [if_neg hleaf]
      exact hstep

/-! ## The law -/

/-- Every span is shown by one row, and a row below its parent's is one deeper. -/
structure ShowsEach (spans : List SpanView) (shown : List WaterfallRow) : Prop where
  once : (shown.map WaterfallRow.span).Perm spans
  deeper : ∀ row ∈ shown, ∀ above ∈ shown, parentOf spans row.span = some above.span →
    row.depth = above.depth + 1

/-- The link from a span to its parent in the list. -/
def ParentLink (spans : List SpanView) (span parent : SpanView) : Prop :=
  parentOf spans span = some parent

/-- The pairs a listing's rows make, read as rows again. -/
theorem exists_rows_of_sublist {shown : List WaterfallRow} {row : WaterfallRow} {parent : SpanView}
    {depth : Nat} (hnodup : (shown.map WaterfallRow.span).Nodup) (hrow : row ∈ shown)
    (h : [(parent, depth), (row.span, row.depth)].Sublist
      (shown.map fun row => (row.span, row.depth))) :
    ∃ above, above.span = parent ∧ above.depth = depth ∧ [above, row].Sublist shown := by
  obtain ⟨pair, hsub, heq⟩ := List.sublist_map_iff.mp h
  obtain ⟨above, tail, rfl, habove, htail⟩ := List.map_eq_cons_iff.mp heq.symm
  obtain ⟨below, tail, rfl, hbelow, htail⟩ := List.map_eq_cons_iff.mp htail
  obtain rfl := List.map_eq_nil_iff.mp htail
  obtain ⟨hparent, hdepth⟩ := Prod.mk.inj habove
  -- the id tells the row apart from every other one
  have hmem : below ∈ shown := hsub.subset (by simp)
  obtain rfl := List.inj_on_of_nodup_map hnodup hmem hrow (Prod.mk.inj hbelow).1
  exact ⟨above, hparent, hdepth, hsub⟩

/-- Building and listing come to an end with any fuel past the length, and list a walk over
arrays that are those of the parent links. -/
theorem rows_eq_some
    {sort : (SpanView → SpanView → Int) → List SpanView → List SpanView}
    (hsort : ∀ l, (sort byStartTime l).Perm l) {expandedById : String → Option Bool}
    (hexpanded : ∀ spanId, isExpanded expandedById spanId = true) {spans : List SpanView}
    (hdistinct : (spans.map SpanView.spanId).Nodup) :
    ∃ shown tree, (∀ fuel, spans.length < fuel → rows sort expandedById fuel spans = some shown) ∧
      ChildLists spans (parentOf spans) (tree .roots) (childrenIn tree) ∧
      shown.map (fun row => (row.span, row.depth)) =
        preorder (childrenIn tree) (spans.length + 1) (tree .roots) 0 := by
  have hlinked := link_childLists hdistinct
  obtain ⟨tree, htree, hheld⟩ := sortAll_eq_some hsort hlinked (Nat.lt_succ_self spans.length)
    (Nat.succ_pos _) hlinked.level_roots fun _ => List.Perm.refl _
  have hlists := hlinked.of_perm (hheld .roots) fun a => hheld (.childrenOf a.spanId)
  obtain ⟨shown, hshown, hpairs⟩ := visit_eq_some hexpanded hlists
    (Nat.lt_succ_self spans.length) (Nat.succ_pos _) hlists.level_roots []
  refine ⟨shown, tree, fun fuel hfuel => ?_, hlists, hpairs⟩
  rw [rows, buildTree, byId_eq_self hdistinct, sortAll_mono (Nat.succ_le_of_lt hfuel) htree]
  exact visit_mono (Nat.succ_le_of_lt hfuel) hshown

/-- **The waterfall shows what is below a root.**  Building and listing the tree of any list of
spans with distinct ids comes to an end with any fuel past its length, shows no span twice, and
each span one deeper than its parent and after it, or on the top level where the list has no
parent of it.  It shows each of them exactly where no span is its own ancestor. -/
theorem rows_iff_acyclic
    {sort : (SpanView → SpanView → Int) → List SpanView → List SpanView}
    (hsort : ∀ l, (sort byStartTime l).Perm l) {expandedById : String → Option Bool}
    (hexpanded : ∀ spanId, isExpanded expandedById spanId = true) {spans : List SpanView}
    (hdistinct : (spans.map SpanView.spanId).Nodup) :
    ∃ shown, (∀ fuel, spans.length < fuel → rows sort expandedById fuel spans = some shown) ∧
      (shown.map WaterfallRow.span).Nodup ∧
      (∀ row ∈ shown, row.span ∈ spans ∧ (parentOf spans row.span = none → row.depth = 0) ∧
        ∀ parent, parentOf spans row.span = some parent →
          ∃ above, above.span = parent ∧ row.depth = above.depth + 1 ∧
            [above, row].Sublist shown) ∧
      (ShowsEach spans shown ↔
        ∀ span ∈ spans, ¬ Relation.TransGen (ParentLink spans) span span) := by
  obtain ⟨shown, tree, hrows, hlists, hpairs⟩ := rows_eq_some hsort hexpanded hdistinct
  have hspans : shown.map WaterfallRow.span =
      (preorder (childrenIn tree) (spans.length + 1) (tree .roots) 0).map Prod.fst := by
    rw [← hpairs, List.map_map]
    rfl
  have hnodup : (shown.map WaterfallRow.span).Nodup :=
    hspans ▸ hlists.nodup_preorder hlists.level_roots hlists.nodup_roots
  have hlisted : ∀ row ∈ shown, (row.span, row.depth) ∈
      preorder (childrenIn tree) (spans.length + 1) (tree .roots) 0 := fun row hrow =>
    hpairs ▸ List.mem_map_of_mem (f := fun row => (row.span, row.depth)) hrow
  have hdepth : ∀ row ∈ shown, row.span ∈ spans ∧
      DepthIs (parentOf spans) row.span row.depth := fun row hrow =>
    (hlists.mem_preorder_iff (Nat.lt_succ_self _)).mp (hlisted row hrow)
  have hdeeper : ∀ row ∈ shown, ∀ above ∈ shown, parentOf spans row.span = some above.span →
      row.depth = above.depth + 1 := fun row hrow above habove hlink =>
    (hdepth row hrow).2.unique (.child hlink (hdepth above habove).2)
  refine ⟨shown, hrows, hnodup, fun row hrow => ⟨(hdepth row hrow).1, fun hroot => ?_,
    fun parent hlink => ?_⟩, ?_⟩
  · exact (hdepth row hrow).2.unique (.root hroot)
  · rcases hlists.parent_sublist hlists.level_roots (hlisted row hrow) with
      ⟨hroot, -⟩ | ⟨p, k, hlink', hk, hsub⟩
    · rw [((hlists.mem_roots _).mp hroot).2] at hlink
      cases hlink
    · rw [hlink] at hlink'
      obtain rfl := Option.some.inj hlink'
      rw [← hpairs] at hsub
      obtain ⟨above, habove, rfl, hrows⟩ := exists_rows_of_sublist hnodup hrow hsub
      exact ⟨above, habove, hk, hrows⟩
  · have honce : (shown.map WaterfallRow.span).Perm spans ↔
        ∀ span ∈ spans, ¬ Relation.TransGen (ParentLink spans) span span := by
      rw [hspans, hlists.perm_preorder_iff (Nat.lt_succ_self _) (List.Nodup.of_map _ hdistinct)]
      exact DepthIs.forall_exists_iff_acyclic hlists.closed
    exact ⟨fun h => honce.mp h.once, fun h => ⟨honce.mpr h, hdeeper⟩⟩

/-- An engine's sort that merges. -/
def mergeSorted (compare : SpanView → SpanView → Int) (nodes : List SpanView) : List SpanView :=
  nodes.mergeSort fun a b => decide (compare a b ≤ 0)

/-- A parent and its child, the child first. -/
def childFirst : List SpanView :=
  [⟨"01", "0b", some "0a", "child", 2, some 3⟩, ⟨"01", "0a", none, "root", 1, some 4⟩]

theorem rows_iff_acyclic_childFirst :
    ∃ shown, (∀ fuel, childFirst.length < fuel →
        rows mergeSorted (fun _ => none) fuel childFirst = some shown) ∧
      (shown.map WaterfallRow.span).Nodup ∧
      (∀ row ∈ shown, row.span ∈ childFirst ∧
        (parentOf childFirst row.span = none → row.depth = 0) ∧
        ∀ parent, parentOf childFirst row.span = some parent →
          ∃ above, above.span = parent ∧ row.depth = above.depth + 1 ∧
            [above, row].Sublist shown) ∧
      (ShowsEach childFirst shown ↔
        ∀ span ∈ childFirst, ¬ Relation.TransGen (ParentLink childFirst) span span) :=
  @rows_iff_acyclic mergeSorted (fun _ => List.mergeSort_perm _ _) (fun _ => none) (fun _ => rfl)
    childFirst (by decide)

/-- A span that names itself as its parent. -/
def selfParent : List SpanView := [⟨"01", "0a", some "0a", "loop", 1, some 2⟩]

/-- A span that is its own parent is the child of a node below no root: no row shows it. -/
theorem rows_selfParent :
    ¬ ∀ spans : List SpanView, (spans.map SpanView.spanId).Nodup →
      ∃ shown, (∀ fuel, spans.length < fuel →
        rows mergeSorted (fun _ => none) fuel spans = some shown) ∧ ShowsEach spans shown := by
  intro h
  obtain ⟨shown, hrows, heach⟩ := h selfParent (by decide)
  have hempty : rows mergeSorted (fun _ => none) 2 selfParent = some [] := by
    have hroots : link (byId selfParent) .roots = [] := by decide
    simp [rows, buildTree, sortAll, hroots, mergeSorted, visit]
  obtain rfl : [] = shown := Option.some.inj (hempty.symm.trans (hrows 2 (by decide)))
  exact absurd heach.once.length_eq (by decide)

end RuntimeTrail.Web
