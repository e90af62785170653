import Mathlib.Data.List.Dedup
import RuntimeTrail.Library.Levels
import RuntimeTrail.Investigation.Waterfall

/-!
# The order of the waterfall

The descent is a worklist over the walked spans of the trace, so what it reached
from the effective root stands in breadth-first levels; the members it did not
reach follow in engine order.  The whole holds every walked span of the trace and
the effective root once, unless the effective root was not walked and some member
was: then the members are lost.

* **a pass** — `Descent.pass_eq`, what is new among the spans it picks;
* **the descent** — `worklist_descent`;
* **the order** — `WaterfallOf`, and the law `waterfall_iff`.
-/

namespace RuntimeTrail

open Library

/-! ## The spans of a trace -/

/-- The id a span is told apart by within its trace. -/
def ownId (span : Arc Span) : SpanId := span.val.context.spanId

/-- The walked spans of the trace, in engine order. -/
def walkedOf (trace : TraceId) (spans : List (Arc Span)) : List (Arc Span) :=
  spans.filter fun span => (span.val.memberOf trace).isSome

/-- The walked spans of the trace whose parent link names a span, in engine order. -/
def childrenOf (trace : TraceId) (spans : List (Arc Span)) (parent : Arc Span) : List (Arc Span) :=
  (walkedOf trace spans).filter fun child => child.val.parentSpanId == some (ownId parent)

theorem walkedOf_cons_of_member {trace : TraceId} {span : Arc Span} {rest : List (Arc Span)}
    (h : (span.val.memberOf trace).isSome = true) :
    walkedOf trace (span :: rest) = span :: walkedOf trace rest :=
  List.filter_cons_of_pos h

theorem walkedOf_cons_of_other {trace : TraceId} {span : Arc Span} {rest : List (Arc Span)}
    (h : ¬ (span.val.memberOf trace).isSome = true) :
    walkedOf trace (span :: rest) = walkedOf trace rest :=
  List.filter_cons_of_neg h

theorem ownId_of_memberOf {trace : TraceId} {span : Arc Span} {id : SpanId}
    (h : span.val.memberOf trace = some id) : ownId span = id := by
  have hidentity := Span.memberOf_eq_some_iff.mp h
  unfold Span.naturalIdentity at hidentity
  split at hidentity
  · exact congrArg Prod.snd (Option.some.inj hidentity)
  · cases hidentity

theorem mem_walkedOf_iff {trace : TraceId} {spans : List (Arc Span)} {span : Arc Span} :
    span ∈ walkedOf trace spans ↔ span ∈ spans ∧ span.val.memberOf trace = some (ownId span) := by
  rw [walkedOf, List.mem_filter, Option.isSome_iff_exists]
  refine and_congr_right fun _ => ⟨?_, fun h => ⟨_, h⟩⟩
  rintro ⟨id, hid⟩
  rw [hid, ownId_of_memberOf hid]

/-! ## The descent as a worklist -/

namespace Descent

variable {trace : TraceId} {spans : List (Arc Span)} {d : Descent}

/-- A pass appends what is new among the members it picks. -/
theorem pass_eq (picks : Arc Span → Bool) (d : Descent) : d.pass trace picks spans =
    { d with
      ordered := d.ordered ++ novel ownId d.visited ((walkedOf trace spans).filter picks)
      visited := d.visited ++
        (novel ownId d.visited ((walkedOf trace spans).filter picks)).map ownId } := by
  induction spans generalizing d with
  | nil => simp [pass, walkedOf, novel]
  | cons span rest ih =>
    have hpass : d.pass trace picks (span :: rest) =
        (if picks span then d.visit trace span else d).pass trace picks rest := rfl
    rw [hpass, ih]
    by_cases hmember : (span.val.memberOf trace).isSome = true
    · rw [walkedOf_cons_of_member hmember]
      cases hpicks : picks span with
      | false => rw [List.filter_cons_of_neg (by simp [hpicks]), if_neg (by simp)]
      | true =>
        rw [List.filter_cons_of_pos hpicks, if_pos rfl]
        rcases d.visit_cases trace span with ⟨hold, heq⟩ | ⟨id, hid, hnew, heq⟩
        · obtain ⟨id, hid⟩ := Option.isSome_iff_exists.mp hmember
          have hseen : ownId span ∈ d.visited := by
            rw [ownId_of_memberOf hid]
            simpa [fresh, hid] using hold
          rw [heq, novel, if_pos hseen]
        · rw [heq, novel, if_neg (by rwa [ownId_of_memberOf hid]), ownId_of_memberOf hid]
          simp only [List.append_assoc, List.singleton_append, List.map_cons,
            ownId_of_memberOf hid]
    · rw [walkedOf_cons_of_other hmember]
      have hleft : d.visit trace span = d :=
        visit_of_not_fresh (by
          rw [fresh, Option.not_isSome_iff_eq_none.mp hmember])
      rw [hleft, ite_self]

/-- What is visited is what is in order. -/
theorem Sound.visited_eq (h : Sound trace spans d) : d.visited = d.ordered.map ownId := by
  have hown : (d.ordered.map fun span => span.val.memberOf trace) =
      (d.ordered.map ownId).map some := by
    rw [List.map_map]
    refine List.map_congr_left fun span hspan => ?_
    have hmem : span.val.memberOf trace ∈ d.visited.map some := by
      rw [← h.named]
      exact List.mem_map_of_mem hspan
    obtain ⟨id, -, hid⟩ := List.mem_map.mp hmem
    rw [← hid, Function.comp_apply, ownId_of_memberOf hid.symm]
  rw [h.named] at hown
  exact List.map_injective_iff.mpr (Option.some_injective _) hown

/-- A span in order carries its identity. -/
theorem Sound.identified (h : Sound trace spans d) {span : Arc Span} (hspan : span ∈ d.ordered) :
    span.val.naturalIdentity = some (trace, ownId span) := by
  have hmem : span.val.memberOf trace ∈ d.visited.map some := by
    rw [← h.named]
    exact List.mem_map_of_mem hspan
  obtain ⟨id, -, hid⟩ := List.mem_map.mp hmem
  rw [ownId_of_memberOf hid.symm]
  exact Span.memberOf_eq_some_iff.mp hid.symm

/-- A turn behind the last span ends the loop; before it, it appends the new children of the span
at the cursor. -/
theorem Sound.turn_eq (h : Sound trace spans d) : d.turn trace spans =
    d.ordered[d.cursor]?.map fun span =>
      { ordered := d.ordered ++
          novel ownId (d.ordered.map ownId) (childrenOf trace spans span)
        visited := d.visited ++
          (novel ownId (d.ordered.map ownId) (childrenOf trace spans span)).map ownId
        cursor := d.cursor + 1 } := by
  unfold Descent.turn
  cases hspan : d.ordered[d.cursor]? with
  | none => rfl
  | some span =>
    simp only [h.identified (List.mem_of_getElem? hspan), pass_eq, h.visited_eq, Option.map_some,
      childrenOf]

end Descent

/-- **The descent is a worklist** over the children of the spans it put in order. -/
theorem worklist_descent (trace : TraceId) (spans : List (Arc Span)) :
    Worklist (descent trace spans) (Descent.Sound trace spans) ownId (childrenOf trace spans)
      Descent.ordered Descent.cursor where
  keep hsound hturn := hsound.turn hturn
  turn := by
    intro d d' hsound hturn
    have hturn : d.turn trace spans = some d' := hturn
    rw [hsound.turn_eq] at hturn
    obtain ⟨span, hspan, rfl⟩ := Option.map_eq_some_iff.mp hturn
    exact ⟨span, hspan, rfl, rfl⟩
  stop := by
    intro d hsound hturn
    have hturn : d.turn trace spans = none := hturn
    rw [hsound.turn_eq] at hturn
    exact List.getElem?_eq_none_iff.mp (Option.map_eq_none_iff.mp hturn)

/-! ## The order -/

/-- The waterfall of a subject: the effective root, what descends from it in breadth-first levels, and
the members that do not, in engine order; every walked span of the trace and the effective root once,
and none of another trace. -/
structure WaterfallOf (trace : TraceId) (spans : List (Arc Span)) (effective : SpanId)
    (root : Arc Span) (ordered : List (Arc Span)) : Prop where
  levels : ∃ seed levels, seed.val.memberOf trace = some effective ∧
    Levels ownId (childrenOf trace spans) [effective] [seed] levels ∧
    ordered = levels.flatten ++ novel ownId (levels.flatten.map ownId) (walkedOf trace spans)
  within : ∀ span ∈ ordered, span.val.memberOf trace = some (ownId span) ∧
    (span ∈ spans ∨ span = root)
  once : (ordered.map ownId).Perm (effective :: (walkedOf trace spans).map ownId).dedup
  whole : ((walkedOf trace spans).map ownId).Nodup → ordered.Perm
    (if effective ∈ (walkedOf trace spans).map ownId then walkedOf trace spans
      else root :: walkedOf trace spans)
  ends : ∀ seed ∈ spans, seed.val.memberOf trace = some effective → ∃ d,
    (descent trace spans).Visits ⟨[seed], [effective], 0⟩ d ∧ d.cursor = d.ordered.length

section Law

variable {trace : TraceId} {spans : List (Arc Span)} {effective : SpanId} {root : Arc Span}

/-- The loop passes every span it put in order. -/
theorem cursor_run {d : Descent} (hsound : Descent.Sound trace spans d)
    (h : d.cursor ≤ d.ordered.length) : ((descent trace spans).run d).cursor =
      ((descent trace spans).run d).ordered.length := by
  have hwithin := (descent trace spans).run_invariant
    (I := fun d => d.cursor ≤ d.ordered.length) (fun d d' _ hturn => by
      obtain ⟨hlt, hcursor, -, hgrows⟩ := Descent.turn_moves hturn
      omega) h
  exact Nat.le_antisymm hwithin
    ((worklist_descent trace spans).stop hsound.run ((descent trace spans).step_run d))

theorem Descent.Sound.start {seed : Arc Span} (hseed : seed ∈ spans)
    (hid : seed.val.memberOf trace = some effective) :
    Descent.Sound trace spans ⟨[seed], [effective], 0⟩ where
  within := by
    intro span hspan
    rw [List.mem_singleton.mp hspan]
    exact hseed
  named := by simp [hid]
  once := List.nodup_singleton _

/-- Spans of the trace that are each once, by identity, are the walked ones where those are. -/
theorem MembersOnce.perm_walkedOf {ordered : List (Arc Span)}
    (h : MembersOnce trace spans ordered) (hdistinct : ((walkedOf trace spans).map ownId).Nodup) :
    ordered.Perm (walkedOf trace spans) := by
  have hmember : ∀ span ∈ ordered, span ∈ walkedOf trace spans := fun span hspan => by
    obtain ⟨hwithin, id, hid⟩ := h.within span hspan
    exact mem_walkedOf_iff.mpr ⟨hwithin, by rw [hid, ownId_of_memberOf hid]⟩
  refine (List.perm_ext_iff_of_nodup h.once.of_map hdistinct.of_map).mpr fun span =>
    ⟨hmember span, fun hwalked => ?_⟩
  obtain ⟨hspan, hid⟩ := mem_walkedOf_iff.mp hwalked
  obtain ⟨first, hfirst, hsame⟩ := h.every span hspan _ hid
  rw [← List.inj_on_of_nodup_map hdistinct (hmember first hfirst) hwalked (ownId_of_memberOf hsame)]
  exact hfirst

/-- From a walked effective root the descent ends in levels, and the other members follow. -/
theorem waterfall_levels {subject : EffectiveSubject} (htrace : subject.root.traceId = trace)
    (heffective : subject.root.spanId = effective)
    (hwalked : ∃ seed ∈ spans, seed.val.memberOf trace = some effective) :
    ∃ seed levels, seed.val.memberOf trace = some effective ∧
      Levels ownId (childrenOf trace spans) [effective] [seed] levels ∧
      waterfall spans subject root =
        levels.flatten ++ novel ownId (levels.flatten.map ownId) (walkedOf trace spans) := by
  unfold waterfall
  dsimp only
  rw [htrace, heffective]
  cases hfound : spans.find? fun span => span.val.memberOf trace == some effective with
  | none =>
    obtain ⟨seed, hseed, hid⟩ := hwalked
    exact absurd hid (by simpa using List.find?_eq_none.mp hfound seed hseed)
  | some first =>
    have hfirst : first.val.memberOf trace = some effective := by
      simpa using List.find?_some hfound
    have hsound := Descent.Sound.start (List.mem_of_find?_eq_some hfound) hfirst
    obtain ⟨levels, hlevels, hrun⟩ := (worklist_descent trace spans).levels hsound rfl
    dsimp only at hlevels
    rw [List.map_singleton, ownId_of_memberOf hfirst] at hlevels
    refine ⟨first, levels, hfirst, hlevels, ?_⟩
    dsimp only
    rw [Descent.pass_eq, hsound.run.visited_eq, hrun, List.filter_true]

/-- Members that are each once, by identity, carry the identities that were walked, each once. -/
theorem MembersOnce.perm_identities {ordered : List (Arc Span)}
    (h : MembersOnce trace spans ordered)
    (hwalked : effective ∈ (walkedOf trace spans).map ownId) :
    (ordered.map ownId).Perm (effective :: (walkedOf trace spans).map ownId).dedup := by
  have hnamed : ∀ span ∈ ordered, span.val.memberOf trace = some (ownId span) := fun span hspan => by
    obtain ⟨-, id, hid⟩ := h.within span hspan
    rw [hid, ownId_of_memberOf hid]
  have hnodup : (ordered.map ownId).Nodup := by
    have hsome : (ordered.map fun span => span.val.memberOf trace) =
        (ordered.map ownId).map some := by
      rw [List.map_map]
      exact List.map_congr_left hnamed
    have honce := h.once
    rw [hsome] at honce
    exact honce.of_map
  refine (List.perm_ext_iff_of_nodup hnodup (List.nodup_dedup _)).mpr fun id => ?_
  rw [List.mem_dedup, List.mem_cons, or_iff_right_of_imp fun h => h ▸ hwalked, List.mem_map,
    List.mem_map]
  constructor
  · rintro ⟨span, hspan, rfl⟩
    exact ⟨span, mem_walkedOf_iff.mpr ⟨(h.within span hspan).1, hnamed span hspan⟩, rfl⟩
  · rintro ⟨span, hspan, rfl⟩
    obtain ⟨hmem, hid⟩ := mem_walkedOf_iff.mp hspan
    obtain ⟨first, hfirst, hsame⟩ := h.every span hmem _ hid
    exact ⟨first, hfirst, ownId_of_memberOf hsame⟩

/-- From a walked effective root the waterfall is in order. -/
theorem waterfallOf_of_walked {subject : EffectiveSubject} (htrace : subject.root.traceId = trace)
    (heffective : subject.root.spanId = effective)
    (hwalked : ∃ seed ∈ spans, seed.val.memberOf trace = some effective) :
    WaterfallOf trace spans effective root (waterfall spans subject root) := by
  obtain ⟨seed, hseed, hid⟩ := hwalked
  obtain ⟨-, hmembers⟩ := (waterfall_cases spans subject root).resolve_right fun ⟨hnone, _⟩ =>
    hnone seed hseed (by rw [htrace, heffective, hid])
  rw [htrace] at hmembers
  have hmem : effective ∈ (walkedOf trace spans).map ownId :=
    List.mem_map.mpr ⟨seed, mem_walkedOf_iff.mpr ⟨hseed, by rw [hid, ownId_of_memberOf hid]⟩,
      ownId_of_memberOf hid⟩
  refine ⟨waterfall_levels htrace heffective ⟨seed, hseed, hid⟩, fun span hspan => ?_,
    hmembers.perm_identities hmem, fun hdistinct => ?_, fun first hfirst hfirstId => ?_⟩
  · obtain ⟨hwithin, id, hspanId⟩ := hmembers.within span hspan
    exact ⟨by rw [hspanId, ownId_of_memberOf hspanId], Or.inl hwithin⟩
  · rw [if_pos hmem]
    exact hmembers.perm_walkedOf hdistinct
  · exact ⟨_, (descent trace spans).visits_run _,
      cursor_run (Descent.Sound.start hfirst hfirstId) (Nat.zero_le _)⟩

/-- A requested root of a trace no other span of which was walked stands alone. -/
theorem waterfallOf_alone (hid : root.val.memberOf trace = some effective)
    (hnone : walkedOf trace spans = []) : WaterfallOf trace spans effective root [root] where
  levels := ⟨root, [[root]], hid, .last (by simp [childrenOf, hnone, novel]), by simp [hnone, novel]⟩
  within := by
    intro span hspan
    obtain rfl := List.mem_singleton.mp hspan
    exact ⟨by rw [hid, ownId_of_memberOf hid], Or.inr rfl⟩
  once := by
    rw [hnone, List.map_singleton, ownId_of_memberOf hid]
    exact List.Perm.refl _
  whole := by
    intro _
    rw [hnone, if_neg (by simp)]
  ends := by
    intro seed hseed hseedId
    rw [← ownId_of_memberOf hseedId] at hseedId
    have hwalked := mem_walkedOf_iff.mpr ⟨hseed, hseedId⟩
    rw [hnone] at hwalked
    cases hwalked

/-- The effective root was walked where a walked member has no parent, or the requested one was. -/
theorem effective_walked_iff {id : SpanId} (hroot : root.val.naturalIdentity = some (trace, id))
    (requested : EntityId) :
    (∃ seed ∈ spans, seed.val.memberOf trace =
        some (resolveSubject root requested spans).root.spanId) ↔
      ∃ span ∈ walkedOf trace spans, span.val.parentSpanId = none ∨ ownId span = id := by
  have hcontext : root.val.context.spanId = id :=
    ownId_of_memberOf (Span.memberOf_eq_some_iff.mpr hroot)
  unfold resolveSubject
  rw [hroot]
  dsimp only
  cases hhead : ((membersOf trace spans).filter fun m => m.1.val.parentSpanId.isNone).head? with
  | none =>
    dsimp only
    rw [hcontext]
    have hlinked : ∀ span ∈ walkedOf trace spans, span.val.parentSpanId ≠ none :=
      fun span hspan hparent => by
        obtain ⟨hmem, hid⟩ := mem_walkedOf_iff.mp hspan
        have hfiltered : (span, ownId span) ∈ (membersOf trace spans).filter fun m =>
            m.1.val.parentSpanId.isNone :=
          List.mem_filter.mpr
            ⟨List.mem_filterMap.mpr ⟨span, hmem, Option.map_eq_some_iff.mpr ⟨_, hid, rfl⟩⟩,
              Option.isNone_iff_eq_none.mpr hparent⟩
        rw [List.head?_eq_none_iff.mp hhead] at hfiltered
        cases hfiltered
    constructor
    · rintro ⟨seed, hseed, hid⟩
      have hown := ownId_of_memberOf hid
      exact ⟨seed, mem_walkedOf_iff.mpr ⟨hseed, by rw [hid, hown]⟩, Or.inr hown⟩
    · rintro ⟨span, hspan, hparent | rfl⟩
      · exact absurd hparent (hlinked span hspan)
      · exact ⟨span, mem_walkedOf_iff.mp hspan⟩
  | some member =>
    obtain ⟨candidate, candidateId⟩ := member
    obtain ⟨hmember, hparent⟩ := List.mem_filter.mp (List.mem_of_mem_head? hhead)
    obtain ⟨span, hspan, hpaired⟩ := List.mem_filterMap.mp hmember
    obtain ⟨_, hid, heq⟩ := Option.map_eq_some_iff.mp hpaired
    obtain ⟨rfl, rfl⟩ := Prod.mk.inj heq
    exact iff_of_true ⟨span, hspan, hid⟩
      ⟨span, mem_walkedOf_iff.mpr ⟨hspan, by rw [hid, ownId_of_memberOf hid]⟩,
        Or.inl (Option.isNone_iff_eq_none.mp hparent)⟩

/-- **When the waterfall is in order.**  For every list of walked spans and every requested root with
a valid identity: the waterfall behind the resolution holds the effective root, its descendants in
breadth-first levels and the remaining members, every walked span of the trace and the effective root
once, exactly when no span of the trace was walked, or a parentless one or the requested one was. -/
theorem waterfall_iff {id : SpanId} (hroot : root.val.naturalIdentity = some (trace, id))
    (requested : EntityId) (spans : List (Arc Span)) :
    WaterfallOf trace spans (resolveSubject root requested spans).root.spanId root
        (waterfall spans (resolveSubject root requested spans) root) ↔
      walkedOf trace spans = [] ∨
        ∃ span ∈ walkedOf trace spans, span.val.parentSpanId = none ∨ ownId span = id := by
  obtain ⟨htrace, heither⟩ := resolveSubject_root hroot requested spans
  rw [← effective_walked_iff hroot requested]
  by_cases hwalked : ∃ seed ∈ spans, seed.val.memberOf trace =
      some (resolveSubject root requested spans).root.spanId
  · exact iff_of_true (waterfallOf_of_walked htrace rfl hwalked) (Or.inr hwalked)
  · obtain ⟨-, halone⟩ := (waterfall_cases spans (resolveSubject root requested spans)
      root).resolve_left fun ⟨⟨seed, hseed, hid⟩, _⟩ => hwalked ⟨seed, hseed, htrace ▸ hid⟩
    have hid : root.val.memberOf trace = some (resolveSubject root requested spans).root.spanId := by
      rw [heither.resolve_left hwalked]
      exact Span.memberOf_eq_some_iff.mpr hroot
    rw [halone, or_iff_left hwalked]
    refine ⟨fun h => ?_, waterfallOf_alone hid⟩
    -- any walked member is a second identity the root alone does not hold
    by_contra hsome
    obtain ⟨span, hspan⟩ := List.exists_mem_of_ne_nil _ hsome
    obtain ⟨hmem, hspanId⟩ := mem_walkedOf_iff.mp hspan
    have hheld : ownId span ∈ [root].map ownId :=
      h.once.mem_iff.mpr (List.mem_dedup.mpr (List.mem_cons_of_mem _ (List.mem_map_of_mem hspan)))
    rw [List.map_singleton, List.mem_singleton, ownId_of_memberOf hid] at hheld
    exact hwalked ⟨span, hmem, by rw [hspanId, hheld]⟩

end Law

/-- A child of the second span of a trace, the only one of the two that was walked. -/
def walkedChild : Arc Span := ⟨2, { Span.bare 1 3 with parentSpanId := some (.ofByte 2) }⟩

/-- The span asked about, whose parent is not resident. -/
def unwalkedRoot : Arc Span := ⟨1, { Span.bare 1 2 with parentSpanId := some (.ofByte 1) }⟩

/-- A root that was walked together with its child. -/
theorem waterfall_iff_walked :
    WaterfallOf (.ofByte 1) [walkedChild, unwalkedRoot]
        (resolveSubject unwalkedRoot (.serial 0) [walkedChild, unwalkedRoot]).root.spanId unwalkedRoot
        (waterfall [walkedChild, unwalkedRoot]
          (resolveSubject unwalkedRoot (.serial 0) [walkedChild, unwalkedRoot]) unwalkedRoot) ↔
      walkedOf (.ofByte 1) [walkedChild, unwalkedRoot] = [] ∨
        ∃ span ∈ walkedOf (.ofByte 1) [walkedChild, unwalkedRoot],
          span.val.parentSpanId = none ∨ ownId span = .ofByte 2 :=
  @waterfall_iff (.ofByte 1) unwalkedRoot (.ofByte 2) (by decide +kernel) (.serial 0)
    [walkedChild, unwalkedRoot]

/-- The child was walked and its parent, the span asked about, was not: the child is lost. -/
theorem not_waterfall : ¬ ∀ (spans : List (Arc Span)) (root : Arc Span) (requested : EntityId)
    (trace : TraceId) (id : SpanId), root.val.naturalIdentity = some (trace, id) →
      WaterfallOf trace spans (resolveSubject root requested spans).root.spanId root
        (waterfall spans (resolveSubject root requested spans) root) := by
  intro hclaim
  have hinOrder := hclaim [walkedChild] unwalkedRoot (.span (.ofByte 1) (.ofByte 2)) (.ofByte 1)
    (.ofByte 2) (by decide +kernel)
  have hlength := (hinOrder.whole (List.nodup_singleton _)).length_eq
  exact absurd hlength (by decide +kernel)

end RuntimeTrail
