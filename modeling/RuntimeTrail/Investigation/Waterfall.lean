import Mathlib.Data.List.Induction
import Mathlib.Data.List.Nodup
import RuntimeTrail.Investigation.Envelope

/-!
# The trace waterfall

The walked spans of the subject's trace, put in order: the effective root, then
its descendants level by level over parent links, then the members no parent
chain reached.

* **the descent** — `Descent`, the spans put in order so far and the ids
  visited; `Descent.Sound` is what every visit keeps;
* **the loop ends** — `descent`: a turn passes one span of the order, and what it
  appends was unvisited before;
* **the waterfall** — `waterfall_cases`: every walked span of the trace once, by
  identity, or the requested span alone;
* **the extent** — `extentOf`, which depends on the set of spans only
  (`extentOf_congr`).
-/

namespace RuntimeTrail

open Library

/-! ## Members of a trace -/

/-- The span id a span carries as a member of the trace. -/
def Span.memberOf (span : Span) (trace : TraceId) : Option SpanId :=
  match span.naturalIdentity with
  | some (naturalTrace, naturalSpan) => if naturalTrace = trace then some naturalSpan else none
  | none => none

theorem Span.memberOf_eq_some_iff {span : Span} {trace : TraceId} {id : SpanId} :
    span.memberOf trace = some id ↔ span.naturalIdentity = some (trace, id) := by
  unfold memberOf
  cases h : span.naturalIdentity with
  | none => simp
  | some identity =>
    obtain ⟨naturalTrace, naturalSpan⟩ := identity
    by_cases htrace : naturalTrace = trace <;> simp [htrace]

/-- The walked spans of the trace, in engine order, with the ids they were selected by. -/
def membersOf (trace : TraceId) (spans : List (Arc Span)) : List (Arc Span × SpanId) :=
  spans.filterMap fun span => (span.val.memberOf trace).map fun id => (span, id)

/-! ## The effective subject -/

/-- Resolves the effective subject: the first parentless member of the trace in engine order; without
one the requested root stands, and a root with no valid identity stands alone. -/
def resolveSubject (root : Arc Span) (requested : EntityId) (spans : List (Arc Span)) :
    EffectiveSubject :=
  match root.val.naturalIdentity with
  | none =>
    ⟨⟨requested, root.val.name, root.val.context.traceId, root.val.context.spanId⟩,
      [.rootHasNoValidTraceIdentity]⟩
  | some (trace, _) =>
    let parentless := (membersOf trace spans).filter fun m => m.1.val.parentSpanId.isNone
    match parentless.head? with
    | some (candidate, id) =>
      ⟨⟨.span trace id, candidate.val.name, trace, id⟩,
        if candidate.ptrEq root then [.requestedSpanIsRoot]
        else [.traceRootedAt (.span trace id) candidate.val.name id]⟩
    | none =>
      ⟨⟨.span trace root.val.context.spanId, root.val.name, trace, root.val.context.spanId⟩,
        [.noParentlessSpanResident]⟩

/-! ## The descent -/

/-- The spans put in order so far, the ids visited, and the span whose children come next. -/
structure Descent where
  ordered : List (Arc Span)
  visited : List SpanId
  cursor : Nat

namespace Descent

/-- Appends a member of the trace that was not visited. -/
def visit (trace : TraceId) (d : Descent) (span : Arc Span) : Descent :=
  match span.val.memberOf trace with
  | some id =>
    if d.visited.contains id then d
    else { d with ordered := d.ordered ++ [span], visited := d.visited ++ [id] }
  | none => d

/-- Visits the spans a pass picks, in engine order. -/
def pass (trace : TraceId) (picks : Arc Span → Bool) (spans : List (Arc Span)) (d : Descent) :
    Descent :=
  spans.foldl (fun d span => if picks span then d.visit trace span else d) d

/-- One turn of the loop: the children of the span at the cursor.  An ordered span without an
identity, where the source panics, is never met (`Sound.named`). -/
def turn (trace : TraceId) (spans : List (Arc Span)) (d : Descent) : Option Descent :=
  match d.ordered[d.cursor]? with
  | none => none
  | some span =>
    match span.val.naturalIdentity with
    | none => none
    | some (_, parent) =>
      let d := d.pass trace (fun child => child.val.parentSpanId == some parent) spans
      some { d with cursor := d.cursor + 1 }

/-- Whether a visit would append the span. -/
def fresh (trace : TraceId) (d : Descent) (span : Arc Span) : Bool :=
  match span.val.memberOf trace with
  | some id => !d.visited.contains id
  | none => false

theorem visit_of_fresh {trace : TraceId} {d : Descent} {span : Arc Span} {id : SpanId}
    (hid : span.val.memberOf trace = some id) (hfresh : id ∉ d.visited) :
    d.visit trace span =
      { d with ordered := d.ordered ++ [span], visited := d.visited ++ [id] } := by
  simp [visit, hid, hfresh]

theorem visit_of_not_fresh {trace : TraceId} {d : Descent} {span : Arc Span}
    (h : d.fresh trace span = false) : d.visit trace span = d := by
  unfold fresh at h
  unfold visit
  cases hid : span.val.memberOf trace with
  | none => rfl
  | some id =>
    rw [hid] at h
    exact if_pos (by simpa using h)

/-- A visit leaves the descent alone, or appends a member that was not visited. -/
theorem visit_cases (trace : TraceId) (d : Descent) (span : Arc Span) :
    d.fresh trace span = false ∧ d.visit trace span = d ∨
      ∃ id, span.val.memberOf trace = some id ∧ id ∉ d.visited ∧ d.visit trace span =
        { d with ordered := d.ordered ++ [span], visited := d.visited ++ [id] } := by
  cases hid : span.val.memberOf trace with
  | none =>
    have hfresh : d.fresh trace span = false := by simp [fresh, hid]
    exact Or.inl ⟨hfresh, visit_of_not_fresh hfresh⟩
  | some id =>
    by_cases hmem : id ∈ d.visited
    · have hfresh : d.fresh trace span = false := by simp [fresh, hid, hmem]
      exact Or.inl ⟨hfresh, visit_of_not_fresh hfresh⟩
    · exact Or.inr ⟨id, rfl, hmem, visit_of_fresh hid hmem⟩

/-- What holds before a pass and is kept by every visit holds after it. -/
theorem pass_invariant {I : Descent → Prop} {trace : TraceId} {spans : List (Arc Span)}
    (picks : Arc Span → Bool) (keep : ∀ d, ∀ span ∈ spans, I d → I (d.visit trace span))
    {d : Descent} (h : I d) : I (d.pass trace picks spans) := by
  unfold pass
  induction spans generalizing d with
  | nil => exact h
  | cons span rest ih =>
    refine ih (fun d s hs => keep d s (List.mem_cons_of_mem _ hs)) ?_
    dsimp only
    split
    · exact keep d span (List.mem_cons_self ..) h
    · exact h

/-! ## The loop ends -/

/-- The walked spans a visit would still append. -/
def unvisited (trace : TraceId) (spans : List (Arc Span)) (d : Descent) : Nat :=
  spans.countP (d.fresh trace)

/-- A visit moves a span from the unvisited to the order, or changes nothing. -/
theorem visit_moves {trace : TraceId} {spans : List (Arc Span)} (d : Descent) {span : Arc Span}
    (hmem : span ∈ spans) : (d.visit trace span).cursor = d.cursor ∧
      (d.visit trace span).unvisited trace spans + (d.visit trace span).ordered.length ≤
        d.unvisited trace spans + d.ordered.length ∧
      d.ordered.length ≤ (d.visit trace span).ordered.length := by
  rcases d.visit_cases trace span with ⟨-, heq⟩ | ⟨id, hid, hnew, heq⟩
  · rw [heq]
    exact ⟨rfl, Nat.le_refl _, Nat.le_refl _⟩
  · obtain ⟨front, back, rfl⟩ := List.append_of_mem hmem
    have hmono : ∀ l : List (Arc Span), l.countP (fresh trace
        { d with ordered := d.ordered ++ [span], visited := d.visited ++ [id] }) ≤
        l.countP (d.fresh trace) := fun l => by
      refine List.countP_mono_left fun s _ hs => ?_
      unfold fresh at hs ⊢
      cases hmember : s.val.memberOf trace <;> simp_all
    have hfront := hmono front
    have hback := hmono back
    have hspan : d.fresh trace span = true := by simp [fresh, hid, hnew]
    have hspent : fresh trace
        { d with ordered := d.ordered ++ [span], visited := d.visited ++ [id] } span = false := by
      simp [fresh, hid]
    rw [heq]
    refine ⟨rfl, ?_, by simp⟩
    simp only [unvisited, List.countP_append, List.countP_cons, List.length_append,
      List.length_singleton, hspan, hspent, if_true, Bool.false_eq_true, if_false]
    omega

/-- A turn ends the loop, or passes one span of the order. -/
theorem turn_moves {trace : TraceId} {spans : List (Arc Span)} {d d' : Descent}
    (h : d.turn trace spans = some d') : d.cursor < d.ordered.length ∧
      d'.cursor = d.cursor + 1 ∧
      d'.unvisited trace spans + d'.ordered.length ≤ d.unvisited trace spans + d.ordered.length ∧
      d.ordered.length ≤ d'.ordered.length := by
  unfold turn at h
  cases hspan : d.ordered[d.cursor]? with
  | none => simp [hspan] at h
  | some span =>
    cases hidentity : span.val.naturalIdentity with
    | none => simp [hspan, hidentity] at h
    | some identity =>
      simp only [hspan, hidentity, Option.some.injEq] at h
      obtain ⟨hlt, -⟩ := List.getElem?_eq_some_iff.mp hspan
      have hpass := @pass_invariant (fun e => e.cursor = d.cursor ∧
        e.unvisited trace spans + e.ordered.length ≤ d.unvisited trace spans + d.ordered.length ∧
        d.ordered.length ≤ e.ordered.length) trace spans
        (fun child => child.val.parentSpanId == some identity.2) (fun e s hs he => by
          obtain ⟨hcursor, hcount, hgrows⟩ := e.visit_moves hs
          exact ⟨hcursor.trans he.1, hcount.trans he.2.1, he.2.2.trans hgrows⟩) d
        ⟨rfl, Nat.le_refl _, Nat.le_refl _⟩
      obtain ⟨hcursor, hcount, hgrows⟩ := hpass
      subst h
      exact ⟨hlt, congrArg (· + 1) hcursor, hcount, hgrows⟩

end Descent

/-- The loop over the order: the children of each span of it in turn. -/
def descent (trace : TraceId) (spans : List (Arc Span)) : Loop Descent where
  step := Descent.turn trace spans
  fuel d := d.unvisited trace spans + d.ordered.length - d.cursor
  decreases h := by
    obtain ⟨hlt, hcursor, hcount, hgrows⟩ := Descent.turn_moves h
    omega

/-! ## What the descent keeps -/

namespace Descent

/-- The order holds walked members of the trace, each under the id visited in its place, and no id
is visited twice. -/
structure Sound (trace : TraceId) (spans : List (Arc Span)) (d : Descent) : Prop where
  within : ∀ span ∈ d.ordered, span ∈ spans
  named : (d.ordered.map fun span => span.val.memberOf trace) = d.visited.map some
  once : d.visited.Nodup

variable {trace : TraceId} {spans : List (Arc Span)} {d : Descent}

theorem Sound.visit (h : Sound trace spans d) {span : Arc Span} (hmem : span ∈ spans) :
    Sound trace spans (d.visit trace span) := by
  rcases d.visit_cases trace span with ⟨-, heq⟩ | ⟨id, hid, hnew, heq⟩
  · rw [heq]
    exact h
  · rw [heq]
    refine ⟨fun s hs => ?_, ?_, ?_⟩
    · rcases List.mem_append.mp hs with hs | hs
      · exact h.within s hs
      · rw [List.mem_singleton.mp hs]
        exact hmem
    · simp only [List.map_append, List.map_cons, List.map_nil, h.named, hid]
    · exact List.nodup_append'.mpr ⟨h.once, List.nodup_singleton id, by simpa using hnew⟩

theorem Sound.pass (h : Sound trace spans d) (picks : Arc Span → Bool) :
    Sound trace spans (d.pass trace picks spans) :=
  pass_invariant picks (fun _ _ hs hd => hd.visit hs) h

theorem Sound.turn (h : Sound trace spans d) {d' : Descent} (hturn : d.turn trace spans = some d') :
    Sound trace spans d' := by
  unfold Descent.turn at hturn
  cases hspan : d.ordered[d.cursor]? with
  | none => simp [hspan] at hturn
  | some span =>
    cases hidentity : span.val.naturalIdentity with
    | none => simp [hspan, hidentity] at hturn
    | some identity =>
      simp only [hspan, hidentity, Option.some.injEq] at hturn
      subst hturn
      obtain ⟨hwithin, hnamed, honce⟩ :=
        h.pass fun child => child.val.parentSpanId == some identity.2
      exact ⟨hwithin, hnamed, honce⟩

theorem Sound.run (h : Sound trace spans d) : Sound trace spans ((descent trace spans).run d) :=
  (descent trace spans).run_invariant (fun _ _ hd hturn => hd.turn hturn) h

/-- What was visited stays visited, and a pass over every span visits every member. -/
theorem visited_pass (d : Descent) :
    ∀ span ∈ spans, ∀ id, span.val.memberOf trace = some id →
      id ∈ (d.pass trace (fun _ => true) spans).visited := by
  have stays : ∀ (l : List (Arc Span)) (d : Descent), ∀ id ∈ d.visited,
      id ∈ (d.pass trace (fun _ => true) l).visited := fun l d id hid =>
    pass_invariant (I := fun e => id ∈ e.visited) _ (fun e s _ he => by
      rcases e.visit_cases trace s with ⟨-, heq⟩ | ⟨_, -, -, heq⟩ <;> rw [heq]
      · exact he
      · exact List.mem_append_left _ he) hid
  induction spans generalizing d with
  | nil => exact fun span hspan => absurd hspan (by simp)
  | cons first rest ih =>
    intro span hspan id hid
    rcases List.mem_cons.mp hspan with rfl | hspan
    · refine stays rest (d.visit trace span) id ?_
      rcases d.visit_cases trace span with ⟨hold, heq⟩ | ⟨id', hid', -, heq⟩
      · rw [heq]
        simpa [fresh, hid] using hold
      · rw [heq, ← Option.some.inj (hid'.symm.trans hid)]
        simp
    · exact ih (d.visit trace first) span hspan id hid

end Descent

/-! ## The waterfall -/

/-- Orders the walked spans of the trace: breadth-first levels from the effective root, then the
members no parent chain reached.  An effective root that was not walked leaves the requested span
alone. -/
def waterfall (spans : List (Arc Span)) (effective : EffectiveSubject) (root : Arc Span) :
    List (Arc Span) :=
  let trace := effective.root.traceId
  match spans.find? fun span => span.val.memberOf trace == some effective.root.spanId with
  | none => [root]
  | some seed =>
    let d := (descent trace spans).run ⟨[seed], [effective.root.spanId], 0⟩
    (d.pass trace (fun _ => true) spans).ordered

/-- The walked spans of a trace, each identity once. -/
structure MembersOnce (trace : TraceId) (spans ordered : List (Arc Span)) : Prop where
  within : ∀ span ∈ ordered, span ∈ spans ∧ ∃ id, span.val.memberOf trace = some id
  every : ∀ span ∈ spans, ∀ id, span.val.memberOf trace = some id →
    ∃ first ∈ ordered, first.val.memberOf trace = some id
  once : (ordered.map fun span => span.val.memberOf trace).Nodup

theorem Descent.Sound.membersOnce {trace : TraceId} {spans : List (Arc Span)} {d : Descent}
    (h : Descent.Sound trace spans d) :
    MembersOnce trace spans (d.pass trace (fun _ => true) spans).ordered := by
  have hpass := h.pass fun _ => true
  have hvisited := @Descent.visited_pass trace spans d
  generalize d.pass trace (fun _ => true) spans = last at hpass hvisited
  refine ⟨fun span hspan => ⟨hpass.within span hspan, ?_⟩, fun span hspan id hid => ?_, ?_⟩
  · have hmem : span.val.memberOf trace ∈ last.visited.map some := by
      rw [← hpass.named]
      exact List.mem_map_of_mem hspan
    obtain ⟨id, -, hid⟩ := List.mem_map.mp hmem
    exact ⟨id, hid.symm⟩
  · have hmem : some id ∈ last.ordered.map fun span => span.val.memberOf trace := by
      rw [hpass.named]
      exact List.mem_map_of_mem (hvisited span hspan id hid)
    exact List.mem_map.mp hmem
  · rw [hpass.named]
    exact hpass.once.map fun _ _ h => Option.some.inj h

/-- **The waterfall** holds the walked spans of the trace once each; it is the requested span alone
when none of them carries the effective root's identity. -/
theorem waterfall_cases (spans : List (Arc Span)) (effective : EffectiveSubject) (root : Arc Span) :
    ((∃ seed ∈ spans, seed.val.memberOf effective.root.traceId = some effective.root.spanId) ∧
      MembersOnce effective.root.traceId spans (waterfall spans effective root)) ∨
    ((∀ span ∈ spans, span.val.memberOf effective.root.traceId ≠ some effective.root.spanId) ∧
      waterfall spans effective root = [root]) := by
  unfold waterfall
  dsimp only
  cases hseed : spans.find? fun span =>
      span.val.memberOf effective.root.traceId == some effective.root.spanId with
  | none =>
    refine Or.inr ⟨fun span hspan => ?_, rfl⟩
    simpa using List.find?_eq_none.mp hseed span hspan
  | some seed =>
    have hid : seed.val.memberOf effective.root.traceId = some effective.root.spanId := by
      simpa using List.find?_some hseed
    have hmem : seed ∈ spans := List.mem_of_find?_eq_some hseed
    have hstart : Descent.Sound effective.root.traceId spans
        ⟨[seed], [effective.root.spanId], 0⟩ := by
      refine ⟨fun span hspan => ?_, by simp [hid], List.nodup_singleton _⟩
      rw [List.mem_singleton.mp hspan]
      exact hmem
    exact Or.inl ⟨⟨seed, hmem, hid⟩, hstart.run.membersOnce⟩

/-- The effective root of a subject with a valid identity belongs to the subject's trace, and some
walked span carries its identity unless the subject itself was not walked. -/
theorem resolveSubject_root {root : Arc Span} {trace : TraceId} {id : SpanId}
    (hroot : root.val.naturalIdentity = some (trace, id)) (requested : EntityId)
    (spans : List (Arc Span)) :
    (resolveSubject root requested spans).root.traceId = trace ∧
      ((∃ seed ∈ spans, seed.val.memberOf trace =
          some (resolveSubject root requested spans).root.spanId) ∨
        (resolveSubject root requested spans).root.spanId = id) := by
  have hspanId : root.val.context.spanId = id := by
    unfold Span.naturalIdentity at hroot
    split at hroot
    · exact congrArg Prod.snd (Option.some.inj hroot)
    · exact absurd hroot (by simp)
  unfold resolveSubject
  rw [hroot]
  dsimp only
  cases hhead : ((membersOf trace spans).filter fun m => m.1.val.parentSpanId.isNone).head? with
  | none => exact ⟨rfl, Or.inr hspanId⟩
  | some member =>
    obtain ⟨candidate, candidateId⟩ := member
    have hmem := (List.mem_filter.mp (List.mem_of_mem_head? hhead)).1
    obtain ⟨span, hspan, hmember⟩ := List.mem_filterMap.mp hmem
    obtain ⟨_, hid, heq⟩ := Option.map_eq_some_iff.mp hmember
    obtain ⟨rfl, rfl⟩ := Prod.mk.inj heq
    exact ⟨rfl, Or.inl ⟨span, hspan, hid⟩⟩

/-! ## The extent -/

/-- The minimum start to the maximum end; a span without an end ends at its start. -/
def extentOf (spans : List (Arc Span)) : TimeWindow :=
  spans.foldl (fun extent span =>
    ⟨min extent.start span.val.startTimeUnixNano,
      max extent.stop (span.val.endTimeUnixNano.getD span.val.startTimeUnixNano)⟩) ⟨u64Max, 0⟩

/-- The extent's ends, by what bounds them. -/
theorem extentOf_bounds (spans : List (Arc Span)) :
    (∀ time, time ≤ (extentOf spans).start ↔
      time ≤ u64Max ∧ ∀ span ∈ spans, time ≤ span.val.startTimeUnixNano) ∧
    (∀ time, (extentOf spans).stop ≤ time ↔
      ∀ span ∈ spans, span.val.endTimeUnixNano.getD span.val.startTimeUnixNano ≤ time) := by
  unfold extentOf
  induction spans using List.reverseRecOn with
  | nil => simp
  | append_singleton spans last ih =>
    obtain ⟨hstart, hstop⟩ := ih
    rw [List.foldl_append]
    constructor
    · intro time
      simp only [List.foldl_cons, List.foldl_nil, le_min_iff, hstart, List.forall_mem_append,
        List.forall_mem_singleton, and_assoc]
    · intro time
      simp only [List.foldl_cons, List.foldl_nil, max_le_iff, hstop, List.forall_mem_append,
        List.forall_mem_singleton]

/-- Spans that are the same as a set have one extent. -/
theorem extentOf_congr {spans spans' : List (Arc Span)} (h : ∀ span, span ∈ spans ↔ span ∈ spans') :
    extentOf spans = extentOf spans' := by
  obtain ⟨hstart, hstop⟩ := extentOf_bounds spans
  obtain ⟨hstart', hstop'⟩ := extentOf_bounds spans'
  have hstarts : (extentOf spans).start = (extentOf spans').start :=
    eq_of_forall_le_iff fun time => by simp only [hstart, hstart', h]
  have hstops : (extentOf spans).stop = (extentOf spans').stop :=
    eq_of_forall_ge_iff fun time => by simp only [hstop, hstop', h]
  cases hextent : extentOf spans
  cases hextent' : extentOf spans'
  simp_all

end RuntimeTrail
