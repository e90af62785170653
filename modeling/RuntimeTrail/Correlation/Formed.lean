import RuntimeTrail.Correlation.Engine
import RuntimeTrail.Library.Pairs

/-!
# What a run forms

Each strategy pushes a list of relations it would form without a ceiling, and
the sink keeps the first of them that fit.

* **the sink** — `RelationSink.relations_pushAll`: what was kept, then as much of
  the offered list as there is room for;
* **the strategies** — `spanIdentity_eq`, `traceIdentity_sink`, `parentChild_eq`,
  `resourceContext_eq`, `exemplarAttachment_eq`, `temporalCoActivity_eq`: each
  pushes its own family;
* **groups** — `Grouped`, what entering records one by one builds: a group for
  each resource identity, holding the records that share it;
* **the run** — `form_sink`: the families of the requested strategies, in run
  order.
-/

namespace RuntimeTrail

open Library

/-! ## The sink -/

namespace RelationSink

def pushAll (sink : RelationSink) (relations : List Relation) : RelationSink :=
  relations.foldl push sink

@[simp] theorem pushAll_nil (sink : RelationSink) : sink.pushAll [] = sink := rfl

theorem pushAll_cons (sink : RelationSink) (relation : Relation) (rest : List Relation) :
    sink.pushAll (relation :: rest) = (sink.push relation).pushAll rest := rfl

theorem pushAll_append (sink : RelationSink) (front back : List Relation) :
    sink.pushAll (front ++ back) = (sink.pushAll front).pushAll back := List.foldl_append

/-- A loop whose body pushes a family for each element pushes the families in order. -/
theorem foldl_pushAll {α : Type} {body : RelationSink → α → RelationSink}
    {family : α → List Relation} (l : List α) (sink : RelationSink)
    (h : ∀ sink, ∀ a ∈ l, body sink a = sink.pushAll (family a)) :
    l.foldl body sink = sink.pushAll (l.flatMap family) := by
  induction l generalizing sink with
  | nil => rfl
  | cons a l ih =>
    rw [List.foldl_cons, h sink a (List.mem_cons_self ..), List.flatMap_cons, pushAll_append]
    exact ih _ fun sink b hb => h sink b (List.mem_cons_of_mem _ hb)

/-- A loop that pushes one relation for each element. -/
theorem foldl_push {α : Type} (relation : α → Relation) (l : List α) (sink : RelationSink) :
    l.foldl (fun sink a => sink.push (relation a)) sink = sink.pushAll (l.map relation) := by
  rw [pushAll, List.foldl_map]

/-- A sink holds what it counts, never more than the ceiling. -/
structure Counted (sink : RelationSink) : Prop where
  kept : sink.kept = sink.relations.length
  within : sink.kept ≤ sink.limit

theorem Counted.new (limit : Nat) (stoppedAt : Option StoppedAt) : (new limit stoppedAt).Counted :=
  ⟨rfl, Nat.zero_le _⟩

@[simp] theorem limit_push (sink : RelationSink) (relation : Relation) :
    (sink.push relation).limit = sink.limit := by
  unfold push
  split
  · split <;> rfl
  · rfl

/-- One push keeps the relation where there is room. -/
theorem relations_push (sink : RelationSink) (relation : Relation) :
    (sink.push relation).relations =
      sink.relations ++ [relation].take (sink.limit - sink.kept) ∧
    (sink.push relation).kept = sink.kept + ([relation].take (sink.limit - sink.kept)).length := by
  unfold push
  by_cases hfull : sink.limit ≤ sink.kept
  · have hroom : sink.limit - sink.kept = 0 := by omega
    rw [if_pos hfull, hroom]
    split <;> simp
  · obtain ⟨room, hroom⟩ : ∃ room, sink.limit - sink.kept = room + 1 :=
      ⟨sink.limit - sink.kept - 1, by omega⟩
    rw [if_neg hfull, hroom]
    simp

theorem Counted.push {sink : RelationSink} (h : sink.Counted) (relation : Relation) :
    (sink.push relation).Counted := by
  obtain ⟨hrelations, hkept⟩ := sink.relations_push relation
  refine ⟨?_, ?_⟩
  · rw [hrelations, hkept, List.length_append, h.kept]
  · have := h.within
    rw [limit_push, hkept, List.length_take]
    omega

/-- **The kept relations** are the offered ones, as far as there is room. -/
theorem relations_pushAll {sink : RelationSink} (h : sink.Counted) (relations : List Relation) :
    (sink.pushAll relations).relations =
      sink.relations ++ relations.take (sink.limit - sink.kept) := by
  induction relations generalizing sink with
  | nil => simp
  | cons relation rest ih =>
    obtain ⟨hrelations, hkept⟩ := sink.relations_push relation
    rw [pushAll_cons, ih (h.push relation), hrelations, limit_push, hkept]
    by_cases hfull : sink.limit ≤ sink.kept
    · have hroom : sink.limit - sink.kept = 0 := by omega
      simp [hroom]
    · obtain ⟨room, hroom⟩ : ∃ room, sink.limit - sink.kept = room + 1 :=
        ⟨sink.limit - sink.kept - 1, by omega⟩
      have hrest : sink.limit - (sink.kept + 1) = room := by omega
      simp [hroom, hrest]

/-- **The stop** of a sink: one that stood before stands; else the ceiling, where something did not
fit under it. -/
theorem stoppedAt_pushAll {sink : RelationSink} (h : sink.Counted) (relations : List Relation) :
    (sink.pushAll relations).stoppedAt =
      sink.stoppedAt.or (if sink.kept + relations.length ≤ sink.limit then none
        else some (.maxRelations sink.limit)) := by
  induction relations generalizing sink with
  | nil =>
    rw [pushAll_nil, List.length_nil, Nat.add_zero, if_pos h.within]
    cases sink.stoppedAt <;> rfl
  | cons relation rest ih =>
    have hkept := (sink.relations_push relation).2
    rw [pushAll_cons, ih (h.push relation), limit_push, List.length_cons]
    by_cases hfull : sink.limit ≤ sink.kept
    · rw [hkept, show sink.limit - sink.kept = 0 by omega, List.take_zero, List.length_nil]
      rw [if_neg (show ¬ sink.kept + (rest.length + 1) ≤ sink.limit by omega)]
      unfold push
      rw [if_pos hfull]
      cases hstop : sink.stoppedAt with
      | none => rfl
      | some stop => simp [hstop]
    · obtain ⟨room, hroom⟩ : ∃ room, sink.limit - sink.kept = room + 1 :=
        ⟨sink.limit - sink.kept - 1, by omega⟩
      rw [hkept, hroom]
      unfold push
      rw [if_neg hfull]
      simp only [List.take_succ_cons, List.take_nil, List.length_singleton, Nat.add_assoc,
        Nat.add_comm 1]

/-- **No stop** is named exactly when none stood and everything offered fits. -/
theorem stoppedAt_pushAll_eq_none {sink : RelationSink} (h : sink.Counted)
    (relations : List Relation) : (sink.pushAll relations).stoppedAt = none ↔
      sink.stoppedAt = none ∧ sink.kept + relations.length ≤ sink.limit := by
  rw [stoppedAt_pushAll h, Option.or_eq_none_iff]
  refine and_congr_right fun _ => ?_
  split
  · exact iff_of_true rfl (by assumption)
  · exact iff_of_false (by simp) (by assumption)

end RelationSink

/-! ## The families of the identity strategies -/

/-- The resident span a log record's trace context names exactly. -/
def exactSpan (members : List (EntityId × Arc Span)) (log : LogRecord) : Option EntityId :=
  log.correlationPair.bind fun pair => spanWithIdentity members pair.1 pair.2

/-- The relation of a log record to its exact span. -/
def spanIdentityRelation (log : EntityId) (trace : TraceId) (spanId : SpanId) (span : EntityId) :
    Relation :=
  ⟨.spanIdentity, ⟨.logRecords, log⟩, ⟨.spans, span⟩, identityFacts trace spanId,
    Strategy.spanIdentity.statement, none⟩

/-- The relation of a log record to a span of its trace. -/
def traceIdentityRelation (log : EntityId) (trace : TraceId) (span : EntityId) : Relation :=
  ⟨.traceIdentity, ⟨.logRecords, log⟩, ⟨.spans, span⟩, traceFacts trace,
    Strategy.traceIdentity.statement, none⟩

/-- The log records of a trace. -/
def logsOf (subject : TraceId) (logs : List (EntityId × Arc LogRecord)) :
    List (EntityId × Arc LogRecord) :=
  logs.filter fun log => decide (log.2.val.traceId = some subject)

/-- Every log record of the subject trace whose exact span is resident, with that span. -/
def spanIdentityOf (subject : Option TraceId) (members : List (EntityId × Arc Span))
    (logs : List (EntityId × Arc LogRecord)) : List Relation :=
  subject.toList.flatMap fun subject =>
    (logsOf subject logs).filterMap fun log =>
      log.2.val.spanId.bind fun spanId =>
        (spanWithIdentity members subject spanId).map (spanIdentityRelation log.1 subject spanId)

/-- Every log record of the subject trace whose exact span is not resident, with every resident span
of the trace. -/
def traceIdentityOf (subject : Option TraceId) (members : List (EntityId × Arc Span))
    (logs : List (EntityId × Arc LogRecord)) : List Relation :=
  subject.toList.flatMap fun subject =>
    ((logsOf subject logs).filter fun log => (exactSpan members log.2.val).isNone).flatMap fun log =>
      members.map fun span => traceIdentityRelation log.1 subject span.1

theorem spanIdentity_eq (subject : Option TraceId) (members : List (EntityId × Arc Span))
    (logs : List (EntityId × Arc LogRecord)) (sink : RelationSink) :
    spanIdentity subject members logs sink = sink.pushAll (spanIdentityOf subject members logs) := by
  cases subject with
  | none => rfl
  | some subject =>
    rw [spanIdentity, spanIdentityOf, Option.toList_some, List.flatMap_singleton, logsOf,
      List.filterMap_filter, List.filterMap_eq_flatMap_toList]
    refine RelationSink.foldl_pushAll logs sink fun sink log _ => ?_
    rw [LogRecord.correlationPair]
    cases htrace : log.2.val.traceId with
    | none => simp
    | some trace =>
      by_cases hsubject : trace = subject
      · subst hsubject
        cases log.2.val.spanId with
        | none => simp
        | some spanId =>
          cases hspan : spanWithIdentity members trace spanId with
          | none => simp [hspan]
          | some span => simp [hspan, spanIdentityRelation, RelationSink.pushAll]
      · cases log.2.val.spanId <;> simp [hsubject]

theorem traceIdentity_sink (subject : Option TraceId) (members : List (EntityId × Arc Span))
    (logs : List (EntityId × Arc LogRecord)) (forming : Forming) :
    (traceIdentity subject members logs forming).sink =
      forming.sink.pushAll (traceIdentityOf subject members logs) := by
  cases subject with
  | none => rfl
  | some subject =>
    rw [traceIdentity, traceIdentityOf, Option.toList_some, List.flatMap_singleton, logsOf]
    induction logs generalizing forming with
    | nil => rfl
    | cons log logs ih =>
      rw [List.foldl_cons, ih]
      cases htrace : log.2.val.traceId with
      | none => simp [htrace]
      | some trace =>
        by_cases hsubject : trace = subject
        · subst hsubject
          rw [List.filter_cons_of_pos (by simp [htrace])]
          cases hexact : exactSpan members log.2.val with
          | some exact =>
            rw [List.filter_cons_of_neg (by simp [hexact])]
            rw [exactSpan] at hexact
            simp [hexact]
          | none =>
            rw [List.filter_cons_of_pos (by simp [hexact]), List.flatMap_cons,
              RelationSink.pushAll_append]
            rw [exactSpan] at hexact
            cases members with
            | nil => simp [hexact]
            | cons member members =>
              simp only [ne_eq, not_true_eq_false, if_false, hexact, List.isEmpty_cons,
                Bool.false_eq_true]
              exact congrArg (fun sink : RelationSink => sink.pushAll _)
                (RelationSink.foldl_push (fun span : EntityId × Arc Span =>
                  traceIdentityRelation log.1 trace span.1) (member :: members) forming.sink)
        · rw [List.filter_cons_of_neg (by simp [htrace, hsubject])]
          simp [hsubject]

/-! ## Parents and exemplars -/

/-- The parent a span names: its parent id, and the other resident span that carries it. -/
def namedParent (spans : List (EntityId × Arc Span)) (child : EntityId × Arc Span) :
    Option (SpanId × EntityId) :=
  child.2.val.parentSpanId.bind fun parent =>
    child.2.val.naturalIdentity.bind fun identity =>
      (residentSpanNamed spans identity.1 parent).bind fun span =>
        if parent.isValid && decide (child.1 ≠ span) then some (parent, span) else none

def parentChildRelation (child : EntityId) (parent : SpanId) (span : EntityId) : Relation :=
  ⟨.parentChild, ⟨.spans, child⟩, ⟨.spans, span⟩, [⟨"parent_span_id", .bytes parent.bytes⟩],
    Strategy.parentChild.statement, none⟩

/-- Every span that names another resident span of its trace as its parent. -/
def parentChildOf (spans : List (EntityId × Arc Span)) : List Relation :=
  spans.filterMap fun child =>
    (namedParent spans child).map fun parent => parentChildRelation child.1 parent.1 parent.2

theorem parentChild_eq (spans : List (EntityId × Arc Span)) (sink : RelationSink) :
    parentChild spans sink = sink.pushAll (parentChildOf spans) := by
  rw [parentChild, parentChildOf, List.filterMap_eq_flatMap_toList]
  refine RelationSink.foldl_pushAll spans sink fun sink child _ => ?_
  rw [namedParent]
  cases hparent : child.2.val.parentSpanId with
  | none => simp
  | some parent =>
    cases hvalid : parent.isValid with
    | false => cases child.2.val.naturalIdentity <;> simp [hvalid]
    | true =>
      cases child.2.val.naturalIdentity with
      | none => simp [hvalid]
      | some identity =>
        obtain ⟨trace, own⟩ := identity
        cases hspan : residentSpanNamed spans trace parent with
        | none => simp [hvalid, hspan]
        | some span =>
          by_cases hself : child.1 = span
          · simp [hvalid, hspan, hself]
          · simp [hvalid, hspan, hself, RelationSink.pushAll, parentChildRelation]

/-- The relation of a data point to the span an exemplar of it names. -/
def exemplarRelation (point : EntityId) (trace : TraceId) (spanId : SpanId) (span : EntityId) :
    Relation :=
  ⟨.exemplarAttachment, ⟨.metricPoints, point⟩, ⟨.spans, span⟩,
    [⟨"exemplar.trace_id", .bytes trace.bytes⟩, ⟨"exemplar.span_id", .bytes spanId.bytes⟩],
    Strategy.exemplarAttachment.statement, none⟩

/-- Every exemplar of a point that names a resident span, with that span. -/
def exemplarAttachmentOf (points : List (EntityId × PointView))
    (spans : List (EntityId × Arc Span)) : List Relation :=
  points.flatMap fun point =>
    point.2.point.val.exemplars.filterMap fun exemplar =>
      exemplar.correlationPair.bind fun pair =>
        (residentSpanNamed spans pair.1 pair.2).map (exemplarRelation point.1 pair.1 pair.2)

theorem exemplarAttachment_eq (points : List (EntityId × PointView))
    (spans : List (EntityId × Arc Span)) (sink : RelationSink) :
    exemplarAttachment points spans sink = sink.pushAll (exemplarAttachmentOf points spans) := by
  refine RelationSink.foldl_pushAll points sink fun sink point _ => ?_
  rw [List.filterMap_eq_flatMap_toList]
  refine RelationSink.foldl_pushAll _ sink fun sink exemplar _ => ?_
  cases exemplar.correlationPair with
  | none => simp
  | some pair =>
    obtain ⟨trace, spanId⟩ := pair
    cases hspan : residentSpanNamed spans trace spanId with
    | none => simp [hspan]
    | some span => simp [hspan, RelationSink.pushAll, exemplarRelation]

/-! ## Shared resources -/

/-- The relation of two records that share a resource. -/
def resourceRelation (source target : Resource × SignalRef) : Relation :=
  ⟨.resourceContext, source.2, target.2, resourceFacts source.1,
    Strategy.resourceContext.statement, none⟩

/-- Every pair of the listed records with equal resource identity, the earlier one first. -/
def resourceContextOf (signals : List (Resource × SignalRef)) : List Relation :=
  ((pairs signals).filter fun p => decide (p.1.1.attributes = p.2.1.attributes)).map
    fun p => resourceRelation p.1 p.2

/-- The evidence of a resource is that of its identity. -/
theorem resourceFacts_congr {a b : Resource} (h : a.attributes = b.attributes) :
    resourceFacts a = resourceFacts b := by
  rw [resourceFacts, resourceFacts, h]

/-- The groups of the records entered so far: one for each resource identity, in which the records
that share it stand in order. -/
structure Grouped (groups : List (Resource × List SignalRef))
    (signals : List (Resource × SignalRef)) : Prop where
  distinct : (groups.map fun group => group.1.attributes).Nodup
  members : ∀ group ∈ groups, group.2 =
    (signals.filter fun signal => decide (signal.1.attributes = group.1.attributes)).map Prod.snd
  covers : ∀ signal ∈ signals,
    signal.1.attributes ∈ groups.map fun group => group.1.attributes

theorem Grouped.nil : Grouped [] [] :=
  ⟨List.nodup_nil, fun _ h => absurd h (by simp), fun _ h => absurd h (by simp)⟩

/-- Entering one record keeps the groups. -/
theorem Grouped.join {groups : List (Resource × List SignalRef)}
    {signals : List (Resource × SignalRef)} (h : Grouped groups signals) (resource : Resource)
    (member : SignalRef) :
    Grouped (joinGroup groups resource member) (signals ++ [(resource, member)]) := by
  unfold joinGroup
  by_cases hany : (groups.any fun group => group.1 == resource) = true
  · rw [if_pos hany]
    have hkeys : (groups.map fun group =>
        if group.1 == resource then (group.1, group.2 ++ [member]) else group).map
          (fun group => group.1.attributes) = groups.map fun group => group.1.attributes := by
      rw [List.map_map]
      refine List.map_congr_left fun group _ => ?_
      by_cases heq : (group.1 == resource) = true <;> simp [heq]
    refine ⟨hkeys ▸ h.distinct, ?_, ?_⟩
    · intro group hgroup
      obtain ⟨standing, hstanding, rfl⟩ := List.mem_map.mp hgroup
      have hmembers := h.members standing hstanding
      by_cases heq : (standing.1 == resource) = true
      · have hid := (Resource.beq_iff _ _).mp heq
        rw [if_pos heq, List.filter_append, List.map_append, ← hmembers]
        simp [hid]
      · have hid : ¬ resource.attributes = standing.1.attributes :=
          fun hid => heq ((Resource.beq_iff _ _).mpr hid.symm)
        rw [if_neg heq, List.filter_append, List.map_append, ← hmembers]
        simp [hid]
    · intro signal hsignal
      rw [hkeys]
      rcases List.mem_append.mp hsignal with hsignal | hsignal
      · exact h.covers signal hsignal
      · obtain rfl := List.mem_singleton.mp hsignal
        obtain ⟨group, hgroup, heq⟩ := List.any_eq_true.mp hany
        exact List.mem_map.mpr ⟨group, hgroup, (Resource.beq_iff _ _).mp heq⟩
  · rw [if_neg hany]
    have hfresh : resource.attributes ∉ groups.map fun group => group.1.attributes := by
      intro hmem
      obtain ⟨group, hgroup, hid⟩ := List.mem_map.mp hmem
      exact hany (List.any_eq_true.mpr ⟨group, hgroup, (Resource.beq_iff _ _).mpr hid⟩)
    have hperm : (groups.takeWhile (fun group => group.1.cmp resource == .lt) ++
        (resource, [member]) :: groups.dropWhile fun group => group.1.cmp resource == .lt).Perm
          ((resource, [member]) :: groups) := by
      refine List.perm_middle.trans (List.Perm.of_eq ?_)
      rw [List.takeWhile_append_dropWhile]
    refine ⟨?_, ?_, ?_⟩
    · refine (hperm.map _).nodup_iff.mpr ?_
      exact List.nodup_cons.mpr ⟨hfresh, h.distinct⟩
    · intro group hgroup
      rcases List.mem_cons.mp (hperm.mem_iff.mp hgroup) with rfl | hstanding
      · have hnone : signals.filter
            (fun signal => decide (signal.1.attributes = resource.attributes)) = [] := by
          refine List.filter_eq_nil_iff.mpr fun signal hsignal => ?_
          rw [decide_eq_true_eq]
          intro hid
          exact hfresh (hid ▸ h.covers signal hsignal)
        simp [List.filter_append, hnone]
      · have hid : ¬ resource.attributes = group.1.attributes :=
          fun hid => hfresh (List.mem_map.mpr ⟨group, hstanding, hid.symm⟩)
        rw [List.filter_append, List.map_append, ← h.members group hstanding]
        simp [hid]
    · intro signal hsignal
      refine (hperm.map fun group => group.1.attributes).mem_iff.mpr ?_
      rcases List.mem_append.mp hsignal with hsignal | hsignal
      · exact List.mem_cons_of_mem _ (h.covers signal hsignal)
      · obtain rfl := List.mem_singleton.mp hsignal
        exact List.mem_cons_self ..

/-- The groups of a list of records. -/
def groupsOf (signals : List (Resource × SignalRef)) : List (Resource × List SignalRef) :=
  signals.foldl (fun groups signal => joinGroup groups signal.1 signal.2) []

theorem grouped_groupsOf (signals : List (Resource × SignalRef)) :
    Grouped (groupsOf signals) signals := by
  have hfold : ∀ (rest front : List (Resource × SignalRef)) groups, Grouped groups front →
      Grouped (rest.foldl (fun groups signal => joinGroup groups signal.1 signal.2) groups)
        (front ++ rest) := by
    intro rest
    induction rest with
    | nil => intro front groups h; simpa using h
    | cons signal rest ih =>
      intro front groups h
      have hjoin := ih _ _ (h.join signal.1 signal.2)
      rwa [List.append_assoc] at hjoin
  exact hfold signals [] [] Grouped.nil

/-- What a group's members push: a relation for each of its pairs. -/
theorem pushPairs_eq (facts : List EvidenceFact) (members : List SignalRef) (sink : RelationSink) :
    pushPairs facts members sink = sink.pushAll ((pairs members).map fun p =>
      ⟨.resourceContext, p.1, p.2, facts, Strategy.resourceContext.statement, none⟩) := by
  induction members generalizing sink with
  | nil => rfl
  | cons source later ih =>
    rw [pushPairs, ih, pairs, List.map_append, RelationSink.pushAll_append, List.map_map,
      RelationSink.foldl_push]
    rfl

/-- The groups, one behind the other, each with its pairs. -/
def groupRelations (groups : List (Resource × List SignalRef)) : List Relation :=
  groups.flatMap fun group => (pairs group.2).map fun p =>
    ⟨.resourceContext, p.1, p.2, resourceFacts group.1, Strategy.resourceContext.statement, none⟩

theorem resourceContext_eq (spans : List (EntityId × Arc Span))
    (logs : List (EntityId × Arc LogRecord)) (points : List (EntityId × PointView))
    (sink : RelationSink) : resourceContext spans logs points sink =
      sink.pushAll (groupRelations (groupsOf (scannedSignals spans logs points))) := by
  refine RelationSink.foldl_pushAll _ sink fun sink group _ => ?_
  by_cases hfew : group.2.length < 2
  · rw [if_pos hfew]
    -- fewer than two members have no pair
    obtain ⟨resource, members⟩ := group
    rcases members with _ | ⟨a, _ | ⟨b, rest⟩⟩
    · rfl
    · rfl
    · simp only [List.length_cons] at hfew
      omega
  · rw [if_neg hfew, pushPairs_eq]

/-- **Grouping loses no pair.**  The groups' pairs are the pairs of records with equal resource
identity, each once. -/
theorem groupRelations_perm (signals : List (Resource × SignalRef)) :
    (groupRelations (groupsOf signals)).Perm (resourceContextOf signals) := by
  have h := grouped_groupsOf signals
  have hgroup : ∀ group ∈ groupsOf signals,
      ((pairs group.2).map fun p => (⟨.resourceContext, p.1, p.2, resourceFacts group.1,
        Strategy.resourceContext.statement, none⟩ : Relation)) =
      (pairs (signals.filter fun signal =>
        decide (signal.1.attributes = group.1.attributes))).map
          fun p => resourceRelation p.1 p.2 := by
    intro group hgroup
    rw [h.members group hgroup, pairs_map, List.map_map]
    refine List.map_congr_left fun p hp => ?_
    have hmem := (mem_pairs_iff.mp hp).subset (List.mem_cons_self ..)
    have hid := of_decide_eq_true (List.mem_filter.mp hmem).2
    rw [resourceRelation, resourceFacts_congr hid]
    rfl
  have hflat : groupRelations (groupsOf signals) =
      (((groupsOf signals).map fun group => group.1.attributes).flatMap fun attributes =>
        pairs (signals.filter fun signal => decide (signal.1.attributes = attributes))).map
          fun p => resourceRelation p.1 p.2 := by
    rw [groupRelations, List.flatMap_map, List.map_flatMap]
    exact List.flatMap_congr hgroup
  rw [hflat, resourceContextOf]
  exact (pairs_classes_perm (fun signal : Resource × SignalRef => signal.1.attributes) h.distinct h.covers).map _

/-! ## Co-activity -/

/-- Whether a span and a point are co-active in a window: both inside it, and no further apart than
its length. -/
def coActive (window : TimeWindow) (span : Span) (point : MetricPoint) : Bool :=
  let stop := span.endTimeUnixNano.getD span.startTimeUnixNano
  !(decide (stop ≤ window.start) || decide (window.stop ≤ span.startTimeUnixNano)) &&
    (!(decide (point.timeUnixNano < window.start) || decide (window.stop ≤ point.timeUnixNano)) &&
      !decide (window.len < coActivityGap span.startTimeUnixNano stop point.timeUnixNano))

def coActivityRelation (window : TimeWindow) (span : EntityId × Arc Span)
    (point : EntityId × PointView) : Relation :=
  ⟨.temporalCoActivity, ⟨.spans, span.1⟩, ⟨.metricPoints, point.1⟩,
    [⟨"span.start_time_unix_nano", clockValue span.2.val.startTimeUnixNano⟩,
      ⟨"point.time_unix_nano", clockValue point.2.point.val.timeUnixNano⟩] ++
      (span.2.val.endTimeUnixNano.toList.map fun stop =>
        ⟨"span.end_time_unix_nano", clockValue stop⟩),
    Strategy.temporalCoActivity.statement, some window⟩

/-- Every span of the subject with every point co-active with it. -/
def temporalCoActivityOf (members : List (EntityId × Arc Span))
    (points : List (EntityId × PointView)) (window : Option TimeWindow) : List Relation :=
  (window.toList.filter fun window => !window.isEmpty).flatMap fun window =>
    members.flatMap fun span =>
      (points.filter fun point => coActive window span.2.val point.2.point.val).map
        (coActivityRelation window span)

theorem temporalCoActivity_eq (members : List (EntityId × Arc Span))
    (points : List (EntityId × PointView)) (window : Option TimeWindow) (sink : RelationSink) :
    temporalCoActivity members points window sink =
      sink.pushAll (temporalCoActivityOf members points window) := by
  cases window with
  | none => rfl
  | some window =>
    rw [temporalCoActivity, temporalCoActivityOf, Option.toList_some]
    dsimp only
    cases hempty : window.isEmpty with
    | true => simp [hempty]
    | false =>
      rw [if_neg Bool.false_ne_true, List.filter_cons_of_pos (by simp [hempty]), List.filter_nil,
        List.flatMap_singleton]
      refine RelationSink.foldl_pushAll members sink fun sink span _ => ?_
      by_cases hspan : span.2.val.endTimeUnixNano.getD span.2.val.startTimeUnixNano ≤ window.start ∨
          window.stop ≤ span.2.val.startTimeUnixNano
      · rw [if_pos hspan]
        have hnone : points.filter
            (fun point => coActive window span.2.val point.2.point.val) = [] := by
          refine List.filter_eq_nil_iff.mpr fun point _ => ?_
          rcases hspan with hspan | hspan <;> simp [coActive, hspan]
        simp [hnone]
      · rw [if_neg hspan, ← List.filterMap_eq_map (f := coActivityRelation window span),
          List.filterMap_filter, List.filterMap_eq_flatMap_toList]
        refine RelationSink.foldl_pushAll points sink fun sink point _ => ?_
        rw [not_or] at hspan
        by_cases htime : point.2.point.val.timeUnixNano < window.start ∨
            window.stop ≤ point.2.point.val.timeUnixNano
        · rw [if_pos htime]
          rcases htime with htime | htime <;> simp [coActive, htime]
        · rw [if_neg htime]
          rw [not_or] at htime
          by_cases hgap : window.len < coActivityGap span.2.val.startTimeUnixNano
              (span.2.val.endTimeUnixNano.getD span.2.val.startTimeUnixNano)
              point.2.point.val.timeUnixNano
          · simp [coActive, hgap]
          · simp [coActive, hspan, htime, hgap, RelationSink.pushAll, coActivityRelation]

/-! ## The run -/

/-- The family of one strategy, over what was scanned. -/
def familyOf (bounds : CorrelationBounds) (s : Scanned) : Strategy → List Relation
  | .spanIdentity =>
    spanIdentityOf bounds.subjectTrace (subjectSpans s.spans bounds.subjectTrace) s.logs
  | .traceIdentity =>
    traceIdentityOf bounds.subjectTrace (subjectSpans s.spans bounds.subjectTrace) s.logs
  | .parentChild => parentChildOf s.spans
  | .resourceContext => groupRelations (groupsOf (scannedSignals s.spans s.logs s.points))
  | .exemplarAttachment => exemplarAttachmentOf s.points s.spans
  | .temporalCoActivity =>
    temporalCoActivityOf (subjectSpans s.spans bounds.subjectTrace) s.points bounds.window

/-- What the scans met, with its resource. -/
def Scanned.signals (s : Scanned) : List (Resource × SignalRef) :=
  scannedSignals s.spans s.logs s.points

theorem mem_groupRelations {signals : List (Resource × SignalRef)} {relation : Relation} :
    relation ∈ groupRelations (groupsOf signals) ↔
      ∃ p ∈ pairs signals, p.1.1.attributes = p.2.1.attributes ∧
        resourceRelation p.1 p.2 = relation := by
  rw [(groupRelations_perm signals).mem_iff, resourceContextOf, List.mem_map]
  constructor
  · rintro ⟨p, hp, rfl⟩
    obtain ⟨hpair, hid⟩ := List.mem_filter.mp hp
    exact ⟨p, hpair, of_decide_eq_true hid, rfl⟩
  · rintro ⟨p, hp, hid, rfl⟩
    exact ⟨p, List.mem_filter.mpr ⟨hp, decide_eq_true hid⟩, rfl⟩

/-- What holds of every relation a strategy forms. -/
structure Formed (s : Scanned) (strategy : Strategy) (relation : Relation) : Prop where
  relationType : relation.relationType = strategy.relationType
  facts : relation.facts ≠ []
  source : relation.source ∈ s.signals.map Prod.snd
  target : relation.target ∈ s.signals.map Prod.snd
  /-- Every strategy but one relates records of two kinds, or compares the two ends. -/
  loop : relation.source = relation.target → strategy = .resourceContext

theorem mem_signals_span {s : Scanned} {span : EntityId × Arc Span} (h : span ∈ s.spans) :
    (⟨.spans, span.1⟩ : SignalRef) ∈ s.signals.map Prod.snd :=
  List.mem_map_of_mem (List.mem_append_left _ (List.mem_append_left _ (List.mem_map_of_mem h)))

theorem mem_signals_log {s : Scanned} {log : EntityId × Arc LogRecord} (h : log ∈ s.logs) :
    (⟨.logRecords, log.1⟩ : SignalRef) ∈ s.signals.map Prod.snd :=
  List.mem_map_of_mem (List.mem_append_left _ (List.mem_append_right _ (List.mem_map_of_mem h)))

theorem mem_signals_point {s : Scanned} {point : EntityId × PointView} (h : point ∈ s.points) :
    (⟨.metricPoints, point.1⟩ : SignalRef) ∈ s.signals.map Prod.snd :=
  List.mem_map_of_mem (List.mem_append_right _ (List.mem_map_of_mem h))

theorem mem_of_mem_subjectSpans {spans : List (EntityId × Arc Span)} {subject : Option TraceId}
    {span : EntityId × Arc Span} (h : span ∈ subjectSpans spans subject) : span ∈ spans := by
  cases subject with
  | none => exact absurd h (by simp [subjectSpans])
  | some subject => exact (List.mem_filter.mp h).1

/-- A span found by its identity is one of those searched. -/
theorem exists_mem_of_find {spans : List (EntityId × Arc Span)} {trace : TraceId} {spanId : SpanId}
    {entity : EntityId} (h : residentSpanNamed spans trace spanId = some entity) :
    ∃ span ∈ spans, span.1 = entity ∧ span.2.val.naturalIdentity = some (trace, spanId) := by
  obtain ⟨span, hspan, rfl⟩ := Option.map_eq_some_iff.mp h
  have hnamed := List.find?_some hspan
  exact ⟨span, List.mem_of_find?_eq_some hspan, rfl, of_decide_eq_true hnamed⟩

theorem resourceFacts_ne_nil (resource : Resource) : resourceFacts resource ≠ [] := by
  unfold resourceFacts
  dsimp only
  split
  · exact List.cons_ne_nil _ _
  · rename_i hsome
    exact fun hnil => hsome (by rw [hnil]; rfl)

/-- **Every formed relation** is of its strategy's type, stands on facts, and relates what the scans
met. -/
theorem formed_of_mem {bounds : CorrelationBounds} {s : Scanned} {strategy : Strategy}
    {relation : Relation} (h : relation ∈ familyOf bounds s strategy) :
    Formed s strategy relation := by
  cases strategy with
  | spanIdentity =>
    obtain ⟨subject, -, hsubject⟩ := List.mem_flatMap.mp h
    obtain ⟨log, hlog, hrelation⟩ := List.mem_filterMap.mp hsubject
    obtain ⟨spanId, -, hspan⟩ := Option.bind_eq_some_iff.mp hrelation
    obtain ⟨entity, hentity, rfl⟩ := Option.map_eq_some_iff.mp hspan
    obtain ⟨span, hmem, rfl, -⟩ := exists_mem_of_find hentity
    exact ⟨rfl, by simp [spanIdentityRelation, identityFacts],
      mem_signals_log (List.mem_filter.mp hlog).1, mem_signals_span (mem_of_mem_subjectSpans hmem),
      fun hloop => absurd (SignalRef.mk.inj hloop).1 (by decide)⟩
  | traceIdentity =>
    obtain ⟨subject, -, hsubject⟩ := List.mem_flatMap.mp h
    obtain ⟨log, hlog, hrelation⟩ := List.mem_flatMap.mp hsubject
    obtain ⟨span, hmem, rfl⟩ := List.mem_map.mp hrelation
    exact ⟨rfl, by simp [traceIdentityRelation, traceFacts],
      mem_signals_log (List.mem_filter.mp (List.mem_filter.mp hlog).1).1,
      mem_signals_span (mem_of_mem_subjectSpans hmem),
      fun hloop => absurd (SignalRef.mk.inj hloop).1 (by decide)⟩
  | parentChild =>
    obtain ⟨child, hchild, hrelation⟩ := List.mem_filterMap.mp h
    obtain ⟨parent, hparent, rfl⟩ := Option.map_eq_some_iff.mp hrelation
    obtain ⟨spanId, -, hidentity⟩ := Option.bind_eq_some_iff.mp hparent
    obtain ⟨identity, -, hspan⟩ := Option.bind_eq_some_iff.mp hidentity
    obtain ⟨entity, hentity, hguard⟩ := Option.bind_eq_some_iff.mp hspan
    obtain ⟨span, hmem, rfl, -⟩ := exists_mem_of_find hentity
    split at hguard
    · rename_i hother
      rw [Bool.and_eq_true, decide_eq_true_eq] at hother
      obtain rfl := Option.some.inj hguard
      exact ⟨rfl, by simp [parentChildRelation], mem_signals_span hchild, mem_signals_span hmem,
        fun hloop => absurd (SignalRef.mk.inj hloop).2 hother.2⟩
    · exact absurd hguard (by simp)
  | resourceContext =>
    obtain ⟨p, hp, -, rfl⟩ := mem_groupRelations.mp h
    have hmem := (mem_pairs_iff.mp hp).subset
    exact ⟨rfl, resourceFacts_ne_nil _, List.mem_map_of_mem (hmem (by simp)),
      List.mem_map_of_mem (hmem (by simp)), fun _ => rfl⟩
  | exemplarAttachment =>
    obtain ⟨point, hpoint, hrelation⟩ := List.mem_flatMap.mp h
    obtain ⟨exemplar, -, hexemplar⟩ := List.mem_filterMap.mp hrelation
    obtain ⟨pair, -, hpair⟩ := Option.bind_eq_some_iff.mp hexemplar
    obtain ⟨entity, hentity, rfl⟩ := Option.map_eq_some_iff.mp hpair
    obtain ⟨span, hmem, rfl, -⟩ := exists_mem_of_find hentity
    exact ⟨rfl, by simp [exemplarRelation], mem_signals_point hpoint, mem_signals_span hmem,
      fun hloop => absurd (SignalRef.mk.inj hloop).1 (by decide)⟩
  | temporalCoActivity =>
    obtain ⟨window, -, hwindow⟩ := List.mem_flatMap.mp h
    obtain ⟨span, hspan, hrelation⟩ := List.mem_flatMap.mp hwindow
    obtain ⟨point, hpoint, rfl⟩ := List.mem_map.mp hrelation
    exact ⟨rfl, by simp [coActivityRelation], mem_signals_span (mem_of_mem_subjectSpans hspan),
      mem_signals_point (List.mem_filter.mp hpoint).1,
      fun hloop => absurd (SignalRef.mk.inj hloop).1 (by decide)⟩

/-- The families of the requested strategies, in run order. -/
def offered (bounds : CorrelationBounds) (s : Scanned) : List Relation :=
  bounds.strategies.flatMap (familyOf bounds s)

theorem runStrategy_sink (bounds : CorrelationBounds) (s : Scanned) (forming : Forming)
    (strategy : Strategy) : (runStrategy bounds s forming strategy).sink =
      forming.sink.pushAll (familyOf bounds s strategy) := by
  cases strategy with
  | spanIdentity => exact spanIdentity_eq _ _ _ _
  | traceIdentity => exact traceIdentity_sink _ _ _ _
  | parentChild => exact parentChild_eq _ _
  | resourceContext => exact resourceContext_eq _ _ _ _
  | exemplarAttachment => exact exemplarAttachment_eq _ _ _
  | temporalCoActivity => exact temporalCoActivity_eq _ _ _ _

/-- **What a run forms.**  Every strategy's family is offered to one sink, in run order. -/
theorem form_sink (bounds : CorrelationBounds) (s : Scanned) : (form bounds s).sink =
    (RelationSink.new bounds.maxRelations s.tally.stoppedAt).pushAll (offered bounds s) := by
  have hfold : ∀ (strategies : List Strategy) (forming : Forming),
      (strategies.foldl (runStrategy bounds s) forming).sink =
        forming.sink.pushAll (strategies.flatMap (familyOf bounds s)) := by
    intro strategies
    induction strategies with
    | nil => intro forming; rfl
    | cons strategy rest ih =>
      intro forming
      rw [List.foldl_cons, ih, runStrategy_sink, List.flatMap_cons, RelationSink.pushAll_append]
  exact hfold bounds.strategies _

theorem form_relations (bounds : CorrelationBounds) (s : Scanned) :
    (form bounds s).sink.relations = (offered bounds s).take bounds.maxRelations := by
  rw [form_sink, RelationSink.relations_pushAll (.new _ _)]
  rfl

end RuntimeTrail
