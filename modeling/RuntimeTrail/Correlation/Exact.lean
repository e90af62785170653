import RuntimeTrail.Correlation.Guards

/-!
# What a run over a fixed store answers

What the taxonomy says is related, in terms of what is resident alone, and that a
run no ceiling cuts returns exactly that.

* **the taxonomy** — `Residency.related`: for each strategy, the relations of the
  resident records;
* **the order** — `relationOrder` is a total preorder by type and endpoints, and
  what is returned stands in it (`correlate_sorted`);
* **no ceiling hit** — `stoppedAt_eq_none_iff`: the scans named no stop, and
  everything formed fits;
* **exactness** — `correlate_exact`.
-/

namespace RuntimeTrail

open Library

/-! ## The taxonomy -/

namespace Residency

variable (residency : Residency)

/-- The resident spans under their entity ids, in residency order. -/
def residentSpans : List (EntityId × Arc Span) :=
  residency.spans.entries.map fun p => (p.1.entity, p.2)

def residentLogs : List (EntityId × Arc LogRecord) :=
  residency.logRecords.entries.map fun p => (p.1.entity, p.2)

def residentPoints : List (EntityId × PointView) :=
  residency.metricPoints.entries.map fun p => (p.1.entity, p.2)

/-- The resident span a natural identity names: the first one that carries it. -/
def spanNamed (trace : TraceId) (spanId : SpanId) : Option EntityId :=
  (residency.residentSpans.find? fun span =>
    decide (span.2.val.naturalIdentity = some (trace, spanId))).map Prod.fst

/-- The resident log records of a trace. -/
def logsOfTrace (trace : TraceId) : List (EntityId × Arc LogRecord) :=
  residency.residentLogs.filter fun log => decide (log.2.val.traceId = some trace)

/-- The resident spans of a trace. -/
def spansOfTrace (trace : TraceId) : List (EntityId × Arc Span) :=
  residency.residentSpans.filter fun span =>
    decide (span.2.val.naturalIdentity.map Prod.fst = some trace)

/-- The exact span of a log record of a trace, when it is resident. -/
def exactSpanOf (trace : TraceId) (log : LogRecord) : Option EntityId :=
  log.spanId.bind (residency.spanNamed trace)

/-- Every resident record with its resource: spans, then log records, then points. -/
def signals : List (Resource × SignalRef) :=
  (residency.residentSpans.map fun p => (p.2.val.resource, ⟨.spans, p.1⟩)) ++
    (residency.residentLogs.map fun p => (p.2.val.resource, ⟨.logRecords, p.1⟩)) ++
    residency.residentPoints.map fun p => (p.2.stream.resource, ⟨.metricPoints, p.1⟩)

/-- What the taxonomy relates among the residents, for a subject trace. -/
def related (subject : Option TraceId) : Strategy → List Relation
  | .spanIdentity =>
    -- every log record of the trace whose exact span is resident
    subject.toList.flatMap fun trace =>
      (residency.logsOfTrace trace).filterMap fun log =>
        log.2.val.spanId.bind fun spanId =>
          (residency.spanNamed trace spanId).map (spanIdentityRelation log.1 trace spanId)
  | .traceIdentity =>
    -- every log record of the trace whose exact span is not, to every span of the trace
    subject.toList.flatMap fun trace =>
      ((residency.logsOfTrace trace).filter fun log =>
        (residency.exactSpanOf trace log.2.val).isNone).flatMap fun log =>
          (residency.spansOfTrace trace).map fun span => traceIdentityRelation log.1 trace span.1
  | .parentChild =>
    -- every span of a valid identity whose nonzero parent id names another resident span
    residency.residentSpans.filterMap fun child =>
      child.2.val.naturalIdentity.bind fun identity =>
        (child.2.val.parentSpanId.filter SpanId.isValid).bind fun parent =>
          ((residency.spanNamed identity.1 parent).filter fun span => decide (child.1 ≠ span)).map
            (parentChildRelation child.1 parent)
  | .resourceContext =>
    -- every pair of residents with equal resource identity
    ((pairs residency.signals).filter fun p =>
      decide (p.1.1.attributes = p.2.1.attributes)).map fun p => resourceRelation p.1 p.2
  | .exemplarAttachment =>
    -- every exemplar of a point that names a resident span
    residency.residentPoints.flatMap fun point =>
      point.2.point.val.exemplars.filterMap fun exemplar =>
        exemplar.correlationPair.bind fun pair =>
          (residency.spanNamed pair.1 pair.2).map (exemplarRelation point.1 pair.1 pair.2)
  | .temporalCoActivity => []

/-- What the scans of a run that meets every resident come to. -/
def scannedWhole (tally : Tally) : Scanned :=
  ⟨residency.residentSpans, residency.residentLogs, residency.residentPoints, tally⟩

/-- Among the spans of a trace, an identity of the trace names what it names among all. -/
theorem spanWithIdentity_subjectSpans (trace : TraceId) (spanId : SpanId) :
    spanWithIdentity (subjectSpans residency.residentSpans (some trace)) trace spanId =
      residency.spanNamed trace spanId := by
  rw [spanWithIdentity, subjectSpans, List.find?_filter, spanNamed]
  congr 2
  funext span
  unfold Span.isNamed
  cases span.2.val.naturalIdentity with
  | none => simp
  | some identity =>
    obtain ⟨own, ownSpan⟩ := identity
    by_cases htrace : own = trace <;> simp [htrace]

theorem subjectSpans_eq (trace : TraceId) :
    subjectSpans residency.residentSpans (some trace) = residency.spansOfTrace trace := by
  rw [subjectSpans, spansOfTrace]
  refine List.filter_congr fun span _ => ?_
  cases span.2.val.naturalIdentity <;> simp

theorem exactSpan_subjectSpans {trace : TraceId} {log : LogRecord}
    (h : log.traceId = some trace) :
    exactSpan (subjectSpans residency.residentSpans (some trace)) log =
      residency.exactSpanOf trace log := by
  rw [exactSpan, exactSpanOf, LogRecord.correlationPair, h]
  cases log.spanId with
  | none => rfl
  | some spanId => exact residency.spanWithIdentity_subjectSpans trace spanId

/-- Over everything resident, each strategy but the temporal one forms what the taxonomy relates. -/
theorem familyOf_perm (bounds : CorrelationBounds) (tally : Tally) {strategy : Strategy}
    (h : strategy ≠ .temporalCoActivity) :
    (familyOf bounds (residency.scannedWhole tally) strategy).Perm
      (residency.related bounds.subjectTrace strategy) := by
  cases strategy with
  | spanIdentity =>
    refine List.Perm.flatMap_left _ fun trace htrace => List.Perm.of_eq ?_
    have hsubject : bounds.subjectTrace = some trace := Option.mem_toList.mp htrace
    refine List.filterMap_congr fun log _ => ?_
    cases log.2.val.spanId with
    | none => rfl
    | some spanId =>
      rw [Option.bind_some, Option.bind_some, hsubject]
      exact congrArg _ (residency.spanWithIdentity_subjectSpans trace spanId)
  | traceIdentity =>
    refine List.Perm.flatMap_left _ fun trace htrace => List.Perm.of_eq ?_
    have hsubject : bounds.subjectTrace = some trace := Option.mem_toList.mp htrace
    change (((residency.logsOfTrace trace).filter fun log =>
      (exactSpan (subjectSpans residency.residentSpans bounds.subjectTrace) log.2.val).isNone).flatMap
        fun log => (subjectSpans residency.residentSpans bounds.subjectTrace).map fun span =>
          traceIdentityRelation log.1 trace span.1) = _
    rw [hsubject, residency.subjectSpans_eq]
    congr 1
    refine List.filter_congr fun log hlog => ?_
    have htraced := of_decide_eq_true (List.mem_filter.mp hlog).2
    rw [← residency.subjectSpans_eq, residency.exactSpan_subjectSpans htraced]
  | parentChild =>
    refine List.Perm.of_eq (List.filterMap_congr fun child _ => ?_)
    rw [namedParent]
    cases child.2.val.parentSpanId with
    | none => cases child.2.val.naturalIdentity <;> rfl
    | some parent =>
      cases child.2.val.naturalIdentity with
      | none => rfl
      | some identity =>
        rw [Option.bind_some, Option.bind_some, Option.bind_some]
        change ((residency.spanNamed identity.1 parent).bind _).map _ = _
        cases hvalid : parent.isValid with
        | false =>
          rw [Option.filter_some_neg (by simp [hvalid])]
          cases residency.spanNamed identity.1 parent <;> simp
        | true =>
          rw [Option.filter_some_pos hvalid, Option.bind_some]
          cases residency.spanNamed identity.1 parent with
          | none => rfl
          | some span => by_cases hself : child.1 = span <;> simp [hself]
  | resourceContext => exact groupRelations_perm _
  | exemplarAttachment => exact List.Perm.refl _
  | temporalCoActivity => exact absurd rfl h

end Residency

/-! ## The order -/

instance : Std.TransCmp fun a b : SignalRef => entityOrder a.entity b.entity where
  eq_swap := Std.OrientedCmp.eq_swap
  isLE_trans := Std.TransCmp.isLE_trans

theorem signalRefOrder_eq_compareLex :
    signalRefOrder = compareLex (compareOn fun r => kindRank r.kind)
      (fun a b => entityOrder a.entity b.entity) := rfl

instance : Std.TransCmp signalRefOrder := by rw [signalRefOrder_eq_compareLex]; infer_instance

instance : Std.TransCmp fun a b : Relation => signalRefOrder a.source b.source where
  eq_swap := Std.OrientedCmp.eq_swap
  isLE_trans := Std.TransCmp.isLE_trans

instance : Std.TransCmp fun a b : Relation => signalRefOrder a.target b.target where
  eq_swap := Std.OrientedCmp.eq_swap
  isLE_trans := Std.TransCmp.isLE_trans

theorem relationOrder_eq_compareLex :
    relationOrder = compareLex (compareOn fun r => typeRank r.relationType)
      (compareLex (fun a b => signalRefOrder a.source b.source)
        fun a b => signalRefOrder a.target b.target) := rfl

instance : Std.TransCmp relationOrder := by rw [relationOrder_eq_compareLex]; infer_instance

/-- Whatever a run returns stands in the relation order. -/
theorem correlate_sorted (reads : Nat → TelemetryStore) (bounds : CorrelationBounds) :
    (correlate reads bounds).relations.Pairwise fun a b => (relationOrder a b).isLE = true := by
  rw [correlate]
  split
  · exact List.Pairwise.nil
  · refine List.pairwise_mergeSort 
      (fun a b c hab hbc => @Std.TransCmp.isLE_trans _ relationOrder _ a b c hab hbc)
      (fun a b => ?_) _
    rw [Bool.or_eq_true]
    cases horder : relationOrder a b with
    | lt => exact Or.inl rfl
    | eq => exact Or.inl rfl
    | gt =>
      rw [Std.OrientedCmp.lt_of_gt horder]
      exact Or.inr rfl

/-! ## No ceiling hit -/

/-- **No ceiling hit**: the scans named no stop, and everything formed fits. -/
theorem stoppedAt_eq_none_iff {reads : Nat → TelemetryStore} {bounds : CorrelationBounds}
    (h : bounds.maxHops ≠ 0) : (correlate reads bounds).truth.stoppedAt = none ↔
      (scanned reads bounds.maxScan).tally.stoppedAt = none ∧
        (offered bounds (scanned reads bounds.maxScan)).length ≤ bounds.maxRelations := by
  rw [correlate, if_neg h]
  dsimp only
  rw [form_sink, RelationSink.stoppedAt_pushAll_eq_none (.new _ _)]
  simp [RelationSink.new]

/-- Scans of a fixed store that name no stop meet everything resident. -/
theorem FixedStore.scanned_eq (store : FixedStore) {maxScan : Nat}
    (h : (scanned (fun _ => store.driver) maxScan).tally.stoppedAt = none) :
    scanned (fun _ => store.driver) maxScan =
      store.residency.scannedWhole (scanned (fun _ => store.driver) maxScan).tally := by
  have hspent := @scanResident_spent _ (fun _ => store.driver.scanSpans) maxScan ⟨0, 0, none⟩
    (Nat.zero_le _)
  have hspent' := @scanResident_spent _ (fun _ => store.driver.scanLogRecords) maxScan _
    hspent.2.1
  have hspent'' := @scanResident_spent _ (fun _ => store.driver.scanMetricPoints) maxScan _
    hspent'.2.1
  have hlogsStop := hspent''.2.2.2 h
  have hspans := scanResident_fixed (fun _ => store.serves.scanSpans) (Nat.zero_le maxScan)
    (hspent'.2.2.2 hlogsStop)
  have hlogs := scanResident_fixed (fun _ => store.serves.scanLogRecords) hspent.2.1 hlogsStop
  have hpoints := scanResident_fixed (fun _ => store.serves.scanMetricPoints) hspent'.2.1 h
  exact (Scanned.mk.injEq ..).mpr ⟨hspans, hlogs, hpoints, rfl⟩

/-- What stands in a fixed store's residency, the store holds. -/
theorem FixedStore.holds_of_mem (store : FixedStore) {endpoint : SignalRef}
    (h : endpoint ∈ store.residency.signals.map Prod.snd) : store.driver.holds endpoint = true := by
  obtain ⟨signal, hsignal, rfl⟩ := List.mem_map.mp h
  rcases List.mem_append.mp hsignal with hsignal | hsignal
  · rcases List.mem_append.mp hsignal with hsignal | hsignal
    · obtain ⟨span, hspan, rfl⟩ := List.mem_map.mp hsignal
      obtain ⟨p, hp, rfl⟩ := List.mem_map.mp hspan
      exact Option.isSome_iff_exists.mpr ⟨p.2, (store.serves.span _ _).mpr ⟨p.1, rfl, hp⟩⟩
    · obtain ⟨log, hlog, rfl⟩ := List.mem_map.mp hsignal
      obtain ⟨p, hp, rfl⟩ := List.mem_map.mp hlog
      exact Option.isSome_iff_exists.mpr ⟨p.2, (store.serves.logRecord _ _).mpr ⟨p.1, rfl, hp⟩⟩
  · obtain ⟨point, hpoint, rfl⟩ := List.mem_map.mp hsignal
    obtain ⟨p, hp, rfl⟩ := List.mem_map.mp hpoint
    exact Option.isSome_iff_exists.mpr ⟨p.2, (store.serves.metricPoint _ _).mpr ⟨p.1, rfl, hp⟩⟩

/-- One entity id stands for one record, where a lookup answers from the residents. -/
theorem record_unique {R : Type} {residents : SortedMap AdmissionKey R} {get : EntityId → Option R}
    (hget : ∀ entity record, get entity = some record ↔
      ∃ key, key.entity = entity ∧ (key, record) ∈ residents.entries)
    {p q : EntityId × R} (hp : p ∈ residents.entries.map fun p => (p.1.entity, p.2))
    (hq : q ∈ residents.entries.map fun p => (p.1.entity, p.2)) (h : p.1 = q.1) : p = q := by
  obtain ⟨a, ha, rfl⟩ := List.mem_map.mp hp
  obtain ⟨b, hb, rfl⟩ := List.mem_map.mp hq
  refine Prod.ext h (Option.some.inj ?_)
  exact ((hget _ _).mpr ⟨a.1, rfl, ha⟩).symm.trans ((hget _ _).mpr ⟨b.1, h.symm, hb⟩)

/-- A re-check over stores that hold every endpoint keeps every relation. -/
theorem retainResident_of_holds {reads : Nat → TelemetryStore} {relations : List Relation}
    (h : ∀ relation ∈ relations, ∀ look, (reads look).holds relation.source = true ∧
      (reads look).holds relation.target = true) (call : Nat) :
    retainResident reads call relations = relations := by
  induction relations generalizing call with
  | nil => rfl
  | cons relation rest ih =>
    obtain ⟨next, -, heq⟩ := retainResident_cons reads call relation rest
    have hends := h relation (List.mem_cons_self ..)
    rw [heq, if_pos (by rw [(hends call).1, (hends (call + 1)).2]; rfl),
      ih (fun r hr => h r (List.mem_cons_of_mem _ hr)) next]

/-- What a run over a fixed store returns, when no ceiling is hit: everything formed. -/
theorem FixedStore.correlate_perm (store : FixedStore) {bounds : CorrelationBounds}
    (hhops : bounds.maxHops ≠ 0)
    (hstop : (correlate (fun _ => store.driver) bounds).truth.stoppedAt = none) :
    (correlate (fun _ => store.driver) bounds).relations.Perm
      (offered bounds (store.residency.scannedWhole
        (scanned (fun _ => store.driver) bounds.maxScan).tally)) := by
  obtain ⟨hscan, hroom⟩ := (stoppedAt_eq_none_iff hhops).mp hstop
  have hwhole := store.scanned_eq hscan
  have hperm := @RuntimeTrail.correlate_perm (fun _ => store.driver) bounds hhops
  dsimp only at hperm
  rw [List.take_of_length_le hroom] at hperm
  rw [hwhole] at hperm
  refine hperm.trans (List.Perm.of_eq (retainResident_of_holds (fun relation hrelation _ => ?_) _))
  obtain ⟨strategy, -, hfamily⟩ := List.mem_flatMap.mp hrelation
  have hformed := formed_of_mem hfamily
  exact ⟨store.holds_of_mem hformed.source, store.holds_of_mem hformed.target⟩

/-- A family holds relations of its strategy's type alone. -/
theorem filter_familyOf (bounds : CorrelationBounds) (s : Scanned) (strategy : Strategy) :
    (familyOf bounds s strategy).filter
        (fun relation => decide (relation.relationType ≠ .temporalCoActivity)) =
      if strategy = .temporalCoActivity then [] else familyOf bounds s strategy := by
  split
  · rename_i htemporal
    refine List.filter_eq_nil_iff.mpr fun relation hrelation => ?_
    rw [(formed_of_mem hrelation).relationType, htemporal]
    decide
  · rename_i hother
    refine List.filter_eq_self.mpr fun relation hrelation => ?_
    rw [(formed_of_mem hrelation).relationType]
    revert hother
    cases strategy <;> decide

/-- **Exactness.**  Over any fixed store, a run that hits no ceiling returns, temporal co-activity
aside, exactly what the taxonomy relates among the residents, each once for each time its strategy
is listed and with its evidence; sorted; and no log record has relations of both identity types. -/
theorem correlate_exact (store : FixedStore) (bounds : CorrelationBounds)
    (hhops : 1 ≤ bounds.maxHops)
    (hstop : (correlate (fun _ => store.driver) bounds).truth.stoppedAt = none) :
    let relations := (correlate (fun _ => store.driver) bounds).relations
    (relations.filter fun relation => decide (relation.relationType ≠ .temporalCoActivity)).Perm
        (bounds.strategies.flatMap (store.residency.related bounds.subjectTrace)) ∧
      relations.Pairwise (fun a b => (relationOrder a b).isLE = true) ∧
      ∀ a ∈ relations, ∀ b ∈ relations, a.relationType = .spanIdentity →
        b.relationType = .traceIdentity → a.source ≠ b.source := by
  have hperm := store.correlate_perm (Nat.one_le_iff_ne_zero.mp hhops) hstop
  have hexact : ((correlate (fun _ => store.driver) bounds).relations.filter
      fun relation => decide (relation.relationType ≠ .temporalCoActivity)).Perm
        (bounds.strategies.flatMap (store.residency.related bounds.subjectTrace)) := by
    refine (hperm.filter _).trans ?_
    rw [offered, List.filter_flatMap]
    refine List.Perm.flatMap_left _ fun strategy _ => ?_
    rw [filter_familyOf]
    by_cases htemporal : strategy = .temporalCoActivity
    · rw [if_pos htemporal, htemporal]
      exact List.Perm.refl _
    · rw [if_neg htemporal]
      exact store.residency.familyOf_perm bounds _ htemporal
  refine ⟨hexact, correlate_sorted _ _, fun a ha b hb hatype hbtype hsource => ?_⟩
  have hrelated : ∀ {relation strategy}, relation ∈ (correlate (fun _ => store.driver)
      bounds).relations → relation.relationType = Strategy.relationType strategy →
        strategy ≠ .temporalCoActivity →
          relation ∈ store.residency.related bounds.subjectTrace strategy := by
    intro relation strategy hrelation htype hother
    obtain ⟨formedBy, -, hfamily⟩ := List.mem_flatMap.mp (hperm.mem_iff.mp hrelation)
    have hsame : strategy = formedBy := by
      have heq := htype.symm.trans (formed_of_mem hfamily).relationType
      cases strategy <;> cases formedBy <;> first | rfl | exact absurd heq (by decide)
    subst hsame
    exact (store.residency.familyOf_perm bounds _ hother).mem_iff.mp hfamily
  -- one log record has its exact span resident, the other has not: they are two records
  obtain ⟨trace, htrace, hspanIdentity⟩ := List.mem_flatMap.mp
    (hrelated ha (show _ = Strategy.spanIdentity.relationType from hatype) (by decide))
  obtain ⟨log, hlog, hexactSpan⟩ := List.mem_filterMap.mp hspanIdentity
  obtain ⟨trace', htrace', htraceIdentity⟩ := List.mem_flatMap.mp
    (hrelated hb (show _ = Strategy.traceIdentity.relationType from hbtype) (by decide))
  obtain ⟨log', hlog', hspan⟩ := List.mem_flatMap.mp htraceIdentity
  obtain ⟨span, -, rfl⟩ := List.mem_map.mp hspan
  obtain ⟨spanId, hspanId, hnamed⟩ := Option.bind_eq_some_iff.mp hexactSpan
  obtain ⟨exact_, hfound, rfl⟩ := Option.map_eq_some_iff.mp hnamed
  obtain rfl : trace = trace' := Option.some.inj
    ((Option.mem_toList.mp htrace).symm.trans (Option.mem_toList.mp htrace'))
  obtain ⟨hlog', hnone⟩ := List.mem_filter.mp hlog'
  obtain ⟨p, hp, rfl⟩ := List.mem_map.mp (List.mem_filter.mp hlog).1
  obtain ⟨q, hq, rfl⟩ := List.mem_map.mp (List.mem_filter.mp hlog').1
  have hentity : p.1.entity = q.1.entity := (SignalRef.mk.inj hsource).2
  have hrecord : p.2 = q.2 := Option.some.inj
    (((store.serves.logRecord _ _).mpr ⟨p.1, rfl, hp⟩).symm.trans
      ((store.serves.logRecord _ _).mpr ⟨q.1, hentity.symm, hq⟩))
  rw [← hrecord, Residency.exactSpanOf, hspanId, Option.bind_some, hfound] at hnone
  exact absurd hnone (by simp)

/-- A root and its child, a log record that names the root exactly, and one that names the trace
alone. -/
def rootAndChild : Residency where
  spans := ⟨[(⟨⟨0⟩, .span (.ofByte 1) (.ofByte 1)⟩, ⟨0, .bare 1 1⟩),
    (⟨⟨1⟩, .span (.ofByte 1) (.ofByte 2)⟩,
      ⟨1, { Span.bare 1 2 with parentSpanId := some (.ofByte 1) }⟩)], by decide⟩
  logRecords := ⟨[(⟨⟨2⟩, .serial 1⟩,
      ⟨2, { LogRecord.bare (some (.ofByte 1)) none with spanId := some (.ofByte 1) }⟩),
    (⟨⟨3⟩, .serial 2⟩, ⟨3, .bare (some (.ofByte 1)) none⟩)], by decide⟩
  metricPoints := SortedMap.empty

def rootAndChildStore : FixedStore where
  driver := rootAndChild.driver noStats
  residency := rootAndChild
  serves := Residency.serves
    (fun p hp q hq => by
      rcases List.mem_cons.mp hp with rfl | hp <;> rcases List.mem_cons.mp hq with rfl | hq <;>
        simp_all [TraceId.ofByte, SpanId.ofByte])
    (fun p hp q hq => by
      rcases List.mem_cons.mp hp with rfl | hp <;> rcases List.mem_cons.mp hq with rfl | hq <;>
        simp_all [EntityId.serial])
    (fun _ h => absurd h (by simp [rootAndChild, SortedMap.empty])) noStats

/-- The identity strategies and parentage, over one trace. -/
def identityBounds : CorrelationBounds :=
  ⟨[.parentChild, .spanIdentity, .traceIdentity], none, 10, 1, 10, some (.ofByte 1)⟩

theorem correlate_exact_rootAndChild :
    (((correlate (fun _ => rootAndChildStore.driver) identityBounds).relations.filter
      fun relation => decide (relation.relationType ≠ .temporalCoActivity)).map
        fun r => (r.relationType, r.source.entity, r.target.entity)).Perm
      [(.parentChild, .span (.ofByte 1) (.ofByte 2), .span (.ofByte 1) (.ofByte 1)),
        (.spanIdentity, .serial 1, .span (.ofByte 1) (.ofByte 1)),
        (.traceIdentity, .serial 2, .span (.ofByte 1) (.ofByte 1)),
        (.traceIdentity, .serial 2, .span (.ofByte 1) (.ofByte 2))] := by
  have hexact := (correlate_exact rootAndChildStore identityBounds (by decide)
    (by decide +kernel)).1
  exact (hexact.map _).trans (List.Perm.of_eq (by decide +kernel))

end RuntimeTrail
