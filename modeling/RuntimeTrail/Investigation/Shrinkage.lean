import RuntimeTrail.Correlation.CoActivity
import RuntimeTrail.Investigation.Completeness

/-!
# The account of relation shrinkage

A relation the strategies formed can be lost twice before the envelope: the
engine's re-check drops it when an endpoint has left residency, and the flow drops
it when an endpoint is outside the evidence.  The envelope states a shrinkage
count.

* **what is formed** — `Scanned.relatedPairs`, said of the scanned records alone;
  `formed_ends`: the strategies form one relation for each, in that order, up to
  the ceiling;
* **the re-check** — `length_retainResident_eq_iff`: nothing is lost exactly when
  each pair is still held at its own two calls;
* **the flow** — `compose_relations`: what the envelope holds and the count it
  states add up to what the engine returned;
* **the account** — `shrinkage_accounted_iff`: the envelope accounts for what was
  formed exactly when no related record leaves before its call.
-/

namespace RuntimeTrail

open Library

/-! ## What the strategies relate -/

namespace Scanned

variable (s : Scanned)

/-- The scanned log records of a trace. -/
def logsOfTrace (trace : TraceId) : List (EntityId × Arc LogRecord) :=
  s.logs.filter fun log => decide (log.2.val.traceId = some trace)

/-- The scanned spans of a trace. -/
def spansOfTrace (trace : TraceId) : List (EntityId × Arc Span) :=
  s.spans.filter fun span => decide (span.2.val.naturalIdentity.map Prod.fst = some trace)

/-- The span a log record of a trace names: the first scanned one of that natural identity. -/
def exactSpanOf (trace : TraceId) (log : LogRecord) : Option EntityId :=
  log.spanId.bind fun spanId =>
    (s.spans.find? fun span =>
      decide (span.2.val.naturalIdentity = some (trace, spanId))).map Prod.fst

/-- A span's time and a point's both reach into a window. -/
def ActiveIn (window : TimeWindow) (span : Span) (point : MetricPoint) : Prop :=
  window.start < span.stopTime ∧ span.startTimeUnixNano < window.stop ∧
    window.start ≤ point.timeUnixNano ∧ point.timeUnixNano < window.stop

instance (window : TimeWindow) (span : Span) (point : MetricPoint) :
    Decidable (ActiveIn window span point) :=
  inferInstanceAs (Decidable (_ ∧ _ ∧ _ ∧ _))

/-- The pairs of scanned records an investigation of a trace relates, in the order it relates them. -/
def relatedPairs (subject : Option TraceId) (window : Option TimeWindow) :
    List (SignalRef × SignalRef) :=
  subject.toList.flatMap fun trace =>
    -- each log record of the trace with the span it names
    ((s.logsOfTrace trace).filterMap fun log =>
      (s.exactSpanOf trace log.2.val).map fun span => (⟨.logRecords, log.1⟩, ⟨.spans, span⟩)) ++
    -- each that names none, with every span of the trace
    (((s.logsOfTrace trace).filter fun log =>
        (s.exactSpanOf trace log.2.val).isNone).flatMap fun log =>
      (s.spansOfTrace trace).map fun span => (⟨.logRecords, log.1⟩, ⟨.spans, span.1⟩)) ++
    -- each span of the trace with every point, where both reach into the window asked for
    window.toList.flatMap fun window =>
      (s.spansOfTrace trace).flatMap fun span =>
        (s.points.filter fun point =>
            decide (ActiveIn window span.2.val point.2.point.val)).map fun point =>
          (⟨.spans, span.1⟩, ⟨.metricPoints, point.1⟩)

theorem coActive_eq_activeIn (window : TimeWindow) (span : Span) (point : MetricPoint) :
    coActive window span point = decide (ActiveIn window span point) := by
  rw [Bool.eq_iff_iff, decide_eq_true_iff, coActive_iff, ActiveIn, TimeWindow.holds,
    Bool.and_eq_true, decide_eq_true_eq, decide_eq_true_eq]

/-- Nothing is active in an empty window. -/
theorem not_activeIn {window : TimeWindow} (h : window.isEmpty = true) (span : Span)
    (point : MetricPoint) : ¬ ActiveIn window span point := by
  simp only [TimeWindow.isEmpty, decide_eq_true_eq] at h
  rintro ⟨-, -, hfrom, hto⟩
  omega

theorem subjectSpans_eq (trace : TraceId) :
    subjectSpans s.spans (some trace) = s.spansOfTrace trace := by
  rw [subjectSpans, spansOfTrace]
  refine List.filter_congr fun span _ => ?_
  cases span.2.val.naturalIdentity <;> simp

/-- Among the spans of the trace, an identity names what it names among all. -/
theorem spanWithIdentity_eq (trace : TraceId) (spanId : SpanId) :
    spanWithIdentity (s.spansOfTrace trace) trace spanId =
      (s.spans.find? fun span =>
        decide (span.2.val.naturalIdentity = some (trace, spanId))).map Prod.fst := by
  rw [spanWithIdentity, spansOfTrace, List.find?_filter]
  congr 2
  funext span
  unfold Span.isNamed
  cases span.2.val.naturalIdentity with
  | none => simp
  | some identity =>
    obtain ⟨own, ownSpan⟩ := identity
    by_cases htrace : own = trace <;> simp [htrace]

theorem exactSpan_eq {trace : TraceId} {log : LogRecord} (h : log.traceId = some trace) :
    exactSpan (s.spansOfTrace trace) log = s.exactSpanOf trace log := by
  rw [exactSpan, exactSpanOf, LogRecord.correlationPair, h]
  cases log.spanId with
  | none => rfl
  | some spanId => exact s.spanWithIdentity_eq trace spanId

end Scanned

/-- The two records a relation is between. -/
def Relation.ends (relation : Relation) : SignalRef × SignalRef := (relation.source, relation.target)

section Families

variable (s : Scanned) (trace : TraceId)

theorem ends_spanIdentityOf :
    (spanIdentityOf (some trace) (s.spansOfTrace trace) s.logs).map Relation.ends =
      (s.logsOfTrace trace).filterMap fun log =>
        (s.exactSpanOf trace log.2.val).map fun span => (⟨.logRecords, log.1⟩, ⟨.spans, span⟩) := by
  rw [spanIdentityOf, Option.toList_some, List.flatMap_singleton, List.map_filterMap]
  refine List.filterMap_congr fun log _ => ?_
  rw [Scanned.exactSpanOf]
  cases log.2.val.spanId with
  | none => rfl
  | some spanId =>
    rw [Option.bind_some, Option.bind_some, s.spanWithIdentity_eq, Option.map_map]
    rfl

theorem ends_traceIdentityOf :
    (traceIdentityOf (some trace) (s.spansOfTrace trace) s.logs).map Relation.ends =
      ((s.logsOfTrace trace).filter fun log =>
        (s.exactSpanOf trace log.2.val).isNone).flatMap fun log =>
          (s.spansOfTrace trace).map fun span => (⟨.logRecords, log.1⟩, ⟨.spans, span.1⟩) := by
  have hlogs : (logsOf trace s.logs).filter (fun log =>
        (exactSpan (s.spansOfTrace trace) log.2.val).isNone) =
      (s.logsOfTrace trace).filter fun log => (s.exactSpanOf trace log.2.val).isNone :=
    List.filter_congr fun log hlog => by
      rw [s.exactSpan_eq (of_decide_eq_true (List.mem_filter.mp hlog).2)]
  rw [traceIdentityOf, Option.toList_some, List.flatMap_singleton, hlogs, List.map_flatMap]
  refine List.flatMap_congr fun log _ => ?_
  rw [List.map_map]
  rfl

theorem ends_temporalCoActivityOf (window : Option TimeWindow) :
    (temporalCoActivityOf (s.spansOfTrace trace) s.points window).map Relation.ends =
      window.toList.flatMap fun window =>
        (s.spansOfTrace trace).flatMap fun span =>
          (s.points.filter fun point =>
              decide (Scanned.ActiveIn window span.2.val point.2.point.val)).map fun point =>
            (⟨.spans, span.1⟩, ⟨.metricPoints, point.1⟩) := by
  cases window with
  | none => rfl
  | some window =>
    rw [temporalCoActivityOf, Option.toList_some, List.flatMap_singleton]
    cases hempty : window.isEmpty with
    | true =>
      have hnone : ∀ span ∈ s.spansOfTrace trace, (s.points.filter fun point =>
          decide (Scanned.ActiveIn window span.2.val point.2.point.val)).map (fun point =>
            ((⟨.spans, span.1⟩, ⟨.metricPoints, point.1⟩) : SignalRef × SignalRef)) = [] :=
        fun span _ => by
          rw [List.map_eq_nil_iff, List.filter_eq_nil_iff]
          exact fun point _ h => Scanned.not_activeIn hempty _ _ (of_decide_eq_true h)
      rw [List.flatMap_eq_nil_iff.mpr hnone, List.filter_cons_of_neg (by simp [hempty])]
      rfl
    | false =>
      rw [List.filter_cons_of_pos (by simp [hempty]), List.filter_nil, List.flatMap_singleton,
        List.map_flatMap]
      refine List.flatMap_congr fun span _ => ?_
      simp only [List.map_map, Scanned.coActive_eq_activeIn]
      rfl

end Families

/-- The relations the strategies formed under the ceiling. -/
def formedRelations (reads : Nat → TelemetryStore) (bounds : CorrelationBounds) : List Relation :=
  (form bounds (scanned reads bounds.maxScan)).sink.relations

/-- **What the flow's strategies form**: a relation for each related pair, in order, up to the
ceiling. -/
theorem formed_ends (reads : Nat → TelemetryStore) (request : TraceInvestigationRequest)
    (subject : Option TraceId) :
    let bounds := correlationBounds request subject
    (formedRelations reads bounds).map Relation.ends =
      ((scanned reads bounds.maxScan).relatedPairs subject request.correlationWindow).take
        bounds.maxRelations := by
  intro bounds
  rw [formedRelations, form_relations, List.map_take]
  congr 1
  generalize scanned reads bounds.maxScan = s
  cases subject with
  | none =>
    have hnone : subjectSpans s.spans none = [] := rfl
    cases hwindow : request.correlationWindow with
    | none => simp [offered, bounds, correlationBounds, hwindow, familyOf, spanIdentityOf,
        traceIdentityOf, Scanned.relatedPairs]
    | some window => simp [offered, bounds, correlationBounds, hwindow, familyOf, spanIdentityOf,
        traceIdentityOf, temporalCoActivityOf, hnone, Scanned.relatedPairs]
  | some trace =>
    have hidentity := ends_spanIdentityOf s trace
    have htrace := ends_traceIdentityOf s trace
    have htemporal := ends_temporalCoActivityOf s trace request.correlationWindow
    rw [Scanned.relatedPairs, Option.toList_some, List.flatMap_singleton, ← hidentity, ← htrace,
      ← htemporal]
    cases hwindow : request.correlationWindow with
    | none => simp [offered, bounds, correlationBounds, hwindow, familyOf, s.subjectSpans_eq,
        temporalCoActivityOf]
    | some window => simp [offered, bounds, correlationBounds, hwindow, familyOf,
        s.subjectSpans_eq]

/-! ## The re-check -/

/-- Each pair is held at its own two calls, from this call on: the source at the first, the target
at the second. -/
def Survive (reads : Nat → TelemetryStore) (call : Nat) (pairs : List (SignalRef × SignalRef)) :
    Prop :=
  ∀ (i : Nat) (source target : SignalRef), pairs[i]? = some (source, target) →
    (reads (call + 2 * i)).holds source = true ∧ (reads (call + 2 * i + 1)).holds target = true

theorem survive_cons {reads : Nat → TelemetryStore} {call : Nat} {pair : SignalRef × SignalRef}
    {rest : List (SignalRef × SignalRef)} : Survive reads call (pair :: rest) ↔
      ((reads call).holds pair.1 = true ∧ (reads (call + 1)).holds pair.2 = true) ∧
        Survive reads (call + 2) rest := by
  constructor
  · intro h
    refine ⟨h 0 pair.1 pair.2 rfl, fun i source target hlater => ?_⟩
    have hends := h (i + 1) source target hlater
    rwa [show call + 2 * (i + 1) = call + 2 + 2 * i by omega] at hends
  · rintro ⟨hfirst, hrest⟩ i source target hlater
    cases i with
    | zero =>
      obtain rfl := Option.some.inj hlater
      exact hfirst
    | succ i =>
      have hends := hrest i source target hlater
      rwa [show call + 2 + 2 * i = call + 2 * (i + 1) by omega] at hends

/-- **The re-check loses nothing** exactly when every pair survives it. -/
theorem length_retainResident_eq_iff {reads : Nat → TelemetryStore} {call : Nat}
    {relations : List Relation} :
    (retainResident reads call relations).length = relations.length ↔
      Survive reads call (relations.map Relation.ends) := by
  induction relations generalizing call with
  | nil => exact iff_of_true rfl fun i source target h => absurd h (by simp)
  | cons relation rest ih =>
    rw [List.map_cons, survive_cons, Relation.ends, retainResident, endpointsResident]
    cases hsource : (reads call).holds relation.source with
    | false =>
      have hle := (retainResident_sublist reads (call + 1) rest).length_le
      simp only [Bool.false_eq_true, if_false, false_and, iff_false, List.length_cons]
      omega
    | true =>
      cases htarget : (reads (call + 1)).holds relation.target with
      | false =>
        have hle := (retainResident_sublist reads (call + 2) rest).length_le
        simp only [if_true, Bool.false_eq_true, and_false, false_and, iff_false,
          List.length_cons]
        omega
      | true =>
        simp only [if_true, true_and, List.length_cons, Nat.add_right_cancel_iff]
        exact ih

/-! ## The flow -/

/-- The shrinkage an envelope states, nothing when it states none. -/
def Investigation.statedShrinkage (envelope : Investigation) : Nat :=
  (envelope.execution.flowCoverage.map fun entry =>
    match entry with
    | .relationShrinkage count => count
    | _ => 0).sum

/-- A list of coverage entries of other kinds states no shrinkage. -/
theorem shrinkage_map {α : Type} (entry : α → FlowCoverageEntry) (l : List α)
    (h : ∀ a count, entry a ≠ .relationShrinkage count) :
    ((l.map entry).map fun entry =>
      match entry with
      | .relationShrinkage count => count
      | _ => 0).sum = 0 := by
  rw [List.map_map]
  refine List.sum_eq_zero fun n hn => ?_
  obtain ⟨a, -, rfl⟩ := List.mem_map.mp hn
  dsimp only [Function.comp_apply]
  split
  · rename_i count heq
    exact absurd heq (h a count)
  · rfl

/-- The flow states the shrinkage of its own narrowing, whatever the run's truth says. -/
theorem shrinkage_flowCoverage (stats : StoreStats) (request : TraceInvestigationRequest)
    (parts : FlowParts) (truth : Truth) (shrunk : Nat) :
    ((flowCoverage stats request parts truth shrunk).map fun entry =>
      match entry with
      | .relationShrinkage count => count
      | _ => 0).sum = shrunk := by
  have hsuppressed := shrinkage_map (fun s : Suppression =>
    FlowCoverageEntry.suppressedEvidence s.log s.span s.suppressed) truth.suppressions (by simp)
  have habsent := shrinkage_map (fun a : AbsentTrace =>
    FlowCoverageEntry.absentTraceSpans a.log) truth.absentTraces (by simp)
  have hstop := shrinkage_map FlowCoverageEntry.correlationDegradation truth.stoppedAt.toList
    (by simp)
  unfold flowCoverage
  simp only [List.map_append, List.sum_append, hsuppressed, habsent, hstop]
  have hshrunk : ((if 0 < shrunk then [FlowCoverageEntry.relationShrinkage shrunk] else []).map
      fun entry =>
        match entry with
        | .relationShrinkage count => count
        | _ => 0).sum = shrunk := by
    by_cases h : 0 < shrunk
    · rw [if_pos h]
      exact Nat.add_zero _
    · rw [if_neg h]
      exact (Nat.le_zero.mp (Nat.le_of_not_lt h)).symm
  rw [hshrunk]
  split <;> split <;> split <;> split <;> simp

/-- **The flow's narrowing is accounted**: what the envelope holds and the count it states are what
the engine returned. -/
theorem compose_relations (reads : FlowReads) (run : CorrelationBounds → CorrelationOutcome)
    (request : TraceInvestigationRequest) (chain : ChainBudget) (parts : FlowParts) :
    (compose reads run request chain parts).correlated.length +
        (compose reads run request chain parts).statedShrinkage =
      (run (correlationBounds request parts.relatesTo)).relations.length := by
  have hstated : (compose reads run request chain parts).statedShrinkage =
      (run (correlationBounds request parts.relatesTo)).relations.length -
        (compose reads run request chain parts).correlated.length :=
    shrinkage_flowCoverage _ _ _ _ _
  have hle : (compose reads run request chain parts).correlated.length ≤
      (run (correlationBounds request parts.relatesTo)).relations.length :=
    List.length_filter_le _ _
  omega

/-- What the engine returns is what its re-check kept of what was formed. -/
theorem length_correlate {reads : Nat → TelemetryStore} {bounds : CorrelationBounds}
    (h : bounds.maxHops ≠ 0) : (correlate reads bounds).relations.length =
      (retainResident reads (scanned reads bounds.maxScan).tally.calls
        (formedRelations reads bounds)).length := by
  rw [(correlate_perm h).length_eq, formedRelations, form_relations]

/-! ## The account -/

/-- **The account of shrinkage.**  An investigation over any stores accounts for every relation the
strategies formed exactly when each of the related pairs under the ceiling is still held when the
re-check comes to it, two calls a pair after the scans. -/
theorem shrinkage_accounted_iff (fuel : Nat) (reads : FlowReads) (stores : Nat → TelemetryStore)
    (request : TraceInvestigationRequest) (chain : ChainBudget) (envelope : Investigation)
    (root : Arc Span) (hroot : reads.span request.rootSpan = some root)
    (h : investigateTraceBounded fuel reads (correlate stores) request chain =
      some (.ok envelope)) :
    let subject := root.val.naturalIdentity.map Prod.fst
    let bounds := correlationBounds request subject
    let s := scanned stores bounds.maxScan
    (formedRelations stores bounds).length =
        envelope.correlated.length + envelope.statedShrinkage ↔
      Survive stores s.tally.calls
        ((s.relatedPairs subject request.correlationWindow).take bounds.maxRelations) := by
  intro subject bounds s
  obtain ⟨resident, parts, hresident, hparts, rfl⟩ := investigateTraceBounded_eq_ok h
  obtain rfl := Option.some.inj (hroot.symm.trans hresident)
  have hrelates : parts.relatesTo = root.val.naturalIdentity.map Prod.fst :=
    (walkParts_eq_ok hparts).1
  rw [compose_relations, hrelates, length_correlate (Nat.succ_ne_zero 1), eq_comm,
    ← formed_ends stores request subject]
  exact length_retainResident_eq_iff

/-- A store with one log record of the trace, which has left it after so many calls. -/
def logLeaves (calls call : Nat) : TelemetryStore :=
  if call < calls then (tracedLogs 1).driver else (tracedLogs 0).driver

/-- The bounds of the run over the one trace. -/
def tracedBounds : CorrelationBounds := correlationBounds (tracedRequest 2) (some (.ofByte 1))

/-- The pairs the strategies relate in the run over the one trace. -/
def tracedPairs (calls : Nat) : List (SignalRef × SignalRef) :=
  ((scanned (logLeaves calls) tracedBounds.maxScan).relatedPairs (some (.ofByte 1)) none).take
    tracedBounds.maxRelations

/-- A log record that stays through the re-check: its relation is in the envelope. -/
theorem shrinkage_accounted_iff_stays : ∃ envelope : Investigation,
    investigateTraceBounded 2 ((tracedLogs 1).reads fun _ => still) (correlate (logLeaves 5))
        (tracedRequest 2) .defaults = some (.ok envelope) ∧
      (formedRelations (logLeaves 5) tracedBounds).length =
        envelope.correlated.length + envelope.statedShrinkage := by
  obtain ⟨found, hfound, hcomplete⟩ : ∃ found, tracedParts 1 2 = some found ∧
      tracedComplete found = true := (Option.any_eq_true _ _).mp (by decide +kernel)
  obtain ⟨hroot, hidentity, h, -⟩ :=
    investigate_tracedLogs hfound hcomplete (correlate (logLeaves 5))
  have haccount := shrinkage_accounted_iff 2 ((tracedLogs 1).reads fun _ => still) (logLeaves 5)
    (tracedRequest 2) .defaults _ found.1 hroot h
  rw [hidentity] at haccount
  refine ⟨_, h, haccount.mpr ?_⟩
  change Survive (logLeaves 5) (scanned (logLeaves 5) tracedBounds.maxScan).tally.calls (tracedPairs 5)
  rw [show (scanned (logLeaves 5) tracedBounds.maxScan).tally.calls = 3 by decide +kernel]
  have hlength : (tracedPairs 5).length = 1 := by decide +kernel
  have hends : (tracedPairs 5).all (fun pair =>
      (logLeaves 5 3).holds pair.1 && (logLeaves 5 4).holds pair.2) = true := by decide +kernel
  obtain ⟨pair, hpair⟩ := List.length_eq_one_iff.mp hlength
  rw [hpair, List.all_cons, Bool.and_eq_true, Bool.and_eq_true] at hends
  rw [hpair, survive_cons]
  exact ⟨hends.1, fun i source target hlater => absurd hlater (by simp)⟩

/-- A log record evicted between the scans and the re-check: the strategies formed one relation, the
envelope holds none and states no shrinkage. -/
theorem shrinkage_unaccounted : ∃ envelope : Investigation,
    investigateTraceBounded 2 ((tracedLogs 1).reads fun _ => still) (correlate (logLeaves 3))
        (tracedRequest 2) .defaults = some (.ok envelope) ∧
      (formedRelations (logLeaves 3) tracedBounds).length = 1 ∧
      envelope.correlated.length + envelope.statedShrinkage = 0 := by
  obtain ⟨found, hfound, hfacts⟩ : ∃ found, tracedParts 1 2 = some found ∧
      (tracedComplete found && decide (found.2.relatesTo = some (.ofByte 1))) = true :=
    (Option.any_eq_true _ _).mp (by decide +kernel)
  rw [Bool.and_eq_true, decide_eq_true_eq] at hfacts
  obtain ⟨-, -, h, -⟩ := investigate_tracedLogs hfound hfacts.1 (correlate (logLeaves 3))
  refine ⟨_, h, by decide +kernel, ?_⟩
  rw [compose_relations, hfacts.2, length_correlate (Nat.succ_ne_zero 1)]
  decide +kernel

end RuntimeTrail
