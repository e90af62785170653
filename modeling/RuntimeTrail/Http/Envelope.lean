import RuntimeTrail.Http.Render
import RuntimeTrail.Investigation.Descriptors
import RuntimeTrail.Library.Tells

/-!
# The envelope as JSON

Each surface renders an investigation with functions of its own, that differ at most in
how they render bytes, doubles and model values: these are parameters (`Renderer`), and
each function of a surface is one of the functions here over its own.

A duration is rendered in whole milliseconds, and how far the correlation run scanned is
not rendered.  What a record holds beside its times, ids, name and body is not either.

* **the parts** — `Renderer.subject`, `Renderer.execution`, `Renderer.correlated`,
  `Renderer.evidence`, `Renderer.limits`, of `Renderer.investigation`;
* **what is shown** — `Magnitude.shown` up to `Investigation.Alike`;
* **the law** — `Renderer.investigation_eq_iff`: two envelopes are rendered alike
  exactly where they agree in what is shown.
-/

namespace RuntimeTrail

open Library
open Http (orNull jsonCount)

/-- How a surface renders bytes, doubles and model values. -/
structure Renderer where
  hex : List UInt8 → String
  double : Float → JsonValue
  modelValue : Value → JsonValue

/-! ## Kinds -/

def ResolutionNote.kind : ResolutionNote → String
  | requestedSpanIsRoot => "requested_span_is_root"
  | traceRootedAt _ _ _ => "trace_rooted_at"
  | noParentlessSpanResident => "no_parentless_span_resident"
  | rootHasNoValidTraceIdentity => "root_has_no_valid_trace_identity"

def PartOutcome.kind : PartOutcome → String
  | complete => "complete"
  | degraded _ => "degraded"
  | refused _ => "refused"
  | stalled => "stalled"

def RunCoverage.kind : RunCoverage → String
  | evictionGap _ _ => "eviction_gap"
  | snapshotBoundary _ _ => "snapshot_boundary"
  | uncountedTail _ _ => "uncounted_tail"
  | driverStall _ => "driver_stall"

def FlowCoverageEntry.kind : FlowCoverageEntry → String
  | metricWindow _ _ => "metric_window"
  | admissionAnomalies _ => "admission_anomalies"
  | residencyHole _ _ => "residency_hole"
  | suppressedEvidence _ _ _ => "suppressed_evidence"
  | absentTraceSpans _ => "absent_trace_spans"
  | relationShrinkage _ => "relation_shrinkage"
  | correlationDegradation _ => "correlation_degradation"
  | temporalStrategySkipped _ => "temporal_strategy_skipped"

/-- A duration's whole milliseconds. -/
def millis (nanos : Nat) : Nat := nanos / 10 ^ 6

namespace Renderer

variable (r : Renderer)

/-! ## Ids -/

def traceId (traceId : TraceId) : JsonValue := .string (r.hex traceId.bytes)

def spanId (spanId : SpanId) : JsonValue := .string (r.hex spanId.bytes)

def entity : EntityId → JsonValue
  | .span traceId spanId => .ofMembers
      [("span", .ofMembers [("trace_id", r.traceId traceId), ("span_id", r.spanId spanId)])]
  | .assigned id => .ofMembers [("assigned", jsonCount id.serial)]

/-- A subject as a refusal names it. -/
def entityText : EntityId → String
  | .span traceId spanId => "span " ++ r.hex traceId.bytes ++ ":" ++ r.hex spanId.bytes
  | .assigned id => "assigned " ++ toString id.serial

/-! ## Subject -/

def effectiveRoot (root : EffectiveRoot) : JsonValue :=
  .ofMembers
    [("entity", r.entity root.entity), ("name", .string root.name),
      ("trace_id", r.traceId root.traceId), ("span_id", r.spanId root.spanId)]

def note : ResolutionNote → JsonValue
  | .requestedSpanIsRoot => .ofMembers [("kind", .string "requested_span_is_root")]
  | .traceRootedAt entity name spanId => .ofMembers
      [("kind", .string "trace_rooted_at"), ("entity", r.entity entity), ("name", .string name),
        ("span_id", r.spanId spanId)]
  | .noParentlessSpanResident => .ofMembers [("kind", .string "no_parentless_span_resident")]
  | .rootHasNoValidTraceIdentity =>
    .ofMembers [("kind", .string "root_has_no_valid_trace_identity")]

def subject (subject : Subject) : JsonValue :=
  .ofMembers
    [("requested", .ofMembers [("root_span", r.entity subject.requested.rootSpan)]),
      ("effective", .ofMembers
        [("root", r.effectiveRoot subject.effective.root),
          ("notes", .array (subject.effective.notes.map r.note))])]

/-! ## Execution -/

def dimension : Dimension → String
  | .deadline => "deadline"
  | .results => "results"
  | .bytes => "bytes"
  | .scan => "scan"
  | .aggregationMemory => "aggregation_memory"

def magnitude : Magnitude → JsonValue
  | .duration nanos => .ofMembers [("duration_ms", jsonCount (millis nanos))]
  | .units count => .ofMembers [("units", jsonCount count)]
  | .bytes count => .ofMembers [("bytes", jsonCount count)]

def refusal (refusal : BudgetRefusal) : JsonValue :=
  .ofMembers
    [("dimension", .string (dimension refusal.dimension)), ("limit", magnitude refusal.limit),
      ("observed", magnitude refusal.observed)]

def truncationPoint : TruncationPoint → JsonValue
  | .cursor bytes => .ofMembers [("cursor", .ofMembers [("hex", .string (r.hex bytes))])]
  | .lastExamined entity => .ofMembers [("last_examined", r.entity entity)]

def truncation (truncation : Truncation) : JsonValue :=
  .ofMembers
    [("dimension", .string (dimension truncation.dimension)),
      ("position", r.truncationPoint truncation.position),
      ("omitted", jsonCount truncation.omitted)]

def outcome : PartOutcome → JsonValue
  | .complete => .ofMembers [("kind", .string "complete")]
  | .degraded truncation => .ofMembers
      [("kind", .string "degraded"), ("truncation", r.truncation truncation)]
  | .refused refused => .ofMembers [("kind", .string "refused"), ("refusal", refusal refused)]
  | .stalled => .ofMembers [("kind", .string "stalled")]

def coverage : RunCoverage → JsonValue
  | .evictionGap after before => .ofMembers
      [("kind", .string "eviction_gap"), ("after", r.entity after), ("before", r.entity before)]
  | .snapshotBoundary admissionTime entity => .ofMembers
      [("kind", .string "snapshot_boundary"),
        ("admission_time_unix_nano", jsonCount admissionTime.unixNano),
        ("entity", r.entity entity)]
  | .uncountedTail after dimension => .ofMembers
      [("kind", .string "uncounted_tail"), ("after", r.entity after),
        ("dimension", .string (Renderer.dimension dimension))]
  | .driverStall after => .ofMembers [("kind", .string "driver_stall"), ("after", r.entity after)]

/-- A cursor as a run reports it. -/
def nextCursor (cursor : List UInt8) : JsonValue := .ofMembers [("hex", .string (r.hex cursor))]

def run (run : RunFacts) : JsonValue :=
  .ofMembers
    [("outcome", r.outcome run.outcome), ("coverage", .array (run.coverage.map r.coverage)),
      ("next_cursor", orNull run.nextCursor r.nextCursor)]

def part : PartName → String
  | .spans => "spans"
  | .relatedLogs => "related_logs"
  | .surroundingMetrics => "surrounding_metrics"

def runGroup (group : RunGroup) : JsonValue :=
  .ofMembers [("part", .string (part group.part)), ("runs", .array (group.runs.map r.run))]

def window (window : TimeWindow) : JsonValue :=
  .ofMembers [("from", jsonCount window.start), ("to", jsonCount window.stop)]

/-- Where a correlation run stopped: on what, and how far it had come. -/
def stop : StoppedAt → String × Nat
  | .maxDepth depth => ("max_depth", depth)
  | .scanExhausted examined => ("scan_exhausted", examined)
  | .maxRelations count => ("max_relations", count)

def flowCoverage : FlowCoverageEntry → JsonValue
  | .metricWindow asked resident => .ofMembers
      [("kind", .string "metric_window"), ("asked", window asked), ("resident", window resident)]
  | .admissionAnomalies total => .ofMembers
      [("kind", .string "admission_anomalies"), ("total", jsonCount total)]
  | .residencyHole part count => .ofMembers
      [("kind", .string "residency_hole"), ("part", .string (Renderer.part part)),
        ("count", jsonCount count)]
  | .suppressedEvidence log span suppressed => .ofMembers
      [("kind", .string "suppressed_evidence"), ("log", r.entity log), ("span", r.entity span),
        ("suppressed", jsonCount suppressed)]
  | .absentTraceSpans log => .ofMembers
      [("kind", .string "absent_trace_spans"), ("log", r.entity log)]
  | .relationShrinkage count => .ofMembers
      [("kind", .string "relation_shrinkage"), ("count", jsonCount count)]
  | .correlationDegradation stopped => .ofMembers
      [("kind", .string "correlation_degradation"),
        ("at", .ofMembers
          [("kind", .string (stop stopped).1), ("value", jsonCount (stop stopped).2)])]
  | .temporalStrategySkipped reason => .ofMembers
      [("kind", .string "temporal_strategy_skipped"), ("reason", .string reason)]

def execution (execution : FlowExecution) : JsonValue :=
  .ofMembers
    [("run_groups", .array (execution.runGroups.map r.runGroup)),
      ("flow_coverage", .array (execution.flowCoverage.map r.flowCoverage))]

/-! ## Relations -/

def signalKind : SignalKind → String
  | .spans => "spans"
  | .logRecords => "log_records"
  | .metricPoints => "metric_points"

def signalRef (reference : SignalRef) : JsonValue :=
  .ofMembers
    [("kind", .string (signalKind reference.kind)), ("entity", r.entity reference.entity)]

def relationType : RelationType → String
  | .spanIdentity => "span_identity"
  | .traceIdentity => "trace_identity"
  | .parentChild => "parent_child"
  | .resourceContext => "resource_context"
  | .temporalCoActivity => "temporal_co_activity"
  | .exemplarAttachment => "exemplar_attachment"
  | .inferred => "inferred"

def fact (fact : EvidenceFact) : JsonValue :=
  .ofMembers [("field", .string fact.field), ("value", r.modelValue fact.value)]

def strategy (strategy : StrategyVersion) : JsonValue :=
  .ofMembers [("name", .string strategy.name), ("version", .string strategy.version)]

def relation (relation : Relation) : JsonValue :=
  .ofMembers
    [("type", .string (relationType relation.relationType)), ("from", r.signalRef relation.source),
      ("to", r.signalRef relation.target), ("facts", .array (relation.facts.map r.fact)),
      ("strategy", strategy relation.strategy), ("window", orNull relation.window window)]

def correlated (relations : List Relation) : JsonValue :=
  .ofMembers [("relations", .array (relations.map r.relation))]

/-! ## Evidence -/

def spanView (view : SpanEvidence) : JsonValue :=
  let span := view.span.val
  .ofMembers
    [("entity", orNull view.entity r.entity),
      ("span", .ofMembers
        [("trace_id", r.traceId span.context.traceId),
          ("span_id", r.spanId span.context.spanId),
          ("parent_span_id", orNull span.parentSpanId r.spanId),
          ("name", .string span.name),
          ("start_time_unix_nano", jsonCount span.startTimeUnixNano),
          ("end_time_unix_nano", orNull span.endTimeUnixNano jsonCount)])]

def logView (view : LogEvidence) : JsonValue :=
  let log := view.log.val
  .ofMembers
    [("entity", orNull view.entity r.entity),
      ("log", .ofMembers
        [("timestamp_unix_nano", orNull log.timestampUnixNano jsonCount),
          ("observed_timestamp_unix_nano", orNull log.observedTimestampUnixNano jsonCount),
          ("body", orNull log.body r.modelValue),
          ("trace_id", orNull log.traceId r.traceId),
          ("span_id", orNull log.spanId r.spanId)])]

def number : MetricNumber → JsonValue
  | .int value => .ofMembers [("int", .number (.ofInt value))]
  | .double value => .ofMembers [("double", r.double value)]

def point : MetricPoint → JsonValue
  | .number sample => .ofMembers
      [("shape", .string "number"), ("time_unix_nano", jsonCount sample.timeUnixNano),
        ("value", r.number sample.value)]
  | other => .ofMembers [("shape", .string (Http.renderPointShape other))]

def pointView (view : PointEvidence) : JsonValue :=
  .ofMembers
    [("entity", orNull view.entity r.entity), ("point", r.point view.point.val),
      ("stream", Http.renderStream view.stream)]

def evidence (evidence : Evidence) : JsonValue :=
  .ofMembers
    [("spans", .array (evidence.spans.map r.spanView)),
      ("logs", .array (evidence.logs.map r.logView)),
      ("points", .array (evidence.points.map r.pointView))]

/-! ## Limits -/

def chainBasis : ChainBasis → JsonValue
  | .totalEntities => .string "total_entities"
  | .totalPages => .string "total_pages"

def limits (limits : Limits) : JsonValue :=
  .ofMembers
    [("budget", .ofMembers
        [("deadline_ms", jsonCount (millis limits.budget.deadline)),
          ("max_results", jsonCount limits.budget.maxResults),
          ("max_bytes", jsonCount limits.budget.maxBytes),
          ("max_scan", jsonCount limits.budget.maxScan),
          ("max_aggregation_memory", jsonCount limits.budget.maxAggregationMemory)]),
      ("chain", .ofMembers
        [("max_total_entities", jsonCount limits.chain.maxTotalEntities),
          ("max_total_pages", jsonCount limits.chain.maxTotalPages),
          ("total_entities", jsonCount limits.chain.totalEntities),
          ("total_pages", jsonCount limits.chain.totalPages),
          ("identity_examinations", jsonCount limits.chain.identityExaminations),
          ("stopped", orNull limits.chain.stopped chainBasis)]),
      ("strategy_versions", .array (limits.strategyVersions.map strategy)),
      ("eviction", .ofMembers
        [("resident_records", jsonCount limits.eviction.residentRecords),
          ("total_evictions", jsonCount limits.eviction.totalEvictions)])]

/-- Renders the envelope: every part, every fact. -/
def investigation (investigation : Investigation) : JsonValue :=
  .ofMembers
    [("subject", r.subject investigation.subject),
      ("execution", r.execution investigation.execution),
      ("correlated", r.correlated investigation.correlated),
      ("evidence", r.evidence investigation.evidence),
      ("limits", limits investigation.limits)]

end Renderer

/-! ## What is shown -/

def Magnitude.shown : Magnitude → Magnitude
  | duration nanos => duration (millis nanos)
  | units count => units count
  | bytes count => bytes count

def BudgetRefusal.shown (refusal : BudgetRefusal) : BudgetRefusal :=
  { refusal with limit := refusal.limit.shown, observed := refusal.observed.shown }

def PartOutcome.shown : PartOutcome → PartOutcome
  | refused refusal => refused refusal.shown
  | complete => complete
  | degraded truncation => degraded truncation
  | stalled => stalled

theorem PartOutcome.kind_shown (outcome : PartOutcome) : outcome.shown.kind = outcome.kind := by
  cases outcome <;> rfl

def RunFacts.shown (run : RunFacts) : RunFacts := { run with outcome := run.outcome.shown }

def RunGroup.shown (group : RunGroup) : RunGroup :=
  { group with runs := group.runs.map RunFacts.shown }

def FlowExecution.shown (execution : FlowExecution) : FlowExecution :=
  { execution with runGroups := execution.runGroups.map RunGroup.shown }

/-- Where the correlation run's own scan is not among what the chain spent. -/
def Limits.shown (limits : Limits) : Limits :=
  { limits with
    budget := { limits.budget with deadline := millis limits.budget.deadline }
    chain := { limits.chain with correlationScan := 0 } }

section Shown

variable (r : Renderer)

/-- A relation shows its facts by what their values are rendered as. -/
def Relation.shown (relation : Relation) :=
  (relation.relationType, relation.source, relation.target,
    relation.facts.map fun fact => (fact.field, r.modelValue fact.value), relation.strategy,
    relation.window)

def SpanEvidence.shown (view : SpanEvidence) :=
  let span := view.span.val
  (view.entity, span.context.traceId, span.context.spanId, span.parentSpanId, span.name,
    span.startTimeUnixNano, span.endTimeUnixNano)

/-- A log record shows its body by what it is rendered as. -/
def LogEvidence.shown (view : LogEvidence) :=
  let log := view.log.val
  (view.entity, log.timestampUnixNano, log.observedTimestampUnixNano, orNull log.body r.modelValue,
    log.traceId, log.spanId)

/-- A point shows its shape, and a number its time and what its value is rendered as. -/
def MetricPoint.shown : MetricPoint → String × Option (Nat × JsonValue)
  | number sample => ("number", some (sample.timeUnixNano, r.number sample.value))
  | other => (Http.renderPointShape other, none)

def PointEvidence.shown (view : PointEvidence) :=
  (view.entity, view.point.val.shown r, view.stream.name)

/-- Two investigations agree in all that is shown of them. -/
structure Investigation.Alike (a b : Investigation) : Prop where
  subject : a.subject = b.subject
  execution : a.execution.shown = b.execution.shown
  relations : a.correlated.map (Relation.shown r) = b.correlated.map (Relation.shown r)
  spans : a.evidence.spans.map SpanEvidence.shown = b.evidence.spans.map SpanEvidence.shown
  logs : a.evidence.logs.map (LogEvidence.shown r) = b.evidence.logs.map (LogEvidence.shown r)
  points : a.evidence.points.map (PointEvidence.shown r) =
    b.evidence.points.map (PointEvidence.shown r)
  limits : a.limits.shown = b.limits.shown

end Shown

namespace Renderer

variable (r : Renderer)

/-! ## What is told whole -/

theorem jsonCount_inj {a b : Nat} : jsonCount a = jsonCount b ↔ a = b :=
  ⟨fun h => JsonNumber.ofNat_injective (JsonValue.number.inj h), congrArg _⟩

/-- An optional part tells whether it is there, where no part renders as what is absent does. -/
theorem orNull_inj {α : Type} {render : α → JsonValue} (h : Function.Injective render)
    (hnull : ∀ a, render a ≠ .null) {a b : Option α} :
    orNull a render = orNull b render ↔ a = b := by
  refine ⟨fun heq => ?_, fun heq => by rw [heq]⟩
  cases a with
  | none =>
    cases b with
    | none => rfl
    | some b => exact absurd heq.symm (hnull b)
  | some a =>
    cases b with
    | none => exact absurd heq (hnull a)
    | some b => exact congrArg some (h heq)

theorem orNull_count_inj {a b : Option Nat} : orNull a jsonCount = orNull b jsonCount ↔ a = b :=
  orNull_inj (fun _ _ => jsonCount_inj.mp) nofun

theorem array_inj {α : Type} {render : α → JsonValue} (h : ∀ {a b}, render a = render b ↔ a = b)
    {as bs : List α} : JsonValue.array (as.map render) = .array (bs.map render) ↔ as = bs := by
  rw [JsonValue.array.injEq]
  exact (List.map_injective_iff.mpr fun _ _ => h.mp).eq_iff

theorem dimension_inj {a b : Dimension} : dimension a = dimension b ↔ a = b := by
  refine ⟨fun h => ?_, congrArg _⟩
  cases a <;> cases b <;> first | rfl | exact absurd h (by decide)

theorem part_inj {a b : PartName} : part a = part b ↔ a = b := by
  refine ⟨fun h => ?_, congrArg _⟩
  cases a <;> cases b <;> first | rfl | exact absurd h (by decide)

theorem signalKind_inj {a b : SignalKind} : signalKind a = signalKind b ↔ a = b := by
  refine ⟨fun h => ?_, congrArg _⟩
  cases a <;> cases b <;> first | rfl | exact absurd h (by decide)

theorem relationType_inj {a b : RelationType} : relationType a = relationType b ↔ a = b := by
  refine ⟨fun h => ?_, congrArg _⟩
  cases a <;> cases b <;> first | rfl | exact absurd h (by decide)

theorem chainBasis_inj {a b : Option ChainBasis} :
    orNull a chainBasis = orNull b chainBasis ↔ a = b := by
  refine orNull_inj (fun a b h => ?_) fun a => ?_
  · cases a <;> cases b <;> first | rfl | exact absurd (JsonValue.string.inj h) (by decide)
  · cases a <;> exact nofun

theorem stop_inj {a b : StoppedAt} : stop a = stop b ↔ a = b := by
  refine ⟨fun h => ?_, congrArg _⟩
  cases a <;> cases b <;> first
    | exact absurd (Prod.mk.inj h).1 (by decide)
    | exact congrArg _ (Prod.mk.inj h).2

theorem window_inj {a b : TimeWindow} : window a = window b ↔ a = b := by
  cases a
  cases b
  simp [window, JsonValue.ofMembers_eq_iff, jsonCount_inj]

theorem orNull_window_inj {a b : Option TimeWindow} : orNull a window = orNull b window ↔ a = b :=
  orNull_inj (fun _ _ => window_inj.mp) nofun

theorem strategy_inj {a b : StrategyVersion} : strategy a = strategy b ↔ a = b := by
  cases a
  cases b
  simp [strategy, JsonValue.ofMembers_eq_iff]

theorem get_note_kind (note : ResolutionNote) :
    (r.note note).get "kind" = some (.string note.kind) := by
  cases note <;> exact JsonValue.get_ofMembers (by simp) List.mem_cons_self

theorem get_outcome_kind (outcome : PartOutcome) :
    (r.outcome outcome).get "kind" = some (.string outcome.kind) := by
  cases outcome <;> exact JsonValue.get_ofMembers (by simp) List.mem_cons_self

theorem get_coverage_kind (entry : RunCoverage) :
    (r.coverage entry).get "kind" = some (.string entry.kind) := by
  cases entry <;> exact JsonValue.get_ofMembers (by simp) List.mem_cons_self

theorem get_flowCoverage_kind (entry : FlowCoverageEntry) :
    (r.flowCoverage entry).get "kind" = some (.string entry.kind) := by
  cases entry <;> exact JsonValue.get_ofMembers (by simp) List.mem_cons_self

/-- Parts that are rendered alike are of one kind. -/
theorem kind_eq_of_get {α : Type} {render : α → JsonValue} {kind : α → String}
    (h : ∀ a, (render a).get "kind" = some (.string (kind a))) {a b : α}
    (heq : render a = render b) : kind a = kind b := by
  have ha := h a
  rw [heq, h b] at ha
  exact (JsonValue.string.inj (Option.some.inj ha)).symm

section Injective

variable {r} (hex : Function.Injective r.hex)

include hex

theorem traceId_inj {a b : TraceId} : r.traceId a = r.traceId b ↔ a = b := by
  cases a
  cases b
  simp [traceId, hex.eq_iff]

theorem spanId_inj {a b : SpanId} : r.spanId a = r.spanId b ↔ a = b := by
  cases a
  cases b
  simp [spanId, hex.eq_iff]

theorem entity_inj {a b : EntityId} : r.entity a = r.entity b ↔ a = b := by
  refine ⟨fun h => ?_, congrArg _⟩
  cases a with
  | span traceId spanId =>
    cases b with
    | span traceId' spanId' =>
      simpa [entity, JsonValue.ofMembers_eq_iff, traceId_inj hex, spanId_inj hex] using h
    | assigned id =>
      exact absurd h (JsonValue.ofMembers_ne "span" (by simp) (by simp) (by simp) (by simp))
  | assigned id =>
    cases b with
    | span traceId spanId =>
      exact absurd h.symm (JsonValue.ofMembers_ne "span" (by simp) (by simp) (by simp) (by simp))
    | assigned id' =>
      cases id
      cases id'
      simpa [entity, JsonValue.ofMembers_eq_iff, jsonCount_inj] using h

theorem orNull_entity_inj {a b : Option EntityId} : orNull a r.entity = orNull b r.entity ↔ a = b :=
  orNull_inj (fun _ _ => (entity_inj hex).mp) fun a => by cases a <;> exact nofun

theorem orNull_traceId_inj {a b : Option TraceId} :
    orNull a r.traceId = orNull b r.traceId ↔ a = b :=
  orNull_inj (fun _ _ => (traceId_inj hex).mp) nofun

theorem orNull_spanId_inj {a b : Option SpanId} : orNull a r.spanId = orNull b r.spanId ↔ a = b :=
  orNull_inj (fun _ _ => (spanId_inj hex).mp) nofun

theorem effectiveRoot_inj {a b : EffectiveRoot} :
    r.effectiveRoot a = r.effectiveRoot b ↔ a = b := by
  cases a
  cases b
  simp [effectiveRoot, JsonValue.ofMembers_eq_iff, entity_inj hex, traceId_inj hex, spanId_inj hex]

theorem note_inj {a b : ResolutionNote} : r.note a = r.note b ↔ a = b := by
  refine ⟨fun h => ?_, congrArg _⟩
  have hkind := kind_eq_of_get r.get_note_kind h
  cases a <;> cases b <;> first
    | rfl
    | (simp [ResolutionNote.kind] at hkind; done)
    | simpa [note, JsonValue.ofMembers_eq_iff, entity_inj hex, spanId_inj hex] using h

theorem subject_inj {a b : Subject} : r.subject a = r.subject b ↔ a = b := by
  obtain ⟨⟨requested⟩, ⟨root, notes⟩⟩ := a
  obtain ⟨⟨requested'⟩, ⟨root', notes'⟩⟩ := b
  simp [subject, JsonValue.ofMembers_eq_iff, entity_inj hex, effectiveRoot_inj hex,
    array_inj (note_inj hex)]

theorem truncationPoint_inj {a b : TruncationPoint} :
    r.truncationPoint a = r.truncationPoint b ↔ a = b := by
  refine ⟨fun h => ?_, congrArg _⟩
  cases a with
  | cursor bytes =>
    cases b with
    | cursor bytes' => simpa [truncationPoint, JsonValue.ofMembers_eq_iff, hex.eq_iff] using h
    | lastExamined entity =>
      exact absurd h (JsonValue.ofMembers_ne "cursor" (by simp) (by simp) (by simp) (by simp))
  | lastExamined entity =>
    cases b with
    | cursor bytes =>
      exact absurd h.symm (JsonValue.ofMembers_ne "cursor" (by simp) (by simp) (by simp) (by simp))
    | lastExamined entity' =>
      simpa [truncationPoint, JsonValue.ofMembers_eq_iff, entity_inj hex] using h

theorem truncation_inj {a b : Truncation} : r.truncation a = r.truncation b ↔ a = b := by
  cases a
  cases b
  simp [truncation, JsonValue.ofMembers_eq_iff, dimension_inj, truncationPoint_inj hex,
    jsonCount_inj]

theorem coverage_inj {a b : RunCoverage} : r.coverage a = r.coverage b ↔ a = b := by
  refine ⟨fun h => ?_, congrArg _⟩
  have hkind := kind_eq_of_get r.get_coverage_kind h
  cases a with
  | evictionGap after before =>
    cases b with
    | evictionGap after' before' =>
      simpa [coverage, JsonValue.ofMembers_eq_iff, entity_inj hex] using h
    | _ => simp [RunCoverage.kind] at hkind
  | snapshotBoundary admissionTime entity =>
    cases b with
    | snapshotBoundary admissionTime' entity' =>
      cases admissionTime
      cases admissionTime'
      simpa [coverage, JsonValue.ofMembers_eq_iff, entity_inj hex, jsonCount_inj] using h
    | _ => simp [RunCoverage.kind] at hkind
  | uncountedTail after dimension =>
    cases b with
    | uncountedTail after' dimension' =>
      simpa [coverage, JsonValue.ofMembers_eq_iff, entity_inj hex, dimension_inj] using h
    | _ => simp [RunCoverage.kind] at hkind
  | driverStall after =>
    cases b with
    | driverStall after' => simpa [coverage, JsonValue.ofMembers_eq_iff, entity_inj hex] using h
    | _ => simp [RunCoverage.kind] at hkind

theorem nextCursor_inj {a b : Option (List UInt8)} :
    orNull a r.nextCursor = orNull b r.nextCursor ↔ a = b := by
  refine orNull_inj (fun a b h => ?_) nofun
  simpa [nextCursor, JsonValue.ofMembers_eq_iff, hex.eq_iff] using h

theorem flowCoverage_inj {a b : FlowCoverageEntry} :
    r.flowCoverage a = r.flowCoverage b ↔ a = b := by
  refine ⟨fun h => ?_, congrArg _⟩
  have hkind := kind_eq_of_get r.get_flowCoverage_kind h
  cases a <;> cases b <;> first
    | (simp [FlowCoverageEntry.kind] at hkind; done)
    | simpa [flowCoverage, JsonValue.ofMembers_eq_iff, window_inj, jsonCount_inj, part_inj,
        entity_inj hex, ← stop_inj, Prod.ext_iff] using h

theorem signalRef_inj {a b : SignalRef} : r.signalRef a = r.signalRef b ↔ a = b := by
  cases a
  cases b
  simp [signalRef, JsonValue.ofMembers_eq_iff, signalKind_inj, entity_inj hex]

end Injective

/-! ## What is told in part -/

theorem tells_magnitude : Tells magnitude Magnitude.shown := by
  intro a b
  cases a with
  | duration nanos =>
    cases b with
    | duration nanos' =>
      simp [magnitude, Magnitude.shown, JsonValue.ofMembers_eq_iff, jsonCount_inj]
    | _ =>
      exact iff_of_false
        (JsonValue.ofMembers_ne "duration_ms" (by simp) (by simp) (by simp) (by simp)) nofun
  | units count =>
    cases b with
    | units count' => simp [magnitude, Magnitude.shown, JsonValue.ofMembers_eq_iff, jsonCount_inj]
    | _ =>
      exact iff_of_false
        (JsonValue.ofMembers_ne "units" (by simp) (by simp) (by simp) (by simp)) nofun
  | bytes count =>
    cases b with
    | bytes count' => simp [magnitude, Magnitude.shown, JsonValue.ofMembers_eq_iff, jsonCount_inj]
    | _ =>
      exact iff_of_false
        (JsonValue.ofMembers_ne "bytes" (by simp) (by simp) (by simp) (by simp)) nofun

theorem tells_refusal : Tells refusal BudgetRefusal.shown := by
  intro a b
  simp [refusal, BudgetRefusal.shown, JsonValue.ofMembers_eq_iff, dimension_inj, tells_magnitude _ _]

section Told

variable {r} (hex : Function.Injective r.hex)

include hex

theorem tells_outcome : Tells r.outcome PartOutcome.shown := by
  intro a b
  by_cases hkind : a.kind = b.kind
  · cases a with
    | complete =>
      cases b with
      | complete => exact iff_of_true rfl rfl
      | _ => simp [PartOutcome.kind] at hkind
    | degraded truncation =>
      cases b with
      | degraded truncation' =>
        simp [outcome, PartOutcome.shown, JsonValue.ofMembers_eq_iff, truncation_inj hex]
      | _ => simp [PartOutcome.kind] at hkind
    | refused refusal =>
      cases b with
      | refused refusal' =>
        simp [outcome, PartOutcome.shown, JsonValue.ofMembers_eq_iff, tells_refusal _ _]
      | _ => simp [PartOutcome.kind] at hkind
    | stalled =>
      cases b with
      | stalled => exact iff_of_true rfl rfl
      | _ => simp [PartOutcome.kind] at hkind
  · refine iff_of_false (fun h => hkind (kind_eq_of_get r.get_outcome_kind h)) fun h => hkind ?_
    rw [← PartOutcome.kind_shown, h, PartOutcome.kind_shown]

theorem tells_run : Tells r.run RunFacts.shown := by
  intro a b
  simp [run, RunFacts.shown, JsonValue.ofMembers_eq_iff, tells_outcome hex _ _,
    array_inj (coverage_inj hex), nextCursor_inj hex]

theorem tells_runGroup : Tells r.runGroup RunGroup.shown := by
  intro a b
  simp [runGroup, RunGroup.shown, JsonValue.ofMembers_eq_iff, part_inj,
    (tells_run hex).map _ _]

theorem tells_execution : Tells r.execution FlowExecution.shown := by
  intro a b
  simp [execution, FlowExecution.shown, JsonValue.ofMembers_eq_iff, array_inj (flowCoverage_inj hex),
    (tells_runGroup hex).map _ _]

theorem tells_relation : Tells r.relation (Relation.shown r) := by
  intro a b
  have hfacts : Tells r.fact fun fact => (fact.field, r.modelValue fact.value) := fun f g => by
    simp [fact, JsonValue.ofMembers_eq_iff]
  simp [relation, Relation.shown, JsonValue.ofMembers_eq_iff, relationType_inj, signalRef_inj hex,
    strategy_inj, orNull_window_inj, hfacts.map _ _]

theorem tells_correlated : Tells r.correlated (List.map (Relation.shown r)) := by
  intro a b
  simp [correlated, JsonValue.ofMembers_eq_iff, (tells_relation hex).map _ _]

theorem tells_spanView : Tells r.spanView SpanEvidence.shown := by
  intro a b
  simp [spanView, SpanEvidence.shown, JsonValue.ofMembers_eq_iff, orNull_entity_inj hex,
    traceId_inj hex, spanId_inj hex, orNull_spanId_inj hex, jsonCount_inj, orNull_count_inj]

theorem tells_logView : Tells r.logView (LogEvidence.shown r) := by
  intro a b
  simp [logView, LogEvidence.shown, JsonValue.ofMembers_eq_iff, orNull_entity_inj hex,
    orNull_traceId_inj hex, orNull_spanId_inj hex, orNull_count_inj]

omit hex in
/-- A point tells its shape, and a number's time and value. -/
theorem tells_point : Tells r.point (MetricPoint.shown r) := by
  intro a b
  cases a with
  | number sample =>
    cases b with
    | number sample' =>
      simp [point, MetricPoint.shown, JsonValue.ofMembers_eq_iff, jsonCount_inj]
    | _ =>
      exact iff_of_false
        (JsonValue.ofMembers_ne "time_unix_nano" (by simp) (by simp) (by simp) (by simp))
        (by simp [MetricPoint.shown])
  | _ =>
    cases b with
    | number sample =>
      exact iff_of_false (fun h => JsonValue.ofMembers_ne "time_unix_nano" (by simp) (by simp)
        (by simp) (by simp) h.symm) (by simp [MetricPoint.shown])
    | _ => simp [point, MetricPoint.shown, JsonValue.ofMembers_eq_iff]

theorem tells_pointView : Tells r.pointView (PointEvidence.shown r) := by
  intro a b
  simp [pointView, PointEvidence.shown, Http.renderStream, JsonValue.ofMembers_eq_iff,
    orNull_entity_inj hex, tells_point _ _]

omit hex in
theorem tells_limits : Tells limits Limits.shown := by
  rintro ⟨⟨_, _, _, _, _⟩, ⟨_, _, _, _, _, _, _⟩, _, ⟨_, _⟩⟩
    ⟨⟨_, _, _, _, _⟩, ⟨_, _, _, _, _, _, _⟩, _, ⟨_, _⟩⟩
  simp [limits, Limits.shown, JsonValue.ofMembers_eq_iff, jsonCount_inj, chainBasis_inj,
    array_inj strategy_inj, and_assoc]

/-- **An envelope is told up to what is not shown of it.** -/
theorem investigation_eq_iff {a b : Investigation} :
    r.investigation a = r.investigation b ↔ a.Alike r b := by
  have hparts : r.investigation a = r.investigation b ↔
      r.subject a.subject = r.subject b.subject ∧
      r.execution a.execution = r.execution b.execution ∧
      r.correlated a.correlated = r.correlated b.correlated ∧
      r.evidence a.evidence = r.evidence b.evidence ∧ limits a.limits = limits b.limits := by
    simp [investigation, JsonValue.ofMembers_eq_iff]
  have hevidence : r.evidence a.evidence = r.evidence b.evidence ↔
      a.evidence.spans.map SpanEvidence.shown = b.evidence.spans.map SpanEvidence.shown ∧
      a.evidence.logs.map (LogEvidence.shown r) = b.evidence.logs.map (LogEvidence.shown r) ∧
      a.evidence.points.map (PointEvidence.shown r) =
        b.evidence.points.map (PointEvidence.shown r) := by
    simp [evidence, JsonValue.ofMembers_eq_iff, (tells_spanView hex).map _ _,
      (tells_logView hex).map _ _, (tells_pointView hex).map _ _]
  rw [hparts, hevidence, subject_inj hex, tells_execution hex, tells_correlated hex, tells_limits]
  constructor
  · rintro ⟨hsubject, hexecution, hrelations, ⟨hspans, hlogs, hpoints⟩, hlimits⟩
    exact ⟨hsubject, hexecution, hrelations, hspans, hlogs, hpoints, hlimits⟩
  · intro h
    exact ⟨h.subject, h.execution, h.relations, ⟨h.spans, h.logs, h.points⟩, h.limits⟩

end Told

end Renderer

end RuntimeTrail
