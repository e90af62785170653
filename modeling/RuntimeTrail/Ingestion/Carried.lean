import RuntimeTrail.Ingestion.Decode

/-!
# One record of a request, with what surrounds it

A record on the wire is a span, a log record or a data point together with the
resource, the scope and, for a point, the metric it was sent under.  Its translation
is what the walk over the document does at its position.

* **spans and logs** — `Otlp.spans_eq`, `Otlp.logs_eq`: the walk translates exactly
  the records a request carries, in document order;
* **points** — `Otlp.points_eq`: a metric's identity reads its declaration and never
  its points, so each point translates as though it were the metric's only one.
-/

namespace RuntimeTrail

open Library

namespace Otlp

/-- A message under its resource and scope. -/
structure Carried (R : Type) where
  resource : Option Resource
  resourceSchemaUrl : String
  scope : Option InstrumentationScope
  scopeSchemaUrl : String
  record : R

/-- One data point, under the shape of its metric's data. -/
inductive DataPoint where
  | gauge (point : NumberDataPoint)
  | sum (point : NumberDataPoint) (aggregationTemporality : Int) (isMonotonic : Bool)
  | histogram (point : HistogramDataPoint) (aggregationTemporality : Int)
  | exponentialHistogram (point : ExponentialHistogramDataPoint) (aggregationTemporality : Int)
  | summary (point : SummaryDataPoint)

/-- One data point with the metric that declares it. -/
structure MetricRecord where
  descriptor : Descriptor
  point : DataPoint

/-- The data of a metric whose only point this is. -/
def DataPoint.data : DataPoint → MetricData otlp
  | .gauge point => .gauge [point]
  | .sum point aggregationTemporality isMonotonic => .sum [point] aggregationTemporality isMonotonic
  | .histogram point aggregationTemporality => .histogram [point] aggregationTemporality
  | .exponentialHistogram point aggregationTemporality =>
    .exponentialHistogram [point] aggregationTemporality
  | .summary point => .summary [point]

/-- The metric whose only point this is. -/
def MetricRecord.metric (record : MetricRecord) : Metric otlp :=
  ⟨record.descriptor, some record.point.data⟩

/-- The data points of a metric, each under its shape. -/
def dataPoints : Option (MetricData otlp) → List DataPoint
  | some (.gauge points) => points.map .gauge
  | some (.sum points aggregationTemporality isMonotonic) =>
    points.map fun point => .sum point aggregationTemporality isMonotonic
  | some (.histogram points aggregationTemporality) =>
    points.map fun point => .histogram point aggregationTemporality
  | some (.exponentialHistogram points aggregationTemporality) =>
    points.map fun point => .exponentialHistogram point aggregationTemporality
  | some (.summary points) => points.map .summary
  | none => []

/-- The records of a request in document order, each with what surrounds it. -/
def carried {R : Type} (request : List (ResourceRecords otlp R)) : List (Carried R) :=
  request.flatMap fun resource => resource.scopes.flatMap fun scope =>
    scope.records.map fun record =>
      ⟨resource.resource, resource.schemaUrl, scope.scope, scope.schemaUrl, record⟩

/-- The points of a message under its resource and scope. -/
def Carried.points (c : Carried (Metric otlp)) : List (Carried MetricRecord) :=
  (dataPoints c.record.data).map fun point =>
    ⟨c.resource, c.resourceSchemaUrl, c.scope, c.scopeSchemaUrl, ⟨c.record.descriptor, point⟩⟩

namespace Carried

variable {R : Type} (c : Carried R) (limits : BudgetLimits)

/-- The resource this message was sent under. -/
def decodeResource : Except RecordRejection RuntimeTrail.Resource :=
  Decode.resource (c.resource.getD .default) c.resourceSchemaUrl limits

/-- The scope this message was sent under. -/
def decodeScope : Except RecordRejection RuntimeTrail.InstrumentationScope :=
  Decode.scope (c.scope.getD .default) c.scopeSchemaUrl limits

end Carried

/-! ## Spans and logs -/

/-- A message translated under its envelope: the scope's failure comes before the resource's. -/
def Carried.decode {R T : Type} (record : R → Envelope → Except RecordRejection T)
    (limits : BudgetLimits) (c : Carried R) : Except RecordRejection T := do
  let scope ← c.decodeScope limits
  let resource ← c.decodeResource limits
  record c.record ⟨resource, scope⟩

theorem document_eq {R T : Type} (limits : BudgetLimits)
    (record : R → Envelope → Except RecordRejection T) (request : List (ResourceRecords otlp R)) :
    (otlpDecoder limits).document record request =
      (carried request).map (Carried.decode record limits) := by
  simp only [Decoder.document, carried, List.map_flatMap, List.map_map, Function.comp_def]
  refine congrArg (List.flatMap · request) (funext fun resource => ?_)
  refine congrArg (List.flatMap · resource.scopes) (funext fun scope => ?_)
  refine List.map_congr_left fun proto _ => ?_
  simp only [Decoder.envelope, Carried.decode, Carried.decodeScope, Carried.decodeResource]
  cases Decode.scope (scope.scope.getD .default) scope.schemaUrl limits with
  | error reason => rfl
  | ok instrumented =>
    cases Decode.resource (resource.resource.getD .default) resource.schemaUrl limits with
    | error reason => rfl
    | ok translated => rfl

/-- One span with what surrounds it, translated. -/
def decodeSpan (limits : BudgetLimits) : Carried Span → Except RecordRejection RuntimeTrail.Span :=
  Carried.decode (fun proto envelope => Decode.span proto envelope limits) limits

/-- One log record with what surrounds it, translated. -/
def decodeLogRecord (limits : BudgetLimits) :
    Carried LogRecord → Except RecordRejection RuntimeTrail.LogRecord :=
  Carried.decode (fun proto envelope => Decode.logRecord proto envelope limits) limits

/-- The walk over a trace request translates the spans it carries. -/
theorem spans_eq (limits : BudgetLimits) (request : List (ResourceRecords otlp Span)) :
    (otlpDecoder limits).spans request = (carried request).map (decodeSpan limits) :=
  document_eq limits _ request

/-- The walk over a logs request translates the records it carries. -/
theorem logs_eq (limits : BudgetLimits) (request : List (ResourceRecords otlp LogRecord)) :
    (otlpDecoder limits).logs request = (carried request).map (decodeLogRecord limits) :=
  document_eq limits _ request

/-! ## Points -/

/-- One data point by its shape. -/
def DataPoint.decode (limits : BudgetLimits) : DataPoint → Except RecordRejection MetricPoint
  | .gauge point => Decode.numberPoint point limits
  | .sum point _ _ => Decode.numberPoint point limits
  | .histogram point _ => Decode.histogramPoint point limits
  | .exponentialHistogram point _ => Decode.exponentialHistogramPoint point limits
  | .summary point => Decode.summaryPoint point limits

/-- One data point with what surrounds it, translated: the resource's failure comes first, then the
scope's, then the stream's. -/
def decodePoint (limits : BudgetLimits) (c : Carried MetricRecord) :
    Except RecordRejection (StreamIdentity × MetricPoint) := do
  let resource ← c.decodeResource limits
  let scope ← c.decodeScope limits
  let stream ← Decode.streamIdentity c.record.metric ⟨resource, scope⟩ limits
  let point ← c.record.point.decode limits
  return (stream, point)

/-- A metric's points are translated shape by shape. -/
theorem intoPoints_eq (limits : BudgetLimits) (metric : Metric otlp) :
    (otlpDecoder limits).intoPoints metric =
      (dataPoints metric.data).map (DataPoint.decode limits) := by
  unfold Decoder.intoPoints dataPoints
  rcases metric.data with _ | _ | _ | _ | _ | _ <;> simp [Function.comp_def, DataPoint.decode]

/-- The kind a metric's data declares is the kind each of its points would declare alone. -/
theorem streamKind_data {data : Option (MetricData otlp)} {point : DataPoint}
    (h : point ∈ dataPoints data) : Decode.streamKind (some point.data) = Decode.streamKind data := by
  rcases data with _ | _ | _ | _ | _ | _ <;> simp only [dataPoints, List.mem_map, List.not_mem_nil] at h
  all_goals
    obtain ⟨proto, -, rfl⟩ := h
    rfl

/-- The walk over a metrics request translates the points it carries. -/
theorem points_eq (limits : BudgetLimits) (request : List (ResourceRecords otlp (Metric otlp))) :
    ((otlpDecoder limits).metrics request).flatMap WireMetric.records =
      ((carried request).flatMap Carried.points).map fun c =>
        (decodePoint limits c).map fun translated => .point translated.1 translated.2 := by
  simp only [Decoder.metrics, carried, List.flatMap_assoc, List.map_flatMap, List.flatMap_map]
  refine congrArg (List.flatMap · request) (funext fun resource => ?_)
  refine congrArg (List.flatMap · resource.scopes) (funext fun scope => ?_)
  refine congrArg (List.flatMap · scope.records) (funext fun metric => ?_)
  simp only [WireMetric.records, intoPoints_eq, Carried.points, List.map_map, Function.comp_def]
  refine List.map_congr_left fun point hpoint => ?_
  have hkind := streamKind_data hpoint
  simp only [decodePoint, Carried.decodeResource, Carried.decodeScope]
  cases Decode.resource (resource.resource.getD .default) resource.schemaUrl limits with
  | error reason => rfl
  | ok translated =>
    cases Decode.scope (scope.scope.getD .default) scope.schemaUrl limits with
    | error reason => rfl
    | ok instrumented =>
      simp only [bind, Except.bind]
      have hstream : Decode.streamIdentity (MetricRecord.metric ⟨metric.descriptor, point⟩)
          ⟨translated, instrumented⟩ limits =
            Decode.streamIdentity metric ⟨translated, instrumented⟩ limits := by
        simp only [Decode.streamIdentity, MetricRecord.metric, hkind]
      rw [hstream]
      cases Decode.streamIdentity metric ⟨translated, instrumented⟩ limits with
      | error reason => rfl
      | ok stream =>
        simp only
        cases point.decode limits with
        | error reason => rfl
        | ok decoded => rfl

end Otlp

end RuntimeTrail
