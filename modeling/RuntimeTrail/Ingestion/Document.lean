import RuntimeTrail.Ingestion.Interns

/-!
# The request as a document

An OTLP request nests its records under resources and scopes; the pipeline walks
it in document order and keeps one position for every record, whatever becomes
of it.  The message types and the translation of one message are parameters
here (`Wire`, `Decoder`); the walk is not.

* **the walk** — `Decoder.spans`, `Decoder.logs`, `Decoder.metrics`: a failed
  resource or scope refuses every record beneath it, and takes no position away;
* **the count** — `length_document`, `length_points`: the walk gives as many
  records as the export budget counted before anything was admitted;
* **what is offered** — `Handed`: the fates of an export's records against the
  records of its offer-set, position by position (`handed_admitCall`).
-/

namespace RuntimeTrail

open Library

/-! ## The document -/

/-- The message types of a request, and what an absent resource or scope reads as. -/
structure Wire where
  Resource : Type
  InstrumentationScope : Type
  Span : Type
  LogRecord : Type
  /-- What a metric declares beside its data. -/
  Descriptor : Type
  NumberDataPoint : Type
  HistogramDataPoint : Type
  ExponentialHistogramDataPoint : Type
  SummaryDataPoint : Type
  defaultResource : Resource
  defaultScope : InstrumentationScope

/-- One `ScopeSpans`, `ScopeLogs` or `ScopeMetrics`. -/
structure ScopeRecords (W : Wire) (R : Type) where
  scope : Option W.InstrumentationScope
  schemaUrl : String
  records : List R

/-- One `ResourceSpans`, `ResourceLogs` or `ResourceMetrics`. -/
structure ResourceRecords (W : Wire) (R : Type) where
  resource : Option W.Resource
  schemaUrl : String
  scopes : List (ScopeRecords W R)

/-- A metric's data, by shape. -/
inductive MetricData (W : Wire) where
  | gauge (dataPoints : List W.NumberDataPoint)
  | sum (dataPoints : List W.NumberDataPoint) (aggregationTemporality : Int) (isMonotonic : Bool)
  | histogram (dataPoints : List W.HistogramDataPoint) (aggregationTemporality : Int)
  | exponentialHistogram (dataPoints : List W.ExponentialHistogramDataPoint)
      (aggregationTemporality : Int)
  | summary (dataPoints : List W.SummaryDataPoint)

/-- One `Metric`. -/
structure Metric (W : Wire) where
  descriptor : W.Descriptor
  data : Option (MetricData W)

/-- The resource and scope one envelope carries. -/
structure Envelope where
  resource : Resource
  scope : InstrumentationScope

/-- The translation of each message. -/
structure Decoder (W : Wire) where
  resource : W.Resource → String → Except RecordRejection Resource
  scope : W.InstrumentationScope → String → Except RecordRejection InstrumentationScope
  span : W.Span → Envelope → Except RecordRejection Span
  logRecord : W.LogRecord → Envelope → Except RecordRejection LogRecord
  streamIdentity : Metric W → Envelope → Except RecordRejection StreamIdentity
  numberPoint : W.NumberDataPoint → Except RecordRejection MetricPoint
  histogramPoint : W.HistogramDataPoint → Except RecordRejection MetricPoint
  exponentialHistogramPoint : W.ExponentialHistogramDataPoint → Except RecordRejection MetricPoint
  summaryPoint : W.SummaryDataPoint → Except RecordRejection MetricPoint

/-- The number of data points a metric carries. -/
def Metric.pointCount {W : Wire} (metric : Metric W) : Nat :=
  match metric.data with
  | some (.gauge points) => points.length
  | some (.sum points _ _) => points.length
  | some (.histogram points _) => points.length
  | some (.exponentialHistogram points _) => points.length
  | some (.summary points) => points.length
  | none => 0

/-- The records of a request, as its loops count them. -/
def recordCount {W : Wire} {R : Type} (count : R → Nat) (request : List (ResourceRecords W R)) :
    Nat :=
  (request.map fun resource =>
    (resource.scopes.map fun scope => (scope.records.map count).sum).sum).sum

namespace Decoder

variable {W : Wire} (decode : Decoder W)

/-- The data points of a metric, each with its own result. -/
def intoPoints (metric : Metric W) : List (Except RecordRejection MetricPoint) :=
  match metric.data with
  | some (.gauge points) => points.map decode.numberPoint
  | some (.sum points _ _) => points.map decode.numberPoint
  | some (.histogram points _) => points.map decode.histogramPoint
  | some (.exponentialHistogram points _) => points.map decode.exponentialHistogramPoint
  | some (.summary points) => points.map decode.summaryPoint
  | none => []

/-- The envelope of one scope: its own failure first, then the resource's. -/
def envelope (resource : Except RecordRejection Resource) (scope : W.InstrumentationScope)
    (schemaUrl : String) : Except RecordRejection Envelope := do
  let scope ← decode.scope scope schemaUrl
  let resource ← resource
  return ⟨resource, scope⟩

/-- The records of a request in document order, each translated under its envelope. -/
def document {R T : Type} (record : R → Envelope → Except RecordRejection T)
    (request : List (ResourceRecords W R)) : List (Except RecordRejection T) :=
  request.flatMap fun resource =>
    let translated := decode.resource (resource.resource.getD W.defaultResource) resource.schemaUrl
    resource.scopes.flatMap fun scope =>
      let envelope := decode.envelope translated (scope.scope.getD W.defaultScope) scope.schemaUrl
      scope.records.map fun proto =>
        match envelope with
        | .ok envelope => record proto envelope
        | .error reason => .error reason

/-- The spans of a trace request. -/
def spans (request : List (ResourceRecords W W.Span)) : List (Except RecordRejection Span) :=
  decode.document decode.span request

/-- The records of a logs request. -/
def logs (request : List (ResourceRecords W W.LogRecord)) :
    List (Except RecordRejection LogRecord) :=
  decode.document decode.logRecord request

/-- The metrics of a metrics request: the resource's failure first, then the scope's. -/
def metrics (request : List (ResourceRecords W (Metric W))) : List WireMetric :=
  request.flatMap fun resource =>
    let translated := decode.resource (resource.resource.getD W.defaultResource) resource.schemaUrl
    resource.scopes.flatMap fun scope =>
      let instrumented := decode.scope (scope.scope.getD W.defaultScope) scope.schemaUrl
      scope.records.map fun metric =>
        { identity :=
            match translated, instrumented with
            | .ok resource, .ok scope => decode.streamIdentity metric ⟨resource, scope⟩
            | .error reason, _ => .error reason
            | _, .error reason => .error reason
          points := decode.intoPoints metric }

theorem length_intoPoints (metric : Metric W) :
    (decode.intoPoints metric).length = metric.pointCount := by
  unfold intoPoints Metric.pointCount
  split <;> simp

/-- The walk keeps a position for every record the export carries. -/
theorem length_document {R T : Type} (record : R → Envelope → Except RecordRejection T)
    (request : List (ResourceRecords W R)) :
    (decode.document record request).length = recordCount (fun _ => 1) request := by
  simp [document, recordCount, List.length_flatMap]

/-- And one for every data point. -/
theorem length_points (request : List (ResourceRecords W (Metric W))) :
    ((decode.metrics request).map (·.points.length)).sum =
      recordCount Metric.pointCount request := by
  have hsum : ∀ {α β : Type} (f : α → List β) (g : β → Nat) (l : List α),
      ((l.flatMap f).map g).sum = (l.map fun a => ((f a).map g).sum).sum := by
    intro α β f g l
    induction l with
    | nil => rfl
    | cons a l ih => simp [ih]
  simp only [metrics, recordCount, hsum, List.map_map, Function.comp_def, decode.length_intoPoints]

end Decoder

/-! ## What becomes of the records -/

/-- One translated record of an export. -/
inductive Delivered where
  | span (record : Span)
  | log (record : LogRecord)
  | point (stream : StreamIdentity) (point : MetricPoint)

/-- Whether a stored record is a delivered one: its payload, and for a point an equal stream. -/
def StoredRecord.Holds : StoredRecord → Delivered → Prop
  | .span record, .span delivered => record.val = delivered
  | .log record, .log delivered => record.val = delivered
  | .point stream record, .point delivered payload =>
    (stream == delivered) = true ∧ record.val = payload
  | _, _ => False

/-- The points of a metric, under its stream's own failure. -/
def WireMetric.records (metric : WireMetric) : List (Except RecordRejection Delivered) :=
  metric.points.map fun translated =>
    match metric.identity, translated with
    | .error reason, _ => .error reason
    | .ok _, .error reason => .error reason
    | .ok stream, .ok payload => .ok (.point stream payload)

/-- The records of an export in document order, each as translation left it. -/
def ExportCall.records : ExportCall → List (Except RecordRejection Delivered)
  | .spans _ payload =>
    match payload.decoded with
    | .ok request => request.map fun translated => translated.map .span
    | .error _ => []
  | .logs _ payload =>
    match payload.decoded with
    | .ok request => request.map fun translated => translated.map .log
    | .error _ => []
  | .metrics _ payload =>
    match payload.decoded with
    | .ok request => request.flatMap WireMetric.records
    | .error _ => []

/-- When an export is made. -/
def ExportCall.now : ExportCall → AdmissionTime
  | .spans now _ => now
  | .logs now _ => now
  | .metrics now _ => now

/-- **One entry for every record, in order, and one queued record for every admitted entry.**  A
record that failed translation is refused for that reason; a queued record carries the entity its
entry reports and the export's admission time. -/
inductive Handed (now : AdmissionTime) :
    List (Except RecordRejection Delivered) → List RecordOutcome → List QueuedRecord → Prop
  | nil : Handed now [] [] []
  | admitted {records outcomes queued} (delivered : Delivered) (entity : EntityId)
      (record : StoredRecord) (holds : record.Holds delivered)
      (rest : Handed now records outcomes queued) :
      Handed now (.ok delivered :: records) (.admitted entity :: outcomes)
        (⟨entity, now, record⟩ :: queued)
  | refused {records outcomes queued} (reason : RecordRejection)
      (rest : Handed now records outcomes queued) :
      Handed now (.error reason :: records) (.rejected reason :: outcomes) queued
  | turned {records outcomes queued} (delivered : Delivered) (outcome : RecordOutcome)
      (entered : ∀ entity, outcome ≠ .admitted entity)
      (rest : Handed now records outcomes queued) :
      Handed now (.ok delivered :: records) (outcome :: outcomes) queued

theorem Handed.append {now : AdmissionTime} {records records' : List (Except RecordRejection Delivered)}
    {outcomes outcomes' : List RecordOutcome} {queued queued' : List QueuedRecord}
    (h : Handed now records outcomes queued) (h' : Handed now records' outcomes' queued') :
    Handed now (records ++ records') (outcomes ++ outcomes') (queued ++ queued') := by
  induction h with
  | nil => exact h'
  | admitted delivered entity record holds rest ih => exact .admitted delivered entity record holds ih
  | refused reason rest ih => exact .refused reason ih
  | turned delivered outcome entered rest ih => exact .turned delivered outcome entered ih

/-- There are as many entries as records. -/
theorem Handed.length_eq {now : AdmissionTime} {records : List (Except RecordRejection Delivered)}
    {outcomes : List RecordOutcome} {queued : List QueuedRecord}
    (h : Handed now records outcomes queued) : outcomes.length = records.length := by
  induction h with
  | nil => rfl
  | admitted delivered entity record holds rest ih => simp [ih]
  | refused reason rest ih => simp [ih]
  | turned delivered outcome entered rest ih => simp [ih]

/-- What some records of an export added to its outcome and its offer-set. -/
def Adds (now : AdmissionTime) (x x' : Export) (records : List (Except RecordRejection Delivered)) :
    Prop :=
  ∃ outcomes queued, x'.records = x.records ++ outcomes ∧
    x'.pending.map (·.queued) = x.pending.map (·.queued) ++ queued ∧
    Handed now records outcomes queued

namespace Adds

variable {now : AdmissionTime} {x x' x'' : Export}
  {records records' : List (Except RecordRejection Delivered)}

theorem refl (now : AdmissionTime) (x : Export) : Adds now x x [] :=
  ⟨[], [], by simp, by simp, .nil⟩

theorem trans (h : Adds now x x' records) (h' : Adds now x' x'' records') :
    Adds now x x'' (records ++ records') := by
  obtain ⟨outcomes, queued, hrecords, hpending, hhanded⟩ := h
  obtain ⟨outcomes', queued', hrecords', hpending', hhanded'⟩ := h'
  refine ⟨outcomes ++ outcomes', queued ++ queued', ?_, ?_, hhanded.append hhanded'⟩
  · rw [hrecords', hrecords, List.append_assoc]
  · rw [hpending', hpending, List.append_assoc]

/-- The entry of a record that is not admitted reports no entity as admitted. -/
theorem ofAdmission_ne_admitted {outcome : AdmissionOutcome} (h : outcome.isAdmitted = false)
    (entity : EntityId) : RecordOutcome.ofAdmission outcome ≠ .admitted entity := by
  cases outcome with
  | admitted admitted => exact absurd h (by simp [AdmissionOutcome.isAdmitted])
  | _ => simp [RecordOutcome.ofAdmission]

/-- A record that is turned away by the ledger leaves its entry alone. -/
theorem turned {delivered : Delivered} {outcome : RecordOutcome}
    (hrecords : x'.records = x.records ++ [outcome]) (hpending : x'.pending = x.pending)
    (hentered : ∀ entity, outcome ≠ .admitted entity) : Adds now x x' [.ok delivered] :=
  ⟨[outcome], [], hrecords, by simp [hpending], .turned delivered outcome hentered .nil⟩

/-- A record the ledger admits leaves its entry and its offer. -/
theorem admitted {delivered : Delivered} {entity : EntityId} {record : StoredRecord}
    {fresh : Option StreamIdentity} (hrecords : x'.records = x.records ++ [.admitted entity])
    (hpending : x'.pending = x.pending ++ [⟨⟨entity, now, record⟩, fresh⟩])
    (hholds : record.Holds delivered) : Adds now x x' [.ok delivered] :=
  ⟨[.admitted entity], [⟨entity, now, record⟩], hrecords, by simp [hpending],
    .admitted delivered entity record hholds .nil⟩

/-- A record that failed translation is refused for that reason. -/
theorem note (now : AdmissionTime) (x : Export) (reason : RecordRejection) :
    Adds now x (x.note (.rejected reason)) [.error reason] :=
  ⟨[.rejected reason], [], rfl, by simp [Export.note], .refused reason .nil⟩

theorem admitSpan (now : AdmissionTime) (x : Export) (translated : Except RecordRejection Span) :
    Adds now x (x.admitSpan now translated) [translated.map .span] := by
  cases translated with
  | error reason => exact note now x reason
  | ok span =>
    change Adds now x _ [.ok (.span span)]
    generalize hr : x.ledger.admitSpan x.nextAddr span = r
    have hexit := x.ledger.admitSpan_exit x.nextAddr span
    rw [hr] at hexit
    simp only [Export.admitSpan, hr]
    cases hexit with
    | rejected rejection gate => exact turned rfl rfl (ofAdmission_ne_admitted rfl)
    | unnamed gate natural =>
      exact @admitted _ _ _ (.span span) _ (.span ⟨x.nextAddr, span⟩) none rfl rfl rfl
    | collapsed key standing first gate natural stands same => exact turned rfl rfl (ofAdmission_ne_admitted rfl)
    | conflict key standing first gate natural stands differs => exact turned rfl rfl (ofAdmission_ne_admitted rfl)
    | entered key gate natural absent =>
      exact @admitted _ _ _ (.span span) _ (.span ⟨x.nextAddr, span⟩) none rfl rfl rfl

theorem admitLog (now : AdmissionTime) (x : Export)
    (translated : Except RecordRejection LogRecord) :
    Adds now x (x.admitLog now translated) [translated.map .log] := by
  cases translated with
  | error reason => exact note now x reason
  | ok record =>
    change Adds now x _ [.ok (.log record)]
    simp only [Export.admitLog, AdmissionLedger.admitLogRecord]
    cases checkLogRecord record x.ledger.limits with
    | error rejection => exact turned rfl rfl (ofAdmission_ne_admitted rfl)
    | ok u => exact @admitted _ _ _ (.log record) _ (.log ⟨x.nextAddr, record⟩) none rfl rfl rfl

theorem admitPoint (now : AdmissionTime) (stream : StreamIdentity) (x : Export)
    (translated : Except RecordRejection MetricPoint) :
    Adds now x (x.admitPoint now stream translated) [translated.map (.point stream)] := by
  cases translated with
  | error reason => exact note now x reason
  | ok point =>
    change Adds now x _ [.ok (.point stream point)]
    generalize hr : x.ledger.admitMetricPoint x.nextAddr stream point = r
    have hexit := x.ledger.admitMetricPoint_exit x.nextAddr stream point
    rw [hr] at hexit
    simp only [Export.admitPoint, hr]
    cases hexit with
    | refused outcome gate =>
      rcases AdmissionLedger.refusal_of_gatePoint gate with ⟨error, rfl⟩ | ⟨rejection, rfl⟩
      · exact turned rfl rfl (ofAdmission_ne_admitted rfl)
      · exact turned rfl rfl (ofAdmission_ne_admitted rfl)
    | collapsed first standing gate stands described same => exact turned rfl rfl (ofAdmission_ne_admitted rfl)
    | conflict first standing gate stands described differs => exact turned rfl rfl (ofAdmission_ne_admitted rfl)
    | redescribed first standing gate stands described => exact turned rfl rfl (ofAdmission_ne_admitted rfl)
    | entered gate absent =>
      exact @admitted _ _ _ (.point stream point) _
        (.point (x.ledger.intern stream).2.1 ⟨x.nextAddr, point⟩) _ rfl rfl
        ⟨x.ledger.intern_beq stream, rfl⟩

/-- Record by record, whatever each adds. -/
theorem foldl {R : Type} {f : Export → R → Export}
    {translated : R → List (Except RecordRejection Delivered)}
    (step : ∀ x r, Adds now x (f x r) (translated r)) :
    ∀ (records : List R) (x : Export),
      Adds now x (records.foldl f x) (records.flatMap translated) := by
  intro records
  induction records with
  | nil => intro x; exact refl now x
  | cons r rest ih => intro x; exact (step x r).trans (ih (f x r))

/-- Record by record, each adding one entry. -/
theorem foldl_one {R : Type} {f : Export → R → Export}
    {translated : R → Except RecordRejection Delivered}
    (step : ∀ x r, Adds now x (f x r) [translated r]) (records : List R) (x : Export) :
    Adds now x (records.foldl f x) (records.map translated) := by
  rw [List.map_eq_flatMap]
  exact foldl step records x

theorem admitMetric (now : AdmissionTime) (x : Export) (metric : WireMetric) :
    Adds now x (x.admitMetric now metric) metric.records := by
  unfold Export.admitMetric WireMetric.records
  cases metric.identity with
  | error reason =>
    exact foldl_one (fun x _ => note now x reason) metric.points x
  | ok stream =>
    have hadmitted := foldl_one (fun x r => admitPoint now stream x r) metric.points x
    refine (congrArg (Adds now x _) (List.map_congr_left fun translated _ => ?_)).mp hadmitted
    cases translated with
    | error reason => rfl
    | ok point => rfl

end Adds

namespace Pipeline

/-- **What an export's admissions come to, up to the hand-off.** -/
theorem handed_admitCall {p : Pipeline} {c : ExportCall} {x : Export} (h : p.admitCall c = .ok x) :
    Handed c.now c.records x.records (x.pending.map (·.queued)) := by
  have hadds : Adds c.now p.openExport x c.records := by
    cases c with
    | spans now payload =>
      obtain ⟨request, hrequest, rfl⟩ := admitExport_eq_ok h
      rw [ExportCall.records, hrequest]
      exact Adds.foldl_one (fun x r => Adds.admitSpan now x r) request p.openExport
    | logs now payload =>
      obtain ⟨request, hrequest, rfl⟩ := admitExport_eq_ok h
      rw [ExportCall.records, hrequest]
      exact Adds.foldl_one (fun x r => Adds.admitLog now x r) request p.openExport
    | metrics now payload =>
      obtain ⟨request, hrequest, rfl⟩ := admitExport_eq_ok h
      rw [ExportCall.records, hrequest]
      exact Adds.foldl (fun x m => Adds.admitMetric now x m) request p.openExport
  obtain ⟨outcomes, queued, hrecords, hpending, hhanded⟩ := hadds
  rw [hrecords, hpending]
  exact hhanded

end Pipeline

end RuntimeTrail
