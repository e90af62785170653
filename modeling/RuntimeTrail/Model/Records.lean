import RuntimeTrail.Model.Metrics

/-!
# Spans, log records, and the ids admission gives them

A span whose trace id and span id are both valid has a natural identity; a log
record has none.  Entity ids, admission times and the admitted wrapper are the
metadata the runtime adds beside a record, never inside it.

* **span equality** — `Span.beq_iff`: derived field by field, so it inherits the
  resource's attribute-map equality;
* **the admission time** is the caller's nanosecond reading; the model owns no
  clock.
-/

namespace RuntimeTrail

open Library

/-! ## Spans -/

/-- The span kind: all six OTLP values. -/
inductive SpanKind where
  | unspecified
  | internal
  | server
  | client
  | producer
  | consumer
deriving DecidableEq

/-- The status code: unset, ok, or error. -/
inductive SpanStatusCode where
  | unset
  | ok
  | error
deriving DecidableEq

/-- The two status fields, both preserved. -/
structure SpanStatus where
  code : SpanStatusCode
  message : String
deriving DecidableEq

/-- The loss the emitter itself reported. -/
structure EmitterDroppedCounts where
  attributes : Nat
  events : Nat
  links : Nat
deriving DecidableEq

/-- One span event. -/
structure SpanEvent where
  timeUnixNano : Option Nat
  name : String
  attributes : Attributes
  droppedAttributeCount : Nat
deriving DecidableEq

/-- One span link: the linked trace context and its attributes. -/
structure SpanLink where
  context : TraceContext
  attributes : Attributes
  droppedAttributeCount : Nat
deriving DecidableEq

/-- A span, exactly as the emitter sent it. -/
structure Span where
  context : TraceContext
  parentSpanId : Option SpanId
  name : String
  kind : SpanKind
  startTimeUnixNano : Nat
  endTimeUnixNano : Option Nat
  resource : Resource
  scope : InstrumentationScope
  attributes : Attributes
  emitterDropped : EmitterDroppedCounts
  events : List SpanEvent
  links : List SpanLink
  status : SpanStatus

namespace Span

/-- The natural identity: `(traceId, spanId)` when both ids are valid. -/
def naturalIdentity (span : Span) : Option (TraceId × SpanId) :=
  if span.context.traceId.isValid && span.context.spanId.isValid then
    some (span.context.traceId, span.context.spanId)
  else none

/-- What the derived equality reads of a span: everything but its resource's metadata. -/
def content (s : Span) : (TraceContext × Option SpanId × String × SpanKind × Nat × Option Nat) ×
    Attributes × InstrumentationScope × Attributes × EmitterDroppedCounts × List SpanEvent ×
    List SpanLink × SpanStatus :=
  ((s.context, s.parentSpanId, s.name, s.kind, s.startTimeUnixNano, s.endTimeUnixNano),
    s.resource.attributes, s.scope, s.attributes, s.emitterDropped, s.events, s.links, s.status)

/-- The derived equality: every field, the resource by its attribute map. -/
instance : BEq Span :=
  ⟨fun a b => decide (a.context = b.context) && decide (a.parentSpanId = b.parentSpanId) &&
    a.name == b.name && decide (a.kind = b.kind) && a.startTimeUnixNano == b.startTimeUnixNano &&
    a.endTimeUnixNano == b.endTimeUnixNano && a.resource == b.resource &&
    decide (a.scope = b.scope) && decide (a.attributes = b.attributes) &&
    decide (a.emitterDropped = b.emitterDropped) && decide (a.events = b.events) &&
    decide (a.links = b.links) && decide (a.status = b.status)⟩

theorem beq_iff (a b : Span) : (a == b) = true ↔ a.content = b.content := by
  change (decide (a.context = b.context) && decide (a.parentSpanId = b.parentSpanId) &&
    a.name == b.name && decide (a.kind = b.kind) && a.startTimeUnixNano == b.startTimeUnixNano &&
    a.endTimeUnixNano == b.endTimeUnixNano && a.resource == b.resource &&
    decide (a.scope = b.scope) && decide (a.attributes = b.attributes) &&
    decide (a.emitterDropped = b.emitterDropped) && decide (a.events = b.events) &&
    decide (a.links = b.links) && decide (a.status = b.status)) = true ↔ _
  simp only [Bool.and_eq_true, Resource.beq_iff, decide_eq_true_eq, beq_iff_eq, content,
    Prod.mk.injEq, and_assoc]

instance : EquivBEq Span := equivBEq_of_key content beq_iff

end Span

/-! ## Log records -/

/-- A severity number: the integer 1–24 the emitter sent. -/
structure SeverityNumber where
  number : Nat
  inDomain : 1 ≤ number ∧ number ≤ 24
deriving DecidableEq

/-- One log record, exactly as the emitter sent it. -/
structure LogRecord where
  timestampUnixNano : Option Nat
  observedTimestampUnixNano : Option Nat
  severityNumber : Option SeverityNumber
  severityText : Option String
  body : Option Value
  resource : Resource
  scope : InstrumentationScope
  attributes : Attributes
  droppedAttributeCount : Nat
  traceId : Option TraceId
  spanId : Option SpanId
  traceFlags : Option TraceFlags
  eventName : Option String

/-- The correlation pair, only when both ids are present. -/
def LogRecord.correlationPair (record : LogRecord) : Option (TraceId × SpanId) :=
  match record.traceId, record.spanId with
  | some traceId, some spanId => some (traceId, spanId)
  | _, _ => none

/-! ## Admission metadata -/

/-- One admission-assigned serial; serials start at one. -/
structure AssignedId where
  serial : Nat
deriving DecidableEq

/-- An entity id: a span's natural identity, or a serial admission assigned. -/
inductive EntityId where
  | span (traceId : TraceId) (spanId : SpanId)
  | assigned (id : AssignedId)
deriving DecidableEq

/-- The runtime's own admission time, in nanoseconds on the runtime's clock. -/
structure AdmissionTime where
  unixNano : Nat
deriving DecidableEq

/-- A record as admitted: its entity id, its admission time, and the record untouched. -/
structure Admitted (R : Type) where
  entity : EntityId
  admittedAt : AdmissionTime
  record : R

/-! ## Bare records

The smallest record of each kind: no attribute, no event, no descriptor. -/

/-- The trace id that repeats one byte. -/
def TraceId.ofByte (b : UInt8) : TraceId := ⟨List.replicate 16 b, by simp⟩

/-- The span id that repeats one byte. -/
def SpanId.ofByte (b : UInt8) : SpanId := ⟨List.replicate 8 b, by simp⟩

def Resource.bare (schemaUrl : Option String) : Resource := ⟨Attributes.default, schemaUrl, 0⟩

def InstrumentationScope.bare : InstrumentationScope := ⟨"", none, Attributes.default, none, 0⟩

/-- A root span of a trace, with ids that repeat one byte each. -/
def Span.bare (trace span : UInt8) : Span where
  context := ⟨.ofByte trace, .ofByte span, ⟨1⟩, ⟨[]⟩⟩
  parentSpanId := none
  name := "op"
  kind := .server
  startTimeUnixNano := 10
  endTimeUnixNano := some 20
  resource := .bare none
  scope := .bare
  attributes := Attributes.default
  emitterDropped := ⟨0, 0, 0⟩
  events := []
  links := []
  status := ⟨.unset, ""⟩

def LogRecord.bare (traceId : Option TraceId) (body : Option Value) : LogRecord where
  timestampUnixNano := some 1
  observedTimestampUnixNano := some 2
  severityNumber := none
  severityText := none
  body := body
  resource := .bare none
  scope := .bare
  attributes := Attributes.default
  droppedAttributeCount := 0
  traceId := traceId
  spanId := none
  traceFlags := none
  eventName := none

/-- A gauge stream with no descriptor, under the bare resource carrying this `schemaUrl`. -/
def StreamIdentity.bare (name : String) (schemaUrl : Option String) : StreamIdentity where
  resource := .bare schemaUrl
  scope := .bare
  name := name
  description := none
  unit := none
  metadata := Attributes.default
  kind := .gauge
  temporality := none

/-- A gauge measurement of zero. -/
def MetricPoint.bare (timeUnixNano : Nat) : MetricPoint :=
  .number ⟨Attributes.default, none, timeUnixNano, .int 0, 0, []⟩

/-- The entity id of an assigned serial. -/
def EntityId.serial (n : Nat) : EntityId := .assigned ⟨n⟩

end RuntimeTrail
