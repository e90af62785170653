import RuntimeTrail.Ingestion.Document
import RuntimeTrail.Ingestion.Otlp
import RuntimeTrail.Library.Delimited

/-!
# OTLP to model translation

The only place where a wire message becomes telemetry.  Where the model has an
option and the wire has a plain scalar, the wire's zero value reads as absent;
where the wire can express presence, presence is kept.  A message the model cannot
carry is refused, and the refusal names what it could not carry.

* **values** — `wireValue`, `keyValue`, `attributes`: homogeneity and key uniqueness
  are the model's own laws, checked at construction;
* **ids** — one rule for an id that may be absent (`presentId`) and one for an id
  whose absence is the all-zero encoding (`zeroedId`);
* **records** — `span`, `logRecord`, `streamIdentity` and the four point shapes, each
  refused by the first field that fails, in the source's order;
* **the request** — `otlp` and `otlpDecoder` instantiate the walk over a document.
-/

namespace RuntimeTrail

open Library

/-! ## The model's own laws -/

/-- The item that breaks homogeneity, counting on from `index`. -/
def HomogeneousArray.scan (firstKind : ValueKind) : Nat → List Value → Except MixedKindArray Unit
  | _, [] => .ok ()
  | index, item :: rest =>
    if item.kind ≠ firstKind then .error ⟨firstKind, index, item.kind⟩
    else scan firstKind (index + 1) rest

/-- A homogeneous array, or the item that makes it a mixed one. -/
def HomogeneousArray.tryFromItems (items : List Value) : Except MixedKindArray (List Value) :=
  match items with
  | [] => .ok items
  | first :: rest => do
    HomogeneousArray.scan first.kind 1 rest
    return items

/-- The first key met twice. -/
def KeyValueList.scan : List String → List (String × Value) → Except DuplicateKey Unit
  | _, [] => .ok ()
  | seen, (key, _) :: rest =>
    if key ∈ seen then .error ⟨key⟩ else scan (key :: seen) rest

/-- A key-value list in the emitter's order, or the key it repeats. -/
def KeyValueList.new (entries : List (String × Value)) :
    Except DuplicateKey (List (String × Value)) := do
  KeyValueList.scan [] entries
  return entries

/-- Builds an array value, rejecting a mixed-kind array. -/
def Value.tryArray (items : List Value) : Except MixedKindArray Value := do
  let items ← HomogeneousArray.tryFromItems items
  return .array items

/-- Builds a key-value list value, rejecting a repeated key. -/
def Value.tryKvList (entries : List (String × Value)) : Except DuplicateKey Value := do
  let entries ← KeyValueList.new entries
  return .kvList entries

/-- Wraps a severity number the emitter sent. -/
def SeverityNumber.tryNew (number : Nat) : Except SeverityOutOfRange SeverityNumber :=
  if h : 1 ≤ number ∧ number ≤ 24 then .ok ⟨number, h⟩ else .error ⟨number⟩

namespace Decode

/-- A refusal of what the model has no slot for. -/
def unrepresentable {T : Type} (error : Unrepresentable) : Except RecordRejection T :=
  .error (.unrepresentable error)

/-! ## Values -/

/-- The field name a keyless attribute refuses under. -/
def keyField (field : String) : String :=
  match field with
  | "resource attribute" => "resource attribute key"
  | "scope attribute" => "scope attribute key"
  | "span attribute" => "span attribute key"
  | "span event attribute" => "span event attribute key"
  | "span link attribute" => "span link attribute key"
  | "log attribute" => "log attribute key"
  | "metric metadata" => "metric metadata key"
  | "data point attribute" => "data point attribute key"
  | "exemplar filtered attribute" => "exemplar filtered attribute key"
  | other => other

mutual

/-- A value whose message was sent; an unset one, or a Profiling string-table reference, carries
nothing. -/
def wireAny (field : String) : Otlp.AnyValue → Except RecordRejection Value
  | .stringValue text => .ok (.string text)
  | .boolValue flag => .ok (.bool flag)
  | .intValue integer => .ok (.int integer)
  | .doubleValue double => .ok (.double (Float.new double))
  | .bytesValue payload => .ok (.bytes payload)
  | .arrayValue values => do
    let items ← wireItems field values
    (Value.tryArray items).mapError .mixedKindArray
  | .kvlistValue values => do
    let entries ← keyValues field values
    (Value.tryKvList entries).mapError .duplicateKey
  | .stringValueStrindex _ => unrepresentable (.missingValue field)
  | .unset => unrepresentable (.missingValue field)

/-- The items of an array, in order. -/
def wireItems (field : String) : List Otlp.AnyValue → Except RecordRejection (List Value)
  | [] => .ok []
  | item :: rest => do
    let item ← wireAny field item
    let rest ← wireItems field rest
    return item :: rest

/-- Wire `AnyValue` to the model's value union. -/
def wireValue (field : String) : Option Otlp.AnyValue → Except RecordRejection Value
  | none => unrepresentable (.missingValue field)
  | some any => wireAny field any

/-- One wire `KeyValue` to one model entry: a key that is only a string-table reference is
missing. -/
def keyValue (field : String) : Otlp.KeyValue → Except RecordRejection (String × Value)
  | .mk key value keyStrindex =>
    if keyStrindex ≠ 0 then unrepresentable (.missingValue (keyField field))
    else do
      let value ← wireValue field value
      return (key, value)

/-- The entries of a key-value list, in order. -/
def keyValues (field : String) : List Otlp.KeyValue → Except RecordRejection (List (String × Value))
  | [] => .ok []
  | kv :: rest => do
    let entry ← keyValue field kv
    let rest ← keyValues field rest
    return entry :: rest

end

/-- The count budget one field's attribute set is held to. -/
def attributeCountBudget (field : String) (limits : BudgetLimits) : BudgetName × Nat :=
  match field with
  | "span event attribute" | "span link attribute" | "exemplar filtered attribute" =>
    (.attributesPerNestedSet, limits.attributesPerNestedSet)
  | _ => (.attributesPerSignal, limits.attributesPerSignal)

/-- Wire `KeyValue`s to the model's attribute map: the count budget is consulted before any
conversion. -/
def attributes (pairs : List Otlp.KeyValue) (field : String) (limits : BudgetLimits) :
    Except RecordRejection Attributes :=
  let (budget, limit) := attributeCountBudget field limits
  let observed := pairs.length
  if observed > limit then .error (.budget ⟨budget, limit, observed⟩)
  else do
    let converted ← pairs.mapM (keyValue field)
    (Attributes.fromPairs converted).mapError .duplicateKey

/-- A proto3 string: empty is absent. -/
def presentString (text : String) : Option String := if text.isEmpty then none else some text

/-- A proto3 scalar: zero is absent. -/
def nonZero (scalar : Nat) : Option Nat := if scalar ≠ 0 then some scalar else none

/-! ## Resources and scopes -/

/-- Translates one `Resource` message with its envelope's `schemaUrl`. -/
def resource (resource : Otlp.Resource) (schemaUrl : String) (limits : BudgetLimits) :
    Except RecordRejection Resource :=
  if !resource.entityRefs.isEmpty then unrepresentable .unsupportedEntityRefs
  else do
    let attributes ← attributes resource.attributes "resource attribute" limits
    return { attributes := attributes
             schemaUrl := presentString schemaUrl
             droppedAttributesCount := resource.droppedAttributesCount }

/-- Translates one `InstrumentationScope` message with its envelope's `schemaUrl`. -/
def scope (scope : Otlp.InstrumentationScope) (schemaUrl : String) (limits : BudgetLimits) :
    Except RecordRejection InstrumentationScope := do
  let attributes ← attributes scope.attributes "scope attribute" limits
  return { name := scope.name
           version := presentString scope.version
           attributes := attributes
           schemaUrl := presentString schemaUrl
           droppedAttributesCount := scope.droppedAttributesCount }

/-! ## Ids -/

/-- A trace id the wire sent in full. -/
def wireTraceId (bytes : List UInt8) (field : String) : Except RecordRejection TraceId :=
  if h : bytes.length = TraceId.length then .ok ⟨bytes, h⟩
  else unrepresentable (.idLength field TraceId.length bytes.length)

/-- A span id the wire sent in full. -/
def wireSpanId (bytes : List UInt8) (field : String) : Except RecordRejection SpanId :=
  if h : bytes.length = SpanId.length then .ok ⟨bytes, h⟩
  else unrepresentable (.idLength field SpanId.length bytes.length)

/-- An id whose absence is one encoding of it. -/
def zeroedId {Id : Type} (zero : Id) (wire : List UInt8 → String → Except RecordRejection Id)
    (field : String) (bytes : List UInt8) : Except RecordRejection Id :=
  if bytes.isEmpty then .ok zero else wire bytes field

/-- An id whose presence the length carries. -/
def presentId {Id : Type} (wire : List UInt8 → String → Except RecordRejection Id)
    (field : String) (bytes : List UInt8) : Except RecordRejection (Option Id) :=
  if bytes.isEmpty then .ok none else (wire bytes field).map some

/-- A span's or a link's trace id. -/
def spanTraceId : List UInt8 → Except RecordRejection TraceId :=
  zeroedId (.ofByte 0) wireTraceId "span trace_id"

/-- A span's or a link's span id. -/
def spanSpanId : List UInt8 → Except RecordRejection SpanId :=
  zeroedId (.ofByte 0) wireSpanId "span span_id"

/-- A log record's or an exemplar's trace id. -/
def optionalTraceId : List UInt8 → Except RecordRejection (Option TraceId) :=
  presentId wireTraceId "log trace_id"

/-- A log record's or an exemplar's span id. -/
def optionalSpanId : List UInt8 → Except RecordRejection (Option SpanId) :=
  presentId wireSpanId "log span_id"

/-- A parent span id: an absent one is a root span's. -/
def parentSpanId : List UInt8 → Except RecordRejection (Option SpanId) :=
  presentId wireSpanId "span parent_span_id"

/-! ## The trace state -/

/-- The Unicode `White_Space` characters. -/
def isWhitespace (c : Char) : Bool :=
  let n := c.toNat
  (0x9 ≤ n && n ≤ 0xD) || n == 0x20 || n == 0x85 || n == 0xA0 || n == 0x1680 ||
    (0x2000 ≤ n && n ≤ 0x200A) || n == 0x2028 || n == 0x2029 || n == 0x202F || n == 0x205F ||
    n == 0x3000

def maxMembers : Nat := 32

def maxBytes : Nat := 512

/-- One list member: a vendor and a value around the first `=`, both trimmed. -/
def traceStateEntry (member : List Char) : Except RecordRejection TraceStateEntry :=
  match splitOnce '=' member with
  | none => unrepresentable (.traceState (String.ofList member))
  | some (vendor, value) =>
    .ok ⟨String.ofList (trim isWhitespace vendor), String.ofList (trim isWhitespace value)⟩

/-- The W3C `trace_state` string to the ordered entries; the caps come before any entry, the byte
cap first. -/
def traceState (raw : String) : Except RecordRejection TraceState :=
  if raw.isEmpty then .ok ⟨[]⟩
  else
    let bytes := raw.utf8ByteSize
    let members := raw.toList.splitOn ','
    if bytes > maxBytes then unrepresentable (.traceStateOverCap members.length bytes)
    else if members.length > maxMembers then
      unrepresentable (.traceStateOverCap members.length bytes)
    else do
      let entries ← members.mapM traceStateEntry
      return ⟨entries⟩

/-! ## Enumerations -/

/-- Span kinds: an unknown value is refused. -/
def spanKind (value : Int) : Except RecordRejection SpanKind :=
  match value with
  | 0 => .ok .unspecified
  | 1 => .ok .internal
  | 2 => .ok .server
  | 3 => .ok .client
  | 4 => .ok .producer
  | 5 => .ok .consumer
  | other => unrepresentable (.unknownEnumValue "span kind" other)

def statusCode (value : Int) : Except RecordRejection SpanStatusCode :=
  match value with
  | 0 => .ok .unset
  | 1 => .ok .ok
  | 2 => .ok .error
  | other => unrepresentable (.unknownEnumValue "status code" other)

/-- Aggregation temporality: unspecified reads as absent. -/
def temporality (value : Int) : Except RecordRejection (Option Temporality) :=
  match value with
  | 0 => .ok none
  | 1 => .ok (some .delta)
  | 2 => .ok (some .cumulative)
  | other => unrepresentable (.unknownEnumValue "aggregation_temporality" other)

/-- A log severity number: a value no byte holds is an unknown one, and a byte outside the domain
is refused with the value it carried. -/
def severityNumber (value : Int) : Except RecordRejection (Option SeverityNumber) :=
  if value = 0 then .ok none
  else if 0 ≤ value ∧ value ≤ 255 then
    ((SeverityNumber.tryNew value.toNat).map some).mapError .severity
  else unrepresentable (.unknownEnumValue "severity_number" value)

/-! ## Spans -/

/-- The trace context of a span or a link. -/
def traceContext (traceId spanId : List UInt8) (flags : Nat) (tracestate : String) :
    Except RecordRejection TraceContext := do
  let traceId ← spanTraceId traceId
  let spanId ← spanSpanId spanId
  let tracestate ← traceState tracestate
  return ⟨traceId, spanId, ⟨flags⟩, tracestate⟩

def spanEvent (limits : BudgetLimits) (event : Otlp.Event) : Except RecordRejection SpanEvent := do
  let attributes ← attributes event.attributes "span event attribute" limits
  return { timeUnixNano := nonZero event.timeUnixNano
           name := event.name
           attributes := attributes
           droppedAttributeCount := event.droppedAttributesCount }

def spanLink (limits : BudgetLimits) (link : Otlp.Link) : Except RecordRejection SpanLink := do
  let context ← traceContext link.traceId link.spanId link.flags link.traceState
  let attributes ← attributes link.attributes "span link attribute" limits
  return { context := context
           attributes := attributes
           droppedAttributeCount := link.droppedAttributesCount }

/-- A span, translated verbatim: events and links in emitter order, the two-field status, the
dropped counts, the envelope's resource and scope. -/
def span (proto : Otlp.Span) (envelope : Envelope) (limits : BudgetLimits) :
    Except RecordRejection Span := do
  let status := proto.status.getD .default
  let context ← traceContext proto.traceId proto.spanId proto.flags proto.traceState
  let parentSpanId ← parentSpanId proto.parentSpanId
  let kind ← spanKind proto.kind
  let attributes ← attributes proto.attributes "span attribute" limits
  let events ← proto.events.mapM (spanEvent limits)
  let links ← proto.links.mapM (spanLink limits)
  let code ← statusCode status.code
  return { context := context
           parentSpanId := parentSpanId
           name := proto.name
           kind := kind
           startTimeUnixNano := proto.startTimeUnixNano
           endTimeUnixNano := nonZero proto.endTimeUnixNano
           resource := envelope.resource
           scope := envelope.scope
           attributes := attributes
           emitterDropped :=
             ⟨proto.droppedAttributesCount, proto.droppedEventsCount, proto.droppedLinksCount⟩
           events := events
           links := links
           status := ⟨code, status.message⟩ }

/-! ## Log records -/

/-- A body: one whose value was not sent is no body. -/
def logBody : Option Otlp.AnyValue → Except RecordRejection (Option Value)
  | none => .ok none
  | some .unset => .ok none
  | some any => (wireValue "log body" (some any)).map some

/-- A log record, translated verbatim. -/
def logRecord (proto : Otlp.LogRecord) (envelope : Envelope) (limits : BudgetLimits) :
    Except RecordRejection LogRecord := do
  let severityNumber ← severityNumber proto.severityNumber
  let body ← logBody proto.body
  let attributes ← attributes proto.attributes "log attribute" limits
  let traceId ← optionalTraceId proto.traceId
  let spanId ← optionalSpanId proto.spanId
  return { timestampUnixNano := nonZero proto.timeUnixNano
           observedTimestampUnixNano := nonZero proto.observedTimeUnixNano
           severityNumber := severityNumber
           severityText := presentString proto.severityText
           body := body
           resource := envelope.resource
           scope := envelope.scope
           attributes := attributes
           droppedAttributeCount := proto.droppedAttributesCount
           traceId := traceId
           spanId := spanId
           traceFlags := (nonZero proto.flags).map TraceFlags.mk
           eventName := presentString proto.eventName }

/-! ## Data points -/

/-- A number that must be there; `field` names what is missing. -/
def metricNumber (field : String) :
    Option Otlp.NumberValue → Except RecordRejection MetricNumber
  | some (.asDouble double) => .ok (.double (Float.new double))
  | some (.asInt integer) => .ok (.int integer)
  | none => unrepresentable (.missingValue field)

def exemplar (limits : BudgetLimits) (exemplar : Otlp.Exemplar) :
    Except RecordRejection Exemplar := do
  let value ← metricNumber "exemplar value" exemplar.value
  let filteredAttributes ←
    attributes exemplar.filteredAttributes "exemplar filtered attribute" limits
  let traceId ← optionalTraceId exemplar.traceId
  let spanId ← optionalSpanId exemplar.spanId
  return { value := value
           timeUnixNano := exemplar.timeUnixNano
           filteredAttributes := filteredAttributes
           traceId := traceId
           spanId := spanId }

def exemplars (proto : List Otlp.Exemplar) (limits : BudgetLimits) :
    Except RecordRejection (List Exemplar) :=
  proto.mapM (exemplar limits)

/-- Interval kinds require a start time; `field` names the one that is missing. -/
def requireStartTime (field : String) (startTimeUnixNano : Nat) : Except RecordRejection Nat :=
  if startTimeUnixNano = 0 then unrepresentable (.missingValue field) else .ok startTimeUnixNano

def numberPoint (proto : Otlp.NumberDataPoint) (limits : BudgetLimits) :
    Except RecordRejection MetricPoint := do
  let value ← metricNumber "data point value" proto.value
  let attributes ← attributes proto.attributes "data point attribute" limits
  let exemplars ← exemplars proto.exemplars limits
  return .number
    { attributes := attributes
      startTimeUnixNano := nonZero proto.startTimeUnixNano
      timeUnixNano := proto.timeUnixNano
      value := value
      flags := proto.flags
      exemplars := exemplars }

def histogramPoint (proto : Otlp.HistogramDataPoint) (limits : BudgetLimits) :
    Except RecordRejection MetricPoint := do
  let startTimeUnixNano ←
    requireStartTime "histogram start_time_unix_nano" proto.startTimeUnixNano
  let attributes ← attributes proto.attributes "data point attribute" limits
  let exemplars ← exemplars proto.exemplars limits
  return .histogram
    { attributes := attributes
      startTimeUnixNano := startTimeUnixNano
      timeUnixNano := proto.timeUnixNano
      count := proto.count
      sum := proto.sum.map Float.new
      bucketCounts := proto.bucketCounts
      explicitBounds := proto.explicitBounds.map Float.new
      min := proto.min.map Float.new
      max := proto.max.map Float.new
      flags := proto.flags
      exemplars := exemplars }

/-- One bucket layout; an absent one is the empty layout at offset zero. -/
def exponentialBuckets : Option Otlp.Buckets → ExponentialBuckets
  | none => ⟨0, []⟩
  | some buckets => ⟨buckets.offset, buckets.bucketCounts⟩

def exponentialHistogramPoint (proto : Otlp.ExponentialHistogramDataPoint)
    (limits : BudgetLimits) : Except RecordRejection MetricPoint := do
  let startTimeUnixNano ←
    requireStartTime "exponential histogram start_time_unix_nano" proto.startTimeUnixNano
  let attributes ← attributes proto.attributes "data point attribute" limits
  let exemplars ← exemplars proto.exemplars limits
  return .exponentialHistogram
    { attributes := attributes
      startTimeUnixNano := startTimeUnixNano
      timeUnixNano := proto.timeUnixNano
      count := proto.count
      sum := proto.sum.map Float.new
      scale := proto.scale
      zeroCount := proto.zeroCount
      zeroThreshold := Float.new proto.zeroThreshold
      positive := exponentialBuckets proto.positive
      negative := exponentialBuckets proto.negative
      min := proto.min.map Float.new
      max := proto.max.map Float.new
      flags := proto.flags
      exemplars := exemplars }

/-- A summary's sum: positive zero is what an unset double reads as, negative zero is a value. -/
def summarySum (sum : F64) : Option Float :=
  if sum.isNonZero || sum.isSignNegative then some (Float.new sum) else none

def quantileValue (quantile : Otlp.ValueAtQuantile) : QuantileValue :=
  ⟨Float.new quantile.quantile, Float.new quantile.value⟩

/-- The summary shape carries no exemplars on the wire. -/
def summaryPoint (proto : Otlp.SummaryDataPoint) (limits : BudgetLimits) :
    Except RecordRejection MetricPoint := do
  let startTimeUnixNano ← requireStartTime "summary start_time_unix_nano" proto.startTimeUnixNano
  let attributes ← attributes proto.attributes "data point attribute" limits
  return .summary
    { attributes := attributes
      startTimeUnixNano := startTimeUnixNano
      timeUnixNano := proto.timeUnixNano
      count := proto.count
      sum := summarySum proto.sum
      quantiles := proto.quantileValues.map quantileValue
      flags := proto.flags
      exemplars := [] }

end Decode

/-! ## The request -/

/-- The wire messages of OTLP. -/
@[reducible] def otlp : Wire where
  Resource := Otlp.Resource
  InstrumentationScope := Otlp.InstrumentationScope
  Span := Otlp.Span
  LogRecord := Otlp.LogRecord
  Descriptor := Otlp.Descriptor
  NumberDataPoint := Otlp.NumberDataPoint
  HistogramDataPoint := Otlp.HistogramDataPoint
  ExponentialHistogramDataPoint := Otlp.ExponentialHistogramDataPoint
  SummaryDataPoint := Otlp.SummaryDataPoint
  defaultResource := .default
  defaultScope := .default

namespace Decode

/-- The kind and the temporality a metric's data declares. -/
def streamKind (data : Option (MetricData otlp)) :
    Except RecordRejection (StreamKind × Option Temporality) :=
  match data with
  | some (.gauge _) => .ok (.gauge, none)
  | some (.sum _ aggregationTemporality isMonotonic) =>
    (temporality aggregationTemporality).map fun declared => (.sum isMonotonic, declared)
  | some (.histogram _ aggregationTemporality) =>
    (temporality aggregationTemporality).map fun declared => (.histogram, declared)
  | some (.exponentialHistogram _ aggregationTemporality) =>
    (temporality aggregationTemporality).map fun declared => (.exponentialHistogram, declared)
  | some (.summary _) => .ok (.summary, none)
  | none => unrepresentable .emptyMetric

/-- One metric stream's identity: the descriptor verbatim, the metadata as an attribute map, the
envelope, and the kind and temporality the data declares. -/
def streamIdentity (proto : Metric otlp) (envelope : Envelope) (limits : BudgetLimits) :
    Except RecordRejection StreamIdentity := do
  let (kind, temporality) ← streamKind proto.data
  let metadata ← attributes proto.descriptor.metadata "metric metadata" limits
  return { resource := envelope.resource
           scope := envelope.scope
           name := proto.descriptor.name
           description := presentString proto.descriptor.description
           unit := presentString proto.descriptor.unit
           metadata := metadata
           kind := kind
           temporality := temporality }

end Decode

/-- The translation of each OTLP message under a session's limits. -/
@[reducible] def otlpDecoder (limits : BudgetLimits) : Decoder otlp where
  resource resource schemaUrl := Decode.resource resource schemaUrl limits
  scope scope schemaUrl := Decode.scope scope schemaUrl limits
  span proto envelope := Decode.span proto envelope limits
  logRecord proto envelope := Decode.logRecord proto envelope limits
  streamIdentity proto envelope := Decode.streamIdentity proto envelope limits
  numberPoint proto := Decode.numberPoint proto limits
  histogramPoint proto := Decode.histogramPoint proto limits
  exponentialHistogramPoint proto := Decode.exponentialHistogramPoint proto limits
  summaryPoint proto := Decode.summaryPoint proto limits

end RuntimeTrail
