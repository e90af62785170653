import RuntimeTrail.Model.Records

/-!
# The wire messages

OTLP messages as the protobuf decoder hands them over.  A proto3 scalar or string
that was not sent reads as its zero value; a message field and a `oneof` keep their
presence.  `AnyValue.unset` is an `AnyValue` whose `oneof` was not sent.
-/

namespace RuntimeTrail

/-- A wire double, by its IEEE-754 bit pattern. -/
structure F64 where
  bits : Nat
deriving DecidableEq

namespace F64

/-- `value != 0.0`: false of the two zeros only. -/
def isNonZero (value : F64) : Bool := value.bits ≠ 0 && value.bits ≠ 2 ^ 63

/-- The sign bit. -/
def isSignNegative (value : F64) : Bool := value.bits / 2 ^ 63 % 2 = 1

end F64

/-- Wraps a raw double verbatim. -/
def Float.new (value : F64) : Float := ⟨value.bits⟩

/-- The wrapped double, exactly as wrapped. -/
def Float.get (value : Float) : F64 := ⟨value.bits⟩

@[simp] theorem Float.get_new (value : F64) : (Float.new value).get = value := rfl

namespace Otlp

/-! ## Common messages -/

mutual

/-- One value; its `oneof` may be unset. -/
inductive AnyValue where
  | unset
  | stringValue (text : String)
  | boolValue (flag : Bool)
  | intValue (number : Int)
  | doubleValue (number : F64)
  | arrayValue (values : List AnyValue)
  | kvlistValue (values : List KeyValue)
  | bytesValue (payload : List UInt8)
  | stringValueStrindex (index : Int)

/-- One keyed value. -/
inductive KeyValue where
  | mk (key : String) (value : Option AnyValue) (keyStrindex : Int)

end

/-- The key as sent. -/
def KeyValue.key : KeyValue → String
  | .mk key _ _ => key

/-- A reference from a resource to an entity. -/
structure EntityRef where
  schemaUrl : String
  type : String
  idKeys : List String
  descriptionKeys : List String

structure Resource where
  attributes : List KeyValue
  droppedAttributesCount : Nat
  entityRefs : List EntityRef

/-- What an absent resource reads as. -/
def Resource.default : Resource := ⟨[], 0, []⟩

structure InstrumentationScope where
  name : String
  version : String
  attributes : List KeyValue
  droppedAttributesCount : Nat

/-- What an absent scope reads as. -/
def InstrumentationScope.default : InstrumentationScope := ⟨"", "", [], 0⟩

/-! ## Traces -/

/-- One span event. -/
structure Event where
  timeUnixNano : Nat
  name : String
  attributes : List KeyValue
  droppedAttributesCount : Nat

/-- One span link. -/
structure Link where
  traceId : List UInt8
  spanId : List UInt8
  traceState : String
  attributes : List KeyValue
  droppedAttributesCount : Nat
  flags : Nat

structure Status where
  message : String
  code : Int

/-- What an absent status reads as. -/
def Status.default : Status := ⟨"", 0⟩

structure Span where
  traceId : List UInt8
  spanId : List UInt8
  traceState : String
  parentSpanId : List UInt8
  flags : Nat
  name : String
  kind : Int
  startTimeUnixNano : Nat
  endTimeUnixNano : Nat
  attributes : List KeyValue
  droppedAttributesCount : Nat
  events : List Event
  droppedEventsCount : Nat
  links : List Link
  droppedLinksCount : Nat
  status : Option Status

/-! ## Logs -/

structure LogRecord where
  timeUnixNano : Nat
  observedTimeUnixNano : Nat
  severityNumber : Int
  severityText : String
  body : Option AnyValue
  attributes : List KeyValue
  droppedAttributesCount : Nat
  flags : Nat
  traceId : List UInt8
  spanId : List UInt8
  eventName : String

/-! ## Metrics -/

/-- What a metric declares beside its data. -/
structure Descriptor where
  name : String
  description : String
  unit : String
  metadata : List KeyValue

/-- The number of a data point or an exemplar. -/
inductive NumberValue where
  | asDouble (double : F64)
  | asInt (integer : Int)

structure Exemplar where
  filteredAttributes : List KeyValue
  timeUnixNano : Nat
  spanId : List UInt8
  traceId : List UInt8
  value : Option NumberValue

structure NumberDataPoint where
  attributes : List KeyValue
  startTimeUnixNano : Nat
  timeUnixNano : Nat
  exemplars : List Exemplar
  flags : Nat
  value : Option NumberValue

structure HistogramDataPoint where
  attributes : List KeyValue
  startTimeUnixNano : Nat
  timeUnixNano : Nat
  count : Nat
  sum : Option F64
  bucketCounts : List Nat
  explicitBounds : List F64
  exemplars : List Exemplar
  flags : Nat
  min : Option F64
  max : Option F64

/-- One bucket layout. -/
structure Buckets where
  offset : Int
  bucketCounts : List Nat

/-- What an absent layout reads as. -/
def Buckets.default : Buckets := ⟨0, []⟩

structure ExponentialHistogramDataPoint where
  attributes : List KeyValue
  startTimeUnixNano : Nat
  timeUnixNano : Nat
  count : Nat
  sum : Option F64
  scale : Int
  zeroCount : Nat
  positive : Option Buckets
  negative : Option Buckets
  flags : Nat
  exemplars : List Exemplar
  min : Option F64
  max : Option F64
  zeroThreshold : F64

/-- One quantile of a summary. -/
structure ValueAtQuantile where
  quantile : F64
  value : F64

structure SummaryDataPoint where
  attributes : List KeyValue
  startTimeUnixNano : Nat
  timeUnixNano : Nat
  count : Nat
  sum : F64
  quantileValues : List ValueAtQuantile
  flags : Nat

end Otlp

end RuntimeTrail
