import RuntimeTrail.Model.Context

/-!
# Metric streams and data points

Five stream kinds, four point shapes, and the two identities built on them.

* **stream identity** — `StreamIdentity` compares its resource by attribute map
  and everything else byte for byte (`StreamIdentity.beq_iff`), so two handles
  may be equal and still carry different `schemaUrl`s;
* **point identity** — `PointIdentity` projects the descriptor-less stream key,
  the point's attribute set, its gauge-normalised start, its time and its flags
  (`PointIdentity.beq_iff`); the descriptor and the payload are projected out;
* **the shape law** — `checkIdentityCoherence` and `checkPointCoherence`, the
  law admission holds every point to.
-/

namespace RuntimeTrail

open Library

/-- A metric number: 64-bit integer or 64-bit float, never interconverted. -/
inductive MetricNumber where
  | int (value : Int)
  | double (value : Float)
deriving DecidableEq

/-- The shape of a data point. -/
inductive PointShape where
  | number
  | histogram
  | exponentialHistogram
  | summary
deriving DecidableEq

/-- The stream kind; a sum's monotonicity is part of it. -/
inductive StreamKind where
  | gauge
  | sum (monotonic : Bool)
  | histogram
  | exponentialHistogram
  | summary
deriving DecidableEq

namespace StreamKind

/-- The point shape this kind carries. -/
def pointShape : StreamKind → PointShape
  | gauge => .number
  | sum _ => .number
  | histogram => .histogram
  | exponentialHistogram => .exponentialHistogram
  | summary => .summary

/-- Whether this kind carries an interval start on every point. -/
def requiresStartTime : StreamKind → Bool
  | gauge => false
  | _ => true

/-- The position of a kind in the enumeration, the first thing the derived order compares. -/
def index : StreamKind → Nat
  | gauge => 0
  | sum _ => 1
  | histogram => 2
  | exponentialHistogram => 3
  | summary => 4

/-- The derived order: the variant, then a sum's monotonicity. -/
def cmp : StreamKind → StreamKind → Ordering
  | sum a, sum b => compare a b
  | a, b => compare a.index b.index

theorem cmp_eq_iff (a b : StreamKind) : cmp a b = .eq ↔ a = b := by
  cases a <;> cases b <;> simp [cmp, index]

end StreamKind

/-- The temporality of a data point stream. -/
inductive Temporality where
  | delta
  | cumulative
deriving DecidableEq

/-- The derived order on an optional temporality: absent, delta, cumulative. -/
def Temporality.rank : Option Temporality → Nat
  | none => 0
  | some delta => 1
  | some cumulative => 2

theorem Temporality.rank_inj : ∀ a b : Option Temporality, rank a = rank b ↔ a = b
  | none, none => by simp
  | none, some delta => by simp [rank]
  | none, some cumulative => by simp [rank]
  | some delta, none => by simp [rank]
  | some cumulative, none => by simp [rank]
  | some delta, some delta => by simp
  | some delta, some cumulative => by simp [rank]
  | some cumulative, some delta => by simp [rank]
  | some cumulative, some cumulative => by simp

/-- One metric exemplar, preserved exactly as sent. -/
structure Exemplar where
  value : MetricNumber
  timeUnixNano : Nat
  filteredAttributes : Attributes
  traceId : Option TraceId
  spanId : Option SpanId
deriving DecidableEq

/-- The correlation pair, only when both ids are present. -/
def Exemplar.correlationPair (exemplar : Exemplar) : Option (TraceId × SpanId) :=
  match exemplar.traceId, exemplar.spanId with
  | some traceId, some spanId => some (traceId, spanId)
  | _, _ => none

/-- A gauge or sum data point. -/
structure NumberPoint where
  attributes : Attributes
  startTimeUnixNano : Option Nat
  timeUnixNano : Nat
  value : MetricNumber
  flags : Nat
  exemplars : List Exemplar
deriving DecidableEq

/-- An explicit-bucket histogram data point. -/
structure HistogramPoint where
  attributes : Attributes
  startTimeUnixNano : Nat
  timeUnixNano : Nat
  count : Nat
  sum : Option Float
  bucketCounts : List Nat
  explicitBounds : List Float
  min : Option Float
  max : Option Float
  flags : Nat
  exemplars : List Exemplar
deriving DecidableEq

/-- One bucket layout of an exponential histogram. -/
structure ExponentialBuckets where
  offset : Int
  bucketCounts : List Nat
deriving DecidableEq

/-- An exponential histogram data point. -/
structure ExponentialHistogramPoint where
  attributes : Attributes
  startTimeUnixNano : Nat
  timeUnixNano : Nat
  count : Nat
  sum : Option Float
  scale : Int
  zeroCount : Nat
  zeroThreshold : Float
  positive : ExponentialBuckets
  negative : ExponentialBuckets
  min : Option Float
  max : Option Float
  flags : Nat
  exemplars : List Exemplar
deriving DecidableEq

/-- One quantile of a summary. -/
structure QuantileValue where
  quantile : Float
  value : Float
deriving DecidableEq

/-- A summary data point. -/
structure SummaryPoint where
  attributes : Attributes
  startTimeUnixNano : Nat
  timeUnixNano : Nat
  count : Nat
  sum : Option Float
  quantiles : List QuantileValue
  flags : Nat
  exemplars : List Exemplar
deriving DecidableEq

/-- A data point: one of the four point shapes the five stream kinds carry. -/
inductive MetricPoint where
  | number (point : NumberPoint)
  | histogram (point : HistogramPoint)
  | exponentialHistogram (point : ExponentialHistogramPoint)
  | summary (point : SummaryPoint)
deriving DecidableEq

namespace MetricPoint

/-- The point's shape; a stream's kind must match every point it carries. -/
def shape : MetricPoint → PointShape
  | number _ => .number
  | histogram _ => .histogram
  | exponentialHistogram _ => .exponentialHistogram
  | summary _ => .summary

/-- The point's attribute set, whichever shape it carries. -/
def attributes : MetricPoint → Attributes
  | number p => p.attributes
  | histogram p => p.attributes
  | exponentialHistogram p => p.attributes
  | summary p => p.attributes

/-- The interval start; for a gauge measurement whatever the emitter sent. -/
def startTimeUnixNano : MetricPoint → Option Nat
  | number p => p.startTimeUnixNano
  | histogram p => some p.startTimeUnixNano
  | exponentialHistogram p => some p.startTimeUnixNano
  | summary p => some p.startTimeUnixNano

/-- The interval end or measurement time. -/
def timeUnixNano : MetricPoint → Nat
  | number p => p.timeUnixNano
  | histogram p => p.timeUnixNano
  | exponentialHistogram p => p.timeUnixNano
  | summary p => p.timeUnixNano

/-- The point's flags as sent. -/
def flags : MetricPoint → Nat
  | number p => p.flags
  | histogram p => p.flags
  | exponentialHistogram p => p.flags
  | summary p => p.flags

/-- The point's exemplars, whichever shape it carries. -/
def exemplars : MetricPoint → List Exemplar
  | number p => p.exemplars
  | histogram p => p.exemplars
  | exponentialHistogram p => p.exemplars
  | summary p => p.exemplars

/-- Byte-exact equality over the fields the point's identity reads: a gauge's start time is
outside gauge identity, every other kind compares the whole point. -/
def identityPayloadEq (self other : MetricPoint) (kind : StreamKind) : Bool :=
  if kind = .gauge then
    match self, other with
    | number a, number b =>
      decide (a.attributes = b.attributes) && a.timeUnixNano == b.timeUnixNano &&
        decide (a.value = b.value) && a.flags == b.flags && decide (a.exemplars = b.exemplars)
    | _, _ => false
  else decide (self = other)

end MetricPoint

/-- Why a stream or a point of it is a shape the contract cannot represent. -/
inductive StreamShapeError where
  | kindShapeMismatch (index : Nat) (expected found : PointShape)
  | intervalKindMissingStartTime (index : Nat)
  | temporalityMismatch (kind : StreamKind) (temporality : Option Temporality)
deriving DecidableEq

/-! ## Stream identity -/

/-- The identity of a data point stream. -/
structure StreamIdentity where
  resource : Resource
  scope : InstrumentationScope
  name : String
  description : Option String
  unit : Option String
  metadata : Attributes
  kind : StreamKind
  temporality : Option Temporality

namespace StreamIdentity

/-- The derived equality: every field, the resource by its attribute map. -/
instance : BEq StreamIdentity :=
  ⟨fun a b => a.resource == b.resource && decide (a.scope = b.scope) && a.name == b.name &&
    a.description == b.description && a.unit == b.unit && decide (a.metadata = b.metadata) &&
    decide (a.kind = b.kind) && decide (a.temporality = b.temporality)⟩

/-- What the equality reads of a stream: everything but its resource's metadata. -/
def content (s : StreamIdentity) : Attributes × InstrumentationScope × String × Option String ×
    Option String × Attributes × StreamKind × Option Temporality :=
  (s.resource.attributes, s.scope, s.name, s.description, s.unit, s.metadata, s.kind,
    s.temporality)

theorem beq_iff (a b : StreamIdentity) : (a == b) = true ↔ a.content = b.content := by
  change (a.resource == b.resource && decide (a.scope = b.scope) && a.name == b.name &&
    a.description == b.description && a.unit == b.unit && decide (a.metadata = b.metadata) &&
    decide (a.kind = b.kind) && decide (a.temporality = b.temporality)) = true ↔ _
  simp only [Bool.and_eq_true, Resource.beq_iff, decide_eq_true_eq, beq_iff_eq, content,
    Prod.mk.injEq, and_assoc]

instance : EquivBEq StreamIdentity := equivBEq_of_key content beq_iff

/-- The derived order: every field in declaration order, the resource by its attribute map. -/
def cmp (a b : StreamIdentity) : Ordering :=
  (a.resource.cmp b.resource).then <| (a.scope.cmp b.scope).then <|
    (compare a.name b.name).then <| (compare a.description b.description).then <|
      (compare a.unit b.unit).then <| (a.metadata.cmp b.metadata).then <|
        (a.kind.cmp b.kind).then <|
          compare (Temporality.rank a.temporality) (Temporality.rank b.temporality)

/-- The order answers `eq` on the streams that are equal. -/
theorem cmp_eq_iff (a b : StreamIdentity) : a.cmp b = .eq ↔ (a == b) = true := by
  simp only [beq_iff, cmp, Ordering.then_eq_eq, Resource.cmp_eq_iff,
    InstrumentationScope.cmp_eq_iff, StreamKind.cmp_eq_iff, Attributes.cmp_eq_iff,
    Temporality.rank_inj, content, Prod.mk.injEq, Std.LawfulEqCmp.compare_eq_iff_eq]

end StreamIdentity

/-! ## Point identity -/

/-- The collapse identity of one data point. -/
structure PointIdentity where
  stream : StreamIdentity
  point : Arc MetricPoint
  startTimeUnixNano : Option Nat
  timeUnixNano : Nat
  flags : Nat

namespace PointIdentity

/-- Builds the identity of a point in a stream; a gauge point's start is normalised away. -/
def ofInterned (stream : StreamIdentity) (point : Arc MetricPoint) : PointIdentity where
  stream := stream
  point := point
  startTimeUnixNano :=
    if stream.kind.requiresStartTime then point.val.startTimeUnixNano else none
  timeUnixNano := point.val.timeUnixNano
  flags := point.val.flags

/-- The descriptor-less key of the stream side, in comparison order. -/
def projectedStreamCmp (a b : PointIdentity) : Ordering :=
  (a.stream.resource.cmp b.stream.resource).then <| (a.stream.scope.cmp b.stream.scope).then <|
    (compare a.stream.name b.stream.name).then <| (a.stream.kind.cmp b.stream.kind).then <|
      compare (Temporality.rank a.stream.temporality) (Temporality.rank b.stream.temporality)

/-- The projected collapse key: stream key, attribute set, normalised start, time, flags. -/
def cmp (a b : PointIdentity) : Ordering :=
  (projectedStreamCmp a b).then <| (a.point.val.attributes.cmp b.point.val.attributes).then <|
    (compare a.startTimeUnixNano b.startTimeUnixNano).then <|
      (compare a.timeUnixNano b.timeUnixNano).then <| compare a.flags b.flags

/-- Two identities are equal exactly when they compare equal. -/
instance : BEq PointIdentity := ⟨fun a b => a.cmp b == .eq⟩

/-- What the comparison reads of a point identity. -/
def content (p : PointIdentity) : (Attributes × InstrumentationScope × String × StreamKind ×
    Option Temporality) × Attributes × Option Nat × Nat × Nat :=
  ((p.stream.resource.attributes, p.stream.scope, p.stream.name, p.stream.kind,
    p.stream.temporality), p.point.val.attributes, p.startTimeUnixNano, p.timeUnixNano, p.flags)

theorem beq_iff (a b : PointIdentity) : (a == b) = true ↔ a.content = b.content := by
  change (a.cmp b == .eq) = true ↔ _
  simp only [beq_iff_eq, cmp, projectedStreamCmp, Ordering.then_eq_eq, Resource.cmp_eq_iff,
    InstrumentationScope.cmp_eq_iff, StreamKind.cmp_eq_iff, Attributes.cmp_eq_iff,
    Temporality.rank_inj, content, Prod.mk.injEq, and_assoc,
    Std.LawfulEqCmp.compare_eq_iff_eq]

instance : EquivBEq PointIdentity := equivBEq_of_key content beq_iff

/-- Equal handles of a stream give a point one identity. -/
theorem ofInterned_beq {a b : StreamIdentity} (h : (a == b) = true) (point : Arc MetricPoint) :
    (ofInterned a point == ofInterned b point) = true := by
  rw [StreamIdentity.beq_iff] at h
  simp only [StreamIdentity.content, Prod.mk.injEq] at h
  obtain ⟨hresource, hscope, hname, -, -, -, hkind, htemporality⟩ := h
  rw [beq_iff]
  simp only [content, ofInterned, hresource, hscope, hname, hkind, htemporality]

end PointIdentity

/-! ## The shape law -/

namespace MetricStream

/-- The shape law for one point: the shape its stream's kind carries, and an interval start
where the kind requires one. -/
def checkPointCoherence (identity : StreamIdentity) (point : MetricPoint) (index : Nat) :
    Except StreamShapeError Unit :=
  let expected := identity.kind.pointShape
  let found := point.shape
  if expected ≠ found then .error (.kindShapeMismatch index expected found)
  else if identity.kind.requiresStartTime && point.startTimeUnixNano.isNone then
    .error (.intervalKindMissingStartTime index)
  else .ok ()

/-- The kind/temporality law for one identity. -/
def checkIdentityCoherence (identity : StreamIdentity) : Except StreamShapeError Unit :=
  let expectedTemporality : Bool :=
    match identity.kind with
    | .gauge | .summary => false
    | .sum _ | .histogram | .exponentialHistogram => true
  if expectedTemporality ≠ identity.temporality.isSome then
    .error (.temporalityMismatch identity.kind identity.temporality)
  else .ok ()

end MetricStream

end RuntimeTrail
