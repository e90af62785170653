import RuntimeTrail.Library.ContentMap
import RuntimeTrail.Model.Values

/-!
# Trace context, resources and scopes

Trace ids are sixteen bytes and span ids eight, the all-zero encoding invalid
but preserved.  A resource is identified by its attribute map alone: its
`schemaUrl` and dropped count are preserved metadata that its equality ignores,
so `==` on resources is coarser than equality (`Resource.beq_iff`).  A scope is
identified by its full field set (`InstrumentationScope.cmp_eq_iff`).

`Arc` is a shared allocation: a payload together with the address it lives at.
Content comparisons read the payload only; the address is what tells one
allocation from another that carries the same bytes.
-/

namespace RuntimeTrail

/-- A reference-counted allocation: its address, and the payload every handle shares. -/
structure Arc (α : Type) where
  addr : Nat
  val : α
deriving DecidableEq

/-- Whether two handles share one allocation. -/
def Arc.ptrEq {α : Type} (a b : Arc α) : Bool := a.addr == b.addr

/-! ## Trace context -/

/-- A 16-byte trace id, preserved verbatim. -/
structure TraceId where
  bytes : List UInt8
  length_eq : bytes.length = 16
deriving DecidableEq

/-- An 8-byte span id, preserved verbatim. -/
structure SpanId where
  bytes : List UInt8
  length_eq : bytes.length = 8
deriving DecidableEq

/-- A trace id is 16 bytes. -/
def TraceId.length : Nat := 16

/-- A span id is 8 bytes. -/
def SpanId.length : Nat := 8

/-- False for the all-zero encoding. -/
def TraceId.isValid (id : TraceId) : Bool := id.bytes.any (fun b => b != 0)

/-- False for the all-zero encoding. -/
def SpanId.isValid (id : SpanId) : Bool := id.bytes.any (fun b => b != 0)

/-- The 32-bit wire flags field. -/
structure TraceFlags where
  bits : Nat
deriving DecidableEq

/-- One tracestate entry: a vendor key and its opaque value. -/
structure TraceStateEntry where
  vendor : String
  value : String
deriving DecidableEq

/-- An ordered tracestate: the order is semantic. -/
structure TraceState where
  entries : List TraceStateEntry
deriving DecidableEq

/-- The trace context a span or a span link carries. -/
structure TraceContext where
  traceId : TraceId
  spanId : SpanId
  flags : TraceFlags
  tracestate : TraceState
deriving DecidableEq

/-! ## Resources and scopes -/

/-- The resource a batch of signals was emitted under. -/
structure Resource where
  attributes : Attributes
  schemaUrl : Option String
  droppedAttributesCount : Nat

namespace Resource

/-- Attribute-map equality only: the `schemaUrl` and the dropped count are metadata. -/
instance : BEq Resource := ⟨fun a b => decide (a.attributes = b.attributes)⟩

/-- Attribute-map order, the content the equality compares. -/
def cmp (a b : Resource) : Ordering := a.attributes.cmp b.attributes

theorem beq_iff (a b : Resource) : (a == b) = true ↔ a.attributes = b.attributes :=
  decide_eq_true_iff

theorem cmp_eq_iff (a b : Resource) : cmp a b = .eq ↔ a.attributes = b.attributes :=
  Attributes.cmp_eq_iff _ _

end Resource

/-- The instrumentation scope a signal was emitted from. -/
structure InstrumentationScope where
  name : String
  version : Option String
  attributes : Attributes
  schemaUrl : Option String
  droppedAttributesCount : Nat
deriving DecidableEq

namespace InstrumentationScope

/-- The derived order: the full field set, in declaration order. -/
def cmp (a b : InstrumentationScope) : Ordering :=
  (compare a.name b.name).then <| (compare a.version b.version).then <|
    (a.attributes.cmp b.attributes).then <| (compare a.schemaUrl b.schemaUrl).then <|
      compare a.droppedAttributesCount b.droppedAttributesCount

theorem cmp_eq_iff (a b : InstrumentationScope) : cmp a b = .eq ↔ a = b := by
  obtain ⟨n, v, at', s, d⟩ := a
  obtain ⟨n', v', at'', s', d'⟩ := b
  simp [cmp, Ordering.then_eq_eq, Attributes.cmp_eq_iff]

end InstrumentationScope

end RuntimeTrail
