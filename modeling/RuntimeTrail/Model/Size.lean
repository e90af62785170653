import RuntimeTrail.Model.Records

/-!
# Accounted size

The one definition byte ceilings count: payload bytes, attribute keys and
structure names, plus fixed charges per structure and per container.  A shared
resource or scope is charged in full wherever it appears, and a resource's
`schemaUrl` is charged although the resource's equality ignores it: two equal
stream handles may have different sizes.

The walk over nested values is a loop over an explicit stack, as the nesting
walk is.  The element sizes that a heap vector's slots are charged by are those
of a 64-bit target.
-/

namespace RuntimeTrail

open Library

/-- The largest 64-bit count; sums over sizes saturate here. -/
def u64Max : Nat := 2 ^ 64 - 1

/-- The largest signed 64-bit count. -/
def i64Max : Nat := 2 ^ 63 - 1

/-- Addition that saturates at the largest 64-bit count. -/
def saturatingAdd (a b : Nat) : Nat := min (a + b) u64Max

theorem saturatingAdd_le (a b : Nat) : saturatingAdd a b ≤ u64Max := min_le_right _ _

theorem saturatingAdd_of_le {a b : Nat} (h : a + b ≤ u64Max) : saturatingAdd a b = a + b :=
  min_eq_left h

/-- The fixed overhead charged once per structure. -/
def structureFixedBytes : Nat := 16

/-- The per-entry charge of a keyed container. -/
def keyedEntryBytes : Nat := 160

/-- One full B-tree node, charged once per non-empty attribute map. -/
def attributeMapNodeBytes : Nat := 768

/-- The worst-case chunk cost of one small heap allocation. -/
def stringAllocationChunkBytes : Nat := 32

/-- The heap cost of one named string field. -/
def heapStringBytes (text : String) : Nat := stringAllocationChunkBytes + text.utf8ByteSize

/-- The per-element charge of a heap vector: the element's inline size, doubled. -/
def slotBytes (sizeOf : Nat) : Nat := 2 * sizeOf

/-- Inline sizes of the element types heap vectors are charged for. -/
def valueBytesInline : Nat := 32
def spanEventBytesInline : Nat := 72
def spanLinkBytesInline : Nat := 88
def exemplarBytesInline : Nat := 80
def quantileBytesInline : Nat := 16
def wordBytesInline : Nat := 8

/-- Anything whose accounted size the model can state. -/
class Accounted (α : Type) where
  accountedSize : α → Nat

export Accounted (accountedSize)

/-- A shared payload is charged in full. -/
instance {α : Type} [Accounted α] : Accounted (Arc α) := ⟨fun a => accountedSize a.val⟩

/-! ## Values -/

/-- What one node of a value is charged, its children aside. -/
def Value.ownBytes : Value → Nat
  | .string text => text.utf8ByteSize
  | .bool _ => 1
  | .int _ => 8
  | .double _ => 8
  | .bytes payload => payload.length
  | .array items => items.length * slotBytes valueBytesInline
  | .kvList entries => (entries.map (fun e => keyedEntryBytes + e.1.utf8ByteSize)).sum

/-- One turn of the size walk: charge the popped value and push its children. -/
def sizeStep : Nat × List Value → Option (Nat × List Value)
  | (_, []) => none
  | (total, value :: stack) => some (total + value.ownBytes, value.children.reverse ++ stack)

/-- The size walk as a loop that ends. -/
def sizeLoop : Loop (Nat × List Value) where
  step := sizeStep
  fuel s := (s.2.map Value.nodes).sum
  decreases := by
    rintro ⟨total, stack⟩ s' h
    cases stack with
    | nil => exact absurd h (by simp [sizeStep])
    | cons v stack =>
      obtain rfl := Option.some.inj h
      simp [Value.nodes_eq v]

/-- The accounted size of a work-stack of values. -/
def valueStackBytes (stack : List Value) : Nat := (sizeLoop.run (0, stack)).1

instance : Accounted Value := ⟨fun value => valueStackBytes [value]⟩

theorem accountedSize_bytes (payload : List UInt8) :
    accountedSize (Value.bytes payload) = payload.length := by
  change valueStackBytes [Value.bytes payload] = payload.length
  rw [valueStackBytes, Loop.run_of_some
      (show sizeLoop.step _ = some (0 + payload.length, []) from rfl),
    Loop.run_of_none rfl, Nat.zero_add]

/-- The accounted size of one attribute entry: keyed-container overhead, key bytes, value. -/
def attributeEntrySize (key : String) (value : Value) : Nat :=
  keyedEntryBytes + key.utf8ByteSize + accountedSize value

/-- An empty map allocates nothing and is charged nothing. -/
instance : Accounted Attributes :=
  ⟨fun a =>
    if a.isEmpty then 0
    else attributeMapNodeBytes +
      (a.entries.entries.map (fun e => keyedEntryBytes + e.1.utf8ByteSize)).sum +
      valueStackBytes (a.entries.entries.map (·.2)).reverse⟩

/-! ## Context, resources and scopes -/

/-- The charge of an optional field. -/
def optionalBytes {α : Type} (field : Option α) (charge : α → Nat) : Nat :=
  match field with
  | none => 0
  | some value => charge value

instance : Accounted TraceStateEntry :=
  ⟨fun e => keyedEntryBytes + e.vendor.utf8ByteSize + e.value.utf8ByteSize⟩

instance : Accounted TraceState := ⟨fun t => (t.entries.map accountedSize).sum⟩

instance : Accounted TraceContext :=
  ⟨fun c => structureFixedBytes + TraceId.length + SpanId.length + 4 + accountedSize c.tracestate⟩

/-- The `schemaUrl` is charged although the resource's equality ignores it. -/
instance : Accounted Resource :=
  ⟨fun r => structureFixedBytes + accountedSize r.attributes +
    optionalBytes r.schemaUrl heapStringBytes + 4⟩

instance : Accounted InstrumentationScope :=
  ⟨fun s => structureFixedBytes + heapStringBytes s.name + optionalBytes s.version heapStringBytes +
    accountedSize s.attributes + optionalBytes s.schemaUrl heapStringBytes + 4⟩

/-! ## Records -/

instance : Accounted SpanStatus := ⟨fun s => structureFixedBytes + 1 + heapStringBytes s.message⟩

instance : Accounted SpanEvent :=
  ⟨fun e => structureFixedBytes + 8 + heapStringBytes e.name + accountedSize e.attributes + 4⟩

instance : Accounted SpanLink :=
  ⟨fun l => structureFixedBytes + accountedSize l.context + accountedSize l.attributes + 4⟩

instance : Accounted Span :=
  ⟨fun s => structureFixedBytes + accountedSize s.context +
    optionalBytes s.parentSpanId (fun _ => SpanId.length) + heapStringBytes s.name + 1 + 8 +
    optionalBytes s.endTimeUnixNano (fun _ => 8) + accountedSize s.resource +
    accountedSize s.scope + accountedSize s.attributes + 12 +
    s.events.length * slotBytes spanEventBytesInline + (s.events.map accountedSize).sum +
    s.links.length * slotBytes spanLinkBytesInline + (s.links.map accountedSize).sum +
    accountedSize s.status⟩

instance : Accounted LogRecord :=
  ⟨fun r => structureFixedBytes + optionalBytes r.timestampUnixNano (fun _ => 8) +
    optionalBytes r.observedTimestampUnixNano (fun _ => 8) +
    optionalBytes r.severityNumber (fun _ => 1) + optionalBytes r.severityText heapStringBytes +
    optionalBytes r.body accountedSize + accountedSize r.resource + accountedSize r.scope +
    accountedSize r.attributes + 4 + optionalBytes r.traceId (fun _ => TraceId.length) +
    optionalBytes r.spanId (fun _ => SpanId.length) + optionalBytes r.traceFlags (fun _ => 4) +
    optionalBytes r.eventName heapStringBytes⟩

theorem LogRecord.accountedSize_eq (r : LogRecord) : accountedSize r =
    structureFixedBytes + optionalBytes r.timestampUnixNano (fun _ => 8) +
      optionalBytes r.observedTimestampUnixNano (fun _ => 8) +
      optionalBytes r.severityNumber (fun _ => 1) + optionalBytes r.severityText heapStringBytes +
      optionalBytes r.body accountedSize + accountedSize r.resource + accountedSize r.scope +
      accountedSize r.attributes + 4 + optionalBytes r.traceId (fun _ => TraceId.length) +
      optionalBytes r.spanId (fun _ => SpanId.length) + optionalBytes r.traceFlags (fun _ => 4) +
      optionalBytes r.eventName heapStringBytes := rfl

instance : Accounted MetricNumber := ⟨fun _ => 8⟩

instance : Accounted Exemplar :=
  ⟨fun e => structureFixedBytes + accountedSize e.value + 8 + accountedSize e.filteredAttributes +
    optionalBytes e.traceId (fun _ => TraceId.length) +
    optionalBytes e.spanId (fun _ => SpanId.length)⟩

instance : Accounted QuantileValue := ⟨fun _ => structureFixedBytes + 16⟩

instance : Accounted ExponentialBuckets :=
  ⟨fun b => structureFixedBytes + 4 + b.bucketCounts.length * slotBytes wordBytesInline⟩

/-- What a point's exemplars are charged: their slots and their own parts. -/
def exemplarBytes (exemplars : List Exemplar) : Nat :=
  exemplars.length * slotBytes exemplarBytesInline + (exemplars.map accountedSize).sum

/-- The charge of an optional double. -/
def optionalFloatBytes (field : Option Float) : Nat := optionalBytes field (fun _ => 8)

instance : Accounted MetricPoint :=
  ⟨fun
    | .number p => structureFixedBytes + accountedSize p.attributes +
        optionalBytes p.startTimeUnixNano (fun _ => 8) + 8 + accountedSize p.value + 4 +
        exemplarBytes p.exemplars
    | .histogram p => structureFixedBytes + accountedSize p.attributes + 16 + 8 +
        optionalFloatBytes p.sum + p.bucketCounts.length * slotBytes wordBytesInline +
        p.explicitBounds.length * slotBytes wordBytesInline + optionalFloatBytes p.min +
        optionalFloatBytes p.max + 4 + exemplarBytes p.exemplars
    | .exponentialHistogram p => structureFixedBytes + accountedSize p.attributes + 16 + 8 +
        optionalFloatBytes p.sum + 4 + 8 + 8 + accountedSize p.positive +
        accountedSize p.negative + optionalFloatBytes p.min + optionalFloatBytes p.max + 4 +
        exemplarBytes p.exemplars
    | .summary p => structureFixedBytes + accountedSize p.attributes + 16 + 8 +
        optionalFloatBytes p.sum + p.quantiles.length * slotBytes quantileBytesInline +
        (p.quantiles.map accountedSize).sum + 4 + exemplarBytes p.exemplars⟩

/-- The identity's own content: charged once per resident stream, never per point. -/
instance : Accounted StreamIdentity :=
  ⟨fun s => structureFixedBytes + accountedSize s.resource + accountedSize s.scope +
    heapStringBytes s.name + optionalBytes s.description heapStringBytes +
    optionalBytes s.unit heapStringBytes + accountedSize s.metadata + 1⟩

/-- The accounted size as a 64-bit count, saturating. -/
def accountedU64 {α : Type} [Accounted α] (record : α) : Nat :=
  if accountedSize record ≤ u64Max then accountedSize record else u64Max

theorem accountedU64_le {α : Type} [Accounted α] (record : α) : accountedU64 record ≤ u64Max := by
  unfold accountedU64
  split
  · assumption
  · exact le_refl _

end RuntimeTrail
