import RuntimeTrail.Ingestion.Bound
import RuntimeTrail.Library.Texts

/-!
# The largest record the gates let through

The gates count attribute entries, events, links, exemplars and vector entries, and
hold each attribute entry to a size.  What they count shapes a record; its texts, trace
states and a log's body they leave free.  The largest record is the largest shape with
its free bytes on top, so a ceiling holds every record of so many free bytes exactly
when it has room for both.

* **one set** — `BudgetLimits.largestSetBytes`, which some set the gate lets through
  attains (`exists_largest_set`);
* **free bytes** — `StoredRecord.freeBytes`;
* **the largest shape** — `BudgetLimits.largestRecordBytes`, over the three kinds: no
  record exceeds it by more than its free bytes (`accountedSize_le_largest`), and with
  any number of them some record attains it (`exists_largest`);
* **the law** — `Pipeline.queueable_iff`: which accepted configurations keep what the
  constructor promises.
-/

namespace RuntimeTrail

open Library

/-! ## One set -/

/-- The entries a set can have: keys of its own for each, within the size of an entry. -/
noncomputable def BudgetLimits.entriesWithin (limits : BudgetLimits) (count : Nat) : Nat :=
  if limits.attributeValueBytes < keyedEntryBytes then 0
  else min count (textsWithin (limits.attributeValueBytes - keyedEntryBytes))

/-- The most a set of `count` entries is charged. -/
noncomputable def BudgetLimits.largestSetBytes (limits : BudgetLimits) (count : Nat) : Nat :=
  if limits.entriesWithin count = 0 then 0
  else attributeMapNodeBytes + limits.entriesWithin count * limits.attributeValueBytes

/-- Where there are lengths enough for the keys, the count alone limits a set: it can spend all the
bound has for it. -/
theorem BudgetLimits.largestSetBytes_eq {limits : BudgetLimits} {count : Nat} (hpos : 0 < count)
    (hkeys : count + keyedEntryBytes ≤ limits.attributeValueBytes + 1) :
    limits.largestSetBytes count = limits.attributeSetBytes count := by
  have htexts := lt_textsWithin (limits.attributeValueBytes - keyedEntryBytes)
  have hentries : limits.entriesWithin count = count := by
    rw [entriesWithin, if_neg (by omega)]
    exact min_eq_left (by omega)
  rw [largestSetBytes, hentries, if_neg hpos.ne', attributeSetBytes]

section OneSet

variable {limits : BudgetLimits} {count : Nat}

end OneSet

/-! ## Free bytes

What no gate counts: the bytes of names and other texts and of urls, trace states, and a log's
body. -/

def Resource.freeBytes (r : Resource) : Nat := optionalBytes r.schemaUrl String.utf8ByteSize

def InstrumentationScope.freeBytes (s : InstrumentationScope) : Nat :=
  s.name.utf8ByteSize + optionalBytes s.version String.utf8ByteSize +
    optionalBytes s.schemaUrl String.utf8ByteSize

def Span.freeBytes (s : Span) : Nat :=
  accountedSize s.context.tracestate + s.name.utf8ByteSize + s.resource.freeBytes +
    s.scope.freeBytes + (s.events.map fun e => e.name.utf8ByteSize).sum +
    (s.links.map fun l => accountedSize l.context.tracestate).sum + s.status.message.utf8ByteSize

def LogRecord.freeBytes (r : LogRecord) : Nat :=
  optionalBytes r.severityText String.utf8ByteSize + optionalBytes r.body accountedSize +
    r.resource.freeBytes + r.scope.freeBytes + optionalBytes r.eventName String.utf8ByteSize

def StreamIdentity.freeBytes (s : StreamIdentity) : Nat :=
  s.resource.freeBytes + s.scope.freeBytes + s.name.utf8ByteSize +
    optionalBytes s.description String.utf8ByteSize + optionalBytes s.unit String.utf8ByteSize

/-- A point's own fields leave nothing free. -/
def StoredRecord.freeBytes : StoredRecord → Nat
  | .span s => s.val.freeBytes
  | .log r => r.val.freeBytes
  | .point stream _ => stream.freeBytes

/-! ## Fixed charges

Each with every optional field present, and every text empty. -/

def resourceFixedBytes : Nat := structureFixedBytes + stringAllocationChunkBytes + 4

def scopeFixedBytes : Nat := structureFixedBytes + 3 * stringAllocationChunkBytes + 4

def contextFixedBytes : Nat := structureFixedBytes + TraceId.length + SpanId.length + 4

def eventFixedBytes : Nat :=
  slotBytes spanEventBytesInline + structureFixedBytes + 8 + stringAllocationChunkBytes + 4

def linkFixedBytes : Nat :=
  slotBytes spanLinkBytesInline + structureFixedBytes + contextFixedBytes + 4

def exemplarFixedBytes : Nat :=
  slotBytes exemplarBytesInline + structureFixedBytes + 16 + TraceId.length + SpanId.length

def spanFixedBytes : Nat :=
  structureFixedBytes + contextFixedBytes + SpanId.length + stringAllocationChunkBytes + 1 + 8 + 8 +
    resourceFixedBytes + scopeFixedBytes + 12 + structureFixedBytes + 1 + stringAllocationChunkBytes

def logFixedBytes : Nat :=
  structureFixedBytes + 8 + 8 + 1 + stringAllocationChunkBytes + resourceFixedBytes +
    scopeFixedBytes + 4 + TraceId.length + SpanId.length + 4 + stringAllocationChunkBytes

def streamFixedBytes : Nat :=
  structureFixedBytes + resourceFixedBytes + scopeFixedBytes + 3 * stringAllocationChunkBytes + 1

/-- An exponential histogram has the most fields, a summary the dearest entries. -/
def pointFixedBytes (entries : Nat) : Nat :=
  max (3 * structureFixedBytes + 56 + 3 * 8 + entries * slotBytes wordBytesInline)
    (structureFixedBytes + 28 + 8 + entries * quantileChargeBytes)

section FixedCharges

theorem optionalBytes_le {α : Type} (field : Option α) (charge : Nat) :
    optionalBytes field (fun _ => charge) ≤ charge := by
  cases field with
  | none => exact Nat.zero_le _
  | some _ => exact le_rfl

theorem optionalBytes_heapString_le (field : Option String) :
    optionalBytes field heapStringBytes ≤
      stringAllocationChunkBytes + optionalBytes field String.utf8ByteSize := by
  cases field with
  | none => exact Nat.zero_le _
  | some _ => exact le_rfl

/-- What a list is charged item by item. -/
theorem sum_map_le {α : Type} {charge free : α → Nat} {fixed : Nat}
    (h : ∀ a, charge a ≤ fixed + free a) (items : List α) :
    (items.map charge).sum ≤ items.length * fixed + (items.map free).sum := by
  induction items with
  | nil => simp
  | cons a items ih =>
    have ha := h a
    rw [List.map_cons, List.sum_cons, List.map_cons, List.sum_cons, List.length_cons, Nat.succ_mul]
    omega

theorem Resource.unbudgetedBytes_le (r : Resource) :
    r.unbudgetedBytes ≤ resourceFixedBytes + r.freeBytes := by
  have := optionalBytes_heapString_le r.schemaUrl
  rw [unbudgetedBytes, resourceFixedBytes, freeBytes]
  omega

theorem InstrumentationScope.unbudgetedBytes_le (s : InstrumentationScope) :
    s.unbudgetedBytes ≤ scopeFixedBytes + s.freeBytes := by
  have := optionalBytes_heapString_le s.version
  have := optionalBytes_heapString_le s.schemaUrl
  rw [unbudgetedBytes, scopeFixedBytes, freeBytes, heapStringBytes]
  omega

theorem TraceContext.unbudgetedBytes_eq (c : TraceContext) :
    c.unbudgetedBytes = contextFixedBytes + accountedSize c.tracestate := rfl

theorem SpanEvent.unbudgetedBytes_le (e : SpanEvent) :
    e.unbudgetedBytes ≤ eventFixedBytes + e.name.utf8ByteSize := by
  rw [unbudgetedBytes, eventFixedBytes, heapStringBytes]
  omega

theorem SpanLink.unbudgetedBytes_le (l : SpanLink) :
    l.unbudgetedBytes ≤ linkFixedBytes + accountedSize l.context.tracestate := by
  rw [unbudgetedBytes, linkFixedBytes, TraceContext.unbudgetedBytes_eq]
  omega

theorem Exemplar.unbudgetedBytes_le (e : Exemplar) : e.unbudgetedBytes ≤ exemplarFixedBytes := by
  have := optionalBytes_le e.traceId TraceId.length
  have := optionalBytes_le e.spanId SpanId.length
  rw [unbudgetedBytes, exemplarFixedBytes]
  omega

theorem Span.unbudgetedBytes_le (s : Span) : s.unbudgetedBytes ≤
    spanFixedBytes + s.events.length * eventFixedBytes + s.links.length * linkFixedBytes +
      s.freeBytes := by
  have hevents := @sum_map_le _ _ _ eventFixedBytes SpanEvent.unbudgetedBytes_le s.events
  have hlinks := @sum_map_le _ _ _ linkFixedBytes SpanLink.unbudgetedBytes_le s.links
  have := optionalBytes_le s.parentSpanId SpanId.length
  have := optionalBytes_le s.endTimeUnixNano 8
  have := s.resource.unbudgetedBytes_le
  have := s.scope.unbudgetedBytes_le
  rw [unbudgetedBytes, freeBytes, spanFixedBytes, TraceContext.unbudgetedBytes_eq, heapStringBytes,
    heapStringBytes]
  omega

theorem LogRecord.unbudgetedBytes_le (r : LogRecord) :
    r.unbudgetedBytes ≤ logFixedBytes + r.freeBytes := by
  have := optionalBytes_le r.timestampUnixNano 8
  have := optionalBytes_le r.observedTimestampUnixNano 8
  have := optionalBytes_le r.severityNumber 1
  have := optionalBytes_heapString_le r.severityText
  have := r.resource.unbudgetedBytes_le
  have := r.scope.unbudgetedBytes_le
  have := optionalBytes_le r.traceId TraceId.length
  have := optionalBytes_le r.spanId SpanId.length
  have := optionalBytes_le r.traceFlags 4
  have := optionalBytes_heapString_le r.eventName
  rw [unbudgetedBytes, freeBytes, logFixedBytes]
  omega

theorem StreamIdentity.unbudgetedBytes_le (s : StreamIdentity) :
    s.unbudgetedBytes ≤ streamFixedBytes + s.freeBytes := by
  have := s.resource.unbudgetedBytes_le
  have := s.scope.unbudgetedBytes_le
  have := optionalBytes_heapString_le s.description
  have := optionalBytes_heapString_le s.unit
  rw [unbudgetedBytes, freeBytes, streamFixedBytes, heapStringBytes]
  omega

end FixedCharges

/-! ## The largest shape -/

namespace BudgetLimits

/-- Three per-signal sets, the events, the links, and the span's own charges. -/
noncomputable def largestSpanBytes (limits : BudgetLimits) : Nat :=
  3 * limits.largestSetBytes limits.attributesPerSignal +
    limits.spanEventsPerSpan *
      (limits.largestSetBytes limits.attributesPerNestedSet + eventFixedBytes) +
    limits.spanLinksPerSpan *
      (limits.largestSetBytes limits.attributesPerNestedSet + linkFixedBytes) + spanFixedBytes

noncomputable def largestLogBytes (limits : BudgetLimits) : Nat :=
  3 * limits.largestSetBytes limits.attributesPerSignal + logFixedBytes

/-- Four per-signal sets, the exemplars, the vectors, and the charges of the point and its stream. -/
noncomputable def largestPointBytes (limits : BudgetLimits) : Nat :=
  4 * limits.largestSetBytes limits.attributesPerSignal +
    limits.exemplarsPerDataPoint *
      (limits.largestSetBytes limits.attributesPerNestedSet + exemplarFixedBytes) +
    pointFixedBytes limits.numericVectorEntriesPerDataPoint + streamFixedBytes

/-- The most a record is charged beside its free bytes. -/
noncomputable def largestRecordBytes (limits : BudgetLimits) : Nat :=
  max limits.largestSpanBytes (max limits.largestLogBytes limits.largestPointBytes)

end BudgetLimits

section Widest

variable (limits : BudgetLimits) (signal nested : Attributes) (free : Nat)

variable {limits} {signal} {nested}

variable (hsignal : checkSignalAttributes signal limits = .ok ())
  (hnested : checkEventOrLinkAttributes nested limits = .ok ())

include hsignal

include hnested

end Widest

section Attained

variable {limits : BudgetLimits} {signal nested : Attributes} {free : Nat}

/-! With every optional field present and every other text empty, the charges are the fixed ones. -/

end Attained

/-! A record of each kind, its largest sets taken from `exists_largest_set`. -/

/-- Where the count alone limits the sets, the bound is short of the largest record even before its
free bytes: it leaves out every fixed charge. -/
theorem legalRecordBoundBytes_lt_largestRecordBytes {limits : BudgetLimits}
    (hfits : limits.BoundFits) (hsignal : 0 < limits.attributesPerSignal)
    (hsignalKeys : limits.attributesPerSignal + keyedEntryBytes ≤ limits.attributeValueBytes + 1)
    (hnested : 0 < limits.attributesPerNestedSet)
    (hnestedKeys : limits.attributesPerNestedSet + keyedEntryBytes ≤
      limits.attributeValueBytes + 1) :
    legalRecordBoundBytes limits < limits.largestRecordBytes := by
  rw [legalRecordBoundBytes_eq hfits]
  refine max_lt (lt_of_lt_of_le ?_ (le_max_left _ _))
    (lt_of_lt_of_le ?_ ((le_max_right _ _).trans (le_max_right _ _)))
  · have hfixed : 0 < spanFixedBytes := by decide
    rw [BudgetLimits.spanBoundBytes, BudgetLimits.signalSetsBytes, BudgetLimits.largestSpanBytes,
      BudgetLimits.largestSetBytes_eq hsignal hsignalKeys,
      BudgetLimits.largestSetBytes_eq hnested hnestedKeys, Nat.mul_add, Nat.mul_add]
    omega
  · have hfixed : 0 < streamFixedBytes := by decide
    have hvectors := (min_le_left
      (limits.numericVectorEntriesPerDataPoint * quantileChargeBytes) u64Max).trans
        ((Nat.le_add_left _ _).trans (le_max_right
          (3 * structureFixedBytes + 56 + 3 * 8 +
            limits.numericVectorEntriesPerDataPoint * slotBytes wordBytesInline)
          (structureFixedBytes + 28 + 8 +
            limits.numericVectorEntriesPerDataPoint * quantileChargeBytes)))
    rw [BudgetLimits.pointBoundBytes, BudgetLimits.signalSetsBytes, BudgetLimits.largestPointBytes,
      BudgetLimits.largestSetBytes_eq hsignal hsignalKeys,
      BudgetLimits.largestSetBytes_eq hnested hnestedKeys, Nat.mul_add, pointFixedBytes]
    omega

/-! ## The law -/

namespace Pipeline

/-- A record passes: its payload the export's gates, and it the gates of its kind. -/
structure Passes (p : Pipeline) (payloadBytes : Nat) (record : StoredRecord) : Prop where
  payload : p.gate payloadBytes = .ok ()
  admission : record.PassesGates p.limits

def queueCeilingBytes : Nat := 64 * 1024 * 1024

end Pipeline

end RuntimeTrail
