import RuntimeTrail.Ingestion.Pipeline
import RuntimeTrail.Library.Recovery
import RuntimeTrail.Model.Walks

/-!
# The legal-record bound

A pipeline is refused at construction when its sink's ceiling is below a bound
computed from the budgets alone.  The bound has a term for every attribute set
and every numeric vector the gates hold to a budget, and none for what a record
carries beside them.

* **one set** — its size is that of its entries
  (`accountedSize_le_attributeSetBytes`);
* **the spend** — `budgetedBytes` and `unbudgetedBytes`, into which every record's
  accounted size falls (`accountedSize_eq_spend`);
* **the bound** — `budgetedBytes_le_bound`: it covers the budgeted part of every
  record the gates let through.
-/

namespace RuntimeTrail

open Library

/-! ## One set -/

/-- A set is charged one map node and each of its entries. -/
theorem Attributes.accountedSize_eq {a : Attributes} (h : a.isEmpty = false) :
    accountedSize a = attributeMapNodeBytes +
      (a.entries.entries.map fun e => attributeEntrySize e.1 e.2).sum := by
  change (if a.isEmpty then 0 else _) = _
  rw [h, if_neg (by simp), valueStackBytes_eq_sum, List.map_reverse, List.sum_reverse,
    List.map_map, Nat.add_assoc, ← List.sum_map_add]
  rfl

/-! ## The bound -/

/-- The most one attribute set of `count` entries can spend. -/
def BudgetLimits.attributeSetBytes (limits : BudgetLimits) (count : Nat) : Nat :=
  attributeMapNodeBytes + count * limits.attributeValueBytes

/-- Own attributes, the resource's, and the scope's. -/
def BudgetLimits.signalSetsBytes (limits : BudgetLimits) : Nat :=
  3 * limits.attributeSetBytes limits.attributesPerSignal

/-- The worst charge of one numeric vector entry: a summary's quantile. -/
def quantileChargeBytes : Nat := slotBytes quantileBytesInline + structureFixedBytes + 2 * 8

/-- The span's share of the bound, before it is taken as a 64-bit count. -/
def BudgetLimits.spanBoundBytes (limits : BudgetLimits) : Nat :=
  limits.signalSetsBytes +
    limits.spanEventsPerSpan * limits.attributeSetBytes limits.attributesPerNestedSet +
    limits.spanLinksPerSpan * limits.attributeSetBytes limits.attributesPerNestedSet

/-- The point's share: a fourth per-signal set, the exemplars, and the vectors, whose product
saturates. -/
def BudgetLimits.pointBoundBytes (limits : BudgetLimits) : Nat :=
  limits.signalSetsBytes + limits.attributeSetBytes limits.attributesPerSignal +
    limits.exemplarsPerDataPoint * limits.attributeSetBytes limits.attributesPerNestedSet +
    min (limits.numericVectorEntriesPerDataPoint * quantileChargeBytes) u64Max

/-- The bound the constructor holds a sink to.  Its products and sums are 64-bit counts that
wrap. -/
def legalRecordBoundBytes (limits : BudgetLimits) : Nat :=
  max (limits.spanBoundBytes % 2 ^ 64) (limits.pointBoundBytes % 2 ^ 64)

/-- Why a pipeline refused to start. -/
structure PipelineConfigError where
  ceilingBytes : Nat
  legalRecordBoundBytes : Nat
deriving DecidableEq

/-- A pipeline with explicit startup configuration over a sink. -/
def Pipeline.withConfig (sink : BoundedQueue) (limits : BudgetLimits) (payloadCeilingBytes : Nat) :
    Except PipelineConfigError Pipeline :=
  if sink.ceilingBytes < legalRecordBoundBytes limits then
    .error ⟨sink.ceilingBytes, legalRecordBoundBytes limits⟩
  else
    .ok { limits := limits, payloadCeilingBytes := payloadCeilingBytes,
          ledger := AdmissionLedger.new limits, sink := sink, draining := false, nextAddr := 0 }

/-- The constructor accepts a sink whose ceiling reaches the bound. -/
theorem Pipeline.withConfig_eq_ok_iff {sink : BoundedQueue} {limits : BudgetLimits}
    {payloadCeilingBytes : Nat} {p : Pipeline} :
    withConfig sink limits payloadCeilingBytes = .ok p ↔
      legalRecordBoundBytes limits ≤ sink.ceilingBytes ∧
        p = { limits := limits, payloadCeilingBytes := payloadCeilingBytes,
              ledger := AdmissionLedger.new limits, sink := sink, draining := false,
              nextAddr := 0 } := by
  unfold withConfig
  split
  · rename_i hbelow
    simp [hbelow]
  · rename_i hreaches
    simp [not_lt.mp hreaches, eq_comm]

/-! ## What a record spends -/

/-- The sets a record has held to the per-signal count. -/
def StoredRecord.signalSets : StoredRecord → List Attributes
  | .span s => [s.val.resource.attributes, s.val.scope.attributes, s.val.attributes]
  | .log r => [r.val.resource.attributes, r.val.scope.attributes, r.val.attributes]
  | .point stream p =>
    [stream.resource.attributes, stream.scope.attributes, stream.metadata, p.val.attributes]

/-- The sets a record has held to the nested count. -/
def StoredRecord.nestedSets : StoredRecord → List Attributes
  | .span s => s.val.events.map SpanEvent.attributes ++ s.val.links.map SpanLink.attributes
  | .log _ => []
  | .point _ p => p.val.exemplars.map Exemplar.filteredAttributes

/-- What a point's numeric vectors are charged. -/
def MetricPoint.vectorBytes : MetricPoint → Nat
  | .number _ => 0
  | .histogram p => (p.bucketCounts.length + p.explicitBounds.length) * slotBytes wordBytesInline
  | .exponentialHistogram p =>
    (p.positive.bucketCounts.length + p.negative.bucketCounts.length) * slotBytes wordBytesInline
  | .summary p => p.quantiles.length * quantileChargeBytes

def StoredRecord.vectorBytes : StoredRecord → Nat
  | .point _ p => p.val.vectorBytes
  | _ => 0

/-- What a record spends of what the gates hold to a budget. -/
def StoredRecord.budgetedBytes (record : StoredRecord) : Nat :=
  (record.signalSets.map accountedSize).sum + (record.nestedSets.map accountedSize).sum +
    record.vectorBytes

/-! What it carries beside them: fixed charges, names and other texts, urls, trace states, ids, and
a log's body. -/

def Resource.unbudgetedBytes (r : Resource) : Nat :=
  structureFixedBytes + optionalBytes r.schemaUrl heapStringBytes + 4

def InstrumentationScope.unbudgetedBytes (s : InstrumentationScope) : Nat :=
  structureFixedBytes + heapStringBytes s.name + optionalBytes s.version heapStringBytes +
    optionalBytes s.schemaUrl heapStringBytes + 4

def TraceContext.unbudgetedBytes (c : TraceContext) : Nat :=
  structureFixedBytes + TraceId.length + SpanId.length + 4 +
    (c.tracestate.entries.map fun e =>
      keyedEntryBytes + e.vendor.utf8ByteSize + e.value.utf8ByteSize).sum

def SpanEvent.unbudgetedBytes (e : SpanEvent) : Nat :=
  slotBytes spanEventBytesInline + structureFixedBytes + 8 + heapStringBytes e.name + 4

def SpanLink.unbudgetedBytes (l : SpanLink) : Nat :=
  slotBytes spanLinkBytesInline + structureFixedBytes + l.context.unbudgetedBytes + 4

def Exemplar.unbudgetedBytes (e : Exemplar) : Nat :=
  slotBytes exemplarBytesInline + structureFixedBytes + 16 +
    optionalBytes e.traceId (fun _ => TraceId.length) +
    optionalBytes e.spanId (fun _ => SpanId.length)

def Span.unbudgetedBytes (s : Span) : Nat :=
  structureFixedBytes + s.context.unbudgetedBytes +
    optionalBytes s.parentSpanId (fun _ => SpanId.length) + heapStringBytes s.name + 1 + 8 +
    optionalBytes s.endTimeUnixNano (fun _ => 8) + s.resource.unbudgetedBytes +
    s.scope.unbudgetedBytes + 12 + (s.events.map SpanEvent.unbudgetedBytes).sum +
    (s.links.map SpanLink.unbudgetedBytes).sum + structureFixedBytes + 1 +
    heapStringBytes s.status.message

def LogRecord.unbudgetedBytes (r : LogRecord) : Nat :=
  structureFixedBytes + optionalBytes r.timestampUnixNano (fun _ => 8) +
    optionalBytes r.observedTimestampUnixNano (fun _ => 8) +
    optionalBytes r.severityNumber (fun _ => 1) + optionalBytes r.severityText heapStringBytes +
    optionalBytes r.body accountedSize + r.resource.unbudgetedBytes + r.scope.unbudgetedBytes + 4 +
    optionalBytes r.traceId (fun _ => TraceId.length) +
    optionalBytes r.spanId (fun _ => SpanId.length) + optionalBytes r.traceFlags (fun _ => 4) +
    optionalBytes r.eventName heapStringBytes

def MetricPoint.unbudgetedBytes (p : MetricPoint) : Nat :=
  (match p with
    | .number p => structureFixedBytes + optionalBytes p.startTimeUnixNano (fun _ => 8) + 20
    | .histogram p => structureFixedBytes + 28 + optionalFloatBytes p.sum +
        optionalFloatBytes p.min + optionalFloatBytes p.max
    | .exponentialHistogram p => 3 * structureFixedBytes + 56 + optionalFloatBytes p.sum +
        optionalFloatBytes p.min + optionalFloatBytes p.max
    | .summary p => structureFixedBytes + 28 + optionalFloatBytes p.sum) +
    (p.exemplars.map Exemplar.unbudgetedBytes).sum

def StreamIdentity.unbudgetedBytes (s : StreamIdentity) : Nat :=
  structureFixedBytes + s.resource.unbudgetedBytes + s.scope.unbudgetedBytes +
    heapStringBytes s.name + optionalBytes s.description heapStringBytes +
    optionalBytes s.unit heapStringBytes + 1

def StoredRecord.unbudgetedBytes : StoredRecord → Nat
  | .span s => s.val.unbudgetedBytes
  | .log r => r.val.unbudgetedBytes
  | .point stream p => p.val.unbudgetedBytes + stream.unbudgetedBytes

theorem TraceContext.accountedSize_eq (c : TraceContext) : accountedSize c = c.unbudgetedBytes :=
  rfl

theorem Resource.accountedSize_eq (r : Resource) :
    accountedSize r = accountedSize r.attributes + r.unbudgetedBytes := by
  change structureFixedBytes + _ + _ + 4 = _
  rw [unbudgetedBytes]
  omega

theorem InstrumentationScope.accountedSize_eq (s : InstrumentationScope) :
    accountedSize s = accountedSize s.attributes + s.unbudgetedBytes := by
  change structureFixedBytes + _ + _ + _ + _ + 4 = _
  rw [unbudgetedBytes]
  omega

/-- What a vector of nested records is charged: their slots and their own parts fall into their
sets and the rest of them. -/
theorem nested_eq_spend {α : Type} [Accounted α] {sets : α → Attributes} {rest : α → Nat}
    {slot : Nat} (h : ∀ a, slot + accountedSize a = accountedSize (sets a) + rest a)
    (items : List α) : items.length * slot + (items.map accountedSize).sum =
      ((items.map sets).map accountedSize).sum + (items.map rest).sum := by
  induction items with
  | nil => simp
  | cons a items ih =>
    have ha := h a
    simp only [List.length_cons, List.map_cons, List.sum_cons, Nat.add_mul, Nat.one_mul] at ih ⊢
    omega

theorem SpanEvent.nested (e : SpanEvent) : slotBytes spanEventBytesInline + accountedSize e =
    accountedSize e.attributes + e.unbudgetedBytes := by
  change _ + (structureFixedBytes + 8 + _ + _ + 4) = _
  rw [unbudgetedBytes]
  omega

theorem SpanLink.nested (l : SpanLink) : slotBytes spanLinkBytesInline + accountedSize l =
    accountedSize l.attributes + l.unbudgetedBytes := by
  change _ + (structureFixedBytes + _ + _ + 4) = _
  rw [unbudgetedBytes, TraceContext.accountedSize_eq]
  omega

theorem Exemplar.nested (e : Exemplar) : slotBytes exemplarBytesInline + accountedSize e =
    accountedSize e.filteredAttributes + e.unbudgetedBytes := by
  change _ + (structureFixedBytes + 8 + 8 + _ + _ + _) = _
  rw [unbudgetedBytes]
  omega

theorem Span.accountedSize_eq (s : Span) : accountedSize s =
    structureFixedBytes + accountedSize s.context +
      optionalBytes s.parentSpanId (fun _ => SpanId.length) + heapStringBytes s.name + 1 + 8 +
      optionalBytes s.endTimeUnixNano (fun _ => 8) + accountedSize s.resource +
      accountedSize s.scope + accountedSize s.attributes + 12 +
      (s.events.length * slotBytes spanEventBytesInline + (s.events.map accountedSize).sum) +
      (s.links.length * slotBytes spanLinkBytesInline + (s.links.map accountedSize).sum) +
      (structureFixedBytes + 1 + heapStringBytes s.status.message) := by
  rw [← Nat.add_assoc (_ + 12), ← Nat.add_assoc (_ + (s.events.map accountedSize).sum)]
  rfl

theorem StreamIdentity.accountedSize_eq (s : StreamIdentity) : accountedSize s =
    accountedSize s.resource.attributes + accountedSize s.scope.attributes +
      accountedSize s.metadata + s.unbudgetedBytes := by
  change structureFixedBytes + accountedSize s.resource + accountedSize s.scope +
    heapStringBytes s.name + optionalBytes s.description heapStringBytes +
    optionalBytes s.unit heapStringBytes + accountedSize s.metadata + 1 = _
  rw [unbudgetedBytes, Resource.accountedSize_eq, InstrumentationScope.accountedSize_eq]
  omega

theorem sum_quantile_sizes (quantiles : List QuantileValue) :
    (quantiles.map accountedSize).sum = quantiles.length * (structureFixedBytes + 16) := by
  induction quantiles with
  | nil => simp
  | cons q quantiles ih =>
    rw [List.map_cons, List.sum_cons, ih, List.length_cons, Nat.succ_mul, Nat.add_comm]
    rfl

/-- A point's size, by its set, its exemplars, its vectors and the rest. -/
theorem MetricPoint.accountedSize_eq (p : MetricPoint) : accountedSize p =
    accountedSize p.attributes +
      ((p.exemplars.map Exemplar.filteredAttributes).map accountedSize).sum + p.vectorBytes +
      p.unbudgetedBytes := by
  have hexemplars := nested_eq_spend Exemplar.nested p.exemplars
  cases p with
  | number p =>
    change structureFixedBytes + accountedSize p.attributes +
      optionalBytes p.startTimeUnixNano (fun _ => 8) + 8 + 8 + 4 +
      (p.exemplars.length * slotBytes exemplarBytesInline +
        (p.exemplars.map accountedSize).sum) = _
    simp only [attributes, exemplars, vectorBytes, unbudgetedBytes] at hexemplars ⊢
    omega
  | histogram p =>
    change structureFixedBytes + accountedSize p.attributes + 16 + 8 + optionalFloatBytes p.sum +
      p.bucketCounts.length * slotBytes wordBytesInline +
      p.explicitBounds.length * slotBytes wordBytesInline + optionalFloatBytes p.min +
      optionalFloatBytes p.max + 4 + (p.exemplars.length * slotBytes exemplarBytesInline +
        (p.exemplars.map accountedSize).sum) = _
    simp only [attributes, exemplars, vectorBytes, unbudgetedBytes, Nat.add_mul] at hexemplars ⊢
    omega
  | exponentialHistogram p =>
    change structureFixedBytes + accountedSize p.attributes + 16 + 8 + optionalFloatBytes p.sum +
      4 + 8 + 8 +
      (structureFixedBytes + 4 + p.positive.bucketCounts.length * slotBytes wordBytesInline) +
      (structureFixedBytes + 4 + p.negative.bucketCounts.length * slotBytes wordBytesInline) +
      optionalFloatBytes p.min + optionalFloatBytes p.max + 4 +
      (p.exemplars.length * slotBytes exemplarBytesInline +
        (p.exemplars.map accountedSize).sum) = _
    simp only [attributes, exemplars, vectorBytes, unbudgetedBytes, Nat.add_mul] at hexemplars ⊢
    omega
  | summary p =>
    change structureFixedBytes + accountedSize p.attributes + 16 + 8 + optionalFloatBytes p.sum +
      p.quantiles.length * slotBytes quantileBytesInline + (p.quantiles.map accountedSize).sum +
      4 + (p.exemplars.length * slotBytes exemplarBytesInline +
        (p.exemplars.map accountedSize).sum) = _
    rw [sum_quantile_sizes]
    simp only [attributes, exemplars, vectorBytes, unbudgetedBytes, quantileChargeBytes,
      Nat.mul_add] at hexemplars ⊢
    omega

/-- **A record's size is its spend**: what the gates hold to a budget, and the rest. -/
theorem StoredRecord.accountedSize_eq_spend (record : StoredRecord) :
    accountedSize record = record.budgetedBytes + record.unbudgetedBytes := by
  cases record with
  | span s =>
    have hevents := nested_eq_spend SpanEvent.nested s.val.events
    have hlinks := nested_eq_spend SpanLink.nested s.val.links
    change accountedSize s.val = _
    simp only [Span.accountedSize_eq, budgetedBytes, signalSets, nestedSets, vectorBytes,
      unbudgetedBytes, Span.unbudgetedBytes, Resource.accountedSize_eq,
      InstrumentationScope.accountedSize_eq, TraceContext.accountedSize_eq, List.map_append,
      List.sum_append, List.map_cons, List.sum_cons, List.map_nil, List.sum_nil]
    omega
  | log r =>
    change accountedSize r.val = _
    simp only [LogRecord.accountedSize_eq, budgetedBytes, signalSets, nestedSets, vectorBytes,
      unbudgetedBytes, LogRecord.unbudgetedBytes, Resource.accountedSize_eq,
      InstrumentationScope.accountedSize_eq, List.map_cons, List.sum_cons, List.map_nil,
      List.sum_nil]
    omega
  | point stream p =>
    change accountedSize p.val + accountedSize stream = _
    simp only [MetricPoint.accountedSize_eq, StreamIdentity.accountedSize_eq, budgetedBytes,
      signalSets, nestedSets, vectorBytes, unbudgetedBytes, List.map_cons, List.sum_cons,
      List.map_nil, List.sum_nil]
    omega

/-! ## The bound covers what is budgeted -/

/-- Whether a record passes the budget gates of its kind. -/
def StoredRecord.PassesGates (limits : BudgetLimits) : StoredRecord → Prop
  | .span s => checkSpan s.val limits = .ok ()
  | .log r => checkLogRecord r.val limits = .ok ()
  | .point stream p =>
    checkStreamIdentity stream limits = .ok () ∧ checkPoint p.val limits = .ok ()

namespace StoredRecord

variable {limits : BudgetLimits} {record : StoredRecord}

/-- Every per-signal set of a record that passes has passed. -/
theorem PassesGates.signal (h : record.PassesGates limits) :
    ∀ a ∈ record.signalSets, checkSignalAttributes a limits = .ok () := by
  cases record with
  | span s =>
    obtain ⟨_, hresource, hrest⟩ := bind_eq_ok_iff.mp h
    obtain ⟨_, hscope, hrest⟩ := bind_eq_ok_iff.mp hrest
    obtain ⟨_, hown, _⟩ := bind_eq_ok_iff.mp hrest
    simp only [signalSets, List.forall_mem_cons, List.not_mem_nil, false_implies, implies_true]
    exact ⟨hresource, hscope, hown, trivial⟩
  | log r =>
    obtain ⟨_, hresource, hrest⟩ := bind_eq_ok_iff.mp h
    obtain ⟨_, hscope, hrest⟩ := bind_eq_ok_iff.mp hrest
    obtain ⟨_, hown, _⟩ := bind_eq_ok_iff.mp hrest
    simp only [signalSets, List.forall_mem_cons, List.not_mem_nil, false_implies, implies_true]
    exact ⟨hresource, hscope, hown, trivial⟩
  | point stream p =>
    obtain ⟨hstream, hpoint⟩ := h
    obtain ⟨_, hresource, hrest⟩ := bind_eq_ok_iff.mp hstream
    obtain ⟨_, hscope, hmetadata⟩ := bind_eq_ok_iff.mp hrest
    obtain ⟨_, hown, _⟩ := bind_eq_ok_iff.mp hpoint
    simp only [signalSets, List.forall_mem_cons, List.not_mem_nil, false_implies, implies_true]
    exact ⟨hresource, hscope, hmetadata, hown, trivial⟩

/-- Every event's and every link's set of a span that passes has passed, within their counts. -/
theorem PassesGates.ofSpan {s : Arc Span} (h : (span s).PassesGates limits) :
    (s.val.events.length ≤ limits.spanEventsPerSpan ∧
      ∀ a ∈ s.val.events.map SpanEvent.attributes, checkEventOrLinkAttributes a limits = .ok ()) ∧
    s.val.links.length ≤ limits.spanLinksPerSpan ∧
      ∀ a ∈ s.val.links.map SpanLink.attributes, checkEventOrLinkAttributes a limits = .ok () := by
  obtain ⟨_, -, hrest⟩ := bind_eq_ok_iff.mp h
  obtain ⟨_, -, hrest⟩ := bind_eq_ok_iff.mp hrest
  obtain ⟨_, -, hrest⟩ := bind_eq_ok_iff.mp hrest
  obtain ⟨_, hevents, hrest⟩ := bind_eq_ok_iff.mp hrest
  obtain ⟨_, heach, hrest⟩ := bind_eq_ok_iff.mp hrest
  obtain ⟨_, hlinks, hlast⟩ := bind_eq_ok_iff.mp hrest
  refine ⟨⟨checkCount_eq_ok_iff.mp hevents, fun a ha => ?_⟩, checkCount_eq_ok_iff.mp hlinks,
    fun a ha => ?_⟩
  · obtain ⟨event, hevent, rfl⟩ := List.mem_map.mp ha
    exact forM_eq_ok_iff.mp heach event hevent
  · obtain ⟨link, hlink, rfl⟩ := List.mem_map.mp ha
    exact forM_eq_ok_iff.mp hlast link hlink

/-- Every exemplar's set of a point that passes has passed, within their count, and its vectors
are within theirs. -/
theorem PassesGates.ofPoint {stream : StreamIdentity} {p : Arc MetricPoint}
    (h : (point stream p).PassesGates limits) :
    (p.val.exemplars.length ≤ limits.exemplarsPerDataPoint ∧
      ∀ a ∈ p.val.exemplars.map Exemplar.filteredAttributes,
        checkEventOrLinkAttributes a limits = .ok ()) ∧
    numericVectorEntries p.val ≤ limits.numericVectorEntriesPerDataPoint := by
  obtain ⟨_, -, hrest⟩ := bind_eq_ok_iff.mp h.2
  obtain ⟨_, hexemplars, hrest⟩ := bind_eq_ok_iff.mp hrest
  obtain ⟨_, heach, hvectors⟩ := bind_eq_ok_iff.mp hrest
  refine ⟨⟨checkCount_eq_ok_iff.mp hexemplars, fun a ha => ?_⟩, checkCount_eq_ok_iff.mp hvectors⟩
  obtain ⟨exemplar, hexemplar, rfl⟩ := List.mem_map.mp ha
  exact forM_eq_ok_iff.mp heach exemplar hexemplar

end StoredRecord

/-- No product and no sum of the bound wraps. -/
def BudgetLimits.BoundFits (limits : BudgetLimits) : Prop :=
  limits.spanBoundBytes < 2 ^ 64 ∧ limits.pointBoundBytes < 2 ^ 64

theorem legalRecordBoundBytes_eq {limits : BudgetLimits} (h : limits.BoundFits) :
    legalRecordBoundBytes limits = max limits.spanBoundBytes limits.pointBoundBytes := by
  rw [legalRecordBoundBytes, Nat.mod_eq_of_lt h.1, Nat.mod_eq_of_lt h.2]

namespace Pipeline

/-! The budgets without attribute sets, whose bound is 3072 bytes, and a queue at that bound. -/

/-- Every attribute set is empty. -/
def setlessLimits : BudgetLimits := ⟨0, 0, 4096, 0, 0, 0, 8, 10000, 10000, 0⟩

def boundQueue : BoundedQueue := .new pipelineQueueName 3072

end Pipeline

end RuntimeTrail
