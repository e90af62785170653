import RuntimeTrail.Model.Size

/-!
# Budgets and the admission gates

The numeric limits a session is started with, and the checks that hold one
record to them.  A budget exceeded is a refusal that names the budget, its limit
and the spend observed, never a truncation; the first budget a record trips is
the one named.

Every gate is built from one check of an attribute set: its count first, then
each entry in key order, its size before its depth.
-/

namespace RuntimeTrail

open Library

/-- The numeric limits the admission gates check against. -/
structure BudgetLimits where
  attributesPerSignal : Nat
  attributesPerNestedSet : Nat
  attributeValueBytes : Nat
  spanEventsPerSpan : Nat
  spanLinksPerSpan : Nat
  exemplarsPerDataPoint : Nat
  keyValueListDepth : Nat
  dataPointsPerExport : Nat
  recordsPerExport : Nat
  numericVectorEntriesPerDataPoint : Nat
deriving DecidableEq

/-- The contract's numbers. -/
def BudgetLimits.default : BudgetLimits where
  attributesPerSignal := 256
  attributesPerNestedSet := 64
  attributeValueBytes := 4 * 1024
  spanEventsPerSpan := 128
  spanLinksPerSpan := 32
  exemplarsPerDataPoint := 4
  keyValueListDepth := 8
  dataPointsPerExport := 10000
  recordsPerExport := 10000
  numericVectorEntriesPerDataPoint := 100000

/-- The names admission can refuse a record by. -/
inductive BudgetName where
  | attributesPerSignal
  | attributesPerNestedSet
  | attributeValueSize
  | eventsPerSpan
  | linksPerSpan
  | exemplarsPerDataPoint
  | keyValueListDepth
  | dataPointsPerExport
  | recordsPerExport
  | numericVectorEntriesPerDataPoint
deriving DecidableEq

/-- The slug wire signals and logs name a budget by. -/
def BudgetName.slug : BudgetName → String
  | attributesPerSignal => "attributes_per_signal"
  | attributesPerNestedSet => "attributes_per_nested_set"
  | attributeValueSize => "attribute_value_size"
  | eventsPerSpan => "events_per_span"
  | linksPerSpan => "links_per_span"
  | exemplarsPerDataPoint => "exemplars_per_data_point"
  | keyValueListDepth => "key_value_list_depth"
  | dataPointsPerExport => "data_points_per_export"
  | recordsPerExport => "records_per_export"
  | numericVectorEntriesPerDataPoint => "numeric_vector_entries_per_data_point"

/-- A budget refused the record: which one, its limit, and the spend observed against it. -/
structure BudgetRejection where
  budget : BudgetName
  limit : Nat
  observed : Nat
deriving DecidableEq

/-- What a gate answers. -/
abbrev Gate := Except BudgetRejection Unit

/-- Refuse a count past its limit. -/
def checkCount (budget : BudgetName) (limit count : Nat) : Gate :=
  if count > limit then .error ⟨budget, limit, count⟩ else .ok ()

/-- The nesting budget; the spend observed is a truthful lower bound. -/
def checkValueDepth (value : Value) (limits : BudgetLimits) : Gate :=
  let limit := limits.keyValueListDepth
  if value.exceedsNesting limit then .error ⟨.keyValueListDepth, limit, limit + 1⟩ else .ok ()

/-- One attribute entry: the whole entry is the spend, then its nesting. -/
def checkAttributeEntry (key : String) (value : Value) (limits : BudgetLimits) : Gate := do
  checkCount .attributeValueSize limits.attributeValueBytes (attributeEntrySize key value)
  checkValueDepth value limits

/-- One attribute set against one of the two count budgets, and every entry of it. -/
def checkAttributeSet (attributes : Attributes) (countBudget : BudgetName) (limit : Nat)
    (limits : BudgetLimits) : Gate := do
  checkCount countBudget limit attributes.len
  attributes.entries.entries.forM fun e => checkAttributeEntry e.1 e.2 limits

/-- An attribute set held to the per-signal count. -/
def checkSignalAttributes (attributes : Attributes) (limits : BudgetLimits) : Gate :=
  checkAttributeSet attributes .attributesPerSignal limits.attributesPerSignal limits

/-- An event's, a link's or an exemplar's attribute set. -/
def checkEventOrLinkAttributes (attributes : Attributes) (limits : BudgetLimits) : Gate :=
  checkAttributeSet attributes .attributesPerNestedSet limits.attributesPerNestedSet limits

def checkResource (resource : Resource) (limits : BudgetLimits) : Gate :=
  checkSignalAttributes resource.attributes limits

/-- A scope's set is held to the general per-signal cap. -/
def checkScope (scope : InstrumentationScope) (limits : BudgetLimits) : Gate :=
  checkSignalAttributes scope.attributes limits

/-- The admission gate for a span. -/
def checkSpan (span : Span) (limits : BudgetLimits) : Gate := do
  checkResource span.resource limits
  checkScope span.scope limits
  checkSignalAttributes span.attributes limits
  checkCount .eventsPerSpan limits.spanEventsPerSpan span.events.length
  span.events.forM fun event => checkEventOrLinkAttributes event.attributes limits
  checkCount .linksPerSpan limits.spanLinksPerSpan span.links.length
  span.links.forM fun link => checkEventOrLinkAttributes link.attributes limits

/-- The admission gate for a log record: the taxonomy caps no body, the nesting budget does. -/
def checkLogRecord (record : LogRecord) (limits : BudgetLimits) : Gate := do
  checkResource record.resource limits
  checkScope record.scope limits
  checkSignalAttributes record.attributes limits
  match record.body with
  | some body => checkValueDepth body limits
  | none => .ok ()

/-- The entries one point carries across its numeric vectors. -/
def numericVectorEntries : MetricPoint → Nat
  | .number _ => 0
  | .histogram point => point.bucketCounts.length + point.explicitBounds.length
  | .exponentialHistogram point =>
    point.positive.bucketCounts.length + point.negative.bucketCounts.length
  | .summary point => point.quantiles.length

def checkNumericVectorEntries (count : Nat) (limits : BudgetLimits) : Gate :=
  checkCount .numericVectorEntriesPerDataPoint limits.numericVectorEntriesPerDataPoint count

/-- The admission gate for one metric data point. -/
def checkPoint (point : MetricPoint) (limits : BudgetLimits) : Gate := do
  checkSignalAttributes point.attributes limits
  checkCount .exemplarsPerDataPoint limits.exemplarsPerDataPoint point.exemplars.length
  point.exemplars.forM fun exemplar =>
    checkEventOrLinkAttributes exemplar.filteredAttributes limits
  checkNumericVectorEntries (numericVectorEntries point) limits

/-- The stream-level share of the gates: the sets that belong to no single point. -/
def checkStreamIdentity (stream : StreamIdentity) (limits : BudgetLimits) : Gate := do
  checkResource stream.resource limits
  checkScope stream.scope limits
  checkSignalAttributes stream.metadata limits

/-- The per-export point count; overflow rejects the whole export. -/
def checkExportPointCount (count : Nat) (limits : BudgetLimits) : Gate :=
  checkCount .dataPointsPerExport limits.dataPointsPerExport count

/-- The per-export record count; overflow rejects the whole export. -/
def checkExportRecordCount (count : Nat) (limits : BudgetLimits) : Gate :=
  checkCount .recordsPerExport limits.recordsPerExport count

theorem checkCount_eq_ok_iff {budget : BudgetName} {limit count : Nat} :
    checkCount budget limit count = .ok () ↔ count ≤ limit := by
  unfold checkCount
  split
  · rename_i h
    simpa using h
  · rename_i h
    simpa using h

end RuntimeTrail
