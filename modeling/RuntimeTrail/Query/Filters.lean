import RuntimeTrail.Library.Bytes
import RuntimeTrail.Storage.Driver

/-!
# Records queries and their filters

A records query names one signal kind and carries that kind's filters: service,
time range, severity for logs only, and scope identity.  A filter is a predicate
over the record view; an unset one matches everything.  Every parameter joins
the canonical bytes the query's fingerprint is taken over.
-/

namespace RuntimeTrail

open Library

/-- The signal kind a records query asks for. -/
inductive SignalKind where
  | spans
  | logRecords
  | metricPoints
deriving DecidableEq

/-- The kind's byte in the canonical query description. -/
def SignalKind.tag : SignalKind → UInt8
  | spans => 0
  | logRecords => 1
  | metricPoints => 2

/-- One record the engine returns: the record, shared as stored. -/
inductive RecordView where
  | span (record : Arc Span)
  | logRecord (record : Arc LogRecord)
  | metricPoint (point : Arc MetricPoint) (stream : StreamIdentity)

namespace RecordView

/-- Where the shared record is stored. -/
def addr : RecordView → Nat
  | span record => record.addr
  | logRecord record => record.addr
  | metricPoint point _ => point.addr

/-- The record's resource: its own, or its stream's. -/
def resourceOf : RecordView → Resource
  | span record => record.val.resource
  | logRecord record => record.val.resource
  | metricPoint _ stream => stream.resource

/-- The record's scope: its own, or its stream's. -/
def scopeOf : RecordView → InstrumentationScope
  | span record => record.val.scope
  | logRecord record => record.val.scope
  | metricPoint _ stream => stream.scope

/-- The kind's time key; a log record's observation time stands in for an absent timestamp. -/
def timeKeyOf : RecordView → Option Nat
  | span record => some record.val.startTimeUnixNano
  | logRecord record => record.val.timestampUnixNano.or record.val.observedTimestampUnixNano
  | metricPoint point _ => some point.val.timeUnixNano

end RecordView

/-! ## One filter -/

/-- The resource attribute whose value names the service. -/
def serviceNameKey : String := "service.name"

/-- The presence byte of a set filter. -/
def present : UInt8 := 1

/-- The presence byte of an unset filter. -/
def absent : UInt8 := 0

/-- Appends one length-prefixed string. -/
def pushStr (bytes : List UInt8) (value : String) : List UInt8 :=
  bytes ++ writeLe 8 (min value.utf8ByteSize u64Max) ++ value.toUTF8.toList

/-- Appends an optional filter's slot: its own bytes, or the byte that says it is unset. -/
def pushSlot {F : Type} (push : List UInt8 → F → List UInt8) (bytes : List UInt8) :
    Option F → List UInt8
  | some filter => push bytes filter
  | none => bytes ++ [absent]

structure ServiceFilter where
  name : String
deriving DecidableEq

namespace ServiceFilter

/-- Only a present string value names a service. -/
def matchesView (filter : ServiceFilter) (record : RecordView) : Bool :=
  match record.resourceOf.attributes.get serviceNameKey with
  | some (.string name) => name == filter.name
  | _ => false

def pushCanonical (bytes : List UInt8) (filter : ServiceFilter) : List UInt8 :=
  pushStr (bytes ++ [present]) filter.name

end ServiceFilter

/-- The half-open window `[start, stop)` in nanoseconds. -/
structure TimeRangeFilter where
  start : Nat
  stop : Nat
deriving DecidableEq

namespace TimeRangeFilter

/-- A record with no time key is outside any window. -/
def matchesView (filter : TimeRangeFilter) (record : RecordView) : Bool :=
  match record.timeKeyOf with
  | some time => decide (filter.start ≤ time) && decide (time < filter.stop)
  | none => false

def pushCanonical (bytes : List UInt8) (filter : TimeRangeFilter) : List UInt8 :=
  bytes ++ [present] ++ writeLe 8 filter.start ++ writeLe 8 filter.stop

end TimeRangeFilter

structure SeverityFilter where
  minimum : SeverityNumber
deriving DecidableEq

namespace SeverityFilter

/-- Logs only, and only those that carry a severity number. -/
def matchesView (filter : SeverityFilter) : RecordView → Bool
  | .logRecord record =>
    match record.val.severityNumber with
    | some severity => decide (filter.minimum.number ≤ severity.number)
    | none => false
  | _ => false

def pushCanonical (bytes : List UInt8) (filter : SeverityFilter) : List UInt8 :=
  bytes ++ [present] ++ [UInt8.ofNat filter.minimum.number]

end SeverityFilter

structure ScopeFilter where
  name : String
  version : Option String
deriving DecidableEq

namespace ScopeFilter

/-- An absent version never equals the empty string. -/
def matchesView (filter : ScopeFilter) (record : RecordView) : Bool :=
  record.scopeOf.name == filter.name && record.scopeOf.version == filter.version

def pushCanonical (bytes : List UInt8) (filter : ScopeFilter) : List UInt8 :=
  let bytes := pushStr (bytes ++ [present]) filter.name
  match filter.version with
  | some version => pushStr (bytes ++ [present]) version
  | none => bytes ++ [absent]

end ScopeFilter

/-! ## A kind's filters -/

structure SpanFilters where
  service : Option ServiceFilter
  timeRange : Option TimeRangeFilter
  scope : Option ScopeFilter
deriving DecidableEq

structure LogFilters where
  service : Option ServiceFilter
  timeRange : Option TimeRangeFilter
  severity : Option SeverityFilter
  scope : Option ScopeFilter
deriving DecidableEq

structure MetricFilters where
  service : Option ServiceFilter
  timeRange : Option TimeRangeFilter
  scope : Option ScopeFilter
deriving DecidableEq

namespace SpanFilters

def allNone : SpanFilters := ⟨none, none, none⟩

def matchesView (filters : SpanFilters) (view : RecordView) : Bool :=
  filters.service.all (·.matchesView view) && filters.timeRange.all (·.matchesView view) &&
    filters.scope.all (·.matchesView view)

def pushCanonical (bytes : List UInt8) (filters : SpanFilters) : List UInt8 :=
  let bytes := pushSlot ServiceFilter.pushCanonical bytes filters.service
  let bytes := pushSlot TimeRangeFilter.pushCanonical bytes filters.timeRange
  pushSlot ScopeFilter.pushCanonical bytes filters.scope

end SpanFilters

namespace LogFilters

def allNone : LogFilters := ⟨none, none, none, none⟩

def matchesView (filters : LogFilters) (view : RecordView) : Bool :=
  filters.service.all (·.matchesView view) && filters.timeRange.all (·.matchesView view) &&
    filters.severity.all (·.matchesView view) && filters.scope.all (·.matchesView view)

def pushCanonical (bytes : List UInt8) (filters : LogFilters) : List UInt8 :=
  let bytes := pushSlot ServiceFilter.pushCanonical bytes filters.service
  let bytes := pushSlot TimeRangeFilter.pushCanonical bytes filters.timeRange
  let bytes := pushSlot SeverityFilter.pushCanonical bytes filters.severity
  pushSlot ScopeFilter.pushCanonical bytes filters.scope

end LogFilters

namespace MetricFilters

def allNone : MetricFilters := ⟨none, none, none⟩

def matchesView (filters : MetricFilters) (view : RecordView) : Bool :=
  filters.service.all (·.matchesView view) && filters.timeRange.all (·.matchesView view) &&
    filters.scope.all (·.matchesView view)

def pushCanonical (bytes : List UInt8) (filters : MetricFilters) : List UInt8 :=
  let bytes := pushSlot ServiceFilter.pushCanonical bytes filters.service
  let bytes := pushSlot TimeRangeFilter.pushCanonical bytes filters.timeRange
  pushSlot ScopeFilter.pushCanonical bytes filters.scope

end MetricFilters

/-- The filters a records query carries, tagged with their kind. -/
inductive RecordsFilters where
  | spans (filters : SpanFilters)
  | logRecords (filters : LogFilters)
  | metricPoints (filters : MetricFilters)
deriving DecidableEq

namespace RecordsFilters

/-- The kind a filter set is tagged with. -/
def kind : RecordsFilters → SignalKind
  | spans _ => .spans
  | logRecords _ => .logRecords
  | metricPoints _ => .metricPoints

/-- A filter set that cannot name a view does not filter it out. -/
def matchesView : RecordsFilters → RecordView → Bool
  | spans filters, .span record => filters.matchesView (.span record)
  | logRecords filters, .logRecord record => filters.matchesView (.logRecord record)
  | metricPoints filters, .metricPoint point stream => filters.matchesView (.metricPoint point stream)
  | _, _ => true

def pushCanonical (bytes : List UInt8) : RecordsFilters → List UInt8
  | spans filters => filters.pushCanonical bytes
  | logRecords filters => filters.pushCanonical bytes
  | metricPoints filters => filters.pushCanonical bytes

end RecordsFilters

/-! ## The query -/

/-- The query description's tag byte. -/
def queryTag : UInt8 := 81

/-- The query description's version byte. -/
def queryVersion : UInt8 := 2

/-- A records query: a signal kind and that kind's filters. -/
structure RecordsQuery where
  kind : SignalKind
  filters : RecordsFilters
  paired : filters.kind = kind
deriving DecidableEq

namespace RecordsQuery

/-- A query over one kind, filtering nothing. -/
def new : SignalKind → RecordsQuery
  | .spans => ⟨.spans, .spans .allNone, rfl⟩
  | .logRecords => ⟨.logRecords, .logRecords .allNone, rfl⟩
  | .metricPoints => ⟨.metricPoints, .metricPoints .allNone, rfl⟩

def spans (filters : SpanFilters) : RecordsQuery := ⟨.spans, .spans filters, rfl⟩

def logs (filters : LogFilters) : RecordsQuery := ⟨.logRecords, .logRecords filters, rfl⟩

def metricPoints (filters : MetricFilters) : RecordsQuery :=
  ⟨.metricPoints, .metricPoints filters, rfl⟩

/-- The canonical query description: tag, version, kind, then every filter field. -/
def canonicalBytes (query : RecordsQuery) : List UInt8 :=
  query.filters.pushCanonical [queryTag, queryVersion, query.kind.tag]

/-- A query that filters nothing matches every record. -/
theorem new_matchesView (kind : SignalKind) (view : RecordView) :
    (new kind).filters.matchesView view = true := by
  cases kind <;> cases view <;> rfl

end RecordsQuery

end RuntimeTrail
