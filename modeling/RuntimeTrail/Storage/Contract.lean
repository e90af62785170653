import RuntimeTrail.Model.Size
import RuntimeTrail.Storage.Order

/-!
# The storage contract

What a store answers and what it reports: the outcome of a keep, the calls of
the lifecycle hook, the pages of an ordered scan, and the statistics.  The hook
runs where its owner releases a record's identity, so a driver's calls are part
of what it does: every operation of a driver returns them in the order it makes
them.
-/

namespace RuntimeTrail

/-- Why a store removed a record from residency. -/
inductive EvictionCause where
  | recordCeiling
  | accountedBytesCeiling
  | admissionWindow
deriving DecidableEq

/-- What one keep hand-off produced. -/
inductive KeepOutcome where
  | kept (evicted : Nat)
  | duplicate
  | oversized
  | seriesCapReached
  | identityOverCeiling (ceiling identityBytes : Nat)
deriving DecidableEq

/-- One call of the lifecycle hook. -/
inductive HookCall where
  | evicted (entity : EntityId)
  | streamReleased (stream : StreamIdentity)
  | keepRefused (entity : EntityId) (stream : Option StreamIdentity)

/-- One resident record as a scan yields it. -/
structure ScanItem (T : Type) where
  key : AdmissionKey
  record : T

/-- One page of an ordered scan; `cursor` is the last item's key when a record follows it. -/
structure ScanPage (T : Type) where
  items : List (ScanItem T)
  cursor : Option AdmissionKey

/-- One resident metric point and the stream identity it belongs to. -/
structure PointView where
  point : Arc MetricPoint
  stream : StreamIdentity

/-- A store's residency and retention history. -/
structure StoreStats where
  residentRecords : Nat
  residentSpans : Nat
  residentLogRecords : Nat
  residentMetricPoints : Nat
  residentStreams : Nat
  accountedBytes : Nat
  recordAccountedBytes : Nat
  identityAccountedBytes : Nat
  evictedForRecordCeiling : Nat
  evictedForAccountedBytesCeiling : Nat
  evictedForAdmissionWindow : Nat
  oversizedRefusals : Nat
  duplicateKeeps : Nat
  keptOutSeriesCap : Nat
  identityOverCeilingRefusals : Nat
  hookDeliveries : Nat
  refusedHookDeliveries : Nat
  admissionAnomalies : Nat
deriving DecidableEq

/-- Every eviction, all causes together. -/
def StoreStats.totalEvictions (s : StoreStats) : Nat :=
  s.evictedForRecordCeiling + s.evictedForAccountedBytesCeiling + s.evictedForAdmissionWindow

/-- The retention ceilings and window a store is started with; the window in nanoseconds. -/
structure RetentionConfig where
  maxRecords : Nat
  maxAccountedBytes : Nat
  admissionWindow : Nat
  seriesCap : Nat
deriving DecidableEq

/-- The window as the keep path compares it: a 64-bit count of nanoseconds. -/
def RetentionConfig.windowNanos (config : RetentionConfig) : Nat :=
  if config.admissionWindow ≤ u64Max then config.admissionWindow else u64Max

/-- The operations a store answers. -/
inductive StoreOp where
  | keepSpan (admitted : Admitted (Arc Span))
  | keepLogRecord (admitted : Admitted (Arc LogRecord))
  | keepMetricPoint (admitted : Admitted (Arc MetricPoint)) (stream : StreamIdentity)
  | enforceRetention (now : AdmissionTime)
  | observeAdmissionAnomalies (total : Nat)
  | span (entity : EntityId)
  | logRecord (entity : EntityId)
  | metricPoint (entity : EntityId)
  | scanSpans (after : Option AdmissionKey) (limit : Nat)
  | scanLogRecords (after : Option AdmissionKey) (limit : Nat)
  | scanMetricPoints (after : Option AdmissionKey) (limit : Nat)
  | stats

/-- What a store answers an operation with. -/
inductive StoreReply where
  | keep (outcome : KeepOutcome)
  | evicted (count : Nat)
  | done
  | span (record : Option (Arc Span))
  | logRecord (record : Option (Arc LogRecord))
  | metricPoint (record : Option PointView)
  | spans (page : ScanPage (Arc Span))
  | logRecords (page : ScanPage (Arc LogRecord))
  | metricPoints (page : ScanPage PointView)
  | stats (stats : StoreStats)

end RuntimeTrail
