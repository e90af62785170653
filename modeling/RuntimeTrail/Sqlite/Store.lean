import RuntimeTrail.Memory.Store

/-!
# The file-backed store

The memory mode's retention law over shelves of the same make, with every
residency change staged as a write batch and committed once per operation.  The
hook's calls are staged too: they run after the commit, in the order the changes
were made, and are counted only then.

A commit may fail.  The batch is then rolled back whole, and what is resident
stays as it is: memory is authoritative.  Whether a commit succeeds is the
environment's choice, so an operation takes it as an argument.  The serializer is
a parameter for the same reason: a record it cannot encode is resident and not in
the file.
-/

namespace RuntimeTrail

open Library

/-! ## The database -/

/-- One row of a table of records. -/
structure Row where
  admissionNano : Nat
  payload : String

/-- One row of the table of points: the point and its stream identity. -/
structure PointRow where
  admissionNano : Nat
  payload : String
  streamPayload : String

/-- The file's three tables, keyed by entity. -/
structure Tables where
  spans : ContentMap EntityId Row
  logs : ContentMap EntityId Row
  points : ContentMap EntityId PointRow

namespace Tables

def empty : Tables := ⟨ContentMap.empty, ContentMap.empty, ContentMap.empty⟩

end Tables

/-- One staged change. -/
inductive DbOp where
  | putSpan (entity : EntityId) (admittedAt : Nat) (payload : String)
  | putLog (entity : EntityId) (admittedAt : Nat) (payload : String)
  | putPoint (entity : EntityId) (admittedAt : Nat) (payload streamPayload : String)
  | deleteSpan (entity : EntityId)
  | deleteLog (entity : EntityId)
  | deletePoint (entity : EntityId)

/-- An admission time as its column stores it. -/
def admissionColumn (admittedAt : Nat) : Nat := if admittedAt ≤ i64Max then admittedAt else i64Max

namespace Tables

/-- One change against the tables. -/
def execute (tables : Tables) : DbOp → Tables
  | .putSpan entity admittedAt payload =>
    { tables with spans := tables.spans.insert entity ⟨admissionColumn admittedAt, payload⟩ }
  | .putLog entity admittedAt payload =>
    { tables with logs := tables.logs.insert entity ⟨admissionColumn admittedAt, payload⟩ }
  | .putPoint entity admittedAt payload streamPayload =>
    { tables with
      points := tables.points.insert entity
        ⟨admissionColumn admittedAt, payload, streamPayload⟩ }
  | .deleteSpan entity => { tables with spans := tables.spans.erase entity }
  | .deleteLog entity => { tables with logs := tables.logs.erase entity }
  | .deletePoint entity => { tables with points := tables.points.erase entity }

/-- Replays one staged batch as a single transaction; a failure rolls the whole batch back.  A
batch with nothing in it opens no transaction and cannot fail. -/
def commit (tables : Tables) (ops : List DbOp) (succeeds : Bool) : Except Unit Tables :=
  if ops.isEmpty then .ok tables
  else if succeeds then .ok (ops.foldl execute tables)
  else .error ()

end Tables

/-! ## The store -/

/-- The serializer of what the file holds; a value it cannot encode has no payload. -/
structure Codec where
  span : Arc Span → Option String
  logRecord : Arc LogRecord → Option String
  metricPoint : Arc MetricPoint → Option String
  streamIdentity : StreamIdentity → Option String

/-- A hook call staged during a pass and made afterwards. -/
inductive Delivery where
  | evicted (entity : EntityId)
  | streamReleased (stream : StreamIdentity)
  | refused (entity : EntityId) (stream : Option StreamIdentity)

/-- The call a delivery makes. -/
def Delivery.call : Delivery → HookCall
  | evicted entity => .evicted entity
  | streamReleased stream => .streamReleased stream
  | refused entity stream => .keepRefused entity stream

/-- The state behind the store's lock. -/
structure Inner where
  conn : Tables
  config : RetentionConfig
  windowNanos : Nat
  hook : Bool
  spans : Shelf (Arc Span)
  logs : Shelf (Arc LogRecord)
  points : Shelf PointSlot
  series : ContentMap StreamIdentity Nat
  identityAccountedBytes : Nat
  counters : Counters
  anomalies : Nat

/-- The file-backed store. -/
structure FileBackedStore where
  config : RetentionConfig
  inner : Inner

namespace Inner

/-! ## What the ceilings measure -/

def residentStreams (i : Inner) : Nat := i.series.length

def residentRecords (i : Inner) : Nat := i.spans.len + i.logs.len + i.points.len

def recordAccountedBytes (i : Inner) : Nat :=
  saturatingAdd (saturatingAdd i.spans.accountedBytes i.logs.accountedBytes)
    i.points.accountedBytes

def accountedBytes (i : Inner) : Nat :=
  saturatingAdd i.recordAccountedBytes i.identityAccountedBytes

/-- The oldest resident key, all shelves together. -/
def oldestKey (i : Inner) : Option AdmissionKey :=
  ([i.spans.smallestKey, i.logs.smallestKey, i.points.smallestKey].filterMap id).min?

/-- The first ceiling found violated against the reading `now`. -/
def firstViolation (i : Inner) (now : AdmissionTime) : Option EvictionCause :=
  if i.residentRecords > i.config.maxRecords then some .recordCeiling
  else if i.accountedBytes > i.config.maxAccountedBytes then some .accountedBytesCeiling
  else
    match i.oldestKey with
    | none => none
    | some oldest =>
      if oldest.admittedAt.unixNano ≤ now.unixNano ∧
          i.windowNanos ≤ now.unixNano - oldest.admittedAt.unixNano then
        some .admissionWindow
      else none

/-! ## The series table -/

/-- Charges one entering point to its stream. -/
def chargeStream (i : Inner) (stream : StreamIdentity) : Inner :=
  let count := (i.series.get? stream).getD 0
  { i with
    series := i.series.insert stream (count + 1)
    identityAccountedBytes :=
      if count = 0 then saturatingAdd i.identityAccountedBytes (accountedU64 stream)
      else i.identityAccountedBytes }

/-- Releases one removed point's residency of its stream, and says whether the stream retired. -/
def releaseStreamRef (i : Inner) (stream : StreamIdentity) : Inner × Bool :=
  match i.series.get? stream with
  | none => (i, false)
  | some count =>
    if count - 1 = 0 then
      ({ i with
        series := i.series.erase stream
        identityAccountedBytes := i.identityAccountedBytes - accountedU64 stream }, true)
    else ({ i with series := i.series.insert stream (count - 1) }, false)

/-! ## Eviction -/

/-- Removes the oldest record from whichever shelf holds it and stages its delete; with its key,
the stream the removal retired. -/
def popOldest (i : Inner) (ops : List DbOp) :
    Option ((AdmissionKey × Option StreamIdentity) × Inner × List DbOp) :=
  match i.oldestKey with
  | none => none
  | some oldest =>
    if some oldest = i.spans.smallestKey then
      i.spans.popSmallest.map fun r =>
        ((r.1.1, none), { i with spans := r.2 }, ops ++ [.deleteSpan r.1.1.entity])
    else if some oldest = i.logs.smallestKey then
      i.logs.popSmallest.map fun r =>
        ((r.1.1, none), { i with logs := r.2 }, ops ++ [.deleteLog r.1.1.entity])
    else
      match i.points.popSmallest with
      | none => none
      | some ((key, slot), points) =>
        let released := releaseStreamRef { i with points := points } slot.stream
        some ((key, if released.2 then some slot.stream else none), released.1,
          ops ++ [.deletePoint key.entity])

/-- Where a retention pass stands: the state, how many it evicted, what it staged. -/
structure Sweep where
  inner : Inner
  evicted : Nat
  ops : List DbOp
  deliveries : List Delivery

/-- The deliveries one eviction stages: the record's own, then its retired stream's. -/
def evictionDeliveries (key : AdmissionKey) (released : Option StreamIdentity) : List Delivery :=
  Delivery.evicted key.entity ::
    (match released with
    | none => []
    | some stream => [Delivery.streamReleased stream])

/-- One turn of a retention pass. -/
def evictOne (now : AdmissionTime) (sweep : Sweep) : Option Sweep :=
  match sweep.inner.firstViolation now with
  | none => none
  | some cause =>
    match sweep.inner.popOldest sweep.ops with
    | none => none
    | some ((key, released), i, ops) =>
      some
        { inner := { i with counters := i.counters.countEviction cause }
          evicted := sweep.evicted + 1
          ops := ops
          deliveries := sweep.deliveries ++ evictionDeliveries key released }

theorem releaseStreamRef_shelves (i : Inner) (stream : StreamIdentity) :
    (i.releaseStreamRef stream).1.spans = i.spans ∧ (i.releaseStreamRef stream).1.logs = i.logs ∧
      (i.releaseStreamRef stream).1.points = i.points := by
  unfold releaseStreamRef
  split
  · exact ⟨rfl, rfl, rfl⟩
  · split <;> exact ⟨rfl, rfl, rfl⟩

/-- Every removal takes exactly one record. -/
theorem residentRecords_of_popOldest {i i' : Inner} {ops ops' : List DbOp}
    {r : AdmissionKey × Option StreamIdentity} (h : i.popOldest ops = some (r, i', ops')) :
    i.residentRecords = i'.residentRecords + 1 := by
  unfold popOldest at h
  split at h
  · exact absurd h (by simp)
  · split at h
    · obtain ⟨⟨⟨key, record⟩, spans⟩, hpop, heq⟩ := Option.map_eq_some_iff.mp h
      obtain ⟨-, rfl, -⟩ := heq
      have hlen := Shelf.len_of_popSmallest hpop
      simp only [residentRecords]
      omega
    · split at h
      · obtain ⟨⟨⟨key, record⟩, logs⟩, hpop, heq⟩ := Option.map_eq_some_iff.mp h
        obtain ⟨-, rfl, -⟩ := heq
        have hlen := Shelf.len_of_popSmallest hpop
        simp only [residentRecords]
        omega
      · split at h
        · exact absurd h (by simp)
        · rename_i key slot points hpop
          obtain ⟨-, hi⟩ := Prod.mk.inj (Option.some.inj h)
          obtain ⟨rfl, -⟩ := Prod.mk.inj hi
          have hlen := Shelf.len_of_popSmallest hpop
          obtain ⟨hs, hl, hp⟩ := releaseStreamRef_shelves { i with points := points } slot.stream
          simp only [residentRecords, hs, hl, hp]
          omega

/-- The retention pass as a loop: every turn leaves one record fewer. -/
def sweepLoop (now : AdmissionTime) : Loop Sweep where
  step := evictOne now
  fuel sweep := sweep.inner.residentRecords
  decreases := by
    intro sweep sweep' h
    unfold evictOne at h
    split at h
    · exact absurd h (by simp)
    · split at h
      · exact absurd h (by simp)
      · rename_i key released i ops hpop
        obtain rfl := Option.some.inj h
        have := residentRecords_of_popOldest hpop
        simp only [residentRecords] at this ⊢
        omega

/-- Runs the retention law to completion against `now`, staging as it goes. -/
def enforceAgainst (i : Inner) (now : AdmissionTime) (ops : List DbOp)
    (deliveries : List Delivery) : Sweep :=
  (sweepLoop now).run ⟨i, 0, ops, deliveries⟩

/-! ## Committing and delivering -/

/-- Commits a staged transaction; a failure never touches residency. -/
def commit (i : Inner) (ops : List DbOp) (succeeds : Bool) : Inner :=
  match i.conn.commit ops succeeds with
  | .ok conn => { i with conn := conn }
  | .error () => i

/-- A delivery is counted once its call has returned; a released stream's is not counted. -/
def countDelivery (counters : Counters) : Delivery → Counters
  | .evicted _ => { counters with hookDeliveries := counters.hookDeliveries + 1 }
  | .streamReleased _ => counters
  | .refused _ _ => { counters with refusedHookDeliveries := counters.refusedHookDeliveries + 1 }

/-- Delivers staged hook calls in staged order. -/
def deliver (i : Inner) : List Delivery → Inner × List HookCall
  | [] => (i, [])
  | delivery :: rest =>
    if i.hook then
      let r := deliver { i with counters := countDelivery i.counters delivery } rest
      (r.1, delivery.call :: r.2)
    else deliver i rest

def statsFrom (i : Inner) : StoreStats where
  residentRecords := i.residentRecords
  residentSpans := i.spans.len
  residentLogRecords := i.logs.len
  residentMetricPoints := i.points.len
  residentStreams := i.residentStreams
  accountedBytes := i.accountedBytes
  recordAccountedBytes := i.recordAccountedBytes
  identityAccountedBytes := i.identityAccountedBytes
  evictedForRecordCeiling := i.counters.evictedForRecordCeiling
  evictedForAccountedBytesCeiling := i.counters.evictedForAccountedBytesCeiling
  evictedForAdmissionWindow := i.counters.evictedForAdmissionWindow
  oversizedRefusals := i.counters.oversizedRefusals
  duplicateKeeps := i.counters.duplicateKeeps
  keptOutSeriesCap := i.counters.keptOutSeriesCap
  identityOverCeilingRefusals := i.counters.identityOverCeilingRefusals
  hookDeliveries := i.counters.hookDeliveries
  refusedHookDeliveries := i.counters.refusedHookDeliveries
  admissionAnomalies := i.anomalies

end Inner

namespace FileBackedStore

/-- A store over a fresh file: no row to rehydrate, so nothing to bring under the ceilings. -/
def openFresh (config : RetentionConfig) (hook : Bool) : FileBackedStore where
  config := config
  inner :=
    { conn := Tables.empty
      config := config
      windowNanos := config.windowNanos
      hook := hook
      spans := Shelf.new
      logs := Shelf.new
      points := Shelf.new
      series := ContentMap.empty
      identityAccountedBytes := 0
      counters := Counters.default
      anomalies := 0 }

/-! ## Keeping a record -/

/-- What a keep leaves behind: the store, the outcome, the calls it made. -/
structure Kept where
  store : FileBackedStore
  outcome : KeepOutcome
  calls : List HookCall

/-- The end of every keep: the batch is committed, and the hook is called after it. -/
def finish (f : FileBackedStore) (inner : Inner) (outcome : KeepOutcome) (ops : List DbOp)
    (deliveries : List Delivery) (succeeds : Bool) : Kept :=
  let delivered := (inner.commit ops succeeds).deliver deliveries
  ⟨{ f with inner := delivered.1 }, outcome, delivered.2⟩

/-- What follows the shelf's part of a span or log keep. -/
def finishKeep (f : FileBackedStore) (inner : Inner) (entity : EntityId)
    (put : AdmissionTime → List DbOp) (succeeds : Bool) :
    Except KeepOutcome AdmissionTime → Kept
  | .ok now =>
    let sweep := inner.enforceAgainst now (put now) []
    f.finish sweep.inner (.kept sweep.evicted) sweep.ops sweep.deliveries succeeds
  | .error outcome =>
    f.finish inner outcome [] (if outcome = .oversized then [.refused entity none] else []) succeeds

def keepSpan (f : FileBackedStore) (codec : Codec) (admitted : Admitted (Arc Span))
    (succeeds : Bool) : Kept :=
  let size := accountedU64 admitted.record
  let put := fun now : AdmissionTime =>
    match codec.span admitted.record with
    | some payload => [DbOp.putSpan admitted.entity now.unixNano payload]
    | none => []
  let r := keepOnShelf f.inner.spans admitted size f.config.maxAccountedBytes f.inner.counters
  f.finishKeep { f.inner with spans := r.1, counters := r.2.1 } admitted.entity put succeeds r.2.2

def keepLogRecord (f : FileBackedStore) (codec : Codec) (admitted : Admitted (Arc LogRecord))
    (succeeds : Bool) : Kept :=
  let size := accountedU64 admitted.record
  let put := fun now : AdmissionTime =>
    match codec.logRecord admitted.record with
    | some payload => [DbOp.putLog admitted.entity now.unixNano payload]
    | none => []
  let r := keepOnShelf f.inner.logs admitted size f.config.maxAccountedBytes f.inner.counters
  f.finishKeep { f.inner with logs := r.1, counters := r.2.1 } admitted.entity put succeeds r.2.2

def keepMetricPoint (f : FileBackedStore) (codec : Codec) (admitted : Admitted (Arc MetricPoint))
    (stream : StreamIdentity) (succeeds : Bool) : Kept :=
  let size := accountedU64 admitted.record
  let refusal := Delivery.refused admitted.entity (some stream)
  match refuseEarly f.inner.points admitted.entity size f.config.maxAccountedBytes
      f.inner.counters with
  | (counters, .error outcome) =>
    f.finish { f.inner with counters := counters } outcome []
      (if outcome = .oversized then [refusal] else []) succeeds
  | (counters, .ok ()) =>
    let i := { f.inner with counters := counters }
    let identityBytes := accountedU64 stream
    if identityBytes > f.config.maxAccountedBytes then
      let i := { i with counters := { i.counters with
        identityOverCeilingRefusals := i.counters.identityOverCeilingRefusals + 1 } }
      f.finish i (.identityOverCeiling f.config.maxAccountedBytes identityBytes) [] [refusal]
        succeeds
    else if !i.series.contains stream && i.residentStreams ≥ f.config.seriesCap then
      let i := { i with counters := { i.counters with
        keptOutSeriesCap := i.counters.keptOutSeriesCap + 1 } }
      f.finish i .seriesCapReached [] [refusal] succeeds
    else
      let slot : PointSlot := ⟨admitted.record, stream⟩
      let i := { i with points := i.points.insert ⟨admitted.entity, admitted.admittedAt, slot⟩ }
      let i := i.chargeStream stream
      let put :=
        match codec.metricPoint admitted.record, codec.streamIdentity stream with
        | some payload, some streamPayload =>
          [DbOp.putPoint admitted.entity admitted.admittedAt.unixNano payload streamPayload]
        | _, _ => []
      let sweep := i.enforceAgainst admitted.admittedAt put []
      f.finish sweep.inner (.kept sweep.evicted) sweep.ops sweep.deliveries succeeds

/-- A retention pass: its deletes commit as one batch, then its calls are made. -/
def enforceRetention (f : FileBackedStore) (now : AdmissionTime) (succeeds : Bool) :
    FileBackedStore × Nat × List HookCall :=
  let sweep := f.inner.enforceAgainst now [] []
  let delivered := (sweep.inner.commit sweep.ops succeeds).deliver sweep.deliveries
  ({ f with inner := delivered.1 }, sweep.evicted, delivered.2)

/-! ## Retrieval -/

def span (f : FileBackedStore) (entity : EntityId) : Option (Arc Span) := f.inner.spans.get entity

def logRecord (f : FileBackedStore) (entity : EntityId) : Option (Arc LogRecord) :=
  f.inner.logs.get entity

def metricPoint (f : FileBackedStore) (entity : EntityId) : Option PointView :=
  (f.inner.points.get entity).map PointSlot.view

def scanSpans (f : FileBackedStore) (after : Option AdmissionKey) (limit : Nat) :
    ScanPage (Arc Span) := f.inner.spans.scanAfter after limit

def scanLogRecords (f : FileBackedStore) (after : Option AdmissionKey) (limit : Nat) :
    ScanPage (Arc LogRecord) := f.inner.logs.scanAfter after limit

def scanMetricPoints (f : FileBackedStore) (after : Option AdmissionKey) (limit : Nat) :
    ScanPage PointView :=
  let page := f.inner.points.scanAfter after limit
  ⟨page.items.map fun item => ⟨item.key, item.record.view⟩, page.cursor⟩

/-- The store as its readers see it. -/
def driver (f : FileBackedStore) : TelemetryStore where
  span := f.span
  logRecord := f.logRecord
  metricPoint := f.metricPoint
  scanSpans := f.scanSpans
  scanLogRecords := f.scanLogRecords
  scanMetricPoints := f.scanMetricPoints
  stats := f.inner.statsFrom

/-! ## Runs -/

/-- One operation, and whether the commit it makes succeeds. -/
def apply (codec : Codec) (f : FileBackedStore) (succeeds : Bool) :
    StoreOp → FileBackedStore × StoreReply × List HookCall
  | .keepSpan admitted =>
    let kept := f.keepSpan codec admitted succeeds
    (kept.store, .keep kept.outcome, kept.calls)
  | .keepLogRecord admitted =>
    let kept := f.keepLogRecord codec admitted succeeds
    (kept.store, .keep kept.outcome, kept.calls)
  | .keepMetricPoint admitted stream =>
    let kept := f.keepMetricPoint codec admitted stream succeeds
    (kept.store, .keep kept.outcome, kept.calls)
  | .enforceRetention now =>
    let r := f.enforceRetention now succeeds
    (r.1, .evicted r.2.1, r.2.2)
  | .observeAdmissionAnomalies total =>
    ({ f with inner := { f.inner with anomalies := total } }, .done, [])
  | .span entity => (f, .span (f.span entity), [])
  | .logRecord entity => (f, .logRecord (f.logRecord entity), [])
  | .metricPoint entity => (f, .metricPoint (f.metricPoint entity), [])
  | .scanSpans after limit => (f, .spans (f.scanSpans after limit), [])
  | .scanLogRecords after limit => (f, .logRecords (f.scanLogRecords after limit), [])
  | .scanMetricPoints after limit => (f, .metricPoints (f.scanMetricPoints after limit), [])
  | .stats => (f, .stats f.inner.statsFrom, [])

/-- A run of operations, each with the fate of its commit. -/
def run (codec : Codec) (f : FileBackedStore) :
    List (StoreOp × Bool) → FileBackedStore × List (StoreReply × List HookCall)
  | [] => (f, [])
  | op :: ops =>
    let r := f.apply codec op.2 op.1
    let rest := run codec r.1 ops
    (rest.1, (r.2.1, r.2.2) :: rest.2)

end FileBackedStore

end RuntimeTrail
