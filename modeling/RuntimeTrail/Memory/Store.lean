import RuntimeTrail.Storage.Driver

/-!
# The in-memory store

Three shelves, the series table that counts resident points per stream, and the
counters.  Ceilings are checked after every keep and on every retention pass;
while any is exceeded the oldest record is evicted, counted under the first
ceiling found violated at that moment, and reported through the hook.

A keep either enters the record and runs the pass, or is refused before anything
is inserted.  Functions that call the hook return the calls they make, in order;
`hook` says whether one is wired.
-/

namespace RuntimeTrail

open Library

/-- A metric point as resident: the point and its stream identity. -/
structure PointSlot where
  point : Arc MetricPoint
  stream : StreamIdentity

/-- The point's accounted size only; the stream is charged by the series table. -/
instance : Accounted PointSlot := ⟨fun slot => accountedSize slot.point⟩

/-- The slot as retrieval hands it out. -/
def PointSlot.view (slot : PointSlot) : PointView := ⟨slot.point, slot.stream⟩

/-- The cumulative counters behind the statistics. -/
structure Counters where
  evictedForRecordCeiling : Nat
  evictedForAccountedBytesCeiling : Nat
  evictedForAdmissionWindow : Nat
  oversizedRefusals : Nat
  duplicateKeeps : Nat
  keptOutSeriesCap : Nat
  identityOverCeilingRefusals : Nat
  hookDeliveries : Nat
  refusedHookDeliveries : Nat
deriving DecidableEq

namespace Counters

def default : Counters := ⟨0, 0, 0, 0, 0, 0, 0, 0, 0⟩

/-- Count one eviction under the cause that triggered it. -/
def countEviction (counters : Counters) : EvictionCause → Counters
  | .recordCeiling =>
    { counters with evictedForRecordCeiling := counters.evictedForRecordCeiling + 1 }
  | .accountedBytesCeiling =>
    { counters with
      evictedForAccountedBytesCeiling := counters.evictedForAccountedBytesCeiling + 1 }
  | .admissionWindow =>
    { counters with evictedForAdmissionWindow := counters.evictedForAdmissionWindow + 1 }

end Counters

/-- The in-memory store. -/
structure InMemoryStore where
  config : RetentionConfig
  windowNanos : Nat
  hook : Bool
  spans : Shelf (Arc Span)
  logs : Shelf (Arc LogRecord)
  points : Shelf PointSlot
  /-- Distinct resident streams and how many resident points reference each. -/
  series : ContentMap StreamIdentity Nat
  identityAccountedBytes : Nat
  counters : Counters
  anomalies : Nat

namespace InMemoryStore

/-- An empty store bounded by `config`, reporting through a hook when one is wired. -/
def new (config : RetentionConfig) (hook : Bool) : InMemoryStore where
  config := config
  windowNanos := config.windowNanos
  hook := hook
  spans := Shelf.new
  logs := Shelf.new
  points := Shelf.new
  series := ContentMap.empty
  identityAccountedBytes := 0
  counters := Counters.default
  anomalies := 0

/-! ## What the ceilings measure -/

/-- Distinct streams with resident points. -/
def residentStreams (s : InMemoryStore) : Nat := s.series.length

/-- Records currently resident, all shelves together. -/
def residentRecords (s : InMemoryStore) : Nat := s.spans.len + s.logs.len + s.points.len

/-- The shelves' record sums, without the identity charge. -/
def recordAccountedBytes (s : InMemoryStore) : Nat :=
  saturatingAdd (saturatingAdd s.spans.accountedBytes s.logs.accountedBytes)
    s.points.accountedBytes

/-- What the byte ceiling bounds: record sums plus each resident stream's identity, once. -/
def accountedBytes (s : InMemoryStore) : Nat :=
  saturatingAdd s.recordAccountedBytes s.identityAccountedBytes

/-- The oldest resident key, all shelves together. -/
def oldestKey (s : InMemoryStore) : Option AdmissionKey :=
  ([s.spans.smallestKey, s.logs.smallestKey, s.points.smallestKey].filterMap id).min?

/-- The first ceiling found violated against the reading `now`. -/
def firstViolation (s : InMemoryStore) (now : AdmissionTime) : Option EvictionCause :=
  if s.residentRecords > s.config.maxRecords then some .recordCeiling
  else if s.accountedBytes > s.config.maxAccountedBytes then some .accountedBytesCeiling
  else
    match s.oldestKey with
    | none => none
    | some oldest =>
      -- a reading behind the record's admission expires nothing
      if oldest.admittedAt.unixNano ≤ now.unixNano ∧
          s.windowNanos ≤ now.unixNano - oldest.admittedAt.unixNano then
        some .admissionWindow
      else none

/-! ## The series table -/

/-- Charges one entering point to its stream: the identity's size joins the byte ceiling when
the stream's count leaves zero. -/
def chargeStream (s : InMemoryStore) (stream : StreamIdentity) : InMemoryStore :=
  let count := (s.series.get? stream).getD 0
  { s with
    series := s.series.insert stream (count + 1)
    identityAccountedBytes :=
      if count = 0 then saturatingAdd s.identityAccountedBytes (accountedU64 stream)
      else s.identityAccountedBytes }

/-- Releases one removed point's residency of its stream, and says whether the stream retired
with it. -/
def releaseStreamRef (s : InMemoryStore) (stream : StreamIdentity) : InMemoryStore × Bool :=
  match s.series.get? stream with
  | none => (s, false)
  | some count =>
    if count - 1 = 0 then
      ({ s with
        series := s.series.erase stream
        identityAccountedBytes := s.identityAccountedBytes - accountedU64 stream }, true)
    else ({ s with series := s.series.insert stream (count - 1) }, false)

/-! ## Eviction -/

/-- Removes the oldest record from whichever shelf holds it; with its key, the stream the
removal retired. -/
def popOldest (s : InMemoryStore) :
    Option ((AdmissionKey × Option StreamIdentity) × InMemoryStore) :=
  match s.oldestKey with
  | none => none
  | some oldest =>
    if some oldest = s.spans.smallestKey then
      s.spans.popSmallest.map fun r => ((r.1.1, none), { s with spans := r.2 })
    else if some oldest = s.logs.smallestKey then
      s.logs.popSmallest.map fun r => ((r.1.1, none), { s with logs := r.2 })
    else
      match s.points.popSmallest with
      | none => none
      | some ((key, slot), points) =>
        let released := releaseStreamRef { s with points := points } slot.stream
        some ((key, if released.2 then some slot.stream else none), released.1)

/-- The hook calls one eviction makes: the record's own, then its retired stream's. -/
def evictionCalls (hook : Bool) (key : AdmissionKey) (released : Option StreamIdentity) :
    List HookCall :=
  if hook then
    HookCall.evicted key.entity ::
      (match released with
      | none => []
      | some stream => [HookCall.streamReleased stream])
  else []

/-- Where a retention pass stands: the store, how many it evicted, the calls it made. -/
structure Pass where
  store : InMemoryStore
  evicted : Nat
  calls : List HookCall

/-- One turn of a retention pass: while a ceiling is violated, evict the oldest record, count
it, and report it. -/
def evictOne (now : AdmissionTime) (pass : Pass) : Option Pass :=
  match pass.store.firstViolation now with
  | none => none
  | some cause =>
    match pass.store.popOldest with
    | none => none
    | some ((key, released), s) =>
      let counters := s.counters.countEviction cause
      some
        { store :=
            { s with
              counters :=
                if s.hook then { counters with hookDeliveries := counters.hookDeliveries + 1 }
                else counters }
          evicted := pass.evicted + 1
          calls := pass.calls ++ evictionCalls s.hook key released }

theorem releaseStreamRef_shelves (s : InMemoryStore) (stream : StreamIdentity) :
    (s.releaseStreamRef stream).1.spans = s.spans ∧ (s.releaseStreamRef stream).1.logs = s.logs ∧
      (s.releaseStreamRef stream).1.points = s.points := by
  unfold releaseStreamRef
  split
  · exact ⟨rfl, rfl, rfl⟩
  · split <;> exact ⟨rfl, rfl, rfl⟩

/-- Every removal takes exactly one record. -/
theorem residentRecords_of_popOldest {s s' : InMemoryStore}
    {r : AdmissionKey × Option StreamIdentity} (h : s.popOldest = some (r, s')) :
    s.residentRecords = s'.residentRecords + 1 := by
  unfold popOldest at h
  split at h
  · exact absurd h (by simp)
  · split at h
    · obtain ⟨⟨⟨key, record⟩, spans⟩, hpop, heq⟩ := Option.map_eq_some_iff.mp h
      obtain ⟨-, rfl⟩ := Prod.mk.inj heq
      have hlen := Shelf.len_of_popSmallest hpop
      simp only [residentRecords]
      omega
    · split at h
      · obtain ⟨⟨⟨key, record⟩, logs⟩, hpop, heq⟩ := Option.map_eq_some_iff.mp h
        obtain ⟨-, rfl⟩ := Prod.mk.inj heq
        have hlen := Shelf.len_of_popSmallest hpop
        simp only [residentRecords]
        omega
      · split at h
        · exact absurd h (by simp)
        · rename_i key slot points hpop
          obtain ⟨-, rfl⟩ := Prod.mk.inj (Option.some.inj h)
          have hlen := Shelf.len_of_popSmallest hpop
          obtain ⟨hs, hl, hp⟩ := releaseStreamRef_shelves { s with points := points } slot.stream
          simp only [residentRecords, hs, hl, hp]
          omega

/-- The retention pass as a loop: every turn leaves one record fewer. -/
def passLoop (now : AdmissionTime) : Loop Pass where
  step := evictOne now
  fuel pass := pass.store.residentRecords
  decreases := by
    intro pass pass' h
    unfold evictOne at h
    split at h
    · exact absurd h (by simp)
    · split at h
      · exact absurd h (by simp)
      · rename_i key released s hpop
        obtain rfl := Option.some.inj h
        have := residentRecords_of_popOldest hpop
        simp only [residentRecords] at this ⊢
        omega

/-- Runs the retention law to completion against `now`. -/
def enforceAgainst (s : InMemoryStore) (now : AdmissionTime) : Pass :=
  (passLoop now).run ⟨s, 0, []⟩

/-! ## Keeping a record -/

/-- What a keep leaves behind: the store, the outcome, the calls it made. -/
structure Kept where
  store : InMemoryStore
  outcome : KeepOutcome
  calls : List HookCall

/-- Reports one keep refusal; nothing was inserted. -/
def reportRefusal (s : InMemoryStore) (entity : EntityId) (stream : Option StreamIdentity) :
    InMemoryStore × List HookCall :=
  if s.hook then
    ({ s with
      counters := { s.counters with
        refusedHookDeliveries := s.counters.refusedHookDeliveries + 1 } },
      [HookCall.keepRefused entity stream])
  else (s, [])

end InMemoryStore

/-- The refusals every keep runs before anything is inserted: the duplicate, then the record
that alone exceeds the byte ceiling. -/
def refuseEarly {R : Type} (shelf : Shelf R) (entity : EntityId) (size maxAccountedBytes : Nat)
    (counters : Counters) : Counters × Except KeepOutcome Unit :=
  if shelf.contains entity then
    ({ counters with duplicateKeeps := counters.duplicateKeeps + 1 }, .error .duplicate)
  else if size > maxAccountedBytes then
    ({ counters with oversizedRefusals := counters.oversizedRefusals + 1 }, .error .oversized)
  else (counters, .ok ())

/-- The shared keep sequence for spans and logs: the early refusals, then the insert.  On
success it answers the reading the retention pass runs against. -/
def keepOnShelf {R : Type} [Accounted R] (shelf : Shelf R) (admitted : Admitted R)
    (size maxAccountedBytes : Nat) (counters : Counters) :
    Shelf R × Counters × Except KeepOutcome AdmissionTime :=
  match refuseEarly shelf admitted.entity size maxAccountedBytes counters with
  | (counters, .error outcome) => (shelf, counters, .error outcome)
  | (counters, .ok ()) => (shelf.insert admitted, counters, .ok admitted.admittedAt)

namespace InMemoryStore

/-- What follows the shelf's part of a span or log keep: the pass, or the refusal's report.  A
duplicate reports nothing, the record it names being resident. -/
def finishKeep (s : InMemoryStore) (entity : EntityId) :
    Except KeepOutcome AdmissionTime → Kept
  | .ok now =>
    let pass := s.enforceAgainst now
    ⟨pass.store, .kept pass.evicted, pass.calls⟩
  | .error outcome =>
    if outcome = .oversized then
      let reported := s.reportRefusal entity none
      ⟨reported.1, outcome, reported.2⟩
    else ⟨s, outcome, []⟩

def keepSpan (s : InMemoryStore) (admitted : Admitted (Arc Span)) : Kept :=
  let size := accountedU64 admitted.record
  let r := keepOnShelf s.spans admitted size s.config.maxAccountedBytes s.counters
  finishKeep { s with spans := r.1, counters := r.2.1 } admitted.entity r.2.2

def keepLogRecord (s : InMemoryStore) (admitted : Admitted (Arc LogRecord)) : Kept :=
  let size := accountedU64 admitted.record
  let r := keepOnShelf s.logs admitted size s.config.maxAccountedBytes s.counters
  finishKeep { s with logs := r.1, counters := r.2.1 } admitted.entity r.2.2

def keepMetricPoint (s : InMemoryStore) (admitted : Admitted (Arc MetricPoint))
    (stream : StreamIdentity) : Kept :=
  let size := accountedU64 admitted.record
  match refuseEarly s.points admitted.entity size s.config.maxAccountedBytes s.counters with
  | (counters, .error outcome) =>
    let s := { s with counters := counters }
    if outcome = .oversized then
      let reported := s.reportRefusal admitted.entity (some stream)
      ⟨reported.1, outcome, reported.2⟩
    else ⟨s, outcome, []⟩
  | (counters, .ok ()) =>
    let s := { s with counters := counters }
    let identityBytes := accountedU64 stream
    -- an identity over the ceiling by itself can never be kept
    if identityBytes > s.config.maxAccountedBytes then
      let s := { s with counters := { s.counters with
        identityOverCeilingRefusals := s.counters.identityOverCeilingRefusals + 1 } }
      let reported := s.reportRefusal admitted.entity (some stream)
      ⟨reported.1, .identityOverCeiling s.config.maxAccountedBytes identityBytes, reported.2⟩
    else if !s.series.contains stream && s.residentStreams ≥ s.config.seriesCap then
      let s := { s with counters := { s.counters with
        keptOutSeriesCap := s.counters.keptOutSeriesCap + 1 } }
      let reported := s.reportRefusal admitted.entity (some stream)
      ⟨reported.1, .seriesCapReached, reported.2⟩
    else
      let slot : PointSlot := ⟨admitted.record, stream⟩
      let s := { s with points := s.points.insert ⟨admitted.entity, admitted.admittedAt, slot⟩ }
      let s := s.chargeStream stream
      let pass := s.enforceAgainst admitted.admittedAt
      ⟨pass.store, .kept pass.evicted, pass.calls⟩

/-! ## Retrieval -/

def span (s : InMemoryStore) (entity : EntityId) : Option (Arc Span) := s.spans.get entity

def logRecord (s : InMemoryStore) (entity : EntityId) : Option (Arc LogRecord) :=
  s.logs.get entity

def metricPoint (s : InMemoryStore) (entity : EntityId) : Option PointView :=
  (s.points.get entity).map PointSlot.view

def scanSpans (s : InMemoryStore) (after : Option AdmissionKey) (limit : Nat) :
    ScanPage (Arc Span) := s.spans.scanAfter after limit

def scanLogRecords (s : InMemoryStore) (after : Option AdmissionKey) (limit : Nat) :
    ScanPage (Arc LogRecord) := s.logs.scanAfter after limit

def scanMetricPoints (s : InMemoryStore) (after : Option AdmissionKey) (limit : Nat) :
    ScanPage PointView :=
  let page := s.points.scanAfter after limit
  ⟨page.items.map fun item => ⟨item.key, item.record.view⟩, page.cursor⟩

def stats (s : InMemoryStore) : StoreStats where
  residentRecords := s.residentRecords
  residentSpans := s.spans.len
  residentLogRecords := s.logs.len
  residentMetricPoints := s.points.len
  residentStreams := s.residentStreams
  accountedBytes := s.accountedBytes
  recordAccountedBytes := s.recordAccountedBytes
  identityAccountedBytes := s.identityAccountedBytes
  evictedForRecordCeiling := s.counters.evictedForRecordCeiling
  evictedForAccountedBytesCeiling := s.counters.evictedForAccountedBytesCeiling
  evictedForAdmissionWindow := s.counters.evictedForAdmissionWindow
  oversizedRefusals := s.counters.oversizedRefusals
  duplicateKeeps := s.counters.duplicateKeeps
  keptOutSeriesCap := s.counters.keptOutSeriesCap
  identityOverCeilingRefusals := s.counters.identityOverCeilingRefusals
  hookDeliveries := s.counters.hookDeliveries
  refusedHookDeliveries := s.counters.refusedHookDeliveries
  admissionAnomalies := s.anomalies

/-- The store as its readers see it. -/
def driver (s : InMemoryStore) : TelemetryStore where
  span := s.span
  logRecord := s.logRecord
  metricPoint := s.metricPoint
  scanSpans := s.scanSpans
  scanLogRecords := s.scanLogRecords
  scanMetricPoints := s.scanMetricPoints
  stats := s.stats

/-! ## Runs -/

/-- One operation: the store after it, the reply, the hook calls it made. -/
def apply (s : InMemoryStore) : StoreOp → InMemoryStore × StoreReply × List HookCall
  | .keepSpan admitted =>
    let kept := s.keepSpan admitted
    (kept.store, .keep kept.outcome, kept.calls)
  | .keepLogRecord admitted =>
    let kept := s.keepLogRecord admitted
    (kept.store, .keep kept.outcome, kept.calls)
  | .keepMetricPoint admitted stream =>
    let kept := s.keepMetricPoint admitted stream
    (kept.store, .keep kept.outcome, kept.calls)
  | .enforceRetention now =>
    let pass := s.enforceAgainst now
    (pass.store, .evicted pass.evicted, pass.calls)
  | .observeAdmissionAnomalies total => ({ s with anomalies := total }, .done, [])
  | .span entity => (s, .span (s.span entity), [])
  | .logRecord entity => (s, .logRecord (s.logRecord entity), [])
  | .metricPoint entity => (s, .metricPoint (s.metricPoint entity), [])
  | .scanSpans after limit => (s, .spans (s.scanSpans after limit), [])
  | .scanLogRecords after limit => (s, .logRecords (s.scanLogRecords after limit), [])
  | .scanMetricPoints after limit => (s, .metricPoints (s.scanMetricPoints after limit), [])
  | .stats => (s, .stats s.stats, [])

/-- A run of operations: the store at its end, and every reply with its hook calls. -/
def run (s : InMemoryStore) : List StoreOp → InMemoryStore × List (StoreReply × List HookCall)
  | [] => (s, [])
  | op :: ops =>
    let r := s.apply op
    let rest := run r.1 ops
    (rest.1, (r.2.1, r.2.2) :: rest.2)

end InMemoryStore

end RuntimeTrail
