import RuntimeTrail.Sqlite.Refinement

/-!
# Reopening the file

A reopened store starts from the rows a closed one left.  The rows come in no
particular order and are decoded one by one; the shelves, the series table and
the identity charge are rebuilt from nothing, streams interned by content, so one
handle stands for all the points of a stream.  What was rebuilt is then brought
under the ceilings of the new configuration, without the window: a store owns no
clock.

* **the read** — `load`: a row that does not decode fails the whole open, and
  names its table;
* **the rebuild** — `rehydrate`;
* **the open** — `openFile`.

The file's entity column holds the entity id as text; that encoding cannot fail,
so a table is keyed by the id itself.  The addresses of the rebuilt records are
the allocator's choice, and the order of the rows is the database's.
-/

namespace RuntimeTrail

open Library

/-! ## The read -/

/-- The deserializer of what the file holds; a payload it cannot read is an error's text. -/
structure RowDecoder where
  span : String → Except String Span
  logRecord : String → Except String LogRecord
  metricPoint : String → Except String MetricPoint
  streamIdentity : String → Except String StreamIdentity

/-- Why a rehydration read failed. -/
inductive LoadError where
  | decode (table detail : String)
deriving DecidableEq

/-- The error as it is displayed. -/
def LoadError.text : LoadError → String
  | decode table detail => s!"a row in table {table} could not be decoded: {detail}"

/-- Every row the file holds, decoded but not yet shelved. -/
structure LoadedRows where
  spans : List (EntityId × Nat × Span)
  logs : List (EntityId × Nat × LogRecord)
  points : List (EntityId × Nat × MetricPoint × StreamIdentity)

/-- The rows of the tables in the order the database hands them out. -/
structure RowOrder (tables : Tables) where
  spans : List (EntityId × Row)
  logs : List (EntityId × Row)
  points : List (EntityId × PointRow)
  spans_perm : tables.spans.entries.Perm spans
  logs_perm : tables.logs.entries.Perm logs
  points_perm : tables.points.entries.Perm points

/-- The rows in the order they were entered. -/
def RowOrder.asEntered (tables : Tables) : RowOrder tables where
  spans := tables.spans.entries
  logs := tables.logs.entries
  points := tables.points.entries
  spans_perm := List.Perm.refl _
  logs_perm := List.Perm.refl _
  points_perm := List.Perm.refl _

/-- One row of a table of records, decoded. -/
def loadRow {V : Type} (table : String) (decode : String → Except String V)
    (row : EntityId × Row) : Except LoadError (EntityId × Nat × V) := do
  let value ← (decode row.2.payload).mapError (LoadError.decode table)
  return (row.1, row.2.admissionNano, value)

/-- One row of the table of points, decoded. -/
def loadPointRow (decoder : RowDecoder) (row : EntityId × PointRow) :
    Except LoadError (EntityId × Nat × MetricPoint × StreamIdentity) := do
  let point ← (decoder.metricPoint row.2.payload).mapError (LoadError.decode "points")
  let stream ← (decoder.streamIdentity row.2.streamPayload).mapError fun error =>
    LoadError.decode "points" s!"stream_payload: {error}"
  return (row.1, row.2.admissionNano, point, stream)

/-- Reads every row of every table, in the order given. -/
def load (decoder : RowDecoder) {tables : Tables} (rows : RowOrder tables) :
    Except LoadError LoadedRows := do
  let spans ← rows.spans.mapM (loadRow "spans" decoder.span)
  let logs ← rows.logs.mapM (loadRow "logs" decoder.logRecord)
  let points ← rows.points.mapM (loadPointRow decoder)
  return ⟨spans, logs, points⟩

/-! ## The rebuild -/

/-- The addresses the allocator gives the rebuilt records of each kind. -/
abbrev Allocation := RecordKind → EntityId → Nat

/-- What is rebuilt from a file's rows. -/
structure Rehydrated where
  spans : Shelf (Arc Span)
  logs : Shelf (Arc LogRecord)
  points : Shelf PointSlot
  series : ContentMap StreamIdentity Nat
  identityAccountedBytes : Nat

/-- Where the walk over the point rows stands; equal streams resolve to the one interned. -/
structure Rehydrating where
  points : Shelf PointSlot
  series : ContentMap StreamIdentity Nat
  identityAccountedBytes : Nat
  interned : ContentMap StreamIdentity StreamIdentity

/-- The handle a stream read from a row resolves to, and the interned streams after it. -/
def resolveStream (interned : ContentMap StreamIdentity StreamIdentity) (stream : StreamIdentity) :
    StreamIdentity × ContentMap StreamIdentity StreamIdentity :=
  match interned.get? stream with
  | some known => (known, interned)
  | none => (stream, interned.insert stream stream)

/-- One record of a row, shelved. -/
def rehydrateRecord {V : Type} [Accounted V] (address : EntityId → Nat) (shelf : Shelf (Arc V))
    (row : EntityId × Nat × V) : Shelf (Arc V) :=
  shelf.insert ⟨row.1, ⟨row.2.1⟩, ⟨address row.1, row.2.2⟩⟩

/-- One point of a row, charged to its stream and shelved. -/
def rehydratePoint (address : EntityId → Nat) (state : Rehydrating)
    (row : EntityId × Nat × MetricPoint × StreamIdentity) : Rehydrating :=
  let resolved := resolveStream state.interned row.2.2.2
  let stream := resolved.1
  let count := (state.series.get? stream).getD 0
  { points := state.points.insert ⟨row.1, ⟨row.2.1⟩, ⟨⟨address row.1, row.2.2.1⟩, stream⟩⟩
    series := state.series.insert stream (count + 1)
    identityAccountedBytes :=
      if count = 0 then saturatingAdd state.identityAccountedBytes (accountedU64 stream)
      else state.identityAccountedBytes
    interned := resolved.2 }

/-- Rebuilds the shelves, the series table and the identity charge from a file's rows. -/
def rehydrate (addresses : Allocation) (loaded : LoadedRows) : Rehydrated :=
  let walked := loaded.points.foldl (rehydratePoint (addresses .point))
    ⟨Shelf.new, ContentMap.empty, 0, ContentMap.empty⟩
  { spans := loaded.spans.foldl (rehydrateRecord (addresses .span)) Shelf.new
    logs := loaded.logs.foldl (rehydrateRecord (addresses .log)) Shelf.new
    points := walked.points
    series := walked.series
    identityAccountedBytes := walked.identityAccountedBytes }

/-! ## The ceilings at open -/

namespace Inner

/-- The first capacity ceiling found violated; never the window. -/
def firstViolationNoWindow (i : Inner) : Option EvictionCause :=
  if i.residentRecords > i.config.maxRecords then some .recordCeiling
  else if i.accountedBytes > i.config.maxAccountedBytes then some .accountedBytesCeiling
  else none

/-- One turn of the open-time pass. -/
def evictOneNoWindow (sweep : Sweep) : Option Sweep :=
  match sweep.inner.firstViolationNoWindow with
  | none => none
  | some cause =>
    match sweep.inner.popOldest sweep.ops with
    | none => none
    | some ((key, released), i, ops) =>
      some
        { inner := { i with counters := i.counters.countEviction cause }
          evicted := sweep.evicted + 1
          ops := ops
          deliveries := sweep.deliveries ++ evictionDeliveries key released }

/-- The open-time pass as a loop: every turn leaves one record fewer. -/
def noWindowLoop : Loop Sweep where
  step := evictOneNoWindow
  fuel sweep := sweep.inner.residentRecords
  decreases := by
    intro sweep sweep' h
    unfold evictOneNoWindow at h
    split at h
    · exact absurd h (by simp)
    · split at h
      · exact absurd h (by simp)
      · rename_i key released i ops hpop
        obtain rfl := Option.some.inj h
        have := residentRecords_of_popOldest hpop
        simp only [residentRecords] at this ⊢
        omega

/-- Runs the capacity ceilings down to compliance, staging as it goes. -/
def enforceNoWindow (i : Inner) (ops : List DbOp) (deliveries : List Delivery) : Sweep :=
  noWindowLoop.run ⟨i, 0, ops, deliveries⟩

end Inner

/-! ## The open -/

/-- Why an open failed: a row that does not decode, or the trim's batch not written. -/
inductive OpenError where
  | corruptData (detail : String)
  | write
deriving DecidableEq

/-- The state a reopened store starts from, before it is brought under its ceilings. -/
def Rehydrated.inner (r : Rehydrated) (tables : Tables) (config : RetentionConfig) (hook : Bool) :
    Inner where
  conn := tables
  config := config
  windowNanos := config.windowNanos
  hook := hook
  spans := r.spans
  logs := r.logs
  points := r.points
  series := r.series
  identityAccountedBytes := r.identityAccountedBytes
  counters := Counters.default
  anomalies := 0

/-- Opens a store over a file's tables; with the store, the calls of its hook. -/
def openFile (decoder : RowDecoder) (tables : Tables) (rows : RowOrder tables)
    (addresses : Allocation) (config : RetentionConfig) (hook : Bool) (succeeds : Bool) :
    Except OpenError (FileBackedStore × List HookCall) :=
  match load decoder rows with
  | .error error => .error (.corruptData error.text)
  | .ok loaded =>
    let sweep := ((rehydrate addresses loaded).inner tables config hook).enforceNoWindow [] []
    match sweep.inner.conn.commit sweep.ops succeeds with
    | .error () => .error .write
    | .ok conn =>
      let delivered := { sweep.inner with conn := conn }.deliver sweep.deliveries
      .ok (⟨config, delivered.1⟩, delivered.2)

end RuntimeTrail
