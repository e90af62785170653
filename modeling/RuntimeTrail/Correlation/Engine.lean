import RuntimeTrail.Correlation.Vocabulary
import RuntimeTrail.Library.Loop
import RuntimeTrail.Storage.Driver

/-!
# The correlation engine

One run scans the resident spans, log records and points under its scan
allowance, lets each requested strategy form its relations under the relation
ceiling, drops every relation whose endpoint has left residency since, and sorts
what is left.

A run reads the store at each of its calls: `Nat → TelemetryStore` is the store
as it stands at the n-th call, so that one that keeps and evicts between two
calls is the general case.

* **the sink** — `RelationSink.push`, the one place the ceiling is checked;
* **the scans** — `residentLoop`, paged, with an allowance the three scans share;
* **the strategies** — each a loop over what was scanned that pushes into the
  sink;
* **the run** — `correlate`.
-/

namespace RuntimeTrail

open Library

/-! ## The sink -/

/-- Accepts formed relations under the run's ceiling. -/
structure RelationSink where
  relations : List Relation
  limit : Nat
  kept : Nat
  stoppedAt : Option StoppedAt

namespace RelationSink

def new (limit : Nat) (stoppedAt : Option StoppedAt) : RelationSink := ⟨[], limit, 0, stoppedAt⟩

/-- Accepts a formed relation unless the ceiling is exhausted; an earlier stop keeps its name. -/
def push (sink : RelationSink) (relation : Relation) : RelationSink :=
  if sink.limit ≤ sink.kept then
    if sink.stoppedAt.isNone then { sink with stoppedAt := some (.maxRelations sink.limit) }
    else sink
  else { sink with relations := sink.relations ++ [relation], kept := sink.kept + 1 }

end RelationSink

/-! ## The resident scans -/

/-- The page width of the engine's scans. -/
def scanPage : Nat := 256

/-- What the three scans share: the store calls made, the positions examined, the stop. -/
structure Tally where
  calls : Nat
  spent : Nat
  stoppedAt : Option StoppedAt
deriving DecidableEq

/-- The allowance ran out: the stop is named with what was examined. -/
def Tally.exhausted (tally : Tally) : Tally :=
  { tally with stoppedAt := some (.scanExhausted tally.spent) }

/-- One scan in progress. -/
structure ResidentScan (R : Type) where
  tally : Tally
  after : Option AdmissionKey
  resident : List (EntityId × R)
  ended : Bool

namespace ResidentScan

variable {R : Type}

/-- The allowance is spent: the scan ends here. -/
def exhaust (scan : ResidentScan R) : ResidentScan R :=
  { scan with tally := scan.tally.exhausted, ended := true }

/-- One position is examined. -/
def examine (scan : ResidentScan R) (item : ScanItem R) : ResidentScan R :=
  { scan with
    tally := { scan.tally with spent := scan.tally.spent + 1 }
    resident := scan.resident ++ [(item.key.entity, item.record)] }

/-- Examines a page's items, each under the allowance. -/
def examineItems (maxScan : Nat) : ResidentScan R → List (ScanItem R) → ResidentScan R
  | scan, [] => scan
  | scan, item :: rest =>
    if maxScan ≤ scan.tally.spent then scan.exhaust
    else examineItems maxScan (scan.examine item) rest

/-- Whether the scan goes on: from the page's cursor, when it gave one. -/
def resume (scan : ResidentScan R) (cursor : Option AdmissionKey) : ResidentScan R :=
  match cursor with
  | some cursor => { scan with after := some cursor }
  | none => { scan with ended := true }

/-- One turn of the scan loop. -/
def turn (maxScan : Nat) (read : Nat → Option AdmissionKey → Nat → ScanPage R)
    (scan : ResidentScan R) : Option (ResidentScan R) :=
  if scan.ended then none
  else if maxScan ≤ scan.tally.spent then some scan.exhaust
  else
    let page := read scan.tally.calls scan.after scanPage
    let scan := { scan with tally := { scan.tally with calls := scan.tally.calls + 1 } }
    if page.items.isEmpty then some { scan with ended := true }
    else
      let scan := examineItems maxScan scan page.items
      -- an allowance spent inside the page returns at once
      if scan.ended then some scan else some (scan.resume page.cursor)

/-- Examining a page's items never gives allowance back, and an unfinished page spent some. -/
theorem spent_examineItems (maxScan : Nat) (scan : ResidentScan R) (items : List (ScanItem R)) :
    scan.tally.spent ≤ (examineItems maxScan scan items).tally.spent ∧
      (items ≠ [] → scan.ended = false → scan.tally.spent < maxScan →
        scan.tally.spent < (examineItems maxScan scan items).tally.spent) := by
  induction items generalizing scan with
  | nil => exact ⟨Nat.le_refl _, fun h => absurd rfl h⟩
  | cons item rest ih =>
    rw [examineItems]
    by_cases hfull : maxScan ≤ scan.tally.spent
    · rw [if_pos hfull]
      exact ⟨Nat.le_refl _, fun _ _ hlt => absurd hfull (Nat.not_le.mpr hlt)⟩
    · rw [if_neg hfull]
      have hrest := (ih (scan.examine item)).1
      have hspent : (scan.examine item).tally.spent = scan.tally.spent + 1 := rfl
      exact ⟨by omega, fun _ _ _ => by omega⟩

/-- The positions a scan may still examine, and the turn that ends it. -/
def fuel (maxScan : Nat) (scan : ResidentScan R) : Nat :=
  if scan.ended then 0 else maxScan - scan.tally.spent + 1

theorem fuel_of_ended {maxScan : Nat} {scan : ResidentScan R} (h : scan.ended = true) :
    fuel maxScan scan = 0 := if_pos h

theorem fuel_of_running {maxScan : Nat} {scan : ResidentScan R} (h : scan.ended = false) :
    fuel maxScan scan = maxScan - scan.tally.spent + 1 := by simp [fuel, h]

theorem fuel_le {maxScan : Nat} (scan : ResidentScan R) :
    fuel maxScan scan ≤ maxScan - scan.tally.spent + 1 := by
  unfold fuel
  split <;> omega

/-- Every turn ends the scan or spends allowance. -/
theorem fuel_turn {maxScan : Nat} {read : Nat → Option AdmissionKey → Nat → ScanPage R}
    {scan scan' : ResidentScan R} (h : turn maxScan read scan = some scan') :
    fuel maxScan scan' < fuel maxScan scan := by
  unfold turn at h
  cases hended : scan.ended with
  | true => simp [hended] at h
  | false =>
    rw [fuel_of_running hended]
    rw [if_neg (by rw [hended]; decide)] at h
    by_cases hfull : maxScan ≤ scan.tally.spent
    · rw [if_pos hfull, Option.some.injEq] at h
      subst h
      rw [fuel_of_ended rfl]
      omega
    · rw [if_neg hfull] at h
      dsimp only at h
      generalize read scan.tally.calls scan.after scanPage = page at h
      by_cases hempty : page.items.isEmpty = true
      · rw [if_pos hempty, Option.some.injEq] at h
        subst h
        rw [fuel_of_ended rfl]
        omega
      · rw [if_neg hempty] at h
        have hspent := (spent_examineItems maxScan
          { scan with tally := { scan.tally with calls := scan.tally.calls + 1 } } page.items).2
          (fun h => hempty (by rw [h]; rfl)) hended (Nat.lt_of_not_le hfull)
        dsimp only at hspent
        generalize examineItems maxScan _ page.items = examined at h hspent
        split at h
        · rename_i hdone
          obtain rfl := Option.some.inj h
          rw [fuel_of_ended hdone]
          omega
        · obtain rfl := Option.some.inj h
          refine Nat.lt_of_le_of_lt (fuel_le _) ?_
          have hresume : (examined.resume page.cursor).tally.spent = examined.tally.spent := by
            unfold resume
            cases page.cursor <;> rfl
          rw [hresume]
          omega

end ResidentScan

/-- The scan loop. -/
def residentLoop {R : Type} (maxScan : Nat)
    (read : Nat → Option AdmissionKey → Nat → ScanPage R) : Loop (ResidentScan R) where
  step := ResidentScan.turn maxScan read
  fuel := ResidentScan.fuel maxScan
  decreases := ResidentScan.fuel_turn

/-- Scans one kind's residents, each examined position counted into the allowance. -/
def scanResident {R : Type} (read : Nat → Option AdmissionKey → Nat → ScanPage R) (maxScan : Nat)
    (tally : Tally) : List (EntityId × R) × Tally :=
  let scan := (residentLoop maxScan read).run ⟨tally, none, [], false⟩
  (scan.resident, scan.tally)

def scanSpans (reads : Nat → TelemetryStore) (maxScan : Nat) (tally : Tally) :
    List (EntityId × Arc Span) × Tally :=
  scanResident (fun call => (reads call).scanSpans) maxScan tally

def scanLogs (reads : Nat → TelemetryStore) (maxScan : Nat) (tally : Tally) :
    List (EntityId × Arc LogRecord) × Tally :=
  scanResident (fun call => (reads call).scanLogRecords) maxScan tally

def scanPoints (reads : Nat → TelemetryStore) (maxScan : Nat) (tally : Tally) :
    List (EntityId × PointView) × Tally :=
  scanResident (fun call => (reads call).scanMetricPoints) maxScan tally

/-! ## Lookups and facts -/

/-- Whether the span's natural identity is the pair. -/
def Span.isNamed (span : Span) (trace : TraceId) (spanId : SpanId) : Bool :=
  decide (span.naturalIdentity = some (trace, spanId))

/-- The subject's resident spans: those whose natural identity names the subject trace. -/
def subjectSpans (spans : List (EntityId × Arc Span)) (subject : Option TraceId) :
    List (EntityId × Arc Span) :=
  match subject with
  | none => []
  | some subject =>
    spans.filter fun p =>
      match p.2.val.naturalIdentity with
      | some (trace, _) => decide (trace = subject)
      | none => false

/-- The resident span whose natural identity is the pair, in scan order. -/
def residentSpanNamed (spans : List (EntityId × Arc Span)) (trace : TraceId) (spanId : SpanId) :
    Option EntityId :=
  (spans.find? fun p => p.2.val.isNamed trace spanId).map Prod.fst

/-- The subject's span named by the pair, if any. -/
def spanWithIdentity (members : List (EntityId × Arc Span)) (trace : TraceId) (spanId : SpanId) :
    Option EntityId :=
  (members.find? fun p => p.2.val.isNamed trace spanId).map Prod.fst

/-- The facts of an exact attachment: the trace context cited verbatim. -/
def identityFacts (trace : TraceId) (spanId : SpanId) : List EvidenceFact :=
  [⟨"trace_id", .bytes trace.bytes⟩, ⟨"span_id", .bytes spanId.bytes⟩]

/-- The facts of a trace relation: the trace cited verbatim. -/
def traceFacts (trace : TraceId) : List EvidenceFact := [⟨"trace_id", .bytes trace.bytes⟩]

/-- A model clock value as a fact value; a reading past the signed range saturates. -/
def clockValue (nano : Nat) : Value := .int (if nano ≤ i64Max then nano else i64Max : Nat)

/-- The evidence of a shared resource: its own attributes, or one empty list for none. -/
def resourceFacts (resource : Resource) : List EvidenceFact :=
  let facts := resource.attributes.entries.entries.map fun p => EvidenceFact.mk p.1 p.2
  if facts.isEmpty then [⟨"resource", .kvList []⟩] else facts

/-! ## The strategies -/

/-- Attaches a log record to the exact span its trace context names, when that span is resident. -/
def spanIdentity (subject : Option TraceId) (members : List (EntityId × Arc Span))
    (logs : List (EntityId × Arc LogRecord)) (sink : RelationSink) : RelationSink :=
  match subject with
  | none => sink
  | some subject =>
    logs.foldl (fun sink log =>
      match log.2.val.correlationPair with
      | none => sink
      | some (trace, spanId) =>
        if trace ≠ subject then sink
        else
          match spanWithIdentity members trace spanId with
          | none => sink
          | some spanEntity =>
            sink.push ⟨.spanIdentity, ⟨.logRecords, log.1⟩, ⟨.spans, spanEntity⟩,
              identityFacts trace spanId, Strategy.spanIdentity.statement, none⟩) sink

/-- What the strategies append to: the sink, the suppressions and the absences. -/
structure Forming where
  sink : RelationSink
  suppressions : List Suppression
  absentTraces : List AbsentTrace

/-- Attaches a log record to every resident span of its trace; to none where its exact span is
resident (a suppression) or where the trace has no resident span (an absence). -/
def traceIdentity (subject : Option TraceId) (members : List (EntityId × Arc Span))
    (logs : List (EntityId × Arc LogRecord)) (forming : Forming) : Forming :=
  match subject with
  | none => forming
  | some subject =>
    logs.foldl (fun forming log =>
      match log.2.val.traceId with
      | none => forming
      | some trace =>
        if trace ≠ subject then forming
        else
          match log.2.val.correlationPair.bind fun pair =>
            spanWithIdentity members pair.1 pair.2 with
          | some exact =>
            { forming with
              suppressions := forming.suppressions ++
                [⟨log.1, exact, (members.filter fun p => decide (p.1 ≠ exact)).length⟩] }
          | none =>
            if members.isEmpty then
              { forming with absentTraces := forming.absentTraces ++ [⟨log.1⟩] }
            else
              { forming with
                sink := members.foldl (fun sink span =>
                  sink.push ⟨.traceIdentity, ⟨.logRecords, log.1⟩, ⟨.spans, span.1⟩,
                    traceFacts trace, Strategy.traceIdentity.statement, none⟩) forming.sink })
      forming

/-- Relates a span to the span its parent id names, when that span is resident and another one. -/
def parentChild (spans : List (EntityId × Arc Span)) (sink : RelationSink) : RelationSink :=
  spans.foldl (fun sink child =>
    match child.2.val.parentSpanId with
    | none => sink
    | some parent =>
      -- the zero parent is the absent-parent marker
      if !parent.isValid then sink
      else
        match child.2.val.naturalIdentity with
        | none => sink
        | some (trace, _) =>
          match residentSpanNamed spans trace parent with
          | none => sink
          | some parentEntity =>
            if child.1 = parentEntity then sink
            else
              sink.push ⟨.parentChild, ⟨.spans, child.1⟩, ⟨.spans, parentEntity⟩,
                [⟨"parent_span_id", .bytes parent.bytes⟩], Strategy.parentChild.statement, none⟩)
    sink

/-- Enters a member into the group of its resource identity: the standing group of an equal
resource, or a new one in the resource order. -/
def joinGroup (groups : List (Resource × List SignalRef)) (resource : Resource)
    (member : SignalRef) : List (Resource × List SignalRef) :=
  if groups.any fun group => group.1 == resource then
    groups.map fun group => if group.1 == resource then (group.1, group.2 ++ [member]) else group
  else
    groups.takeWhile (fun group => group.1.cmp resource == .lt) ++
      (resource, [member]) :: groups.dropWhile fun group => group.1.cmp resource == .lt

/-- Each member of a group to every later one. -/
def pushPairs (facts : List EvidenceFact) : List SignalRef → RelationSink → RelationSink
  | [], sink => sink
  | source :: later, sink =>
    pushPairs facts later (later.foldl (fun sink target =>
      sink.push ⟨.resourceContext, source, target, facts, Strategy.resourceContext.statement, none⟩)
        sink)

/-- The scanned records with their resources, in scan order: spans, log records, points. -/
def scannedSignals (spans : List (EntityId × Arc Span)) (logs : List (EntityId × Arc LogRecord))
    (points : List (EntityId × PointView)) : List (Resource × SignalRef) :=
  (spans.map fun p => (p.2.val.resource, ⟨.spans, p.1⟩)) ++
    (logs.map fun p => (p.2.val.resource, ⟨.logRecords, p.1⟩)) ++
    points.map fun p => (p.2.stream.resource, ⟨.metricPoints, p.1⟩)

/-- Relates the records that share one resource identity, pair by pair within its group. -/
def resourceContext (spans : List (EntityId × Arc Span)) (logs : List (EntityId × Arc LogRecord))
    (points : List (EntityId × PointView)) (sink : RelationSink) : RelationSink :=
  let groups := (scannedSignals spans logs points).foldl
    (fun groups signal => joinGroup groups signal.1 signal.2) []
  groups.foldl (fun sink group =>
    if group.2.length < 2 then sink else pushPairs (resourceFacts group.1) group.2 sink) sink

/-- Relates a data point to the span an exemplar's trace context names, when it is resident. -/
def exemplarAttachment (points : List (EntityId × PointView)) (spans : List (EntityId × Arc Span))
    (sink : RelationSink) : RelationSink :=
  points.foldl (fun sink point =>
    point.2.point.val.exemplars.foldl (fun sink exemplar =>
      match exemplar.correlationPair with
      | none => sink
      | some (trace, spanId) =>
        match residentSpanNamed spans trace spanId with
        | none => sink
        | some spanEntity =>
          sink.push ⟨.exemplarAttachment, ⟨.metricPoints, point.1⟩, ⟨.spans, spanEntity⟩,
            [⟨"exemplar.trace_id", .bytes trace.bytes⟩, ⟨"exemplar.span_id", .bytes spanId.bytes⟩],
            Strategy.exemplarAttachment.statement, none⟩) sink) sink

/-- The distance between a point's time and a span's interval; nothing inside it. -/
def coActivityGap (start stop time : Nat) : Nat :=
  if start ≤ time ∧ time < stop then 0 else if time < start then start - time else time - stop

/-- Relates the subject's spans to the points co-active with them inside the window. -/
def temporalCoActivity (members : List (EntityId × Arc Span)) (points : List (EntityId × PointView))
    (window : Option TimeWindow) (sink : RelationSink) : RelationSink :=
  match window with
  | none => sink
  | some window =>
    if window.isEmpty then sink
    else
      members.foldl (fun sink span =>
        let start := span.2.val.startTimeUnixNano
        let stop := span.2.val.endTimeUnixNano.getD start
        if stop ≤ window.start ∨ window.stop ≤ start then sink
        else
          points.foldl (fun sink point =>
            let time := point.2.point.val.timeUnixNano
            if time < window.start ∨ window.stop ≤ time then sink
            else if window.len < coActivityGap start stop time then sink
            else
              sink.push ⟨.temporalCoActivity, ⟨.spans, span.1⟩, ⟨.metricPoints, point.1⟩,
                [⟨"span.start_time_unix_nano", clockValue start⟩,
                  ⟨"point.time_unix_nano", clockValue time⟩] ++
                  (span.2.val.endTimeUnixNano.toList.map fun stop =>
                    ⟨"span.end_time_unix_nano", clockValue stop⟩),
                Strategy.temporalCoActivity.statement, some window⟩) sink) sink

/-! ## The run -/

/-- What the three scans of one run came to. -/
structure Scanned where
  spans : List (EntityId × Arc Span)
  logs : List (EntityId × Arc LogRecord)
  points : List (EntityId × PointView)
  tally : Tally

/-- The resident scans, in a fixed order: spans, then logs, then points. -/
def scanned (reads : Nat → TelemetryStore) (maxScan : Nat) : Scanned :=
  let (spans, tally) := scanSpans reads maxScan ⟨0, 0, none⟩
  let (logs, tally) := scanLogs reads maxScan tally
  let (points, tally) := scanPoints reads maxScan tally
  ⟨spans, logs, points, tally⟩

/-- One requested strategy. -/
def runStrategy (bounds : CorrelationBounds) (s : Scanned) (forming : Forming)
    (strategy : Strategy) : Forming :=
  let members := subjectSpans s.spans bounds.subjectTrace
  match strategy with
  | .spanIdentity =>
    { forming with sink := spanIdentity bounds.subjectTrace members s.logs forming.sink }
  | .traceIdentity => traceIdentity bounds.subjectTrace members s.logs forming
  | .parentChild => { forming with sink := parentChild s.spans forming.sink }
  | .resourceContext =>
    { forming with sink := resourceContext s.spans s.logs s.points forming.sink }
  | .exemplarAttachment =>
    { forming with sink := exemplarAttachment s.points s.spans forming.sink }
  | .temporalCoActivity =>
    { forming with sink := temporalCoActivity members s.points bounds.window forming.sink }

/-- What the requested strategies formed, in run order, under the relation ceiling. -/
def form (bounds : CorrelationBounds) (s : Scanned) : Forming :=
  bounds.strategies.foldl (runStrategy bounds s)
    ⟨.new bounds.maxRelations s.tally.stoppedAt, [], []⟩

/-- Whether a store holds the signal a reference names. -/
def TelemetryStore.holds (store : TelemetryStore) (endpoint : SignalRef) : Bool :=
  match endpoint.kind with
  | .spans => (store.span endpoint.entity).isSome
  | .logRecords => (store.logRecord endpoint.entity).isSome
  | .metricPoints => (store.metricPoint endpoint.entity).isSome

/-- Whether both endpoints are still resident, and the call after the last one made. -/
def endpointsResident (reads : Nat → TelemetryStore) (call : Nat) (relation : Relation) :
    Bool × Nat :=
  if (reads call).holds relation.source then
    ((reads (call + 1)).holds relation.target, call + 2)
  else (false, call + 1)

/-- The resident-endpoint re-check: what left residency after it was formed does not survive. -/
def retainResident (reads : Nat → TelemetryStore) : Nat → List Relation → List Relation
  | _, [] => []
  | call, relation :: rest =>
    match endpointsResident reads call relation with
    | (true, call) => relation :: retainResident reads call rest
    | (false, call) => retainResident reads call rest

/-- The taxonomy order of a relation type. -/
def typeRank : RelationType → Nat
  | .spanIdentity => 0
  | .traceIdentity => 1
  | .parentChild => 2
  | .resourceContext => 3
  | .exemplarAttachment => 4
  | .temporalCoActivity => 5
  | .inferred => 6

def kindRank : SignalKind → Nat
  | .spans => 0
  | .logRecords => 1
  | .metricPoints => 2

/-- By kind, then by entity id, in the residency order's tie-break. -/
def signalRefOrder (left right : SignalRef) : Ordering :=
  (compare (kindRank left.kind) (kindRank right.kind)).then (entityOrder left.entity right.entity)

/-- The deterministic relation order: type, then endpoints. -/
def relationOrder (left right : Relation) : Ordering :=
  (compare (typeRank left.relationType) (typeRank right.relationType)).then
    ((signalRefOrder left.source right.source).then (signalRefOrder left.target right.target))

/-- Runs the requested strategies over the store within the bounds. -/
def correlate (reads : Nat → TelemetryStore) (bounds : CorrelationBounds) : CorrelationOutcome :=
  if bounds.maxHops = 0 then ⟨[], ⟨[], [], [], 0, some (.maxDepth 0), 0⟩⟩
  else
    let s := scanned reads bounds.maxScan
    let formed := form bounds s
    let relations := retainResident reads s.tally.calls formed.sink.relations
    { relations := relations.mergeSort fun left right => (relationOrder left right).isLE
      truth :=
        { strategyVersions := bounds.strategies.map Strategy.statement
          suppressions := formed.suppressions
          absentTraces := formed.absentTraces
          shrunken := formed.sink.relations.length - relations.length
          stoppedAt := formed.sink.stoppedAt
          scanSpent := s.tally.spent } }

end RuntimeTrail
