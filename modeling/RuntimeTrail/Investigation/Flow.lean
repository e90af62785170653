import RuntimeTrail.Investigation.Waterfall

/-!
# The trace investigation

The one flow composing the query engine: it walks the resident spans into the
trace waterfall, the trace's related logs and the metrics surrounding it, names
the selected records, runs the correlation engine, and returns one envelope.

A flow reads the store once at each of its calls and the clock within each page.
All of them are in `FlowReads`, one store for each call, so that a store that
changes between two calls is the general case.  The correlation engine is a
parameter: whatever answers the bounds of its run.

* **the walks** — `walkPages`, the engine's cursors chained until the pages or a
  chain ceiling end;
* **identity recovery** — `Naming.recover`, the selected records matched to the
  scan surface by where they are stored;
* **the flow** — `investigateTraceBounded`.
-/

namespace RuntimeTrail

/-! ## The request -/

structure TraceInvestigationRequest where
  rootSpan : EntityId
  budget : InvestigationBudget
  correlationWindow : Option TimeWindow
deriving DecidableEq

/-- Why an investigation failed outright. -/
inductive FlowError where
  | subjectUnresolved (requested : EntityId)
  | cursorRejected
  | engineContract
deriving DecidableEq

/-- The ceilings the flow owns across all its engine pages. -/
structure ChainBudget where
  maxTotalPages : Nat
  maxTotalEntities : Nat
  maxIdentityExaminations : Nat
deriving DecidableEq

def ChainBudget.defaults : ChainBudget := ⟨16, 10000, 100000⟩

/-- Every chain ceiling is at least one. -/
structure ChainBudget.Positive (chain : ChainBudget) : Prop where
  pages : 0 < chain.maxTotalPages
  entities : 0 < chain.maxTotalEntities
  examinations : 0 < chain.maxIdentityExaminations

theorem ChainBudget.positive_defaults : ChainBudget.defaults.Positive :=
  ⟨by decide, by decide, by decide⟩

/-- What a flow reads while it runs. -/
structure FlowReads where
  /-- The statistics and the root lookup, at flow admission. -/
  stats : StoreStats
  span : EntityId → Option (Arc Span)
  /-- The store at each call of each engine page, and each page's clock. -/
  pages : Nat → Nat → TelemetryStore
  clocks : Nat → Clock
  /-- The store at each scan of the identity recovery. -/
  naming : Nat → TelemetryStore

/-- The flow's walking state. -/
structure WalkState where
  budget : InvestigationBudget
  chain : ChainBudget
  pages : Nat
  entities : Nat
  examinations : Nat
  stopped : Option ChainBasis
  /-- Recovery scans made so far. -/
  scans : Nat
deriving DecidableEq

namespace WalkState

def start (budget : InvestigationBudget) (chain : ChainBudget) : WalkState where
  budget := budget
  chain := chain
  pages := 0
  entities := 0
  examinations := 0
  stopped := none
  scans := 0

/-- One engine page was run. -/
def paged (walk : WalkState) : WalkState := { walk with pages := walk.pages + 1 }

/-- So many evidence entities were selected. -/
def count (walk : WalkState) (selected : Nat) : WalkState :=
  { walk with entities := saturatingAdd walk.entities selected }

end WalkState

/-! ## The walks -/

/-- Mirrors an engine page: its one outcome, its coverage, its cursor. -/
def mirrorPage (page : Page RecordView) : Except FlowError RunFacts :=
  match page.execution.parts.head? with
  | none => .error .engineContract
  | some outcome => .ok ⟨outcome, page.execution.coverage.map mirrorCoverage, page.nextCursor⟩

/-- The page loop, with `left` pages of the chain's ceiling unspent. -/
def walkPagesFrom (reads : FlowReads) (query : RecordsQuery) :
    Nat → WalkState → Option (List UInt8) →
      Except FlowError (List RecordView × List RunFacts × WalkState)
  | 0, walk, _ => .ok ([], [], { walk with stopped := some .totalPages })
  | left + 1, walk, cursor =>
    if walk.chain.maxTotalEntities ≤ walk.entities then
      .ok ([], [], { walk with stopped := some .totalEntities })
    else
      -- every continuation page is a new execution: a fresh budget, a clock of its own
      match records (reads.pages walk.pages) query walk.budget.perPage (reads.clocks walk.pages)
        cursor with
      | .error _ => .error .cursorRejected
      | .ok page =>
        match mirrorPage page with
        | .error error => .error error
        | .ok run =>
          match page.nextCursor with
          | none => .ok (page.items, [run], walk.paged)
          | some next =>
            -- a page that hands back the cursor it was presented ends the part
            if cursor = some next then .ok (page.items, [run], walk.paged)
            else
              match walkPagesFrom reads query left walk.paged (some next) with
              | .error error => .error error
              | .ok (items, runs, walk) => .ok (page.items ++ items, run :: runs, walk)

/-- Walks one signal kind page by page, chaining the engine's cursors. -/
def walkPages (reads : FlowReads) (query : RecordsQuery) (part : PartName) (walk : WalkState) :
    Except FlowError (List RecordView × RunGroup × WalkState) :=
  match walkPagesFrom reads query (walk.chain.maxTotalPages - walk.pages) walk none with
  | .error error => .error error
  | .ok (items, runs, walk) => .ok (items, ⟨part, runs⟩, walk)

/-- A walked part is the runs of its page loop, from the first page of its kind. -/
theorem walkPages_eq_ok {reads : FlowReads} {query : RecordsQuery} {part : PartName}
    {walk walk' : WalkState} {items : List RecordView} {group : RunGroup}
    (h : walkPages reads query part walk = .ok (items, group, walk')) :
    walkPagesFrom reads query (walk.chain.maxTotalPages - walk.pages) walk none =
        .ok (items, group.runs, walk') ∧
      group.part = part := by
  unfold walkPages at h
  split at h
  · cases h
  · rename_i items' runs last hfrom
    obtain ⟨rfl, hrest⟩ := Prod.mk.inj (Except.ok.inj h)
    obtain ⟨rfl, rfl⟩ := Prod.mk.inj hrest
    exact ⟨hfrom, rfl⟩

/-! ## Identity recovery -/

/-- The slice of one recovery scan. -/
def recoveryScanSlice : Nat := 256

/-- A recovery in progress: the addresses still wanted, the names found, what was spent. -/
structure Naming where
  wanted : List Nat
  names : List (Option EntityId)
  examinations : Nat
  scans : Nat

namespace Naming

/-- Nothing is wanted, or the examination ceiling is reached. -/
def ends (n : Naming) (ceiling : Nat) : Bool :=
  n.wanted.isEmpty || decide (ceiling ≤ n.examinations)

/-- Examines one scanned record: a wanted address gets the name it is resident under. -/
def examined (n : Naming) (selected : List Nat) (addr : Nat) (entity : EntityId) : Naming :=
  let n := { n with examinations := n.examinations + 1 }
  if n.wanted.contains addr then
    { n with
      wanted := n.wanted.erase addr
      names := n.names.set (selected.idxOf addr) (some entity) }
  else n

variable {R : Type}

def examinePage (ceiling : Nat) (selected : List Nat) (addrOf : R → Nat) :
    Naming → List (ScanItem R) → Naming
  | n, [] => n
  | n, item :: rest =>
    if n.ends ceiling then n
    else
      examinePage ceiling selected addrOf (n.examined selected (addrOf item.record) item.key.entity)
        rest

/-- The recovery loop; `none` when it has not ended within so many scans. -/
def recover (ceiling : Nat) (selected : List Nat) (addrOf : R → Nat)
    (scan : Nat → Option AdmissionKey → Nat → ScanPage R) :
    Nat → Option AdmissionKey → Naming → Option Naming
  | 0, _, _ => none
  | fuel + 1, after, n =>
    if n.ends ceiling then some n
    else
      let page := scan n.scans after recoveryScanSlice
      let n := examinePage ceiling selected addrOf { n with scans := n.scans + 1 } page.items
      match page.cursor with
      | some cursor => recover ceiling selected addrOf scan fuel (some cursor) n
      | none => some n

end Naming

/-- Names the selected addresses from a scan surface, under the chain's examination ceiling. -/
def nameIdentities {R : Type} (fuel : Nat) (scan : Nat → Option AdmissionKey → Nat → ScanPage R)
    (addrOf : R → Nat) (selected : List Nat) (walk : WalkState) :
    Option (List (Option EntityId) × WalkState) :=
  match Naming.recover walk.chain.maxIdentityExaminations selected addrOf scan fuel none
    ⟨selected.eraseDups, List.replicate selected.length none, walk.examinations, walk.scans⟩ with
  | none => none
  | some n => some (n.names, { walk with examinations := n.examinations, scans := n.scans })

def nameLogIdentities (fuel : Nat) (reads : FlowReads) (selected : List (Arc LogRecord))
    (walk : WalkState) : Option (List (Option EntityId) × WalkState) :=
  nameIdentities fuel (fun n => (reads.naming n).scanLogRecords) Arc.addr (selected.map Arc.addr) walk

def namePointIdentities (fuel : Nat) (reads : FlowReads) (selected : List (Arc MetricPoint))
    (walk : WalkState) : Option (List (Option EntityId) × WalkState) :=
  nameIdentities fuel (fun n => (reads.naming n).scanMetricPoints) (fun view => view.point.addr)
    (selected.map Arc.addr) walk

/-- The selected records that were named, each with its name. -/
def namedOf {α : Type} (selected : List α) (names : List (Option EntityId)) : List (α × EntityId) :=
  (selected.zip names).filterMap fun p => p.2.map fun entity => (p.1, entity)

/-- The selected records that were not. -/
def holesOf (names : List (Option EntityId)) : Nat := names.countP Option.isNone

/-! ## The parts -/

/-- The walked spans. -/
def spanViewsOf (views : List RecordView) : List (Arc Span) :=
  views.filterMap fun
    | .span record => some record
    | _ => none

/-- The walked log records. -/
def logViewsOf (views : List RecordView) : List (Arc LogRecord) :=
  views.filterMap fun
    | .logRecord record => some record
    | _ => none

/-- The walked points, with their streams. -/
def pointViewsOf (views : List RecordView) : List PointView :=
  views.filterMap fun
    | .metricPoint point stream => some ⟨point, stream⟩
    | _ => none

/-- The waterfall's evidence: each span under its natural identity, a nameless one under the identity
the effective root carries. -/
def spanEvidence (waterfall : List (Arc Span)) (effective : EffectiveSubject) : List SpanEvidence :=
  waterfall.map fun span =>
    match span.val.naturalIdentity with
    | some (traceId, spanId) => ⟨some (.span traceId spanId), span⟩
    | none => ⟨some effective.root.entity, span⟩

/-- The log records of the trace; a subject with no trace identity relates to none. -/
def selectLogs (relatesTo : Option TraceId) (records : List (Arc LogRecord)) : List (Arc LogRecord) :=
  match relatesTo with
  | some trace => records.filter fun record => record.val.traceId == some trace
  | none => []

/-- The trace's related logs: selected, named, and the unnamed ones counted as holes. -/
def relatedLogs (fuel : Nat) (reads : FlowReads) (logViews : List RecordView)
    (relatesTo : Option TraceId) (walk : WalkState) :
    Option (List LogEvidence × Nat × WalkState) :=
  let selected := selectLogs relatesTo (logViewsOf logViews)
  match nameLogIdentities fuel reads selected walk with
  | none => none
  | some (names, walk) =>
    some ((namedOf selected names).map fun p => ⟨some p.2, p.1⟩, holesOf names,
      walk.count selected.length)

/-- The points inside the asked window; a subject with no trace identity is surrounded by none. -/
def selectPoints (relatesTo : Option TraceId) (asked : TimeWindow) (points : List PointView) :
    List PointView :=
  match relatesTo with
  | some _ => points.filter fun view => asked.holds view.point.val.timeUnixNano
  | none => []

/-- The window the named points span; without one, empty at the asked end. -/
def residentWindow (asked : TimeWindow) (times : List Nat) : TimeWindow :=
  if times.isEmpty then ⟨asked.stop, asked.stop⟩
  else ⟨times.foldl min u64Max, saturatingAdd (times.foldl max 0) 1⟩

/-- The metrics surrounding the waterfall: selected, named, the holes counted. -/
def surroundingMetrics (fuel : Nat) (reads : FlowReads) (pointViews : List RecordView)
    (asked : TimeWindow) (relatesTo : Option TraceId) (walk : WalkState) :
    Option (List PointEvidence × Nat × TimeWindow × WalkState) :=
  let selected := selectPoints relatesTo asked (pointViewsOf pointViews)
  match namePointIdentities fuel reads (selected.map PointView.point) walk with
  | none => none
  | some (names, walk) =>
    let named := namedOf selected names
    some (named.map fun p => ⟨some p.2, p.1.point, p.1.stream⟩, holesOf names,
      residentWindow asked (named.map fun p => p.1.point.val.timeUnixNano),
      walk.count selected.length)

/-! ## The flow -/

/-- What the three walks came to. -/
structure FlowParts where
  effective : EffectiveSubject
  relatesTo : Option TraceId
  waterfall : List (Arc Span)
  spansGroup : RunGroup
  logs : List LogEvidence
  logHoles : Nat
  logsGroup : RunGroup
  points : List PointEvidence
  pointHoles : Nat
  resident : TimeWindow
  pointsGroup : RunGroup
  walk : WalkState

/-- The metric window the flow asks for: the waterfall's extent. -/
def FlowParts.asked (parts : FlowParts) : TimeWindow := extentOf parts.waterfall

/-- The three walks, one behind the other, over a resident root; `none` when a recovery has not ended
within `fuel` scans. -/
def walkParts (fuel : Nat) (reads : FlowReads) (request : TraceInvestigationRequest)
    (chain : ChainBudget) (root : Arc Span) : Option (Except FlowError FlowParts) :=
  match walkPages reads (.new .spans) .spans (.start request.budget chain) with
  | .error error => some (.error error)
  | .ok (spanViews, spansGroup, walk) =>
    let spans := spanViewsOf spanViews
    let effective := resolveSubject root request.rootSpan spans
    let relatesTo := root.val.naturalIdentity.map Prod.fst
    let ordered := waterfall spans effective root
    match walkPages reads (.new .logRecords) .relatedLogs (walk.count ordered.length) with
    | .error error => some (.error error)
    | .ok (logViews, logsGroup, walk) =>
      match relatedLogs fuel reads logViews relatesTo walk with
      | none => none
      | some (logs, logHoles, walk) =>
        match walkPages reads (.new .metricPoints) .surroundingMetrics walk with
        | .error error => some (.error error)
        | .ok (pointViews, pointsGroup, walk) =>
          match surroundingMetrics fuel reads pointViews (extentOf ordered) relatesTo walk with
          | none => none
          | some (points, pointHoles, resident, walk) =>
            some (.ok ⟨effective, relatesTo, ordered, spansGroup, logs, logHoles, logsGroup, points,
              pointHoles, resident, pointsGroup, walk⟩)

/-- Parts that came to an end have walked the three kinds, one behind the other. -/
theorem walkParts_eq_ok {fuel : Nat} {reads : FlowReads} {request : TraceInvestigationRequest}
    {chain : ChainBudget} {root : Arc Span} {parts : FlowParts}
    (h : walkParts fuel reads request chain root = some (.ok parts)) :
    parts.relatesTo = root.val.naturalIdentity.map Prod.fst ∧
      ∃ spanViews logViews pointViews walk₁ walk₂ walk₃ walk₄,
        walkPages reads (.new .spans) .spans (.start request.budget chain) =
          .ok (spanViews, parts.spansGroup, walk₁) ∧
        parts.effective = resolveSubject root request.rootSpan (spanViewsOf spanViews) ∧
        parts.waterfall = waterfall (spanViewsOf spanViews) parts.effective root ∧
        walkPages reads (.new .logRecords) .relatedLogs (walk₁.count parts.waterfall.length) =
          .ok (logViews, parts.logsGroup, walk₂) ∧
        relatedLogs fuel reads logViews parts.relatesTo walk₂ =
          some (parts.logs, parts.logHoles, walk₃) ∧
        walkPages reads (.new .metricPoints) .surroundingMetrics walk₃ =
          .ok (pointViews, parts.pointsGroup, walk₄) ∧
        surroundingMetrics fuel reads pointViews parts.asked parts.relatesTo walk₄ =
          some (parts.points, parts.pointHoles, parts.resident, parts.walk) := by
  unfold walkParts at h
  split at h
  · exact absurd h (by simp)
  · rename_i spanViews spansGroup walk₁ hspans
    dsimp only at h
    split at h
    · exact absurd h (by simp)
    · rename_i logViews logsGroup walk₂ hlogs
      split at h
      · exact absurd h (by simp)
      · rename_i logs logHoles walk₃ hrelated
        split at h
        · exact absurd h (by simp)
        · rename_i pointViews pointsGroup walk₄ hpoints
          split at h
          · exact absurd h (by simp)
          · rename_i points pointHoles resident walk hsurrounding
            obtain rfl := Except.ok.inj (Option.some.inj h)
            exact ⟨rfl, spanViews, logViews, pointViews, walk₁, walk₂, walk₃, walk₄, hspans, rfl, rfl,
              hlogs, hrelated, hpoints, hsurrounding⟩

/-- The evidence of the three parts. -/
def FlowParts.evidence (parts : FlowParts) : Evidence :=
  ⟨spanEvidence parts.waterfall parts.effective, parts.logs, parts.points⟩

/-- The bounds of the correlation run: the temporal strategy needs the caller's window. -/
def correlationBounds (request : TraceInvestigationRequest) (relatesTo : Option TraceId) :
    CorrelationBounds where
  strategies :=
    match request.correlationWindow with
    | some _ => [.spanIdentity, .traceIdentity, .temporalCoActivity]
    | none => [.spanIdentity, .traceIdentity]
  window := request.correlationWindow
  maxRelations := 10000
  maxHops := 2
  maxScan := request.budget.maxScan
  subjectTrace := relatesTo

/-- The flow's own coverage: the metric window, the admission anomalies, the holes, the skipped
strategy, then the correlation run's truth. -/
def flowCoverage (stats : StoreStats) (request : TraceInvestigationRequest) (parts : FlowParts)
    (truth : Truth) (shrunk : Nat) : List FlowCoverageEntry :=
  (if parts.pointsGroup.runs.isEmpty then [] else [.metricWindow parts.asked parts.resident]) ++
  [.admissionAnomalies stats.admissionAnomalies] ++
  (if 0 < parts.logHoles then [.residencyHole .relatedLogs parts.logHoles] else []) ++
  (if 0 < parts.pointHoles then [.residencyHole .surroundingMetrics parts.pointHoles] else []) ++
  (if request.correlationWindow.isNone then [.temporalStrategySkipped "no_correlation_window"]
    else []) ++
  (truth.suppressions.map fun s => .suppressedEvidence s.log s.span s.suppressed) ++
  (truth.absentTraces.map fun absent => .absentTraceSpans absent.log) ++
  (if 0 < shrunk then [.relationShrinkage shrunk] else []) ++
  (truth.stoppedAt.toList.map .correlationDegradation)

/-- Composes the envelope: the relations narrowed to the evidence, the coverage, the limits. -/
def compose (reads : FlowReads) (correlate : CorrelationBounds → CorrelationOutcome)
    (request : TraceInvestigationRequest) (chain : ChainBudget) (parts : FlowParts) :
    Investigation :=
  let outcome := correlate (correlationBounds request parts.relatesTo)
  let relations := outcome.relations.filter fun relation =>
    parts.evidence.entityOf relation.source && parts.evidence.entityOf relation.target
  let shrunk := outcome.relations.length - relations.length
  { subject := ⟨⟨request.rootSpan⟩, parts.effective⟩
    execution :=
      ⟨[parts.spansGroup, parts.logsGroup, parts.pointsGroup],
        flowCoverage reads.stats request parts outcome.truth shrunk⟩
    correlated := relations
    evidence := parts.evidence
    limits :=
      { budget := request.budget
        chain :=
          ⟨chain.maxTotalEntities, chain.maxTotalPages, parts.walk.entities, parts.walk.pages,
            parts.walk.examinations, outcome.truth.scanSpent, parts.walk.stopped⟩
        strategyVersions := outcome.truth.strategyVersions
        eviction := ⟨reads.stats.residentRecords, reads.stats.totalEvictions⟩ } }

/-- Investigates the trace of a root span under the caller's budget and the chain's ceilings. -/
def investigateTraceBounded (fuel : Nat) (reads : FlowReads)
    (correlate : CorrelationBounds → CorrelationOutcome) (request : TraceInvestigationRequest)
    (chain : ChainBudget) : Option (Except FlowError Investigation) :=
  match reads.span request.rootSpan with
  | none => some (.error (.subjectUnresolved request.rootSpan))
  | some root =>
    match walkParts fuel reads request chain root with
    | none => none
    | some (.error error) => some (.error error)
    | some (.ok parts) => some (.ok (compose reads correlate request chain parts))

/-- A returned envelope was composed from the parts of a resident root. -/
theorem investigateTraceBounded_eq_ok {fuel : Nat} {reads : FlowReads}
    {correlate : CorrelationBounds → CorrelationOutcome} {request : TraceInvestigationRequest}
    {chain : ChainBudget} {envelope : Investigation}
    (h : investigateTraceBounded fuel reads correlate request chain = some (.ok envelope)) :
    ∃ root parts, reads.span request.rootSpan = some root ∧
      walkParts fuel reads request chain root = some (.ok parts) ∧
      envelope = compose reads correlate request chain parts := by
  unfold investigateTraceBounded at h
  split at h
  · cases h
  · rename_i root hroot
    split at h
    · cases h
    · cases h
    · rename_i parts hparts
      exact ⟨root, parts, hroot, hparts, (Except.ok.inj (Option.some.inj h)).symm⟩

/-- The flow under its default chain ceilings. -/
def investigateTrace (fuel : Nat) (reads : FlowReads)
    (correlate : CorrelationBounds → CorrelationOutcome) (request : TraceInvestigationRequest) :
    Option (Except FlowError Investigation) :=
  investigateTraceBounded fuel reads correlate request .defaults

end RuntimeTrail
