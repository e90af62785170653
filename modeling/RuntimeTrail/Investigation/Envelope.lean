import RuntimeTrail.Correlation.Vocabulary
import RuntimeTrail.Query.Engine

/-!
# The investigation envelope

One response shape with five parts: the subject, the execution facts, the
correlated relations, the evidence and the limits.

The envelope mirrors the engine's outcomes into its own vocabulary.  Outcomes,
truncations, refusals and dimensions have the same constructors on both sides,
so the engine's types stand for the mirrored ones; a coverage entry takes the
snapshot boundary's key apart and has a type of its own.
-/

namespace RuntimeTrail

/-! ## Subject -/

/-- What the caller asked about, exactly as sent. -/
structure RequestedSubject where
  rootSpan : EntityId
deriving DecidableEq

/-- The effective root: who it is and under what identity. -/
structure EffectiveRoot where
  entity : EntityId
  name : String
  traceId : TraceId
  spanId : SpanId
deriving DecidableEq

/-- A resolution applied between the requested and the effective subject. -/
inductive ResolutionNote where
  | requestedSpanIsRoot
  | traceRootedAt (entity : EntityId) (name : String) (spanId : SpanId)
  | noParentlessSpanResident
  | rootHasNoValidTraceIdentity
deriving DecidableEq

structure EffectiveSubject where
  root : EffectiveRoot
  notes : List ResolutionNote
deriving DecidableEq

/-- The subject part: requested and effective, separately. -/
structure Subject where
  requested : RequestedSubject
  effective : EffectiveSubject
deriving DecidableEq

/-! ## Execution -/

/-- A coverage fact of one engine page, the snapshot boundary's key in its two halves. -/
inductive RunCoverage where
  | evictionGap (after before : EntityId)
  | snapshotBoundary (admissionTime : AdmissionTime) (entity : EntityId)
  | uncountedTail (after : EntityId) (dimension : Dimension)
  | driverStall (after : EntityId)
deriving DecidableEq

/-- Which evidence part a run belongs to. -/
inductive PartName where
  | spans
  | relatedLogs
  | surroundingMetrics
deriving DecidableEq

/-- The run facts of one engine page. -/
structure RunFacts where
  outcome : PartOutcome
  coverage : List RunCoverage
  nextCursor : Option (List UInt8)
deriving DecidableEq

/-- The pages run for one part, in execution order. -/
structure RunGroup where
  part : PartName
  runs : List RunFacts
deriving DecidableEq

/-- A coverage fact the flow states itself. -/
inductive FlowCoverageEntry where
  | metricWindow (asked resident : TimeWindow)
  | admissionAnomalies (total : Nat)
  | residencyHole (part : PartName) (count : Nat)
  | suppressedEvidence (log span : EntityId) (suppressed : Nat)
  | absentTraceSpans (log : EntityId)
  | relationShrinkage (count : Nat)
  | correlationDegradation (stop : StoppedAt)
  | temporalStrategySkipped (reason : String)
deriving DecidableEq

/-- The execution part: the groups in part order, then the flow's own coverage. -/
structure FlowExecution where
  runGroups : List RunGroup
  flowCoverage : List FlowCoverageEntry
deriving DecidableEq

/-- Mirrors an engine coverage entry. -/
def mirrorCoverage : CoverageEntry → RunCoverage
  | .evictionGap after before => .evictionGap after before
  | .snapshotBoundary admission => .snapshotBoundary admission.admittedAt admission.entity
  | .uncountedTail after dimension => .uncountedTail after dimension
  | .driverStall after => .driverStall after

/-! ## Evidence -/

structure SpanEvidence where
  entity : Option EntityId
  span : Arc Span

structure LogEvidence where
  entity : Option EntityId
  log : Arc LogRecord

structure PointEvidence where
  entity : Option EntityId
  point : Arc MetricPoint
  stream : StreamIdentity

/-- The records an investigation rests on, each with the id it was named by. -/
structure Evidence where
  spans : List SpanEvidence
  logs : List LogEvidence
  points : List PointEvidence

/-- Whether the evidence contains the signal a reference names. -/
def Evidence.entityOf (evidence : Evidence) (reference : SignalRef) : Bool :=
  match reference.kind with
  | .spans => evidence.spans.any fun view => view.entity == some reference.entity
  | .logRecords => evidence.logs.any fun view => view.entity == some reference.entity
  | .metricPoints => evidence.points.any fun view => view.entity == some reference.entity

/-! ## Limits -/

/-- The caller's five ceilings, admitted for a whole investigation. -/
structure InvestigationBudget where
  deadline : Nat
  maxResults : Nat
  maxBytes : Nat
  maxScan : Nat
  maxAggregationMemory : Nat
deriving DecidableEq

/-- The budget of one engine page: the five ceilings, admitted afresh. -/
def InvestigationBudget.perPage (budget : InvestigationBudget) : QueryBudget :=
  ⟨budget.deadline, budget.maxResults, budget.maxBytes, budget.maxScan,
    budget.maxAggregationMemory⟩

/-- On what chain ceiling the flow stopped. -/
inductive ChainBasis where
  | totalEntities
  | totalPages
deriving DecidableEq

/-- The flow's own ceilings, and what it spent. -/
structure ChainLimits where
  maxTotalEntities : Nat
  maxTotalPages : Nat
  totalEntities : Nat
  totalPages : Nat
  identityExaminations : Nat
  correlationScan : Nat
  stopped : Option ChainBasis
deriving DecidableEq

/-- The store's residency and eviction totals at flow admission. -/
structure EvictionState where
  residentRecords : Nat
  totalEvictions : Nat
deriving DecidableEq

/-- The limits part. -/
structure Limits where
  budget : InvestigationBudget
  chain : ChainLimits
  strategyVersions : List StrategyVersion
  eviction : EvictionState
deriving DecidableEq

/-! ## The envelope -/

/-- The investigation envelope. -/
structure Investigation where
  subject : Subject
  execution : FlowExecution
  correlated : List Relation
  evidence : Evidence
  limits : Limits

end RuntimeTrail
