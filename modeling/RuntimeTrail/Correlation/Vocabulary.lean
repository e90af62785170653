import RuntimeTrail.Query.Filters

/-!
# The correlation vocabulary

What a correlation run is asked for and what it answers: the strategies, the
bounds, the relations with the facts they stand on, and the truth of the run.

The runtime writes the signal reference, the window and the kind twice, once for
the engine and once for the envelope, with conversions that copy them field by
field.  One type stands for both here.
-/

namespace RuntimeTrail

/-! ## Relations -/

/-- A half-open window over the model clock. -/
structure TimeWindow where
  start : Nat
  stop : Nat
deriving DecidableEq

/-- Whether a time lies in the window. -/
def TimeWindow.holds (window : TimeWindow) (time : Nat) : Bool :=
  decide (window.start ≤ time) && decide (time < window.stop)

/-- The window's length in clock units. -/
def TimeWindow.len (window : TimeWindow) : Nat := window.stop - window.start

/-- Whether nothing can fall inside the window. -/
def TimeWindow.isEmpty (window : TimeWindow) : Bool := decide (window.stop ≤ window.start)

/-- One resident signal, by kind and entity id. -/
structure SignalRef where
  kind : SignalKind
  entity : EntityId
deriving DecidableEq

/-- The relation types the taxonomy pins; no strategy emits `inferred`. -/
inductive RelationType where
  | spanIdentity
  | traceIdentity
  | parentChild
  | resourceContext
  | temporalCoActivity
  | exemplarAttachment
  | inferred
deriving DecidableEq

/-- A versioned strategy statement. -/
structure StrategyVersion where
  name : String
  version : String
deriving DecidableEq

/-- One fact a relation stands on: a cited model field and its verbatim value. -/
structure EvidenceFact where
  field : String
  value : Value
deriving DecidableEq

/-- A relation between two resident signals. -/
structure Relation where
  relationType : RelationType
  source : SignalRef
  target : SignalRef
  facts : List EvidenceFact
  strategy : StrategyVersion
  window : Option TimeWindow

/-! ## Strategies -/

/-- The strategies the engine can run. -/
inductive Strategy where
  | spanIdentity
  | traceIdentity
  | parentChild
  | resourceContext
  | exemplarAttachment
  | temporalCoActivity
deriving DecidableEq

namespace Strategy

/-- The strategy's name, as bound into relations and the limits statement. -/
def name : Strategy → String
  | spanIdentity => "span_identity"
  | traceIdentity => "trace_identity"
  | parentChild => "parent_child"
  | resourceContext => "resource_context"
  | temporalCoActivity => "temporal_co_activity"
  | exemplarAttachment => "exemplar_attachment"

/-- The strategy's version: one version for all of them. -/
def version : Strategy → String := fun _ => "1.0.0"

/-- The taxonomy type the strategy's relations carry. -/
def relationType : Strategy → RelationType
  | spanIdentity => .spanIdentity
  | traceIdentity => .traceIdentity
  | parentChild => .parentChild
  | resourceContext => .resourceContext
  | temporalCoActivity => .temporalCoActivity
  | exemplarAttachment => .exemplarAttachment

/-- The versioned statement the strategy's relations are bound to. -/
def statement (strategy : Strategy) : StrategyVersion := ⟨strategy.name, strategy.version⟩

end Strategy

/-! ## One run -/

/-- The bounds a correlation run is produced under. -/
structure CorrelationBounds where
  strategies : List Strategy
  window : Option TimeWindow
  maxRelations : Nat
  maxHops : Nat
  maxScan : Nat
  subjectTrace : Option TraceId
deriving DecidableEq

/-- A log attached to its exact span, its trace-identity relations suppressed. -/
structure Suppression where
  log : EntityId
  span : EntityId
  suppressed : Nat
deriving DecidableEq

/-- A log whose trace has no resident span. -/
structure AbsentTrace where
  log : EntityId
deriving DecidableEq

/-- Where a run stopped, when it did not finish the resident read. -/
inductive StoppedAt where
  | maxDepth (depth : Nat)
  | scanExhausted (examined : Nat)
  | maxRelations (count : Nat)
deriving DecidableEq

/-- The truth of one run: what ran, what it spent, and where it degraded. -/
structure Truth where
  strategyVersions : List StrategyVersion
  suppressions : List Suppression
  absentTraces : List AbsentTrace
  shrunken : Nat
  stoppedAt : Option StoppedAt
  scanSpent : Nat
deriving DecidableEq

/-- The relations a run produced, and its truth. -/
structure CorrelationOutcome where
  relations : List Relation
  truth : Truth

end RuntimeTrail
