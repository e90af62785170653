import RuntimeTrail.Model.Ledger

/-!
# Admission signals and the bounded hand-off queue

What ingestion says when it says no: one signal for a whole export, one of them
retryable, or an outcome for each record that names its reason.

The queue is bounded in accounted bytes and rejects the producer when it is
full; a record taken from its front gives its bytes back.  Its account is always
the sum of what it holds and never above the ceiling: both are fields of the
type, so no queue without them can be built.
-/

namespace RuntimeTrail

open Library

/-! ## Signals -/

/-- A mixed-kind array: where homogeneity broke, and against what. -/
structure MixedKindArray where
  firstKind : ValueKind
  offendingIndex : Nat
  offendingKind : ValueKind
deriving DecidableEq

/-- A severity number outside the model's domain. -/
structure SeverityOutOfRange where
  attempted : Nat
deriving DecidableEq

/-- Wire bytes no model record can carry. -/
inductive Unrepresentable where
  | idLength (field : String) (expected found : Nat)
  | unknownEnumValue (field : String) (value : Int)
  | missingValue (field : String)
  | emptyMetric
  | unsupportedEntityRefs
  | traceState (member : String)
  | traceStateOverCap (members bytes : Nat)
deriving DecidableEq

/-- Why one record was refused; every one of them is non-retryable. -/
inductive RecordRejection where
  | budget (rejection : BudgetRejection)
  | shape (error : StreamShapeError)
  | unrepresentable (error : Unrepresentable)
  | duplicateKey (error : DuplicateKey)
  | mixedKindArray (error : MixedKindArray)
  | severity (error : SeverityOutOfRange)
deriving DecidableEq

/-- What admission did with one record of an export. -/
inductive RecordOutcome where
  | admitted (entity : EntityId)
  | collapsed (entity : EntityId)
  | conflict (entity : EntityId)
  | rejected (reason : RecordRejection)
deriving DecidableEq

/-- A ledger outcome as the export reports it. -/
def RecordOutcome.ofAdmission : AdmissionOutcome → RecordOutcome
  | .admitted entity => .admitted entity
  | .collapsed entity => .collapsed entity
  | .conflict entity => .conflict entity
  | .rejected rejection => .rejected (.budget rejection)
  | .invalid error => .rejected (.shape error)

/-- The export-level signal a whole ingest call can fail with. -/
inductive AdmissionSignal where
  | queueSaturated (queue : String) (ceilingBytes attemptedBytes : Nat)
  | payloadOverCap (bytes ceilingBytes : Nat)
  | exportOverCap (rejection : BudgetRejection)
  | malformedRequest (detail : String)
  | draining
deriving DecidableEq

/-- Saturation is the one retryable signal. -/
def AdmissionSignal.isRetryable : AdmissionSignal → Bool
  | queueSaturated _ _ _ => true
  | _ => false

/-! ## The queue -/

/-- The model record a queued record carries. -/
inductive StoredRecord where
  | span (record : Arc Span)
  | log (record : Arc LogRecord)
  | point (stream : StreamIdentity) (point : Arc MetricPoint)

/-- Everything the record references, charged in full: a point charges its stream. -/
instance : Accounted StoredRecord :=
  ⟨fun
    | .span record => accountedSize record
    | .log record => accountedSize record
    | .point stream point => accountedSize point + accountedSize stream⟩

/-- One admitted record as the queue carries it. -/
structure QueuedRecord where
  entity : EntityId
  admittedAt : AdmissionTime
  record : StoredRecord

/-- The name the pipeline's hand-off queue is known by. -/
def pipelineQueueName : String := "ingestion"

/-- What a list of queued records is accounted at. -/
def queuedBytes (items : List QueuedRecord) : Nat :=
  (items.map fun item => accountedSize item.record).sum

/-- A hand-off queue bounded in accounted bytes. -/
structure BoundedQueue where
  name : String
  ceilingBytes : Nat
  items : List QueuedRecord
  accounted : Nat
  exact : accounted = queuedBytes items
  bounded : accounted ≤ ceilingBytes

namespace BoundedQueue

/-- An empty queue with `ceilingBytes` of headroom. -/
def new (name : String) (ceilingBytes : Nat) : BoundedQueue where
  name := name
  ceilingBytes := ceilingBytes
  items := []
  accounted := 0
  exact := rfl
  bounded := Nat.zero_le _

theorem queuedBytes_append (items : List QueuedRecord) (record : QueuedRecord) :
    queuedBytes (items ++ [record]) = queuedBytes items + accountedSize record.record := by
  simp [queuedBytes]

/-- Hands one record over, or refuses the producer. -/
def offer (q : BoundedQueue) (record : QueuedRecord) : Except AdmissionSignal BoundedQueue :=
  let bytes := accountedSize record.record
  if h : q.accounted + bytes > q.ceilingBytes then
    .error (.queueSaturated q.name q.ceilingBytes bytes)
  else
    .ok
      { q with
        items := q.items ++ [record]
        accounted := q.accounted + bytes
        exact := by rw [q.exact, queuedBytes_append]
        bounded := not_lt.mp h }

/-- Takes the front record; its bytes leave the account with it. -/
def popLocked (q : BoundedQueue) : Option (QueuedRecord × BoundedQueue) :=
  match h : q.items with
  | [] => none
  | record :: rest =>
    some (record,
      { q with
        items := rest
        accounted := q.accounted - accountedSize record.record
        exact := by rw [q.exact, h, queuedBytes, List.map_cons, List.sum_cons,
          Nat.add_sub_cancel_left, queuedBytes]
        bounded := (Nat.sub_le _ _).trans q.bounded })

/-- An offer that is taken is taken at the back. -/
theorem offer_eq_ok {q q' : BoundedQueue} {record : QueuedRecord} (h : q.offer record = .ok q') :
    q'.items = q.items ++ [record] ∧ q'.ceilingBytes = q.ceilingBytes ∧
      q'.accounted = q.accounted + accountedSize record.record := by
  unfold offer at h
  dsimp only at h
  split at h
  · exact absurd h (by simp)
  · obtain rfl := Except.ok.inj h
    exact ⟨rfl, rfl, rfl⟩

/-- A pop takes the head and nothing else. -/
theorem items_of_popLocked {q q' : BoundedQueue} {record : QueuedRecord}
    (h : q.popLocked = some (record, q')) : q.items = record :: q'.items := by
  unfold popLocked at h
  split at h
  · exact absurd h (by simp)
  · rename_i r rest hitems
    obtain ⟨rfl, rfl⟩ := Prod.mk.inj (Option.some.inj h)
    exact hitems

end BoundedQueue

end RuntimeTrail
