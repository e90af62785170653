import RuntimeTrail.Model.Budgets

/-!
# The admission ledger

Entity-id assignment, duplicate delivery and conflict recording.  A record whose
gate refuses it leaves nothing behind; one with a natural identity stands under
it until it is forgotten, and a re-delivery collapses onto what stands or is
recorded as a conflict with it.  A log record and a span without valid ids get a
serial and no entry.

Points stand under their `PointIdentity`, which projects the stream's descriptor
out, and a second map takes their serials back to it.  The streams of admitted
points are interned: the set keeps the first handle of each content, and
`releaseStream` drops it when the store says so.

* **what an admission does** — `admitSpan_cases`, `admitLogRecord_cases`,
  `admitMetricPoint_cases`: each exit of each admission, with what it leaves.

An address is where the caller's allocation of the payload lives.
-/

namespace RuntimeTrail

open Library

/-- What admission did with a delivery. -/
inductive AdmissionOutcome where
  | admitted (entity : EntityId)
  | collapsed (entity : EntityId)
  | conflict (entity : EntityId)
  | rejected (rejection : BudgetRejection)
  | invalid (error : StreamShapeError)
deriving DecidableEq

/-- Whether a delivery entered as a new record. -/
def AdmissionOutcome.isAdmitted : AdmissionOutcome → Bool
  | .admitted _ => true
  | _ => false

/-- One span's admission: the outcome, and the payload the identity now names. -/
structure SpanAdmission where
  outcome : AdmissionOutcome
  record : Option (Arc Span)

/-- One point's admission; `freshIntern` says that this admission interned `stream`. -/
structure PointAdmission where
  outcome : AdmissionOutcome
  record : Option (Arc MetricPoint)
  stream : Option StreamIdentity
  freshIntern : Bool

/-- A point admission that hands nothing out. -/
def PointAdmission.bare (outcome : AdmissionOutcome) : PointAdmission :=
  ⟨outcome, none, none, false⟩

/-- The admission anomalies of a session. -/
structure AdmissionAnomalies where
  spanIdentityConflicts : Nat
  pointIdentityConflicts : Nat
  provenanceMismatches : Nat
deriving DecidableEq

namespace AdmissionAnomalies

def default : AdmissionAnomalies := ⟨0, 0, 0⟩

/-- Every anomaly recorded this session. -/
def total (a : AdmissionAnomalies) : Nat :=
  a.spanIdentityConflicts + a.pointIdentityConflicts + a.provenanceMismatches

def countSpanConflict (a : AdmissionAnomalies) : AdmissionAnomalies :=
  { a with spanIdentityConflicts := a.spanIdentityConflicts + 1 }

def countPointConflict (a : AdmissionAnomalies) : AdmissionAnomalies :=
  { a with pointIdentityConflicts := a.pointIdentityConflicts + 1 }

/-- A collapse across two schema urls is a mismatch. -/
def countMismatch (a : AdmissionAnomalies) (standing delivered : Option String) :
    AdmissionAnomalies :=
  if standing ≠ delivered then { a with provenanceMismatches := a.provenanceMismatches + 1 }
  else a

end AdmissionAnomalies

/-- The session-scoped admission ledger. -/
structure AdmissionLedger where
  nextSerial : Nat
  /-- The admitted span under each natural identity. -/
  spans : ContentMap (TraceId × SpanId) (EntityId × Arc Span)
  /-- The standing point under each point identity; the key owns the point. -/
  points : ContentMap PointIdentity EntityId
  /-- Assigned id to the point identity it was assigned to. -/
  assignedPoints : ContentMap AssignedId PointIdentity
  /-- The interned stream identities. -/
  streams : ContentMap StreamIdentity Unit
  limits : BudgetLimits
  anomalies : AdmissionAnomalies

namespace AdmissionLedger

/-- An empty session ledger; serials start at one. -/
def new (limits : BudgetLimits) : AdmissionLedger where
  nextSerial := 0
  spans := ContentMap.empty
  points := ContentMap.empty
  assignedPoints := ContentMap.empty
  streams := ContentMap.empty
  limits := limits
  anomalies := AdmissionAnomalies.default

/-- How many stream identities are interned. -/
def residentStreams (l : AdmissionLedger) : Nat := l.streams.length

/-- The serial the next assignment gives. -/
def nextAssigned (l : AdmissionLedger) : AssignedId := ⟨l.nextSerial + 1⟩

/-- The ledger after it gave a serial. -/
def assign (l : AdmissionLedger) : AdmissionLedger := { l with nextSerial := l.nextSerial + 1 }

/-! ## Endings -/

/-- Forget one admitted record: the entry naming `entity` is removed, its stream is not. -/
def forget (l : AdmissionLedger) : EntityId → AdmissionLedger
  | .span traceId spanId => { l with spans := l.spans.erase (traceId, spanId) }
  | .assigned id =>
    match l.assignedPoints.get? id with
    | none => l
    | some identity =>
      { l with
        assignedPoints := l.assignedPoints.erase id
        points := l.points.erase identity }

/-- Release one interned stream identity. -/
def releaseStream (l : AdmissionLedger) (stream : StreamIdentity) : AdmissionLedger :=
  { l with streams := l.streams.erase stream }

/-- Forgetting a point does not release its stream. -/
@[simp] theorem streams_forget (l : AdmissionLedger) (entity : EntityId) :
    (l.forget entity).streams = l.streams := by
  cases entity with
  | span traceId spanId => rfl
  | assigned id => simp only [forget]; split <;> rfl

@[simp] theorem limits_forget (l : AdmissionLedger) (entity : EntityId) :
    (l.forget entity).limits = l.limits := by
  cases entity with
  | span traceId spanId => rfl
  | assigned id => simp only [forget]; split <;> rfl

@[simp] theorem nextSerial_forget (l : AdmissionLedger) (entity : EntityId) :
    (l.forget entity).nextSerial = l.nextSerial := by
  cases entity with
  | span traceId spanId => rfl
  | assigned id => simp only [forget]; split <;> rfl

@[simp] theorem spans_forget_assigned (l : AdmissionLedger) (id : AssignedId) :
    (l.forget (.assigned id)).spans = l.spans := by
  simp only [forget]; split <;> rfl

/-! ## Admissions -/

/-- Admits one span. -/
def admitSpan (l : AdmissionLedger) (addr : Nat) (span : Span) :
    AdmissionLedger × SpanAdmission :=
  match checkSpan span l.limits with
  | .error rejection => (l, ⟨.rejected rejection, none⟩)
  | .ok () =>
    match span.naturalIdentity with
    | none => (l.assign, ⟨.admitted (.assigned l.nextAssigned), some ⟨addr, span⟩⟩)
    | some key =>
      let entity := EntityId.span key.1 key.2
      match l.spans.get? key with
      | some (standing, admitted) =>
        if admitted.val == span then
          -- the resource's schema url is outside identity: the drift is recorded
          ({ l with anomalies :=
              l.anomalies.countMismatch admitted.val.resource.schemaUrl span.resource.schemaUrl },
            ⟨.collapsed standing, some admitted⟩)
        else
          ({ l with anomalies := l.anomalies.countSpanConflict }, ⟨.conflict standing, none⟩)
      | none =>
        ({ l with spans := l.spans.insert key (entity, ⟨addr, span⟩) },
          ⟨.admitted entity, some ⟨addr, span⟩⟩)

/-- Admits one log record; no entry is kept for any of them. -/
def admitLogRecord (l : AdmissionLedger) (record : LogRecord) :
    AdmissionLedger × AdmissionOutcome :=
  match checkLogRecord record l.limits with
  | .error rejection => (l, .rejected rejection)
  | .ok () => (l.assign, .admitted (.assigned l.nextAssigned))

/-- The interned handle of a stream: the standing one, or this one made to stand. -/
def intern (l : AdmissionLedger) (stream : StreamIdentity) :
    AdmissionLedger × StreamIdentity × Bool :=
  match l.streams.getPair? stream with
  | some (standing, ()) => (l, standing, false)
  | none => ({ l with streams := l.streams.insert stream () }, stream, true)

/-- The delivery of a point every gate has passed, under its interned stream. -/
def settlePoint (l : AdmissionLedger) (stream interned : StreamIdentity) (freshIntern : Bool)
    (point : Arc MetricPoint) : AdmissionLedger × PointAdmission :=
  let key := PointIdentity.ofInterned interned point
  match l.points.getPair? key with
  | some (standingKey, standing) =>
    if standingKey.stream == interned then
      if standingKey.point.val.identityPayloadEq point.val stream.kind then
        ({ l with anomalies :=
            l.anomalies.countMismatch interned.resource.schemaUrl stream.resource.schemaUrl },
          ⟨.collapsed standing, some standingKey.point, some interned, freshIntern⟩)
      else
        ({ l with anomalies := l.anomalies.countPointConflict },
          ⟨.conflict standing, none, some interned, freshIntern⟩)
    else
      -- a changed descriptor: the first one stands, and a fresh intern is undone
      let l := { l with anomalies := l.anomalies.countPointConflict }
      (if freshIntern then l.releaseStream stream else l, .bare (.conflict standing))
  | none =>
    let assigned := l.nextAssigned
    let l := l.assign
    ({ l with
      points := l.points.insert key (.assigned assigned)
      assignedPoints := l.assignedPoints.insert assigned key },
      ⟨.admitted (.assigned assigned), some point, some interned, freshIntern⟩)

/-- The gates of a point's delivery, in order: the shape law, then the budgets. -/
def gatePoint (l : AdmissionLedger) (stream : StreamIdentity) (point : MetricPoint) :
    Except AdmissionOutcome Unit := do
  (MetricStream.checkIdentityCoherence stream).mapError .invalid
  (MetricStream.checkPointCoherence stream point 0).mapError .invalid
  (checkStreamIdentity stream l.limits).mapError .rejected
  (checkPoint point l.limits).mapError .rejected

/-- Admits one metric data point of a stream. -/
def admitMetricPoint (l : AdmissionLedger) (addr : Nat) (stream : StreamIdentity)
    (point : MetricPoint) : AdmissionLedger × PointAdmission :=
  match l.gatePoint stream point with
  | .error outcome => (l, .bare outcome)
  | .ok () =>
    let r := l.intern stream
    r.1.settlePoint stream r.2.1 r.2.2 ⟨addr, point⟩

/-! ## What an admission does -/

/-- A delivery that entered nothing: the anomalies alone may have moved. -/
def OnlyAnomalies (l l' : AdmissionLedger) : Prop :=
  ∃ anomalies, l' = { l with anomalies := anomalies }

theorem OnlyAnomalies.rfl {l : AdmissionLedger} : l.OnlyAnomalies l := ⟨l.anomalies, Eq.refl l⟩

/-- A span is refused, given a serial, or entered under its natural identity. -/
theorem admitSpan_cases (l : AdmissionLedger) (addr : Nat) (span : Span) :
    (l.OnlyAnomalies (l.admitSpan addr span).1 ∧
      (l.admitSpan addr span).2.outcome.isAdmitted = false) ∨
    (span.naturalIdentity = none ∧ l.admitSpan addr span =
      (l.assign, ⟨.admitted (.assigned l.nextAssigned), some ⟨addr, span⟩⟩)) ∨
    (∃ key, span.naturalIdentity = some key ∧ l.spans.getPair? key = none ∧
      l.admitSpan addr span =
        ({ l with spans := l.spans.insert key (.span key.1 key.2, ⟨addr, span⟩) },
          ⟨.admitted (.span key.1 key.2), some ⟨addr, span⟩⟩)) := by
  unfold admitSpan
  split
  · exact Or.inl ⟨OnlyAnomalies.rfl, rfl⟩
  · split
    · rename_i hid
      exact Or.inr (Or.inl ⟨hid, rfl⟩)
    · rename_i key hid
      dsimp only
      split
      · split
        · exact Or.inl ⟨⟨_, rfl⟩, rfl⟩
        · exact Or.inl ⟨⟨_, rfl⟩, rfl⟩
      · rename_i hstand
        exact Or.inr (Or.inr ⟨key, hid, by simpa [ContentMap.get?] using hstand, rfl⟩)

theorem admitLogRecord_cases (l : AdmissionLedger) (record : LogRecord) :
    ((l.admitLogRecord record).1 = l ∧ (l.admitLogRecord record).2.isAdmitted = false) ∨
    l.admitLogRecord record = (l.assign, .admitted (.assigned l.nextAssigned)) := by
  unfold admitLogRecord
  split
  · exact Or.inl ⟨rfl, rfl⟩
  · exact Or.inr rfl

/-- Interning answers the standing handle, or enters this one. -/
theorem intern_cases (l : AdmissionLedger) (stream : StreamIdentity) :
    (∃ standing, l.streams.getPair? stream = some (standing, ()) ∧
      l.intern stream = (l, standing, false)) ∨
    (l.streams.getPair? stream = none ∧
      l.intern stream = ({ l with streams := l.streams.insert stream () }, stream, true)) := by
  unfold intern
  split
  · rename_i standing h
    exact Or.inl ⟨standing, h, rfl⟩
  · rename_i h
    exact Or.inr ⟨h, rfl⟩

theorem intern_beq (l : AdmissionLedger) (stream : StreamIdentity) :
    ((l.intern stream).2.1 == stream) = true := by
  rcases l.intern_cases stream with ⟨standing, h, heq⟩ | ⟨-, heq⟩
  · rw [heq]
    exact (ContentMap.getPair?_eq_some_iff.mp h).2
  · rw [heq]
    exact BEq.rfl

/-- Interning changes the interned streams and nothing else. -/
theorem intern_frame (l : AdmissionLedger) (stream : StreamIdentity) :
    (l.intern stream).1.nextSerial = l.nextSerial ∧ (l.intern stream).1.spans = l.spans ∧
      (l.intern stream).1.points = l.points ∧
      (l.intern stream).1.assignedPoints = l.assignedPoints ∧
      (l.intern stream).1.limits = l.limits ∧ (l.intern stream).1.anomalies = l.anomalies := by
  rcases l.intern_cases stream with ⟨standing, -, heq⟩ | ⟨-, heq⟩
  · rw [heq]
    exact ⟨rfl, rfl, rfl, rfl, rfl, rfl⟩
  · rw [heq]
    exact ⟨rfl, rfl, rfl, rfl, rfl, rfl⟩

theorem nextAssigned_intern (l : AdmissionLedger) (stream : StreamIdentity) :
    (l.intern stream).1.nextAssigned = l.nextAssigned := by
  rw [nextAssigned, nextAssigned, (l.intern_frame stream).1]

/-- Under its interned handle a point is found exactly where it stood under the delivered stream. -/
theorem getPair?_intern (l : AdmissionLedger) (stream : StreamIdentity) (point : Arc MetricPoint) :
    (l.intern stream).1.points.getPair? (.ofInterned (l.intern stream).2.1 point) =
      l.points.getPair? (.ofInterned stream point) := by
  obtain ⟨-, -, hpoints, -⟩ := l.intern_frame stream
  rw [hpoints]
  exact ContentMap.getPair?_congr _ (PointIdentity.ofInterned_beq (l.intern_beq stream) point)

theorem contains_intern (l : AdmissionLedger) (stream other : StreamIdentity) :
    (l.intern stream).1.streams.contains other =
      (l.streams.contains other || stream == other) := by
  rcases l.intern_cases stream with ⟨standing, hstanding, heq⟩ | ⟨-, heq⟩
  · rw [heq]
    cases hsame : stream == other with
    | false => rw [Bool.or_false]
    | true =>
      rw [Bool.or_true, ← ContentMap.contains_congr l.streams hsame, ContentMap.contains, hstanding]
      rfl
  · rw [heq, ContentMap.contains_insert, Bool.or_comm]

/-- Interning a stream that stands interned leaves the ledger. -/
theorem intern_eq_of_contains {l : AdmissionLedger} {stream : StreamIdentity}
    (h : l.streams.contains stream = true) : (l.intern stream).1 = l := by
  rcases l.intern_cases stream with ⟨standing, -, heq⟩ | ⟨hfresh, -⟩
  · rw [heq]
  · rw [ContentMap.contains, hfresh] at h
    exact absurd h (by simp)

/-- Interning a stream that is not interned adds its entry, last. -/
theorem entries_intern_of_not_contains {l : AdmissionLedger} {stream : StreamIdentity}
    (h : l.streams.contains stream = false) :
    (l.intern stream).1.streams.entries = l.streams.entries ++ [(stream, ())] := by
  rcases l.intern_cases stream with ⟨standing, hstanding, -⟩ | ⟨hfresh, heq⟩
  · rw [ContentMap.contains, hstanding] at h
    exact absurd h (by simp)
  · rw [heq]
    exact ContentMap.entries_insert_of_none hfresh

/-- A fresh intern that is undone leaves the set as it stood. -/
theorem releaseStream_of_fresh {l : AdmissionLedger} {stream : StreamIdentity}
    (h : l.streams.getPair? stream = none) (anomalies : AdmissionAnomalies) :
    releaseStream { l with streams := l.streams.insert stream (), anomalies := anomalies } stream =
      { l with anomalies := anomalies } := by
  simp only [releaseStream, ContentMap.erase_insert_of_none h]

/-- A gate answers that a delivery is invalid or rejected, and nothing else. -/
theorem refusal_of_gatePoint {l : AdmissionLedger} {stream : StreamIdentity}
    {point : MetricPoint} {outcome : AdmissionOutcome}
    (h : l.gatePoint stream point = .error outcome) :
    (∃ error, outcome = .invalid error) ∨ ∃ rejection, outcome = .rejected rejection := by
  unfold gatePoint at h
  cases hidentity : MetricStream.checkIdentityCoherence stream with
  | error e =>
    rw [hidentity] at h
    exact Or.inl ⟨e, (Except.error.inj h).symm⟩
  | ok u =>
    cases hshape : MetricStream.checkPointCoherence stream point 0 with
    | error e =>
      rw [hidentity, hshape] at h
      exact Or.inl ⟨e, (Except.error.inj h).symm⟩
    | ok u =>
      cases hstream : checkStreamIdentity stream l.limits with
      | error r =>
        rw [hidentity, hshape, hstream] at h
        exact Or.inr ⟨r, (Except.error.inj h).symm⟩
      | ok u =>
        cases hpoint : checkPoint point l.limits with
        | error r =>
          rw [hidentity, hshape, hstream, hpoint] at h
          exact Or.inr ⟨r, (Except.error.inj h).symm⟩
        | ok u =>
          rw [hidentity, hshape, hstream, hpoint] at h
          exact absurd h (by simp [Except.mapError, bind, Except.bind])

/-- A gate refuses; it admits nothing. -/
theorem isAdmitted_of_gatePoint {l : AdmissionLedger} {stream : StreamIdentity}
    {point : MetricPoint} {outcome : AdmissionOutcome}
    (h : l.gatePoint stream point = .error outcome) : outcome.isAdmitted = false := by
  rcases refusal_of_gatePoint h with ⟨error, rfl⟩ | ⟨rejection, rfl⟩
  · rfl
  · rfl

theorem gatePoint_ne_admitted {l : AdmissionLedger} {stream : StreamIdentity}
    {point : MetricPoint} {entity : EntityId} :
    l.gatePoint stream point ≠ .error (.admitted entity) := fun h =>
  absurd (isAdmitted_of_gatePoint h) (by simp [AdmissionOutcome.isAdmitted])

/-- The entry an admitted point leaves, under its interned stream. -/
def enterPoint (l : AdmissionLedger) (key : PointIdentity) : AdmissionLedger :=
  { l.assign with
    points := l.points.insert key (.assigned l.nextAssigned)
    assignedPoints := l.assignedPoints.insert l.nextAssigned key }

/-- A point is refused leaving nothing, refused leaving its stream interned beside a standing
point of it, or entered. -/
theorem admitMetricPoint_cases (l : AdmissionLedger) (addr : Nat) (stream : StreamIdentity)
    (point : MetricPoint) :
    (l.OnlyAnomalies (l.admitMetricPoint addr stream point).1 ∧
      (l.admitMetricPoint addr stream point).2.outcome.isAdmitted = false) ∨
    (∃ anomalies key entity, l.streams.getPair? stream = none ∧ (key, entity) ∈ l.points.entries ∧
      key.stream == stream ∧
      (l.admitMetricPoint addr stream point).1 =
        { l with streams := l.streams.insert stream (), anomalies := anomalies } ∧
      (l.admitMetricPoint addr stream point).2.outcome.isAdmitted = false) ∨
    (l.points.getPair? (.ofInterned (l.intern stream).2.1 ⟨addr, point⟩) = none ∧
      l.admitMetricPoint addr stream point =
        ((l.intern stream).1.enterPoint (.ofInterned (l.intern stream).2.1 ⟨addr, point⟩),
          ⟨.admitted (.assigned l.nextAssigned), some ⟨addr, point⟩, some (l.intern stream).2.1,
            (l.intern stream).2.2⟩)) := by
  unfold admitMetricPoint
  split
  · rename_i outcome hgate
    exact Or.inl ⟨OnlyAnomalies.rfl, isAdmitted_of_gatePoint hgate⟩
  · dsimp only
    rcases l.intern_cases stream with ⟨standing, hstanding, heq⟩ | ⟨hfresh, heq⟩
    · rw [heq]
      dsimp only
      unfold settlePoint
      dsimp only
      split
      · split
        · split
          · exact Or.inl ⟨⟨_, rfl⟩, rfl⟩
          · exact Or.inl ⟨⟨_, rfl⟩, rfl⟩
        · exact Or.inl ⟨⟨_, rfl⟩, rfl⟩
      · rename_i hnone
        exact Or.inr (Or.inr ⟨hnone, rfl⟩)
    · rw [heq]
      dsimp only
      unfold settlePoint
      dsimp only
      split
      · rename_i key entity hstand
        have hmem := (ContentMap.getPair?_eq_some_iff.mp hstand).1
        split
        · rename_i hsame
          split
          · exact Or.inr (Or.inl ⟨_, key, entity, hfresh, hmem, hsame, rfl, rfl⟩)
          · exact Or.inr (Or.inl ⟨_, key, entity, hfresh, hmem, hsame, rfl, rfl⟩)
        · exact Or.inl ⟨⟨_, releaseStream_of_fresh hfresh _⟩, rfl⟩
      · rename_i hnone
        exact Or.inr (Or.inr ⟨hnone, rfl⟩)

/-! ## What does not stand is admitted -/

/-- A span within its budgets is admitted where its natural identity does not stand. -/
theorem admitSpan_of_absent {l : AdmissionLedger} {span : Span} {key : TraceId × SpanId}
    (hgate : checkSpan span l.limits = .ok ()) (hnat : span.naturalIdentity = some key)
    (habsent : l.spans.getPair? key = none) (addr : Nat) :
    (l.admitSpan addr span).2.outcome = .admitted (.span key.1 key.2) := by
  simp only [admitSpan, hgate, hnat, ContentMap.get?, habsent, Option.map_none]

/-- A point every gate passes is admitted where its identity does not stand. -/
theorem admitMetricPoint_of_absent {l : AdmissionLedger} {stream : StreamIdentity}
    {point : MetricPoint} {addr : Nat} (hgate : l.gatePoint stream point = .ok ())
    (habsent : l.points.getPair? (.ofInterned stream ⟨addr, point⟩) = none) :
    (l.admitMetricPoint addr stream point).2.outcome = .admitted (.assigned l.nextAssigned) := by
  have hnone := (l.getPair?_intern stream ⟨addr, point⟩).trans habsent
  simp only [admitMetricPoint, hgate, settlePoint, hnone, nextAssigned_intern]

end AdmissionLedger

end RuntimeTrail
