import RuntimeTrail.Library.Loop
import RuntimeTrail.Model.Ledger

/-!
# Runs of the ledger

The five calls a session makes of its ledger, and what stays true of the ledger
over any sequence of them.

* **exits** — `admitSpan_exit`, `admitMetricPoint_exit`: the exits of the two
  admissions that keep entries, each with what it asked of the ledger, what it
  answers and what it leaves, and `applied`, those of a call; every law of a
  delivery is read off these;
* **the invariant** — `Consistent`: the two indices over the points are inverse
  to each other, every span stands under its own identity, and everything that
  stands passed the gates; `Consistent.apply` keeps it, call by call;
* **serials** — `run_serials`: a run hands serials out in strictly increasing
  order, forgotten ones included.
-/

namespace RuntimeTrail

open Library

/-! ## The calls -/

/-- One call of the ledger. -/
inductive LedgerOp where
  | admitSpan (addr : Nat) (span : Span)
  | admitLogRecord (record : LogRecord)
  | admitMetricPoint (addr : Nat) (stream : StreamIdentity) (point : MetricPoint)
  | forget (entity : EntityId)
  | releaseStream (stream : StreamIdentity)

/-- The serial an outcome hands out. -/
def AdmissionOutcome.handedOut : AdmissionOutcome → Option AssignedId
  | .admitted (.assigned id) => some id
  | _ => none

/-- Whether a delivery was turned away: rejected, invalid, or in conflict. -/
def AdmissionOutcome.isRefused : AdmissionOutcome → Bool
  | .rejected _ => true
  | .invalid _ => true
  | .conflict _ => true
  | _ => false

namespace AdmissionLedger

/-- The ledger after a call, and the call's outcome where it is an admission. -/
def apply (l : AdmissionLedger) : LedgerOp → AdmissionLedger × Option AdmissionOutcome
  | .admitSpan addr span => ((l.admitSpan addr span).1, some (l.admitSpan addr span).2.outcome)
  | .admitLogRecord record => ((l.admitLogRecord record).1, some (l.admitLogRecord record).2)
  | .admitMetricPoint addr stream point =>
    ((l.admitMetricPoint addr stream point).1,
      some (l.admitMetricPoint addr stream point).2.outcome)
  | .forget entity => (l.forget entity, none)
  | .releaseStream stream => (l.releaseStream stream, none)

/-- A sequence of calls: the ledger they leave, and the outcomes of their admissions. -/
def run (l : AdmissionLedger) : List LedgerOp → AdmissionLedger × List AdmissionOutcome
  | [] => (l, [])
  | op :: ops =>
    let r := (l.apply op).1.run ops
    (r.1, (l.apply op).2.toList ++ r.2)

/-! ## The exits of an admission -/

/-- The exits of a span's admission. -/
inductive SpanExit (l : AdmissionLedger) (addr : Nat) (span : Span) :
    AdmissionLedger × SpanAdmission → Prop
  | rejected (rejection : BudgetRejection) (gate : checkSpan span l.limits = .error rejection) :
    SpanExit l addr span (l, ⟨.rejected rejection, none⟩)
  | unnamed (gate : checkSpan span l.limits = .ok ()) (natural : span.naturalIdentity = none) :
    SpanExit l addr span (l.assign, ⟨.admitted (.assigned l.nextAssigned), some ⟨addr, span⟩⟩)
  | collapsed (key : TraceId × SpanId) (standing : EntityId) (first : Arc Span)
      (gate : checkSpan span l.limits = .ok ()) (natural : span.naturalIdentity = some key)
      (stands : l.spans.get? key = some (standing, first)) (same : (first.val == span) = true) :
    SpanExit l addr span
      ({ l with anomalies :=
          l.anomalies.countMismatch first.val.resource.schemaUrl span.resource.schemaUrl },
        ⟨.collapsed standing, some first⟩)
  | conflict (key : TraceId × SpanId) (standing : EntityId) (first : Arc Span)
      (gate : checkSpan span l.limits = .ok ()) (natural : span.naturalIdentity = some key)
      (stands : l.spans.get? key = some (standing, first)) (differs : (first.val == span) = false) :
    SpanExit l addr span
      ({ l with anomalies := l.anomalies.countSpanConflict }, ⟨.conflict standing, none⟩)
  | entered (key : TraceId × SpanId)
      (gate : checkSpan span l.limits = .ok ()) (natural : span.naturalIdentity = some key)
      (absent : l.spans.getPair? key = none) :
    SpanExit l addr span
      ({ l with spans := l.spans.insert key (.span key.1 key.2, ⟨addr, span⟩) },
        ⟨.admitted (.span key.1 key.2), some ⟨addr, span⟩⟩)

theorem admitSpan_exit (l : AdmissionLedger) (addr : Nat) (span : Span) :
    l.SpanExit addr span (l.admitSpan addr span) := by
  unfold admitSpan
  cases hgate : checkSpan span l.limits with
  | error rejection => exact .rejected rejection hgate
  | ok u =>
    cases hnat : span.naturalIdentity with
    | none => exact .unnamed hgate hnat
    | some key =>
      cases hstands : l.spans.get? key with
      | none =>
        simp only
        rw [hstands]
        exact .entered key hgate hnat (by simpa [ContentMap.get?] using hstands)
      | some entry =>
        obtain ⟨standing, first⟩ := entry
        simp only
        rw [hstands]
        by_cases hsame : (first.val == span) = true
        · simp only [hsame, if_true]
          exact .collapsed key standing first hgate hnat hstands hsame
        · simp only [hsame]
          exact .conflict key standing first hgate hnat hstands (by simpa using hsame)

/-- The identity a delivered point is looked up under. -/
def identityOf (stream : StreamIdentity) (addr : Nat) (point : MetricPoint) : PointIdentity :=
  .ofInterned stream ⟨addr, point⟩

/-- The exits of a point's admission.  What stands is named by the delivery's own identity and
compared with the delivered stream: the interned handle is equal to it. -/
inductive PointExit (l : AdmissionLedger) (addr : Nat) (stream : StreamIdentity)
    (point : MetricPoint) : AdmissionLedger × PointAdmission → Prop
  | refused (outcome : AdmissionOutcome) (gate : l.gatePoint stream point = .error outcome) :
    PointExit l addr stream point (l, .bare outcome)
  | collapsed (first : PointIdentity) (standing : EntityId)
      (gate : l.gatePoint stream point = .ok ())
      (stands : l.points.getPair? (identityOf stream addr point) = some (first, standing))
      (described : (first.stream == stream) = true)
      (same : first.point.val.identityPayloadEq point stream.kind = true) :
    PointExit l addr stream point
      ({ (l.intern stream).1 with anomalies := (l.anomalies.countMismatch
          (l.intern stream).2.1.resource.schemaUrl stream.resource.schemaUrl) },
        ⟨.collapsed standing, some first.point, some (l.intern stream).2.1, (l.intern stream).2.2⟩)
  | conflict (first : PointIdentity) (standing : EntityId)
      (gate : l.gatePoint stream point = .ok ())
      (stands : l.points.getPair? (identityOf stream addr point) = some (first, standing))
      (described : (first.stream == stream) = true)
      (differs : first.point.val.identityPayloadEq point stream.kind = false) :
    PointExit l addr stream point
      ({ (l.intern stream).1 with anomalies := l.anomalies.countPointConflict },
        ⟨.conflict standing, none, some (l.intern stream).2.1, (l.intern stream).2.2⟩)
  | redescribed (first : PointIdentity) (standing : EntityId)
      (gate : l.gatePoint stream point = .ok ())
      (stands : l.points.getPair? (identityOf stream addr point) = some (first, standing))
      (described : (first.stream == stream) = false) :
    PointExit l addr stream point
      ({ l with anomalies := l.anomalies.countPointConflict }, .bare (.conflict standing))
  | entered (gate : l.gatePoint stream point = .ok ())
      (absent : l.points.getPair? (identityOf stream addr point) = none) :
    PointExit l addr stream point
      ((l.intern stream).1.enterPoint (.ofInterned (l.intern stream).2.1 ⟨addr, point⟩),
        ⟨.admitted (.assigned l.nextAssigned), some ⟨addr, point⟩, some (l.intern stream).2.1,
          (l.intern stream).2.2⟩)

theorem admitMetricPoint_exit (l : AdmissionLedger) (addr : Nat) (stream : StreamIdentity)
    (point : MetricPoint) :
    l.PointExit addr stream point (l.admitMetricPoint addr stream point) := by
  obtain ⟨-, -, -, -, -, hanomalies⟩ := l.intern_frame stream
  have hbeq := l.intern_beq stream
  unfold admitMetricPoint
  cases hgate : l.gatePoint stream point with
  | error outcome => exact .refused outcome hgate
  | ok u =>
    dsimp only
    unfold settlePoint
    dsimp only
    split
    · rename_i first standing hstands
      rw [getPair?_intern] at hstands
      split
      · rename_i hinterned
        have hdescribed : (first.stream == stream) = true := BEq.trans hinterned hbeq
        rw [hanomalies]
        split
        · rename_i hsame
          exact .collapsed first standing hgate hstands hdescribed hsame
        · rename_i hdiffers
          exact .conflict first standing hgate hstands hdescribed (by simpa using hdiffers)
      · rename_i hother
        have hdescribed : ¬ (first.stream == stream) = true := fun h =>
          hother (BEq.trans h (BEq.symm hbeq))
        have hexit := PointExit.redescribed first standing hgate hstands (by simpa using hdescribed)
        rcases l.intern_cases stream with ⟨handle, -, heq⟩ | ⟨hfresh, heq⟩
        · rw [heq]
          exact hexit
        · rw [heq]
          simpa only [if_true, releaseStream_of_fresh hfresh] using hexit
    · rename_i hstands
      rw [getPair?_intern] at hstands
      have hexit := PointExit.entered hgate hstands
      rw [← nextAssigned_intern] at hexit
      exact hexit

/-- The exits of a call. -/
inductive Applied (l : AdmissionLedger) :
    LedgerOp → AdmissionLedger × Option AdmissionOutcome → Prop
  | span {addr : Nat} {span : Span} {r : AdmissionLedger × SpanAdmission}
      (exit : l.SpanExit addr span r) :
      Applied l (.admitSpan addr span) (r.1, some r.2.outcome)
  | logRejected {record : LogRecord} {outcome : AdmissionOutcome}
      (refused : outcome.isAdmitted = false) : Applied l (.admitLogRecord record) (l, some outcome)
  | logEntered (record : LogRecord) :
      Applied l (.admitLogRecord record)
        (l.assign, some (.admitted (.assigned l.nextAssigned)))
  | point {addr : Nat} {stream : StreamIdentity} {point : MetricPoint}
      {r : AdmissionLedger × PointAdmission} (exit : l.PointExit addr stream point r) :
      Applied l (.admitMetricPoint addr stream point) (r.1, some r.2.outcome)
  | forget (entity : EntityId) : Applied l (.forget entity) (l.forget entity, none)
  | releaseStream (stream : StreamIdentity) :
      Applied l (.releaseStream stream) (l.releaseStream stream, none)

theorem applied (l : AdmissionLedger) (op : LedgerOp) : l.Applied op (l.apply op) := by
  cases op with
  | admitSpan addr span => exact .span (l.admitSpan_exit addr span)
  | admitLogRecord record =>
    rw [apply]
    rcases l.admitLogRecord_cases record with ⟨hkept, hrefused⟩ | heq
    · rw [hkept]
      exact .logRejected hrefused
    · rw [heq]
      exact .logEntered record
  | admitMetricPoint addr stream point => exact .point (l.admitMetricPoint_exit addr stream point)
  | forget entity => exact .forget entity
  | releaseStream stream => exact .releaseStream stream

@[simp] theorem spans_releaseStream (l : AdmissionLedger) (stream : StreamIdentity) :
    (l.releaseStream stream).spans = l.spans := rfl

@[simp] theorem points_releaseStream (l : AdmissionLedger) (stream : StreamIdentity) :
    (l.releaseStream stream).points = l.points := rfl

@[simp] theorem assignedPoints_releaseStream (l : AdmissionLedger) (stream : StreamIdentity) :
    (l.releaseStream stream).assignedPoints = l.assignedPoints := rfl

@[simp] theorem streams_releaseStream (l : AdmissionLedger) (stream : StreamIdentity) :
    (l.releaseStream stream).streams = l.streams.erase stream := rfl

/-- Forgetting a serial the index does not hold changes nothing; one it holds takes the point it
names out of both maps. -/
theorem forget_assigned_cases (l : AdmissionLedger) (id : AssignedId) :
    (l.assignedPoints.getPair? id = none ∧ l.forget (.assigned id) = l) ∨
    ∃ identity, (id, identity) ∈ l.assignedPoints.entries ∧
      l.forget (.assigned id) =
        { l with
          assignedPoints := l.assignedPoints.erase id
          points := l.points.erase identity } := by
  cases hid : l.assignedPoints.get? id with
  | none =>
    refine Or.inl ⟨by simpa [ContentMap.get?] using hid, ?_⟩
    simp only [forget, hid]
  | some identity =>
    obtain ⟨id', hmem, hbeq⟩ := ContentMap.get?_eq_some_iff.mp hid
    obtain rfl : id' = id := by simpa using hbeq
    refine Or.inr ⟨identity, hmem, ?_⟩
    simp only [forget, hid]

/-! ## The gates -/

/-- A point's gates are four checks: two of its stream alone, one of the point alone, and the
shape law of the pair. -/
theorem gatePoint_eq_ok_iff {l : AdmissionLedger} {stream : StreamIdentity} {point : MetricPoint} :
    l.gatePoint stream point = .ok () ↔
      MetricStream.checkIdentityCoherence stream = .ok () ∧
      MetricStream.checkPointCoherence stream point 0 = .ok () ∧
      checkStreamIdentity stream l.limits = .ok () ∧ checkPoint point l.limits = .ok () := by
  have hbind : ∀ {ε : Type} {f : ε → AdmissionOutcome} {x : Except ε Unit}
      {next : Unit → Except AdmissionOutcome Unit},
      (x.mapError f >>= next) = .ok () ↔ x = .ok () ∧ next () = .ok () := by
    intro ε f x next
    cases x with
    | error e => simp [Except.mapError, bind, Except.bind]
    | ok u => simp [Except.mapError, bind, Except.bind]
  have hlast : ∀ {ε : Type} {f : ε → AdmissionOutcome} {x : Except ε Unit},
      x.mapError f = .ok () ↔ x = .ok () := by
    intro ε f x
    cases x with
    | error e => simp [Except.mapError]
    | ok u => simp [Except.mapError]
  rw [gatePoint, hbind, hbind, hbind, hlast]

/-- The checks a stream passes on its own. -/
def StreamGated (limits : BudgetLimits) (stream : StreamIdentity) : Prop :=
  MetricStream.checkIdentityCoherence stream = .ok () ∧ checkStreamIdentity stream limits = .ok ()

/-- The shape law reads only the kind of a stream. -/
theorem checkPointCoherence_congr {a b : StreamIdentity} (h : (a == b) = true)
    (point : MetricPoint) (index : Nat) :
    MetricStream.checkPointCoherence a point index =
      MetricStream.checkPointCoherence b point index := by
  have hkind : a.kind = b.kind :=
    congrArg (fun content => content.2.2.2.2.2.2.1) ((StreamIdentity.beq_iff a b).mp h)
  simp only [MetricStream.checkPointCoherence, hkind]

/-- A point its delivered stream lets through is let through under an equal stream that passes
on its own. -/
theorem gatePoint_of_beq {l : AdmissionLedger} {stream handle : StreamIdentity}
    {point : MetricPoint} (h : l.gatePoint stream point = .ok ())
    (hgated : StreamGated l.limits handle) (hbeq : (handle == stream) = true) :
    l.gatePoint handle point = .ok () := by
  obtain ⟨-, hshape, -, hpoint⟩ := gatePoint_eq_ok_iff.mp h
  rw [← checkPointCoherence_congr hbeq] at hshape
  exact gatePoint_eq_ok_iff.mpr ⟨hgated.1, hshape, hgated.2, hpoint⟩

/-! ## The invariant -/

/-- What every reachable ledger satisfies. -/
structure Consistent (l : AdmissionLedger) : Prop where
  /-- A span stands under the natural identity of its own payload. -/
  spansNamed : ∀ p ∈ l.spans.entries,
    p.2.1 = .span p.1.1 p.1.2 ∧ p.2.2.val.naturalIdentity = some p.1
  spansGated : ∀ p ∈ l.spans.entries, checkSpan p.2.2.val l.limits = .ok ()
  /-- Every standing point is named by the index, and the index names only standing points. -/
  pointsIndexed : ∀ p ∈ l.points.entries, ∃ id, p.2 = .assigned id ∧
    (id, p.1) ∈ l.assignedPoints.entries
  indexPointed : ∀ q ∈ l.assignedPoints.entries, (q.2, EntityId.assigned q.1) ∈ l.points.entries
  pointsGated : ∀ p ∈ l.points.entries, l.gatePoint p.1.stream p.1.point.val = .ok ()
  /-- What is interned passed the gates that read no point. -/
  streamsGated : ∀ p ∈ l.streams.entries, StreamGated l.limits p.1
  /-- The index holds serials already given. -/
  serials : ∀ q ∈ l.assignedPoints.entries, q.1.serial ≤ l.nextSerial

namespace Consistent

variable {l : AdmissionLedger}

theorem new (limits : BudgetLimits) : Consistent (AdmissionLedger.new limits) := by
  refine ⟨?_, ?_, ?_, ?_, ?_, ?_, ?_⟩
  all_goals
    intro p hp
    exact absurd hp (by simp [AdmissionLedger.new, ContentMap.empty])

/-- The anomalies are no part of it. -/
theorem anomalies (h : l.Consistent) (a : AdmissionAnomalies) :
    Consistent { l with anomalies := a } :=
  ⟨h.spansNamed, h.spansGated, h.pointsIndexed, h.indexPointed, h.pointsGated, h.streamsGated,
    h.serials⟩

theorem assign (h : l.Consistent) : Consistent l.assign :=
  ⟨h.spansNamed, h.spansGated, h.pointsIndexed, h.indexPointed, h.pointsGated, h.streamsGated,
    fun q hq => (h.serials q hq).trans (Nat.le_succ _)⟩

/-- Interning a stream that passes on its own. -/
theorem intern (h : l.Consistent) {stream : StreamIdentity} (hgated : StreamGated l.limits stream) :
    Consistent (l.intern stream).1 := by
  rcases l.intern_cases stream with ⟨standing, -, heq⟩ | ⟨hfresh, heq⟩
  · rw [heq]
    exact h
  · rw [heq]
    refine ⟨h.spansNamed, h.spansGated, h.pointsIndexed, h.indexPointed, h.pointsGated, ?_,
      h.serials⟩
    intro p hp
    simp only [ContentMap.entries_insert_of_none hfresh, List.mem_append,
      List.mem_singleton] at hp
    rcases hp with hp | rfl
    · exact h.streamsGated p hp
    · exact hgated

/-- The interned handle passes on its own, whoever brought it. -/
theorem interned_gated (h : l.Consistent) {stream : StreamIdentity}
    (hgated : StreamGated l.limits stream) : StreamGated l.limits (l.intern stream).2.1 := by
  rcases l.intern_cases stream with ⟨standing, hstanding, heq⟩ | ⟨-, heq⟩
  · rw [heq]
    exact h.streamsGated _ (ContentMap.getPair?_eq_some_iff.mp hstanding).1
  · rw [heq]
    exact hgated

theorem enterSpan (h : l.Consistent) {key : TraceId × SpanId} {record : Arc Span}
    (hnat : record.val.naturalIdentity = some key)
    (hgate : checkSpan record.val l.limits = .ok ()) (habsent : l.spans.getPair? key = none) :
    Consistent { l with spans := l.spans.insert key (.span key.1 key.2, record) } := by
  have hentries := @ContentMap.entries_insert_of_none _ _ _ l.spans key
    (EntityId.span key.1 key.2, record) habsent
  refine ⟨?_, ?_, h.pointsIndexed, h.indexPointed, h.pointsGated, h.streamsGated, h.serials⟩
  · intro p hp
    simp only [hentries, List.mem_append, List.mem_singleton] at hp
    rcases hp with hp | rfl
    · exact h.spansNamed p hp
    · exact ⟨rfl, hnat⟩
  · intro p hp
    simp only [hentries, List.mem_append, List.mem_singleton] at hp
    rcases hp with hp | rfl
    · exact h.spansGated p hp
    · exact hgate

/-- The next serial is in the index of no consistent ledger. -/
theorem nextAssigned_absent (h : l.Consistent) :
    l.assignedPoints.getPair? l.nextAssigned = none := by
  rw [ContentMap.getPair?_eq_none_iff]
  intro q hq
  have hle := h.serials q hq
  rw [beq_eq_false_iff_ne]
  intro heq
  rw [heq, nextAssigned] at hle
  exact absurd hle (Nat.not_succ_le_self _)

theorem enterPoint (h : l.Consistent) {key : PointIdentity}
    (hgate : l.gatePoint key.stream key.point.val = .ok ())
    (habsent : l.points.getPair? key = none) : Consistent (l.enterPoint key) := by
  have hpoints := @ContentMap.entries_insert_of_none _ _ _ l.points key
    (.assigned l.nextAssigned) habsent
  have hindex := @ContentMap.entries_insert_of_none _ _ _ l.assignedPoints l.nextAssigned key
    h.nextAssigned_absent
  refine ⟨h.spansNamed, h.spansGated, ?_, ?_, ?_, h.streamsGated, ?_⟩
  · intro p hp
    simp only [AdmissionLedger.enterPoint, hpoints, hindex, List.mem_append,
      List.mem_singleton] at hp ⊢
    rcases hp with hp | rfl
    · obtain ⟨id, hid, hmem⟩ := h.pointsIndexed p hp
      exact ⟨id, hid, Or.inl hmem⟩
    · exact ⟨l.nextAssigned, rfl, Or.inr rfl⟩
  · intro q hq
    simp only [AdmissionLedger.enterPoint, hpoints, hindex, List.mem_append,
      List.mem_singleton] at hq ⊢
    rcases hq with hq | rfl
    · exact Or.inl (h.indexPointed q hq)
    · exact Or.inr rfl
  · intro p hp
    simp only [AdmissionLedger.enterPoint, hpoints, List.mem_append, List.mem_singleton] at hp
    rcases hp with hp | rfl
    · exact h.pointsGated p hp
    · exact hgate
  · intro q hq
    simp only [AdmissionLedger.enterPoint, hindex, List.mem_append, List.mem_singleton] at hq
    rcases hq with hq | rfl
    · exact (h.serials q hq).trans (Nat.le_succ _)
    · exact le_refl _

theorem forget (h : l.Consistent) (entity : EntityId) : Consistent (l.forget entity) := by
  cases entity with
  | span traceId spanId =>
    refine ⟨?_, ?_, h.pointsIndexed, h.indexPointed, h.pointsGated, h.streamsGated, h.serials⟩
    · intro p hp
      exact h.spansNamed p (ContentMap.mem_erase.mp hp).1
    · intro p hp
      exact h.spansGated p (ContentMap.mem_erase.mp hp).1
  | assigned id =>
    rcases l.forget_assigned_cases id with ⟨-, heq⟩ | ⟨identity, hmem, heq⟩
    · rw [heq]
      exact h
    · rw [heq]
      have hstands := h.indexPointed _ hmem
      refine ⟨h.spansNamed, h.spansGated, ?_, ?_, ?_, h.streamsGated, ?_⟩
      · intro p hp
        obtain ⟨hp, hother⟩ := ContentMap.mem_erase.mp hp
        obtain ⟨i, hi, hpi⟩ := h.pointsIndexed p hp
        refine ⟨i, hi, ContentMap.mem_erase.mpr ⟨hpi, ?_⟩⟩
        -- were it the forgotten serial, the point would be the forgotten one
        rw [beq_eq_false_iff_ne]
        rintro rfl
        have hsame := congrArg Prod.snd (ContentMap.eq_of_mem_of_beq hpi hmem BEq.rfl)
        rw [show p.1 = identity from hsame] at hother
        exact absurd hother (by simp)
      · intro q hq
        obtain ⟨hq, hother⟩ := ContentMap.mem_erase.mp hq
        refine ContentMap.mem_erase.mpr ⟨h.indexPointed q hq, ?_⟩
        by_contra hbeq
        have hsame := ContentMap.eq_of_mem_of_beq (h.indexPointed q hq) hstands (by simpa using hbeq)
        have hserial := EntityId.assigned.inj (congrArg Prod.snd hsame)
        rw [show q.1 = id from hserial] at hother
        exact absurd hother (by simp)
      · intro p hp
        exact h.pointsGated p (ContentMap.mem_erase.mp hp).1
      · intro q hq
        exact h.serials q (ContentMap.mem_erase.mp hq).1

theorem releaseStream (h : l.Consistent) (stream : StreamIdentity) :
    Consistent (l.releaseStream stream) :=
  ⟨h.spansNamed, h.spansGated, h.pointsIndexed, h.indexPointed, h.pointsGated,
    fun p hp => h.streamsGated p (ContentMap.mem_erase.mp hp).1, h.serials⟩

/-! ### The admissions keep it -/

theorem admitSpan (h : l.Consistent) (addr : Nat) (span : Span) :
    Consistent (l.admitSpan addr span).1 := by
  generalize hr : l.admitSpan addr span = r
  have hexit := l.admitSpan_exit addr span
  rw [hr] at hexit
  cases hexit with
  | rejected rejection gate => exact h
  | unnamed gate natural => exact h.assign
  | collapsed key standing first gate natural stands same => exact h.anomalies _
  | conflict key standing first gate natural stands differs => exact h.anomalies _
  | entered key gate natural absent => exact h.enterSpan natural gate absent

theorem admitLogRecord (h : l.Consistent) (record : LogRecord) :
    Consistent (l.admitLogRecord record).1 := by
  rcases l.admitLogRecord_cases record with ⟨heq, -⟩ | heq
  · rw [heq]
    exact h
  · rw [heq]
    exact h.assign

theorem admitMetricPoint (h : l.Consistent) (addr : Nat) (stream : StreamIdentity)
    (point : MetricPoint) : Consistent (l.admitMetricPoint addr stream point).1 := by
  have hstream : l.gatePoint stream point = .ok () → StreamGated l.limits stream := by
    intro hgate
    obtain ⟨hcoherent, -, hbudget, -⟩ := gatePoint_eq_ok_iff.mp hgate
    exact ⟨hcoherent, hbudget⟩
  generalize hr : l.admitMetricPoint addr stream point = r
  have hexit := l.admitMetricPoint_exit addr stream point
  rw [hr] at hexit
  cases hexit with
  | refused outcome gate => exact h
  | collapsed first standing gate stands described same =>
    exact (h.intern (hstream gate)).anomalies _
  | conflict first standing gate stands described differs =>
    exact (h.intern (hstream gate)).anomalies _
  | redescribed first standing gate stands described => exact h.anomalies _
  | entered gate absent =>
    obtain ⟨-, -, -, -, hlimits, -⟩ := l.intern_frame stream
    refine (h.intern (hstream gate)).enterPoint ?_ ((l.getPair?_intern stream _).trans absent)
    have hgate := gatePoint_of_beq gate (h.interned_gated (hstream gate)) (l.intern_beq stream)
    rw [gatePoint_eq_ok_iff] at hgate ⊢
    rw [hlimits]
    exact hgate

/-- **Every call keeps the invariant.** -/
theorem apply (h : l.Consistent) (op : LedgerOp) : Consistent (l.apply op).1 := by
  cases op with
  | admitSpan addr span => exact h.admitSpan addr span
  | admitLogRecord record => exact h.admitLogRecord record
  | admitMetricPoint addr stream point => exact h.admitMetricPoint addr stream point
  | forget entity => exact h.forget entity
  | releaseStream stream => exact h.releaseStream stream

theorem run (ops : List LedgerOp) (h : l.Consistent) : Consistent (l.run ops).1 := by
  induction ops generalizing l with
  | nil => exact h
  | cons op ops ih => exact ih (h.apply op)

end Consistent

/-! ## Serials -/

/-- No call changes the limits. -/
theorem apply_limits (l : AdmissionLedger) (op : LedgerOp) : (l.apply op).1.limits = l.limits := by
  have hall := l.applied op
  generalize l.apply op = r at hall ⊢
  cases hall with
  | span exit => cases exit <;> rfl
  | logRejected refused => rfl
  | logEntered record => rfl
  | @point addr stream point _ exit =>
    obtain ⟨-, -, -, -, hlimits, -⟩ := l.intern_frame stream
    cases exit with
    | refused outcome gate => rfl
    | collapsed first standing gate stands described same => exact hlimits
    | conflict first standing gate stands described differs => exact hlimits
    | redescribed first standing gate stands described => rfl
    | entered gate absent => exact hlimits
  | forget entity => exact l.limits_forget entity
  | releaseStream stream => rfl

theorem run_limits (ops : List LedgerOp) (l : AdmissionLedger) :
    (l.run ops).1.limits = l.limits := by
  induction ops generalizing l with
  | nil => rfl
  | cons op ops ih => exact (ih (l.apply op).1).trans (l.apply_limits op)

/-- A call hands no serial out and leaves the counter, or hands the next one out. -/
theorem apply_serial (l : AdmissionLedger) (op : LedgerOp) :
    ((l.apply op).2.toList.filterMap AdmissionOutcome.handedOut = [] ∧
      (l.apply op).1.nextSerial = l.nextSerial) ∨
    ((l.apply op).2.toList.filterMap AdmissionOutcome.handedOut = [l.nextAssigned] ∧
      (l.apply op).1.nextSerial = l.nextSerial + 1) := by
  have hall := l.applied op
  generalize l.apply op = r at hall ⊢
  cases hall with
  | span exit =>
    cases exit with
    | rejected rejection gate => exact Or.inl ⟨rfl, rfl⟩
    | unnamed gate natural => exact Or.inr ⟨rfl, rfl⟩
    | collapsed key standing first gate natural stands same => exact Or.inl ⟨rfl, rfl⟩
    | conflict key standing first gate natural stands differs => exact Or.inl ⟨rfl, rfl⟩
    | entered key gate natural absent => exact Or.inl ⟨rfl, rfl⟩
  | @logRejected _ outcome refused =>
    refine Or.inl ⟨?_, rfl⟩
    cases outcome with
    | admitted entity => cases refused
    | _ => rfl
  | logEntered record => exact Or.inr ⟨rfl, rfl⟩
  | @point addr stream point _ exit =>
    obtain ⟨hserial, -⟩ := l.intern_frame stream
    cases exit with
    | refused outcome gate =>
      refine Or.inl ⟨?_, rfl⟩
      cases outcome with
      | admitted entity => exact absurd gate gatePoint_ne_admitted
      | _ => rfl
    | collapsed first standing gate stands described same => exact Or.inl ⟨rfl, hserial⟩
    | conflict first standing gate stands described differs => exact Or.inl ⟨rfl, hserial⟩
    | redescribed first standing gate stands described => exact Or.inl ⟨rfl, rfl⟩
    | entered gate absent => exact Or.inr ⟨rfl, congrArg (· + 1) hserial⟩
  | forget entity => exact Or.inl ⟨rfl, l.nextSerial_forget entity⟩
  | releaseStream stream => exact Or.inl ⟨rfl, rfl⟩

/-- The serials a run hands out grow, from past the counter it starts at to the one it ends at. -/
theorem run_serials (ops : List LedgerOp) (l : AdmissionLedger) :
    l.nextSerial ≤ (l.run ops).1.nextSerial ∧
    ((l.run ops).2.filterMap AdmissionOutcome.handedOut).Pairwise (·.serial < ·.serial) ∧
    ∀ id ∈ (l.run ops).2.filterMap AdmissionOutcome.handedOut,
      l.nextSerial < id.serial ∧ id.serial ≤ (l.run ops).1.nextSerial := by
  induction ops generalizing l with
  | nil => exact ⟨le_refl _, List.Pairwise.nil, fun id hid => absurd hid (by simp [run])⟩
  | cons op ops ih =>
    obtain ⟨hle, hpair, hbounds⟩ := ih (l.apply op).1
    simp only [run, List.filterMap_append]
    rcases l.apply_serial op with ⟨hnone, hserial⟩ | ⟨hsome, hserial⟩
    · rw [hnone, List.nil_append]
      rw [hserial] at hle hbounds
      exact ⟨hle, hpair, hbounds⟩
    · rw [hsome, List.singleton_append]
      rw [hserial] at hle hbounds
      refine ⟨by omega, List.pairwise_cons.mpr ⟨fun id hid => ?_, hpair⟩, fun id hid => ?_⟩
      · exact (hbounds id hid).1
      · rcases List.mem_cons.mp hid with rfl | hid
        · exact ⟨Nat.lt_succ_self _, hle⟩
        · have hbound := hbounds id hid
          exact ⟨by omega, hbound.2⟩

/-! ## What every run leaves -/

/-- The points and their index answer each other. -/
def IndicesInverse (l : AdmissionLedger) : Prop :=
  (∀ key entity, l.points.getPair? key = some (key, entity) →
    ∃ id, entity = .assigned id ∧ l.assignedPoints.get? id = some key) ∧
  ∀ id key, l.assignedPoints.get? id = some key →
    l.points.getPair? key = some (key, .assigned id)

theorem Consistent.indicesInverse {l : AdmissionLedger} (h : l.Consistent) :
    l.IndicesInverse := by
  constructor
  · intro key entity hstands
    obtain ⟨id, hid, hmem⟩ := h.pointsIndexed _ (ContentMap.getPair?_eq_some_iff.mp hstands).1
    exact ⟨id, hid, ContentMap.get?_eq_some_iff.mpr ⟨id, hmem, BEq.rfl⟩⟩
  · intro id key hstands
    obtain ⟨id', hmem, hbeq⟩ := ContentMap.get?_eq_some_iff.mp hstands
    obtain rfl : id' = id := by simpa using hbeq
    exact ContentMap.getPair?_eq_some_iff.mpr ⟨h.indexPointed _ hmem, BEq.rfl⟩

/-- **The ledger's invariants hold after every sequence of calls.**  The two indices over the
points are inverse to each other, every span stands under the natural identity of its own payload,
everything that stands passed the gates of the configured limits, and the serials handed out grow
strictly, whatever was forgotten in between. -/
theorem run_invariants (limits : BudgetLimits) (ops : List LedgerOp) :
    let l := ((new limits).run ops).1
    l.IndicesInverse ∧
    (∀ key entity record, (key, entity, record) ∈ l.spans.entries →
      record.val.naturalIdentity = some key ∧ entity = .span key.1 key.2 ∧
        checkSpan record.val limits = .ok ()) ∧
    (∀ key entity, (key, entity) ∈ l.points.entries →
      MetricStream.checkIdentityCoherence key.stream = .ok () ∧
        MetricStream.checkPointCoherence key.stream key.point.val 0 = .ok () ∧
        checkStreamIdentity key.stream limits = .ok () ∧
        checkPoint key.point.val limits = .ok ()) ∧
    (((new limits).run ops).2.filterMap AdmissionOutcome.handedOut).Pairwise
      (·.serial < ·.serial) := by
  intro l
  have hconsistent : l.Consistent := (Consistent.new limits).run ops
  have hlimits : l.limits = limits := run_limits ops (new limits)
  refine ⟨hconsistent.indicesInverse, ?_, ?_, (run_serials ops (new limits)).2.1⟩
  · intro key entity record hmem
    obtain ⟨hentity, hnat⟩ := hconsistent.spansNamed _ hmem
    have hgate := hconsistent.spansGated _ hmem
    rw [hlimits] at hgate
    exact ⟨hnat, hentity, hgate⟩
  · intro key entity hmem
    have hgate := gatePoint_eq_ok_iff.mp (hconsistent.pointsGated _ hmem)
    rw [hlimits] at hgate
    exact hgate

end AdmissionLedger

end RuntimeTrail
