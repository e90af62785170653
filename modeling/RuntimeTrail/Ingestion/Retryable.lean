import RuntimeTrail.Ingestion.Bound
import RuntimeTrail.Ingestion.Retries

/-!
# Whether a refused export can ever be taken

A saturated queue refuses an export as a whole, and says that it may be tried
again.  What the export would hand over can be read off the ledger before it: the
records it enters fresh, each with its shared resource, scope or stream in full.
An empty queue takes it exactly when they fit the ceiling together, however well
each of them fits it alone.

* **what is fresh** — `freshBytesAt` for one delivery, `freshBytes` for all;
* **the account** — `Offers`, which `offerBytes_admitCall` brings to a whole export;
* **the law** — `retried_iff`.
-/

namespace RuntimeTrail

open Library

namespace AdmissionLedger

/-! ## What an export brings fresh -/

/-- Whether a span finds no other under its natural identity. -/
def findsNone (l : AdmissionLedger) (earlier : List LedgerDelivery) (span : Span) : Bool :=
  span.naturalIdentity.all fun key => (l.standingSpan earlier key).isNone

/-- What a delivery adds to the offer-set, behind earlier ones: a point is charged the handle its
stream is interned under. -/
def freshBytesAt (l : AdmissionLedger) (earlier : List LedgerDelivery) : LedgerDelivery → Nat
  | .span span =>
    if (checkSpan span l.limits).isOk && l.findsNone earlier span then accountedSize span else 0
  | .log record => if (checkLogRecord record l.limits).isOk then accountedSize record else 0
  | .point d =>
    if l.passes d && (l.standingPoint earlier d.identity).isNone then
      accountedSize d.point + accountedSize ((l.handle earlier d.stream).getD d.stream)
    else 0

/-- What the deliveries, latest first, add together. -/
def freshBytes (l : AdmissionLedger) : List LedgerDelivery → Nat
  | [] => 0
  | d :: earlier => l.freshBytes earlier + l.freshBytesAt earlier d

end AdmissionLedger

/-! ## The offer-set -/

namespace Pipeline

theorem offerBytes_append (pending : List PendingOffer) (offer : PendingOffer) :
    offerBytes (pending ++ [offer]) = offerBytes pending + accountedSize offer.queued.record := by
  simp [offerBytes, queuedBytes]

end Pipeline

/-- An export whose offer-set is what its deliveries, latest first, brought fresh to the ledger. -/
structure Offers (l : AdmissionLedger) (earlier : List LedgerDelivery) (x : Export) : Prop where
  follows : l.Follows earlier x.ledger
  bytes : Pipeline.offerBytes x.pending = l.freshBytes earlier

namespace Offers

variable {l : AdmissionLedger} {earlier : List LedgerDelivery} {x : Export}

theorem span (h : Offers l earlier x) (now : AdmissionTime) (span : Span) :
    Offers l (.span span :: earlier) (x.admitSpan now (.ok span)) := by
  refine ⟨?_, ?_⟩
  · rw [Export.ledger_admitSpan]
    exact h.follows.span x.nextAddr span
  have hexit := x.ledger.admitSpan_exit x.nextAddr span
  simp only [Export.admitSpan]
  generalize x.ledger.admitSpan x.nextAddr span = r at hexit ⊢
  have hgate : ∀ {verdict}, checkSpan span x.ledger.limits = verdict →
      checkSpan span l.limits = verdict := fun hverdict => by rw [← h.follows.limits, hverdict]
  rw [AdmissionLedger.freshBytes, AdmissionLedger.freshBytesAt, AdmissionLedger.findsNone,
    ← h.bytes]
  cases hexit with
  | rejected rejection gate =>
    simp [hgate gate, Except.isOk, Except.toBool, Export.note]
  | unnamed gate natural =>
    simp only [Export.note, Export.defer]
    rw [Pipeline.offerBytes_append, hgate gate, natural]
    rfl
  | collapsed key standing first gate natural stands same =>
    simp [natural, h.follows.standingSpan_eq stands, Export.note]
  | conflict key standing first gate natural stands differs =>
    simp [natural, h.follows.standingSpan_eq stands, Export.note]
  | entered key gate natural absent =>
    simp only [Export.note, Export.defer]
    rw [Pipeline.offerBytes_append, hgate gate, natural, Option.all_some,
      h.follows.standingSpan_eq_none absent]
    rfl

theorem log (h : Offers l earlier x) (now : AdmissionTime) (record : LogRecord) :
    Offers l (.log record :: earlier) (x.admitLog now (.ok record)) := by
  refine ⟨?_, ?_⟩
  · rw [Export.ledger_admitLog]
    exact h.follows.log record
  rw [AdmissionLedger.freshBytes, AdmissionLedger.freshBytesAt, ← h.follows.limits, ← h.bytes]
  simp only [Export.admitLog, AdmissionLedger.admitLogRecord]
  cases checkLogRecord record x.ledger.limits with
  | error rejection => simp [Except.isOk, Except.toBool, Export.note]
  | ok u =>
    simp only [Export.note, Export.defer]
    rw [Pipeline.offerBytes_append]
    rfl

theorem point (h : Offers l earlier x) (now : AdmissionTime) (stream : StreamIdentity)
    (point : MetricPoint) :
    Offers l (.point ⟨stream, point⟩ :: earlier) (x.admitPoint now stream (.ok point)) := by
  refine ⟨?_, ?_⟩
  · rw [Export.ledger_admitPoint]
    exact h.follows.point x.nextAddr ⟨stream, point⟩
  have hexit := x.ledger.admitMetricPoint_exit x.nextAddr stream point
  simp only [Export.admitPoint]
  generalize x.ledger.admitMetricPoint x.nextAddr stream point = r at hexit ⊢
  have hidentity : ((⟨stream, point⟩ : PointDelivery).identity ==
      AdmissionLedger.identityOf stream x.nextAddr point) = true :=
    (PointIdentity.beq_iff _ _).mpr rfl
  rw [AdmissionLedger.freshBytes, AdmissionLedger.freshBytesAt, ← h.follows.passes_eq,
    ← h.bytes, AdmissionLedger.passes]
  cases hexit with
  | refused outcome gate =>
    rw [gate, PointAdmission.bare]
    cases outcome <;> rfl
  | collapsed first standing gate stands described same =>
    obtain ⟨brought, hbrought, -⟩ := h.follows.standingPoint_eq hidentity stands
    rw [hbrought]
    simp [Export.note]
  | conflict first standing gate stands described differs =>
    obtain ⟨brought, hbrought, -⟩ := h.follows.standingPoint_eq hidentity stands
    rw [hbrought]
    simp [Export.note]
  | redescribed first standing gate stands described =>
    obtain ⟨brought, hbrought, -⟩ := h.follows.standingPoint_eq hidentity stands
    rw [hbrought]
    simp [Export.note, PointAdmission.bare]
  | entered gate absent =>
    simp only [Export.note, Export.defer]
    have hhandle : (x.ledger.intern stream).2.1 = (l.handle earlier stream).getD stream := by
      rw [← h.follows.streams stream]
      rcases x.ledger.intern_cases stream with ⟨handle, hstanding, heq⟩ | ⟨hfresh, heq⟩
      · rw [heq, hstanding]
        rfl
      · rw [heq, hfresh]
        rfl
    rw [Pipeline.offerBytes_append, gate, h.follows.standingPoint_eq_none hidentity absent,
      ← hhandle]
    rfl

end Offers

/-- **An export's offer-set is what it brings fresh.** -/
theorem Pipeline.offerBytes_admitCall {p : Pipeline} {c : ExportCall} {x : Export}
    (h : p.admitCall c = .ok x) :
    offerBytes x.pending = p.ledger.freshBytes c.delivered.reverse :=
  (@delivered_induct (Offers p.ledger) (fun _ _ _ hx => ⟨hx.follows, hx.bytes⟩)
    (fun _ _ now span hx => hx.span now span) (fun _ _ now record hx => hx.log now record)
    (fun _ _ now stream point hx => hx.point now stream point) p ⟨.start p.ledger, rfl⟩ c x h).bytes

/-! ## The law -/

/-- Whether a record was refused on its own. -/
def RecordOutcome.isRejected : RecordOutcome → Bool
  | .rejected _ => true
  | _ => false

namespace Pipeline

/-- The pipeline over an empty queue of the same ceiling. -/
def emptied (p : Pipeline) : Pipeline :=
  { p with sink := BoundedQueue.new p.sink.name p.sink.ceilingBytes }

/-- Admission does not look at the queue. -/
theorem admitCall_emptied (p : Pipeline) (c : ExportCall) :
    p.emptied.admitCall c = p.admitCall c := by
  cases c <;> rfl

/-- Whether an export is taken. -/
def Accepts (p : Pipeline) (c : ExportCall) : Prop := (p.call c).2.isOk = true

/-- An export that gets as far as its hand-off is taken where its offer-set fits. -/
theorem accepts_iff_fits {p : Pipeline} {c : ExportCall} {x : Export}
    (h : p.admitCall c = .ok x) : p.Accepts c ↔ p.fits x.pending = true := by
  rw [Accepts, call_eq, h, ingest, offerExport]
  cases hfits : p.fits x.pending with
  | true =>
    rw [if_pos (show ({ p with nextAddr := x.nextAddr } : Pipeline).fits x.pending = true from hfits)]
    simp [Except.isOk, Except.toBool]
  | false =>
    rw [if_neg (show ¬ ({ p with nextAddr := x.nextAddr } : Pipeline).fits x.pending = true by
      simp [show ({ p with nextAddr := x.nextAddr } : Pipeline).fits x.pending = false from hfits])]
    simp [Except.isOk, Except.toBool]

/-- **Whether saturation passes.**  Of every pipeline, an export refused for saturation would be
taken over an empty queue exactly when the records it brings fresh to the ledger, each in full, are
together within the ceiling. -/
theorem retried_iff (p : Pipeline) (c : ExportCall) (hrefused : p.Saturates c) :
    p.emptied.Accepts c ↔ p.ledger.freshBytes c.delivered.reverse ≤ p.sink.ceilingBytes := by
  obtain ⟨queue, ceiling, attempted, hsaturated⟩ := hrefused
  obtain ⟨x, hx, -⟩ := saturated_cases hsaturated
  rw [accepts_iff_fits ((p.admitCall_emptied c).trans hx), ← offerBytes_admitCall hx]
  simp [fits, emptied, BoundedQueue.new]

/-- No record of an export is refused on its own. -/
def RefusesNone (p : Pipeline) (c : ExportCall) : Prop :=
  ∃ x, p.admitCall c = .ok x ∧ ∀ outcome ∈ x.records, outcome.isRejected = false

/-- Thirty log records of 108 bytes each. -/
def thirtyLogs : ExportCall :=
  .logs ⟨0⟩ ⟨1, .ok (List.replicate 30 (.ok (.bare none none)))⟩

/-- A pipeline at the bound of its budgets. -/
def atBound : Pipeline := ⟨setlessLimits, 4194304, .new setlessLimits, boundQueue, false, 0⟩

/-- They are together over the ceiling. -/
theorem retried_iff_thirtyLogs : atBound.emptied.Accepts thirtyLogs ↔
    atBound.ledger.freshBytes thirtyLogs.delivered.reverse ≤ atBound.sink.ceilingBytes :=
  retried_iff atBound thirtyLogs ⟨pipelineQueueName, 3072, 3240, by decide +kernel⟩

/-- Thirty log records, each of which passes the gates, are refused by an empty queue as a condition
that may pass, and always will be. -/
theorem not_retried : ¬ ∀ sink limits payloadCeilingBytes start ops c,
    withConfig sink limits payloadCeilingBytes = .ok start →
      (start.run ops).RefusesNone c → (start.run ops).Saturates c →
        (start.run ops).emptied.Accepts c := by
  intro hclaim
  have haccepts := hclaim boundQueue setlessLimits 4194304 atBound [] thirtyLogs
    (withConfig_eq_ok_iff.mpr ⟨by decide +kernel, rfl⟩)
    ⟨_, rfl, by decide +kernel⟩
    ⟨pipelineQueueName, 3072, 3240, by decide +kernel⟩
  exact absurd haccepts (by unfold Accepts; decide +kernel)

end Pipeline

end RuntimeTrail
