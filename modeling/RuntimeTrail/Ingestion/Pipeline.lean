import RuntimeTrail.Ingestion.Queue

/-!
# The admission pipeline

Each ingest call is one export: the gates, the export's count budget, then record
by record the ledger's verdict, and last the hand-off of everything freshly
admitted, as a whole or not at all.  A refused hand-off ends what the export's
own admissions created: their entries are forgotten, and the streams they
interned released.

A request is taken as its payload's length and what decoding made of it, record
by record in document order.  `Export` is an export under admission; everything
its admissions can do to the ledger and to the offer-set is one of five shapes
(`Admits`, `admits_admitSpans` and its siblings).
-/

namespace RuntimeTrail

open Library

/-- A record freshly admitted, awaiting its hand-off, and the stream its admission interned. -/
structure PendingOffer where
  queued : QueuedRecord
  freshInternStream : Option StreamIdentity

/-- What one ingest call did with every record, in document order. -/
structure ExportOutcome where
  records : List RecordOutcome
deriving DecidableEq

/-- An export under admission. -/
structure Export where
  ledger : AdmissionLedger
  /-- Where the next payload is allocated. -/
  nextAddr : Nat
  pending : List PendingOffer
  records : List RecordOutcome

namespace Export

/-- Record a fate that offers nothing. -/
def note (x : Export) (outcome : RecordOutcome) : Export :=
  { x with records := x.records ++ [outcome] }

/-- Defer one freshly admitted record to the hand-off. -/
def defer (x : Export) (offer : PendingOffer) : Export :=
  { x with pending := x.pending ++ [offer] }

/-- The ledger arm of one span's admission. -/
def admitSpan (now : AdmissionTime) (x : Export) (translated : Except RecordRejection Span) :
    Export :=
  match translated with
  | .error reason => x.note (.rejected reason)
  | .ok span =>
    let r := x.ledger.admitSpan x.nextAddr span
    let x := { x with ledger := r.1, nextAddr := x.nextAddr + 1 }
    let x :=
      match r.2.outcome, r.2.record with
      | .admitted entity, some record => x.defer ⟨⟨entity, now, .span record⟩, none⟩
      | _, _ => x
    x.note (.ofAdmission r.2.outcome)

/-- The ledger arm of one log record's admission. -/
def admitLog (now : AdmissionTime) (x : Export) (translated : Except RecordRejection LogRecord) :
    Export :=
  match translated with
  | .error reason => x.note (.rejected reason)
  | .ok record =>
    let r := x.ledger.admitLogRecord record
    let addr := x.nextAddr
    let x := { x with ledger := r.1, nextAddr := addr + 1 }
    let x :=
      match r.2 with
      | .admitted entity => x.defer ⟨⟨entity, now, .log ⟨addr, record⟩⟩, none⟩
      | _ => x
    x.note (.ofAdmission r.2)

/-- The ledger arm of one metric point's admission. -/
def admitPoint (now : AdmissionTime) (identity : StreamIdentity) (x : Export)
    (translated : Except RecordRejection MetricPoint) : Export :=
  match translated with
  | .error reason => x.note (.rejected reason)
  | .ok point =>
    let r := x.ledger.admitMetricPoint x.nextAddr identity point
    let x := { x with ledger := r.1, nextAddr := x.nextAddr + 1 }
    let x :=
      match r.2.outcome, r.2.record, r.2.stream with
      | .admitted entity, some point, some stream =>
        x.defer ⟨⟨entity, now, .point stream point⟩, if r.2.freshIntern then some stream else none⟩
      | _, _, _ => x
    x.note (.ofAdmission r.2.outcome)

end Export

/-- One metric of a request: its stream identity, and its points. -/
structure WireMetric where
  identity : Except RecordRejection StreamIdentity
  points : List (Except RecordRejection MetricPoint)

/-- One metric's admission: under a refused identity every point is refused for its reason. -/
def Export.admitMetric (now : AdmissionTime) (x : Export) (metric : WireMetric) : Export :=
  match metric.identity with
  | .ok identity => metric.points.foldl (Export.admitPoint now identity) x
  | .error reason => metric.points.foldl (fun x _ => x.note (.rejected reason)) x

/-- A request: its payload's length, and what decoding made of it. -/
structure Payload (R : Type) where
  bytes : Nat
  decoded : Except String R

/-- The admission pipeline. -/
structure Pipeline where
  limits : BudgetLimits
  payloadCeilingBytes : Nat
  ledger : AdmissionLedger
  sink : BoundedQueue
  draining : Bool
  nextAddr : Nat

namespace Pipeline

/-- A pipeline over an empty queue and an empty ledger. -/
def new (limits : BudgetLimits) (payloadCeilingBytes queueCeilingBytes : Nat) : Pipeline where
  limits := limits
  payloadCeilingBytes := payloadCeilingBytes
  ledger := AdmissionLedger.new limits
  sink := BoundedQueue.new pipelineQueueName queueCeilingBytes
  draining := false
  nextAddr := 0

def beginDraining (p : Pipeline) : Pipeline := { p with draining := true }

/-- The two export-level gates, in order: draining, then payload size. -/
def gate (p : Pipeline) (bytes : Nat) : Except AdmissionSignal Unit :=
  if p.draining then .error .draining
  else if bytes > p.payloadCeilingBytes then .error (.payloadOverCap bytes p.payloadCeilingBytes)
  else .ok ()

/-- The export an admission starts from. -/
def openExport (p : Pipeline) : Export := ⟨p.ledger, p.nextAddr, [], []⟩

/-- End what a refused export's own admissions created, record by record. -/
def undoExport : List PendingOffer → AdmissionLedger → AdmissionLedger
  | [], ledger => ledger
  | offer :: rest, ledger =>
    let ledger := ledger.forget offer.queued.entity
    let ledger :=
      match offer.freshInternStream with
      | some stream => ledger.releaseStream stream
      | none => ledger
    undoExport rest ledger

/-- Hand every offer over; a refused one would be a panic, and `offerAll_items` says that none
is. -/
def offerAll : List PendingOffer → BoundedQueue → BoundedQueue
  | [], sink => sink
  | offer :: rest, sink =>
    match sink.offer offer.queued with
    | .ok sink => offerAll rest sink
    | .error _ => offerAll rest sink

/-- The accounted bytes of an offer-set. -/
def offerBytes (pending : List PendingOffer) : Nat := queuedBytes (pending.map (·.queued))

/-- Whether the whole offer-set fits the sink's remaining headroom. -/
def fits (p : Pipeline) (pending : List PendingOffer) : Bool :=
  offerBytes pending + p.sink.accounted ≤ p.sink.ceilingBytes

/-- The export-atomic hand-off: the whole offer-set fits the sink, or nothing of it is offered. -/
def offerExport (p : Pipeline) (x : Export) : Pipeline × Except AdmissionSignal ExportOutcome :=
  let p := { p with nextAddr := x.nextAddr }
  if p.fits x.pending then
    ({ p with ledger := x.ledger, sink := offerAll x.pending p.sink }, .ok ⟨x.records⟩)
  else
    ({ p with ledger := undoExport x.pending x.ledger },
      .error (.queueSaturated p.sink.name p.sink.ceilingBytes (offerBytes x.pending)))

/-- An export up to its hand-off: the gates, the decoder's verdict, the count budget, and the
admissions. -/
def admitExport {R : Type} (p : Pipeline) (payload : Payload R) (count : R → Gate)
    (admitRecords : Export → R → Export) : Except AdmissionSignal Export :=
  match p.gate payload.bytes with
  | .error signal => .error signal
  | .ok () =>
    match payload.decoded with
    | .error detail => .error (.malformedRequest detail)
    | .ok request =>
      match count request with
      | .error rejection => .error (.exportOverCap rejection)
      | .ok () => .ok (admitRecords p.openExport request)

/-- One export: what it admitted is handed over; a signal before that touches nothing. -/
def ingest (p : Pipeline) (admitted : Except AdmissionSignal Export) :
    Pipeline × Except AdmissionSignal ExportOutcome :=
  match admitted with
  | .error signal => (p, .error signal)
  | .ok x => p.offerExport x

def admitSpans (p : Pipeline) (now : AdmissionTime)
    (payload : Payload (List (Except RecordRejection Span))) : Except AdmissionSignal Export :=
  p.admitExport payload (fun spans => checkExportRecordCount spans.length p.limits)
    (fun x spans => spans.foldl (Export.admitSpan now) x)

def admitLogs (p : Pipeline) (now : AdmissionTime)
    (payload : Payload (List (Except RecordRejection LogRecord))) :
    Except AdmissionSignal Export :=
  p.admitExport payload (fun logs => checkExportRecordCount logs.length p.limits)
    (fun x logs => logs.foldl (Export.admitLog now) x)

def admitMetrics (p : Pipeline) (now : AdmissionTime) (payload : Payload (List WireMetric)) :
    Except AdmissionSignal Export :=
  p.admitExport payload
    (fun metrics => checkExportPointCount (metrics.map (·.points.length)).sum p.limits)
    (fun x metrics => metrics.foldl (Export.admitMetric now) x)

/-- Ingests one trace export. -/
def ingestSpans (p : Pipeline) (now : AdmissionTime)
    (payload : Payload (List (Except RecordRejection Span))) :
    Pipeline × Except AdmissionSignal ExportOutcome :=
  p.ingest (p.admitSpans now payload)

/-- Ingests one logs export. -/
def ingestLogs (p : Pipeline) (now : AdmissionTime)
    (payload : Payload (List (Except RecordRejection LogRecord))) :
    Pipeline × Except AdmissionSignal ExportOutcome :=
  p.ingest (p.admitLogs now payload)

/-- Ingests one metrics export. -/
def ingestMetrics (p : Pipeline) (now : AdmissionTime) (payload : Payload (List WireMetric)) :
    Pipeline × Except AdmissionSignal ExportOutcome :=
  p.ingest (p.admitMetrics now payload)

end Pipeline

/-! ## What an admission does -/

/-- A record with no natural identity of its own. -/
def StoredRecord.Unnamed : StoredRecord → Prop
  | .span record => record.val.naturalIdentity = none
  | .log _ => True
  | .point _ _ => False

/-- What one record's admission can do to an export: leave it, leave a stream interned beside a
standing point of it, or defer one record for the hand-off. -/
inductive Admits (x x' : Export) : Prop
  | nothing (anomalies : AdmissionAnomalies)
      (ledger : x'.ledger = { x.ledger with anomalies := anomalies })
      (pending : x'.pending = x.pending)
  | interned (anomalies : AdmissionAnomalies) (key : PointIdentity) (entity : EntityId)
      (stream : StreamIdentity) (fresh : x.ledger.streams.getPair? stream = none)
      (standing : (key, entity) ∈ x.ledger.points.entries) (same : key.stream == stream)
      (ledger : x'.ledger =
        { x.ledger with streams := x.ledger.streams.insert stream (), anomalies := anomalies })
      (pending : x'.pending = x.pending)
  | span (now : AdmissionTime) (key : TraceId × SpanId) (record : Arc Span)
      (natural : record.val.naturalIdentity = some key)
      (absent : x.ledger.spans.getPair? key = none)
      (ledger : x'.ledger =
        { x.ledger with spans := x.ledger.spans.insert key (.span key.1 key.2, record) })
      (pending : x'.pending = x.pending ++ [⟨⟨.span key.1 key.2, now, .span record⟩, none⟩])
  | assigned (now : AdmissionTime) (record : StoredRecord) (unnamed : record.Unnamed)
      (ledger : x'.ledger = x.ledger.assign)
      (pending : x'.pending =
        x.pending ++ [⟨⟨.assigned x.ledger.nextAssigned, now, record⟩, none⟩])
  | point (now : AdmissionTime) (stream : StreamIdentity) (point : Arc MetricPoint)
      (absent : x.ledger.points.getPair? (.ofInterned (x.ledger.intern stream).2.1 point) = none)
      (ledger : x'.ledger = (x.ledger.intern stream).1.enterPoint
        (.ofInterned (x.ledger.intern stream).2.1 point))
      (pending : x'.pending = x.pending ++
        [⟨⟨.assigned x.ledger.nextAssigned, now, .point (x.ledger.intern stream).2.1 point⟩,
          if (x.ledger.intern stream).2.2 then some (x.ledger.intern stream).2.1 else none⟩])

namespace Export

theorem admits_note (x : Export) (outcome : RecordOutcome) : Admits x (x.note outcome) :=
  .nothing x.ledger.anomalies rfl rfl

/-! Whatever is deferred, the ledger is the one the admission leaves; and a record that is not
admitted defers nothing. -/

theorem ledger_admitSpan (now : AdmissionTime) (x : Export) (span : Span) :
    (x.admitSpan now (.ok span)).ledger = (x.ledger.admitSpan x.nextAddr span).1 := by
  simp only [admitSpan]
  split
  · rfl
  · rfl

theorem ledger_admitLog (now : AdmissionTime) (x : Export) (record : LogRecord) :
    (x.admitLog now (.ok record)).ledger = (x.ledger.admitLogRecord record).1 := by
  simp only [admitLog]
  split
  · rfl
  · rfl

theorem ledger_admitPoint (now : AdmissionTime) (identity : StreamIdentity) (x : Export)
    (point : MetricPoint) :
    (x.admitPoint now identity (.ok point)).ledger =
      (x.ledger.admitMetricPoint x.nextAddr identity point).1 := by
  simp only [admitPoint]
  split
  · rfl
  · rfl

theorem pending_admitSpan {x : Export} {span : Span} (now : AdmissionTime)
    (h : (x.ledger.admitSpan x.nextAddr span).2.outcome.isAdmitted = false) :
    (x.admitSpan now (.ok span)).pending = x.pending := by
  simp only [admitSpan]
  split
  · rename_i hout _
    rw [hout] at h
    exact absurd h (by simp [AdmissionOutcome.isAdmitted])
  · rfl

theorem pending_admitLog {x : Export} {record : LogRecord} (now : AdmissionTime)
    (h : (x.ledger.admitLogRecord record).2.isAdmitted = false) :
    (x.admitLog now (.ok record)).pending = x.pending := by
  simp only [admitLog]
  split
  · rename_i hout
    rw [hout] at h
    exact absurd h (by simp [AdmissionOutcome.isAdmitted])
  · rfl

theorem pending_admitPoint {x : Export} {identity : StreamIdentity} {point : MetricPoint}
    (now : AdmissionTime)
    (h : (x.ledger.admitMetricPoint x.nextAddr identity point).2.outcome.isAdmitted = false) :
    (x.admitPoint now identity (.ok point)).pending = x.pending := by
  simp only [admitPoint]
  split
  · rename_i hout _ _
    rw [hout] at h
    exact absurd h (by simp [AdmissionOutcome.isAdmitted])
  · rfl

theorem admits_admitSpan (now : AdmissionTime) (x : Export)
    (translated : Except RecordRejection Span) : Admits x (x.admitSpan now translated) := by
  cases translated with
  | error reason => exact admits_note _ _
  | ok span =>
    rcases x.ledger.admitSpan_cases x.nextAddr span with ⟨⟨anomalies, hledger⟩, hadmitted⟩ |
      ⟨hnatural, heq⟩ | ⟨key, hnatural, habsent, heq⟩
    · exact .nothing anomalies ((ledger_admitSpan now x span).trans hledger)
        (pending_admitSpan now hadmitted)
    · simp only [admitSpan, heq]
      exact .assigned now (.span ⟨x.nextAddr, span⟩) hnatural rfl rfl
    · simp only [admitSpan, heq]
      exact .span now key ⟨x.nextAddr, span⟩ hnatural habsent rfl rfl

theorem admits_admitLog (now : AdmissionTime) (x : Export)
    (translated : Except RecordRejection LogRecord) : Admits x (x.admitLog now translated) := by
  cases translated with
  | error reason => exact admits_note _ _
  | ok record =>
    rcases x.ledger.admitLogRecord_cases record with ⟨hledger, hadmitted⟩ | heq
    · exact .nothing x.ledger.anomalies ((ledger_admitLog now x record).trans hledger)
        (pending_admitLog now hadmitted)
    · simp only [admitLog, heq]
      exact .assigned now (.log ⟨x.nextAddr, record⟩) trivial rfl rfl

theorem admits_admitPoint (now : AdmissionTime) (identity : StreamIdentity) (x : Export)
    (translated : Except RecordRejection MetricPoint) :
    Admits x (x.admitPoint now identity translated) := by
  cases translated with
  | error reason => exact admits_note _ _
  | ok point =>
    rcases x.ledger.admitMetricPoint_cases x.nextAddr identity point with
      ⟨⟨anomalies, hledger⟩, hadmitted⟩ |
      ⟨anomalies, key, entity, hfresh, hstanding, hsame, hledger, hadmitted⟩ | ⟨habsent, heq⟩
    · exact .nothing anomalies ((ledger_admitPoint now identity x point).trans hledger)
        (pending_admitPoint now hadmitted)
    · exact .interned anomalies key entity identity hfresh hstanding hsame
        ((ledger_admitPoint now identity x point).trans hledger) (pending_admitPoint now hadmitted)
    · simp only [admitPoint, heq]
      exact .point now identity ⟨x.nextAddr, point⟩ habsent rfl rfl

/-- Record by record, whatever each admission is. -/
theorem admits_foldl {R : Type} {f : Export → R → Export}
    (h : ∀ x r, Relation.ReflTransGen Admits x (f x r)) :
    ∀ (records : List R) (x : Export), Relation.ReflTransGen Admits x (records.foldl f x) := by
  intro records
  induction records with
  | nil => intro x; exact .refl
  | cons r rest ih => intro x; exact (h x r).trans (ih (f x r))

theorem admits_admitMetric (now : AdmissionTime) (x : Export) (metric : WireMetric) :
    Relation.ReflTransGen Admits x (x.admitMetric now metric) := by
  unfold admitMetric
  split
  · exact admits_foldl (fun x r => .single (admits_admitPoint now _ x r)) _ x
  · exact admits_foldl (fun x _ => .single (admits_note x _)) _ x

end Export

namespace Pipeline

/-- What every export's admissions are, of any signal. -/
theorem admits_admitExport {R : Type} {p : Pipeline} {payload : Payload R} {count : R → Gate}
    {admitRecords : Export → R → Export}
    (h : ∀ x r, Relation.ReflTransGen Admits x (admitRecords x r))
    {x : Export} (hx : p.admitExport payload count admitRecords = .ok x) :
    Relation.ReflTransGen Admits p.openExport x := by
  unfold admitExport at hx
  split at hx
  · exact absurd hx (by simp)
  · split at hx
    · exact absurd hx (by simp)
    · split at hx
      · exact absurd hx (by simp)
      · exact Except.ok.inj hx ▸ h _ _

theorem admits_admitSpans {p : Pipeline} {now : AdmissionTime}
    {payload : Payload (List (Except RecordRejection Span))} {x : Export}
    (h : p.admitSpans now payload = .ok x) : Relation.ReflTransGen Admits p.openExport x :=
  admits_admitExport (fun x records => Export.admits_foldl
    (fun x r => .single (Export.admits_admitSpan now x r)) records x) h

theorem admits_admitLogs {p : Pipeline} {now : AdmissionTime}
    {payload : Payload (List (Except RecordRejection LogRecord))} {x : Export}
    (h : p.admitLogs now payload = .ok x) : Relation.ReflTransGen Admits p.openExport x :=
  admits_admitExport (fun x records => Export.admits_foldl
    (fun x r => .single (Export.admits_admitLog now x r)) records x) h

theorem admits_admitMetrics {p : Pipeline} {now : AdmissionTime}
    {payload : Payload (List WireMetric)} {x : Export}
    (h : p.admitMetrics now payload = .ok x) : Relation.ReflTransGen Admits p.openExport x :=
  admits_admitExport (fun x metrics => Export.admits_foldl
    (fun x m => Export.admits_admitMetric now x m) metrics x) h

/-! ## What a hand-off does -/

/-- An offer-set that fits is taken whole, in order. -/
theorem offerAll_items : ∀ (pending : List PendingOffer) (sink : BoundedQueue),
    offerBytes pending + sink.accounted ≤ sink.ceilingBytes →
    (offerAll pending sink).items = sink.items ++ pending.map (·.queued) := by
  intro pending
  induction pending with
  | nil => intro sink _; simp [offerAll]
  | cons offer rest ih =>
    intro sink hfits
    have hbytes : offerBytes (offer :: rest) =
        accountedSize offer.queued.record + offerBytes rest := by
      simp [offerBytes, queuedBytes]
    have hroom : ¬ sink.accounted + accountedSize offer.queued.record > sink.ceilingBytes := by
      omega
    simp only [offerAll, BoundedQueue.offer, dif_neg hroom]
    rw [ih _ (by simp only; omega), List.append_assoc, List.map_cons, List.singleton_append]

/-- An export that was handed over, an export that was undone, or a signal that touched nothing. -/
theorem ingest_cases (p : Pipeline) (admitted : Except AdmissionSignal Export) :
    (∃ signal, (p.ingest admitted) = (p, .error signal)) ∨
    (∃ x, admitted = .ok x ∧ p.fits x.pending = true ∧
      (p.ingest admitted).1.ledger = x.ledger ∧
      (p.ingest admitted).1.sink.items = p.sink.items ++ x.pending.map (·.queued)) ∨
    (∃ x, admitted = .ok x ∧ p.fits x.pending = false ∧
      (p.ingest admitted).1.ledger = undoExport x.pending x.ledger ∧
      (p.ingest admitted).1.sink = p.sink) := by
  unfold ingest
  split
  · exact Or.inl ⟨_, rfl⟩
  · rename_i x
    unfold offerExport
    dsimp only
    split
    · rename_i hfits
      have hfits : p.fits x.pending = true := hfits
      exact Or.inr (Or.inl ⟨x, rfl, hfits, rfl, offerAll_items _ _ (by simpa [fits] using hfits)⟩)
    · rename_i hfits
      have hfits : ¬ p.fits x.pending = true := hfits
      exact Or.inr (Or.inr ⟨x, rfl, by simpa using hfits, rfl, rfl⟩)

end Pipeline

end RuntimeTrail
