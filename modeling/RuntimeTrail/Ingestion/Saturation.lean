import RuntimeTrail.Ingestion.Pipeline
import RuntimeTrail.Model.LedgerRuns

/-!
# A saturated export

An export the queue has no room for is undone: what its admissions entered is
forgotten, and the streams they interned are released.  How much of the ledger
that restores, from every state the pipeline's calls can reach.

* **the undo** — `undoExport_entries`: it takes out exactly the entries of the
  offer-set, and its interned streams;
* **the entries** — `Extends`: an export adds entries of its offer-set at the end
  of the maps, so the undo leaves what stood before;
* **the streams** — `Tracks`: an export also interns a stream for a point that
  collapses or conflicts beside a standing point of it.  Nothing in the offer-set
  names that intern, so `saturated_restores_iff` has a condition.
-/

namespace RuntimeTrail

open Library

/-! ## The pipeline's calls -/

/-- One export, of any signal. -/
inductive ExportCall where
  | spans (now : AdmissionTime) (payload : Payload (List (Except RecordRejection Span)))
  | logs (now : AdmissionTime) (payload : Payload (List (Except RecordRejection LogRecord)))
  | metrics (now : AdmissionTime) (payload : Payload (List WireMetric))

/-- The bytes of an export's payload. -/
def ExportCall.payloadBytes : ExportCall → Nat
  | .spans _ payload => payload.bytes
  | .logs _ payload => payload.bytes
  | .metrics _ payload => payload.bytes

/-- What happens to a pipeline: exports, the two endings of its ledger handle, the consumer's pops,
the start of a drain. -/
inductive PipelineOp where
  | ingest (call : ExportCall)
  | forget (entity : EntityId)
  | releaseStream (stream : StreamIdentity)
  | pop
  | beginDraining

namespace Pipeline

/-- What an export admits, up to its hand-off. -/
def admitCall (p : Pipeline) : ExportCall → Except AdmissionSignal Export
  | .spans now payload => p.admitSpans now payload
  | .logs now payload => p.admitLogs now payload
  | .metrics now payload => p.admitMetrics now payload

/-- An export of any signal. -/
def call (p : Pipeline) (c : ExportCall) : Pipeline × Except AdmissionSignal ExportOutcome :=
  match c with
  | .spans now payload => p.ingestSpans now payload
  | .logs now payload => p.ingestLogs now payload
  | .metrics now payload => p.ingestMetrics now payload

theorem call_eq (p : Pipeline) (c : ExportCall) : p.call c = p.ingest (p.admitCall c) := by
  cases c <;> rfl

def apply (p : Pipeline) : PipelineOp → Pipeline
  | .ingest c => (p.call c).1
  | .forget entity => { p with ledger := p.ledger.forget entity }
  | .releaseStream stream => { p with ledger := p.ledger.releaseStream stream }
  | .pop =>
    match p.sink.popLocked with
    | some (_, sink) => { p with sink := sink }
    | none => p
  | .beginDraining => p.beginDraining

def run (p : Pipeline) (ops : List PipelineOp) : Pipeline := ops.foldl apply p

end Pipeline

/-! ## The ledger stays consistent -/

namespace Export

theorem consistent_admitSpan {x : Export} (h : x.ledger.Consistent) (now : AdmissionTime)
    (translated : Except RecordRejection Span) :
    (x.admitSpan now translated).ledger.Consistent := by
  cases translated with
  | error reason => exact h
  | ok span =>
    rw [ledger_admitSpan]
    exact h.admitSpan x.nextAddr span

theorem consistent_admitLog {x : Export} (h : x.ledger.Consistent) (now : AdmissionTime)
    (translated : Except RecordRejection LogRecord) :
    (x.admitLog now translated).ledger.Consistent := by
  cases translated with
  | error reason => exact h
  | ok record =>
    rw [ledger_admitLog]
    exact h.admitLogRecord record

theorem consistent_admitPoint {x : Export} (h : x.ledger.Consistent) (now : AdmissionTime)
    (identity : StreamIdentity) (translated : Except RecordRejection MetricPoint) :
    (x.admitPoint now identity translated).ledger.Consistent := by
  cases translated with
  | error reason => exact h
  | ok point =>
    rw [ledger_admitPoint]
    exact h.admitMetricPoint x.nextAddr identity point

/-- What one record's admission keeps, an export's keep. -/
theorem foldl_keeps {R : Type} {f : Export → R → Export} {P : Export → Prop}
    (keep : ∀ x r, P x → P (f x r)) : ∀ (records : List R) (x : Export), P x →
      P (records.foldl f x) := by
  intro records
  induction records with
  | nil => intro x h; exact h
  | cons r rest ih => intro x h; exact ih (f x r) (keep x r h)

theorem consistent_admitMetric {x : Export} (h : x.ledger.Consistent) (now : AdmissionTime)
    (metric : WireMetric) : (x.admitMetric now metric).ledger.Consistent := by
  unfold admitMetric
  split
  · exact @foldl_keeps _ _ (fun x => x.ledger.Consistent)
      (fun x r hx => consistent_admitPoint hx now _ r) _ x h
  · exact @foldl_keeps _ (fun x _ => x.note _) (fun x => x.ledger.Consistent)
      (fun x r hx => hx) _ x h

end Export

namespace Pipeline

/-- Where an export got as far as its hand-off, its records were admitted one after the other. -/
theorem admitExport_eq_ok {R : Type} {p : Pipeline} {payload : Payload R} {count : R → Gate}
    {admitRecords : Export → R → Export} {x : Export}
    (h : p.admitExport payload count admitRecords = .ok x) :
    ∃ request, payload.decoded = .ok request ∧ x = admitRecords p.openExport request := by
  unfold admitExport at h
  split at h
  · exact absurd h (by simp)
  · split at h
    · exact absurd h (by simp)
    · rename_i request hrequest
      split at h
      · exact absurd h (by simp)
      · exact ⟨request, hrequest, (Except.ok.inj h).symm⟩

theorem consistent_admitCall {p : Pipeline} (h : p.ledger.Consistent) {c : ExportCall} {x : Export}
    (hx : p.admitCall c = .ok x) : x.ledger.Consistent := by
  have hopen : p.openExport.ledger.Consistent := h
  cases c with
  | spans now payload =>
    obtain ⟨spans, -, rfl⟩ := admitExport_eq_ok hx
    exact @Export.foldl_keeps _ _ (fun x => x.ledger.Consistent)
      (fun x r hx => Export.consistent_admitSpan hx now r) spans _ hopen
  | logs now payload =>
    obtain ⟨logs, -, rfl⟩ := admitExport_eq_ok hx
    exact @Export.foldl_keeps _ _ (fun x => x.ledger.Consistent)
      (fun x r hx => Export.consistent_admitLog hx now r) logs _ hopen
  | metrics now payload =>
    obtain ⟨metrics, -, rfl⟩ := admitExport_eq_ok hx
    exact @Export.foldl_keeps _ _ (fun x => x.ledger.Consistent)
      (fun x r hx => Export.consistent_admitMetric hx now r) metrics _ hopen

theorem consistent_undoExport : ∀ (pending : List PendingOffer) {l : AdmissionLedger},
    l.Consistent → (undoExport pending l).Consistent := by
  intro pending
  induction pending with
  | nil => intro l h; exact h
  | cons offer rest ih =>
    intro l h
    unfold undoExport
    refine ih ?_
    split
    · exact (h.forget _).releaseStream _
    · exact h.forget _

theorem consistent_apply {p : Pipeline} (h : p.ledger.Consistent) (op : PipelineOp) :
    (p.apply op).ledger.Consistent := by
  cases op with
  | ingest c =>
    change (p.call c).1.ledger.Consistent
    rw [call_eq]
    rcases p.ingest_cases (p.admitCall c) with ⟨signal, heq⟩ | ⟨x, hx, -, hledger, -⟩ |
      ⟨x, hx, -, hledger, -⟩
    · rw [heq]
      exact h
    · rw [hledger]
      exact consistent_admitCall h hx
    · rw [hledger]
      exact consistent_undoExport _ (consistent_admitCall h hx)
  | forget entity => exact h.forget entity
  | releaseStream stream => exact h.releaseStream stream
  | pop =>
    simp only [apply]
    split
    · exact h
    · exact h
  | beginDraining => exact h

/-- **The ledger of every reachable pipeline is consistent.** -/
theorem consistent_run (ops : List PipelineOp) {p : Pipeline} (h : p.ledger.Consistent) :
    (p.run ops).ledger.Consistent := by
  induction ops generalizing p with
  | nil => exact h
  | cons op ops ih => exact ih (consistent_apply h op)

end Pipeline

/-! ## The undo takes out the offer-set -/

/-- Whether an entity is none of those an offer-set was admitted under. -/
def unoffered (pending : List PendingOffer) (entity : EntityId) : Bool :=
  pending.all fun offer => entity != offer.queued.entity

/-- Whether a stream is none of those an offer-set's admissions interned. -/
def uninterned (pending : List PendingOffer) (stream : StreamIdentity) : Bool :=
  pending.all fun offer =>
    match offer.freshInternStream with
    | some fresh => !(stream == fresh)
    | none => true

namespace AdmissionLedger

/-- Forgetting an entity takes out of each map the entries of that entity. -/
theorem forget_entries {l : AdmissionLedger} (h : l.Consistent) (entity : EntityId) :
    (l.forget entity).spans.entries =
      l.spans.entries.filter (fun p => EntityId.span p.1.1 p.1.2 != entity) ∧
    (l.forget entity).points.entries = l.points.entries.filter (fun p => p.2 != entity) ∧
    (l.forget entity).assignedPoints.entries =
      l.assignedPoints.entries.filter (fun q => EntityId.assigned q.1 != entity) := by
  cases entity with
  | span traceId spanId =>
    refine ⟨List.filter_congr fun p _ => ?_, ?_, ?_⟩
    · obtain ⟨⟨t, s⟩, v⟩ := p
      simp [bne, Prod.ext_iff]
    · refine (List.filter_eq_self.mpr fun p hp => ?_).symm
      obtain ⟨id, hid, -⟩ := h.pointsIndexed p hp
      simp [hid]
    · exact (List.filter_eq_self.mpr fun q _ => by simp).symm
  | assigned id =>
    rcases l.forget_assigned_cases id with ⟨hnone, heq⟩ | ⟨identity, hmem, heq⟩
    · have hindex : ∀ q ∈ l.assignedPoints.entries, q.1 ≠ id := fun q hq =>
        beq_eq_false_iff_ne.mp (ContentMap.getPair?_eq_none_iff.mp hnone q hq)
      rw [heq]
      refine ⟨(List.filter_eq_self.mpr fun p _ => by simp).symm,
        (List.filter_eq_self.mpr fun p hp => ?_).symm,
        (List.filter_eq_self.mpr fun q hq => by simpa using hindex q hq).symm⟩
      obtain ⟨i, hi, hpi⟩ := h.pointsIndexed p hp
      simpa [hi] using hindex _ hpi
    · rw [heq]
      refine ⟨(List.filter_eq_self.mpr fun p _ => by simp).symm,
        List.filter_congr fun p hp => ?_, List.filter_congr fun q _ => ?_⟩
      · -- an entry has the forgotten identity exactly when it has the forgotten serial
        obtain ⟨i, hi, hpi⟩ := h.pointsIndexed p hp
        rw [Bool.eq_iff_iff]
        simp only [Bool.not_eq_true', hi, bne_iff_ne, ne_eq, EntityId.assigned.injEq]
        constructor
        · rintro hother rfl
          have hsame := congrArg Prod.snd (ContentMap.eq_of_mem_of_beq hpi hmem BEq.rfl)
          rw [show p.1 = identity from hsame] at hother
          exact absurd hother (by simp)
        · intro hne
          by_contra hbeq
          have hsame := ContentMap.eq_of_mem_of_beq hp (h.indexPointed _ hmem) (by simpa using hbeq)
          exact hne (EntityId.assigned.inj (hi.symm.trans (congrArg Prod.snd hsame)))
      · simp [bne]

end AdmissionLedger

namespace Pipeline

/-- **The undo, entry by entry.**  It takes out what the offer-set was admitted under, and the
streams its admissions interned, and leaves everything else. -/
theorem undoExport_entries (pending : List PendingOffer) :
    ∀ {l : AdmissionLedger}, l.Consistent →
    (undoExport pending l).spans.entries =
      l.spans.entries.filter (fun p => unoffered pending (.span p.1.1 p.1.2)) ∧
    (undoExport pending l).points.entries =
      l.points.entries.filter (fun p => unoffered pending p.2) ∧
    (undoExport pending l).assignedPoints.entries =
      l.assignedPoints.entries.filter (fun q => unoffered pending (.assigned q.1)) ∧
    (undoExport pending l).streams.entries =
      l.streams.entries.filter (fun p => uninterned pending p.1) := by
  induction pending with
  | nil =>
    intro l h
    refine ⟨?_, ?_, ?_, ?_⟩
    all_goals exact (List.filter_eq_self.mpr fun _ _ => rfl).symm
  | cons offer rest ih =>
    intro l h
    obtain ⟨hspans, hpoints, hindex⟩ := l.forget_entries h offer.queued.entity
    have hforgotten := h.forget offer.queued.entity
    have hstreams := l.streams_forget offer.queued.entity
    unfold undoExport
    cases hfresh : offer.freshInternStream with
    | none =>
      obtain ⟨h1, h2, h3, h4⟩ := ih hforgotten
      refine ⟨?_, ?_, ?_, ?_⟩
      · simp only [h1, hspans, List.filter_filter, unoffered, List.all_cons, Bool.and_comm]
      · simp only [h2, hpoints, List.filter_filter, unoffered, List.all_cons, Bool.and_comm]
      · simp only [h3, hindex, List.filter_filter, unoffered, List.all_cons, Bool.and_comm]
      · simp only [h4, hstreams, uninterned, List.all_cons, hfresh, Bool.true_and]
    | some stream =>
      obtain ⟨h1, h2, h3, h4⟩ := ih (hforgotten.releaseStream stream)
      refine ⟨?_, ?_, ?_, ?_⟩
      · simp only [h1, AdmissionLedger.spans_releaseStream, hspans, List.filter_filter, unoffered,
          List.all_cons, Bool.and_comm]
      · simp only [h2, AdmissionLedger.points_releaseStream, hpoints, List.filter_filter, unoffered,
          List.all_cons, Bool.and_comm]
      · simp only [h3, AdmissionLedger.assignedPoints_releaseStream, hindex, List.filter_filter,
          unoffered, List.all_cons, Bool.and_comm]
      · simp only [h4, AdmissionLedger.streams_releaseStream, hstreams, ContentMap.erase,
          List.filter_filter, uninterned, List.all_cons, hfresh, Bool.and_comm]

end Pipeline

/-! ## What an export enters -/

theorem unoffered_append (pending more : List PendingOffer) (entity : EntityId) :
    unoffered (pending ++ more) entity = (unoffered pending entity && unoffered more entity) :=
  List.all_append

/-- A ledger an export has come to from the ledger `l`: what it entered stands after what stood,
and is all of it in the offer-set; the offer-set names nothing that stood. -/
structure Extends (l l' : AdmissionLedger) (pending : List PendingOffer) : Prop where
  serial : l.nextSerial ≤ l'.nextSerial
  given : ∀ q ∈ l'.assignedPoints.entries, q.1.serial ≤ l'.nextSerial
  spans : ∃ added, l'.spans.entries = l.spans.entries ++ added ∧
    ∀ p ∈ added, unoffered pending (.span p.1.1 p.1.2) = false
  points : ∃ added, l'.points.entries = l.points.entries ++ added ∧
    ∀ p ∈ added, unoffered pending p.2 = false
  index : ∃ added, l'.assignedPoints.entries = l.assignedPoints.entries ++ added ∧
    ∀ q ∈ added, unoffered pending (.assigned q.1) = false
  fresh : ∀ offer ∈ pending,
    (∀ p ∈ l.spans.entries, EntityId.span p.1.1 p.1.2 ≠ offer.queued.entity) ∧
      ∀ id, offer.queued.entity = .assigned id → l.nextSerial < id.serial

/-- What is in the offer-set is in a longer one. -/
theorem offered_more {α : Type} {entity : α → EntityId} {added : List α}
    {pending : List PendingOffer} (more : List PendingOffer)
    (h : ∀ a ∈ added, unoffered pending (entity a) = false) :
    ∀ a ∈ added, unoffered (pending ++ more) (entity a) = false := by
  intro a ha
  rw [unoffered_append, h a ha, Bool.false_and]

/-- An entry that comes with its own offer is in the offer-set. -/
theorem offered_snoc {α : Type} (entity : α → EntityId) {added : List α}
    {pending : List PendingOffer} {offer : PendingOffer} {a : α}
    (h : ∀ b ∈ added, unoffered pending (entity b) = false)
    (ha : entity a = offer.queued.entity) :
    ∀ b ∈ added ++ [a], unoffered (pending ++ [offer]) (entity b) = false := by
  intro b hb
  rcases List.mem_append.mp hb with hb | hb
  · exact offered_more [offer] h b hb
  · obtain rfl := List.mem_singleton.mp hb
    rw [unoffered_append]
    simp [unoffered, ha]

namespace Extends

variable {l l' l'' : AdmissionLedger} {pending : List PendingOffer}

theorem start (h : l.Consistent) : Extends l l [] where
  serial := le_refl _
  given := h.serials
  spans := ⟨[], (List.append_nil _).symm, fun p hp => absurd hp (by simp)⟩
  points := ⟨[], (List.append_nil _).symm, fun p hp => absurd hp (by simp)⟩
  index := ⟨[], (List.append_nil _).symm, fun q hq => absurd hq (by simp)⟩
  fresh := fun offer hoffer => absurd hoffer (by simp)

/-- The streams and the anomalies are no part of it. -/
theorem of_eq (h : Extends l l' pending) (hserial : l''.nextSerial = l'.nextSerial)
    (hspans : l''.spans = l'.spans) (hpoints : l''.points = l'.points)
    (hindex : l''.assignedPoints = l'.assignedPoints) : Extends l l'' pending := by
  obtain ⟨h1, h2, h3, h4, h5, h6⟩ := h
  exact ⟨hserial ▸ h1, hserial ▸ hindex ▸ h2, hspans ▸ h3, hpoints ▸ h4, hindex ▸ h5, h6⟩

/-- A span enters under a natural identity that did not stand. -/
theorem enterSpan (h : Extends l l' pending) {key : TraceId × SpanId} {record : Arc Span}
    (habsent : l'.spans.getPair? key = none) {offer : PendingOffer}
    (hoffer : offer.queued.entity = .span key.1 key.2) :
    Extends l { l' with spans := l'.spans.insert key (.span key.1 key.2, record) }
      (pending ++ [offer]) := by
  obtain ⟨spans, hspans, hspansOffered⟩ := h.spans
  obtain ⟨points, hpoints, hpointsOffered⟩ := h.points
  obtain ⟨index, hindex, hindexOffered⟩ := h.index
  refine ⟨h.serial, h.given, ⟨spans ++ [(key, .span key.1 key.2, record)], ?_, ?_⟩,
    ⟨points, hpoints, offered_more _ hpointsOffered⟩,
    ⟨index, hindex, offered_more _ hindexOffered⟩, ?_⟩
  · rw [ContentMap.entries_insert_of_none habsent, hspans, List.append_assoc]
  · exact offered_snoc (fun p : (TraceId × SpanId) × EntityId × Arc Span => .span p.1.1 p.1.2)
      hspansOffered hoffer.symm
  · intro o ho
    rcases List.mem_append.mp ho with ho | ho
    · exact h.fresh o ho
    · obtain rfl := List.mem_singleton.mp ho
      rw [hoffer]
      refine ⟨fun p hp hentity => ?_, fun id hid => absurd hid (by simp)⟩
      obtain ⟨htrace, hspan⟩ := EntityId.span.inj hentity
      have hstood : p ∈ l'.spans.entries := by
        rw [hspans]
        exact List.mem_append_left _ hp
      exact absurd (ContentMap.getPair?_eq_none_iff.mp habsent p hstood)
        (by simp [Prod.ext_iff, htrace, hspan])

/-- An offer under a serial of this export names nothing that stood. -/
theorem fresh_assigned (h : Extends l l' pending) {offer : PendingOffer}
    (hoffer : offer.queued.entity = .assigned l'.nextAssigned) :
    ∀ o ∈ pending ++ [offer],
      (∀ p ∈ l.spans.entries, EntityId.span p.1.1 p.1.2 ≠ o.queued.entity) ∧
        ∀ id, o.queued.entity = .assigned id → l.nextSerial < id.serial := by
  intro o ho
  rcases List.mem_append.mp ho with ho | ho
  · exact h.fresh o ho
  · obtain rfl := List.mem_singleton.mp ho
    rw [hoffer]
    refine ⟨fun p _ hspan => absurd hspan (by simp), fun id hid => ?_⟩
    obtain rfl := EntityId.assigned.inj hid
    exact Nat.lt_succ_of_le h.serial

/-- A record with no natural identity takes a serial and leaves no entry. -/
theorem assign (h : Extends l l' pending) {offer : PendingOffer}
    (hoffer : offer.queued.entity = .assigned l'.nextAssigned) :
    Extends l l'.assign (pending ++ [offer]) := by
  obtain ⟨spans, hspans, hspansOffered⟩ := h.spans
  obtain ⟨points, hpoints, hpointsOffered⟩ := h.points
  obtain ⟨index, hindex, hindexOffered⟩ := h.index
  exact ⟨h.serial.trans (Nat.le_succ _), fun q hq => (h.given q hq).trans (Nat.le_succ _),
    ⟨spans, hspans, offered_more _ hspansOffered⟩,
    ⟨points, hpoints, offered_more _ hpointsOffered⟩,
    ⟨index, hindex, offered_more _ hindexOffered⟩, h.fresh_assigned hoffer⟩

/-- A point enters both maps under the next serial. -/
theorem enterPoint (h : Extends l l' pending) {key : PointIdentity}
    (habsent : l'.points.getPair? key = none) {offer : PendingOffer}
    (hoffer : offer.queued.entity = .assigned l'.nextAssigned) :
    Extends l (l'.enterPoint key) (pending ++ [offer]) := by
  obtain ⟨spans, hspans, hspansOffered⟩ := h.spans
  obtain ⟨points, hpoints, hpointsOffered⟩ := h.points
  obtain ⟨index, hindex, hindexOffered⟩ := h.index
  have hunused : l'.assignedPoints.getPair? l'.nextAssigned = none := by
    rw [ContentMap.getPair?_eq_none_iff]
    intro q hq
    rw [beq_eq_false_iff_ne]
    rintro heq
    have hle := h.given q hq
    rw [heq] at hle
    exact absurd hle (Nat.not_succ_le_self _)
  have hentered : (l'.enterPoint key).assignedPoints.entries =
      l'.assignedPoints.entries ++ [(l'.nextAssigned, key)] :=
    ContentMap.entries_insert_of_none hunused
  refine ⟨h.serial.trans (Nat.le_succ _), ?_, ⟨spans, hspans, offered_more _ hspansOffered⟩,
    ⟨points ++ [(key, .assigned l'.nextAssigned)], ?_, ?_⟩,
    ⟨index ++ [(l'.nextAssigned, key)], ?_, ?_⟩, h.fresh_assigned hoffer⟩
  · intro q hq
    rw [hentered] at hq
    rcases List.mem_append.mp hq with hq | hq
    · exact (h.given q hq).trans (Nat.le_succ _)
    · obtain rfl := List.mem_singleton.mp hq
      exact le_refl _
  · change (l'.points.insert key (.assigned l'.nextAssigned)).entries = _
    rw [ContentMap.entries_insert_of_none habsent, hpoints, List.append_assoc]
  · exact offered_snoc (fun p : PointIdentity × EntityId => p.2) hpointsOffered hoffer.symm
  · rw [hentered, hindex, List.append_assoc]
  · exact offered_snoc (fun q : AssignedId × PointIdentity => .assigned q.1) hindexOffered
      hoffer.symm

/-- **One admission extends the ledger it is made in.** -/
theorem admits {x x' : Export} (h : Extends l x.ledger x.pending) (hx : Admits x x') :
    Extends l x'.ledger x'.pending := by
  cases hx with
  | nothing anomalies hledger hpending =>
    rw [hledger, hpending]
    exact h.of_eq rfl rfl rfl rfl
  | interned anomalies key entity stream fresh standing same hledger hpending =>
    rw [hledger, hpending]
    exact h.of_eq rfl rfl rfl rfl
  | span now key record natural absent hledger hpending =>
    rw [hledger, hpending]
    exact h.enterSpan absent rfl
  | assigned now record unnamed hledger hpending =>
    rw [hledger, hpending]
    exact h.assign rfl
  | point now stream point absent hledger hpending =>
    rw [hledger, hpending]
    obtain ⟨hserial, hspans, hpoints, hindex, -⟩ := x.ledger.intern_frame stream
    refine (h.of_eq hserial hspans hpoints hindex).enterPoint ?_ ?_
    · rw [hpoints]
      exact absent
    · simp only [AdmissionLedger.nextAssigned, hserial]

/-- An export extends the ledger it started from. -/
theorem chain {x x' : Export} (h : Extends l x.ledger x.pending)
    (hx : Relation.ReflTransGen Admits x x') : Extends l x'.ledger x'.pending := by
  induction hx with
  | refl => exact h
  | tail _ hstep ih => exact ih.admits hstep

/-- **The undo leaves the entries that stood.** -/
theorem restored (h : Extends l l' pending) (hl : l.Consistent) (hl' : l'.Consistent) :
    (Pipeline.undoExport pending l').spans = l.spans ∧
    (Pipeline.undoExport pending l').points = l.points ∧
    (Pipeline.undoExport pending l').assignedPoints = l.assignedPoints := by
  obtain ⟨hspans, hpoints, hindex, -⟩ := Pipeline.undoExport_entries pending hl'
  -- what stood is kept, what was added is taken out
  have hfilter : ∀ {α : Type} {entity : α → EntityId} {stood added all : List α},
      all = stood ++ added → (∀ a ∈ stood, unoffered pending (entity a) = true) →
      (∀ a ∈ added, unoffered pending (entity a) = false) →
      all.filter (fun a => unoffered pending (entity a)) = stood := by
    intro α entity stood added all hall hstood hadded
    rw [hall, List.filter_append, List.filter_eq_self.mpr hstood,
      List.filter_eq_nil_iff.mpr fun a ha => by simp [hadded a ha], List.append_nil]
  have hassigned : ∀ id : AssignedId, id.serial ≤ l.nextSerial →
      unoffered pending (.assigned id) = true := by
    intro id hid
    refine List.all_eq_true.mpr fun offer hoffer => bne_iff_ne.mpr fun heq => ?_
    have hlt := (h.fresh offer hoffer).2 id heq.symm
    omega
  obtain ⟨spans, hspansEq, hspansOffered⟩ := h.spans
  obtain ⟨points, hpointsEq, hpointsOffered⟩ := h.points
  obtain ⟨index, hindexEq, hindexOffered⟩ := h.index
  refine ⟨ContentMap.ext ?_, ContentMap.ext ?_, ContentMap.ext ?_⟩
  · rw [hspans]
    refine @hfilter _ (fun p => EntityId.span p.1.1 p.1.2) _ _ _ hspansEq (fun p hp => ?_)
      hspansOffered
    exact List.all_eq_true.mpr fun offer hoffer => bne_iff_ne.mpr ((h.fresh offer hoffer).1 p hp)
  · rw [hpoints]
    refine @hfilter _ (fun p => p.2) _ _ _ hpointsEq (fun p hp => ?_) hpointsOffered
    obtain ⟨id, hid, hmem⟩ := hl.pointsIndexed p hp
    rw [hid]
    exact hassigned id (hl.serials _ hmem)
  · rw [hindex]
    exact @hfilter _ (fun q => EntityId.assigned q.1) _ _ _ hindexEq
      (fun q hq => hassigned q.1 (hl.serials q hq)) hindexOffered

end Extends

end RuntimeTrail
