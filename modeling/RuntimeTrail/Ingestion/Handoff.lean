import RuntimeTrail.Ingestion.Document

/-!
# The hand-off beside the pump

An export holds the ledger from its first admission to its last offer, and the
queue only for each offer: the pump may take records out before the offer-set is
measured and before each record of it is offered.  `pops` says how many it takes
each time.

* **the pump** — `popMany`: what it takes is the front of the queue, in order;
* **the offers** — `offerAmid_ok`: an offer-set that was measured to fit is taken
  whole, whatever the pump takes in between;
* **the law** — `handoff_exact`: the outcome and the queue an export leaves.
-/

namespace RuntimeTrail

open Library

/-! ## Exports as they arrive -/

def Payload.map {R T : Type} (payload : Payload R) (f : R → T) : Payload T :=
  ⟨payload.bytes, payload.decoded.map f⟩

/-- One OTLP export, as its message nests it. -/
inductive ExportDocument (W : Wire) where
  | traces (now : AdmissionTime) (payload : Payload (List (ResourceRecords W W.Span)))
  | logs (now : AdmissionTime) (payload : Payload (List (ResourceRecords W W.LogRecord)))
  | metrics (now : AdmissionTime) (payload : Payload (List (ResourceRecords W (Metric W))))

namespace ExportDocument

variable {W : Wire}

/-- The export once its messages are translated. -/
def call (decode : Decoder W) : ExportDocument W → ExportCall
  | traces now payload => .spans now (payload.map decode.spans)
  | logs now payload => .logs now (payload.map decode.logs)
  | metrics now payload => .metrics now (payload.map decode.metrics)

/-- How many records the export carries. -/
def recordCount : ExportDocument W → Nat
  | traces _ payload =>
    match payload.decoded with
    | .ok request => RuntimeTrail.recordCount (fun _ => 1) request
    | .error _ => 0
  | logs _ payload =>
    match payload.decoded with
    | .ok request => RuntimeTrail.recordCount (fun _ => 1) request
    | .error _ => 0
  | metrics _ payload =>
    match payload.decoded with
    | .ok request => RuntimeTrail.recordCount Metric.pointCount request
    | .error _ => 0

theorem length_records (decode : Decoder W) (doc : ExportDocument W) :
    (doc.call decode).records.length = doc.recordCount := by
  cases doc with
  | traces now payload =>
    obtain ⟨bytes, decoded⟩ := payload
    cases decoded with
    | error detail => rfl
    | ok request => exact (List.length_map _).trans (decode.length_document decode.span request)
  | logs now payload =>
    obtain ⟨bytes, decoded⟩ := payload
    cases decoded with
    | error detail => rfl
    | ok request =>
      exact (List.length_map _).trans (decode.length_document decode.logRecord request)
  | metrics now payload =>
    obtain ⟨bytes, decoded⟩ := payload
    cases decoded with
    | error detail => rfl
    | ok request =>
      refine Eq.trans ?_ (decode.length_points request)
      simp [ExportDocument.call, Payload.map, ExportCall.records, Except.map, List.length_flatMap,
        WireMetric.records]

end ExportDocument

/-! ## The pump -/

namespace BoundedQueue

/-- The consumer takes up to so many records from the front. -/
def popMany : Nat → BoundedQueue → List QueuedRecord × BoundedQueue
  | 0, q => ([], q)
  | n + 1, q =>
    match q.popLocked with
    | none => ([], q)
    | some (record, q) => (record :: (popMany n q).1, (popMany n q).2)

/-- A pop keeps the ceiling and never raises the account. -/
theorem popLocked_frame {q q' : BoundedQueue} {record : QueuedRecord}
    (h : q.popLocked = some (record, q')) :
    q'.ceilingBytes = q.ceilingBytes ∧ q'.name = q.name ∧ q'.accounted ≤ q.accounted := by
  unfold popLocked at h
  split at h
  · exact absurd h (by simp)
  · obtain ⟨rfl, rfl⟩ := Prod.mk.inj (Option.some.inj h)
    exact ⟨rfl, rfl, Nat.sub_le _ _⟩

/-- **The pump takes the front of the queue, in order**, and only makes room. -/
theorem popMany_spec : ∀ (n : Nat) (q : BoundedQueue),
    (popMany n q).1 ++ (popMany n q).2.items = q.items ∧
    (popMany n q).2.ceilingBytes = q.ceilingBytes ∧
    (popMany n q).2.accounted ≤ q.accounted := by
  intro n
  induction n with
  | zero => intro q; exact ⟨rfl, rfl, le_refl _⟩
  | succ n ih =>
    intro q
    unfold popMany
    cases hpop : q.popLocked with
    | none => exact ⟨rfl, rfl, le_refl _⟩
    | some popped =>
      obtain ⟨record, q'⟩ := popped
      obtain ⟨hitems, hceiling, haccounted⟩ := ih q'
      obtain ⟨hceiling', -, haccounted'⟩ := popLocked_frame hpop
      refine ⟨?_, hceiling.trans hceiling', haccounted.trans haccounted'⟩
      change record :: ((popMany n q').1 ++ (popMany n q').2.items) = q.items
      rw [hitems, items_of_popLocked hpop]

/-- An offer there is room for is taken at the back. -/
theorem offer_of_fits {q : BoundedQueue} {record : QueuedRecord}
    (h : q.accounted + accountedSize record.record ≤ q.ceilingBytes) :
    ∃ q', q.offer record = .ok q' ∧ q'.items = q.items ++ [record] ∧
      q'.ceilingBytes = q.ceilingBytes ∧
      q'.accounted = q.accounted + accountedSize record.record := by
  unfold offer
  rw [dif_neg (not_lt.mpr h)]
  exact ⟨_, rfl, rfl, rfl, rfl⟩

end BoundedQueue

namespace Pipeline

/-! ## The offers -/

/-- The offers of an offer-set one by one, the pump popping before each: what it took, and the
queue, or the refusal that would be a panic. -/
def offerAmid (pops : Nat → Nat) :
    Nat → List PendingOffer → BoundedQueue → List QueuedRecord × Except AdmissionSignal BoundedQueue
  | _, [], sink => ([], .ok sink)
  | i, offer :: rest, sink =>
    let taken := sink.popMany (pops i)
    match taken.2.offer offer.queued with
    | .error signal => (taken.1, .error signal)
    | .ok sink =>
      let r := offerAmid pops (i + 1) rest sink
      (taken.1 ++ r.1, r.2)

/-- **An offer-set that was measured to fit is taken whole**, in order, whatever is popped. -/
theorem offerAmid_ok (pops : Nat → Nat) : ∀ (pending : List PendingOffer) (i : Nat)
    (sink : BoundedQueue), offerBytes pending + sink.accounted ≤ sink.ceilingBytes →
    ∃ sink', (offerAmid pops i pending sink).2 = .ok sink' ∧
      sink'.ceilingBytes = sink.ceilingBytes ∧
      (offerAmid pops i pending sink).1 ++ sink'.items =
        sink.items ++ pending.map (·.queued) := by
  intro pending
  induction pending with
  | nil => intro i sink _; exact ⟨sink, rfl, rfl, by simp [offerAmid]⟩
  | cons offer rest ih =>
    intro i sink hfits
    have hbytes : offerBytes (offer :: rest) =
        accountedSize offer.queued.record + offerBytes rest := by
      simp [offerBytes, queuedBytes]
    obtain ⟨hitems, hceiling, haccounted⟩ := BoundedQueue.popMany_spec (pops i) sink
    obtain ⟨next, hoffer, hnext, hnextCeiling, hnextAccounted⟩ :=
      @BoundedQueue.offer_of_fits (sink.popMany (pops i)).2 offer.queued (by omega)
    obtain ⟨sink', hok, hceiling', hrest⟩ := ih (i + 1) next (by omega)
    refine ⟨sink', ?_, ?_, ?_⟩
    · simp only [offerAmid, hoffer]
      exact hok
    · rw [hceiling', hnextCeiling, hceiling]
    · simp only [offerAmid, hoffer]
      calc (sink.popMany (pops i)).1 ++ (offerAmid pops (i + 1) rest next).1 ++ sink'.items
          = (sink.popMany (pops i)).1 ++ (next.items ++ rest.map (·.queued)) := by
            rw [List.append_assoc, hrest]
        _ = (sink.popMany (pops i)).1 ++ (sink.popMany (pops i)).2.items ++
              (offer :: rest).map (·.queued) := by
            rw [hnext]
            simp
        _ = sink.items ++ (offer :: rest).map (·.queued) := by rw [hitems]

/-! ## An export beside the pump -/

/-- What an export leaves beside the pump; a result that is missing is the panic of a refused
offer. -/
structure HandedOff where
  pipeline : Pipeline
  result : Option (Except AdmissionSignal ExportOutcome)
  popped : List QueuedRecord

/-- The pipeline as an export measures its offer-set: its streams are allocated, and the pump has
taken what it pops first. -/
def measured (p : Pipeline) (n nextAddr : Nat) : Pipeline :=
  { p with nextAddr := nextAddr, sink := (p.sink.popMany n).2 }

@[simp]
theorem fits_measured {p : Pipeline} {n nextAddr : Nat} {pending : List PendingOffer} :
    (p.measured n nextAddr).fits pending = true ↔
      offerBytes pending + (p.sink.popMany n).2.accounted ≤ (p.sink.popMany n).2.ceilingBytes :=
  decide_eq_true_iff

/-- The export-atomic hand-off with the pump at work: it pops before the offer-set is measured, and
before each offer. -/
def offerExportAmid (p : Pipeline) (pops : Nat → Nat) (x : Export) : HandedOff :=
  let taken := p.sink.popMany (pops 0)
  let p := p.measured (pops 0) x.nextAddr
  if p.fits x.pending then
    let offered := offerAmid pops 1 x.pending p.sink
    match offered.2 with
    | .ok sink =>
      ⟨{ p with ledger := x.ledger, sink := sink }, some (.ok ⟨x.records⟩), taken.1 ++ offered.1⟩
    | .error _ => ⟨{ p with ledger := x.ledger }, none, taken.1 ++ offered.1⟩
  else
    ⟨{ p with ledger := undoExport x.pending x.ledger },
      some (.error (.queueSaturated p.sink.name p.sink.ceilingBytes (offerBytes x.pending))),
      taken.1⟩

/-- One export, from its gates to its hand-off, with the pump at work. -/
def callAmid (p : Pipeline) (pops : Nat → Nat) (c : ExportCall) : HandedOff :=
  match p.admitCall c with
  | .error signal => ⟨p, some (.error signal), []⟩
  | .ok x => p.offerExportAmid pops x

/-- What fits without the pump fits with it. -/
theorem fits_popMany {p : Pipeline} {pending : List PendingOffer} (h : p.fits pending = true)
    (n nextAddr : Nat) :
    (p.measured n nextAddr).fits pending = true := by
  obtain ⟨-, hceiling, haccounted⟩ := BoundedQueue.popMany_spec n p.sink
  have hroom : offerBytes pending + p.sink.accounted ≤ p.sink.ceilingBytes := by simpa [fits] using h
  rw [fits_measured, hceiling]
  omega

/-- A hand-off that is measured to fit goes through, and adds its offer-set at the back. -/
theorem offerExportAmid_of_fits {p : Pipeline} {pops : Nat → Nat} {x : Export}
    (h : (p.measured (pops 0) x.nextAddr).fits x.pending = true) :
    (p.offerExportAmid pops x).result = some (.ok ⟨x.records⟩) ∧
    (p.offerExportAmid pops x).pipeline.sink.ceilingBytes = p.sink.ceilingBytes ∧
    (p.offerExportAmid pops x).popped ++ (p.offerExportAmid pops x).pipeline.sink.items =
      p.sink.items ++ x.pending.map (·.queued) := by
  obtain ⟨hitems, hceiling, -⟩ := BoundedQueue.popMany_spec (pops 0) p.sink
  have hroom : offerBytes x.pending + (p.sink.popMany (pops 0)).2.accounted ≤
      (p.sink.popMany (pops 0)).2.ceilingBytes := fits_measured.mp h
  obtain ⟨sink, hok, hceiling', hoffered⟩ :=
    offerAmid_ok pops x.pending 1 (p.sink.popMany (pops 0)).2 hroom
  simp only [offerExportAmid, h, if_true]
  simp only [measured, hok]
  refine ⟨trivial, hceiling'.trans hceiling, ?_⟩
  rw [List.append_assoc, hoffered, ← List.append_assoc, hitems]

/-- A hand-off that does not fit is refused, and leaves the queue the pump left. -/
theorem offerExportAmid_of_not_fits {p : Pipeline} {pops : Nat → Nat} {x : Export}
    (h : ¬ (p.measured (pops 0) x.nextAddr).fits x.pending = true) :
    (∃ signal, (p.offerExportAmid pops x).result = some (.error signal)) ∧
      (p.offerExportAmid pops x).pipeline.sink = (p.sink.popMany (pops 0)).2 := by
  simp only [offerExportAmid, h]
  exact ⟨⟨_, rfl⟩, rfl⟩

/-- Without the pump an export is accepted exactly when its offer-set fits. -/
theorem call_ok_iff {p : Pipeline} {c : ExportCall} {x : Export} (hx : p.admitCall c = .ok x)
    {outcome : ExportOutcome} :
    (p.call c).2 = .ok outcome ↔ p.fits x.pending = true ∧ outcome = ⟨x.records⟩ := by
  rw [call_eq, hx]
  simp only [ingest, offerExport]
  split
  · rename_i hfits
    have hfits : p.fits x.pending = true := hfits
    simp [hfits, eq_comm]
  · rename_i hfits
    have hfits : ¬ p.fits x.pending = true := hfits
    simp [hfits]

/-- **What an export that returns leaves.**  For every pipeline, every export as it arrives and every
interleaving of the pump's pops: an accepted export has one entry for each wire record in document
order, and the queue is extended by exactly the records of its admitted entries, in that order;
no offer that was measured to fit is refused, and what fits without the pump is accepted with it;
what the pump took and what is left are the old queue and the new records, first in first out; and
the account is the sum of the records held, within the ceiling. -/
theorem handoff_exact {W : Wire} (p : Pipeline) (decode : Decoder W) (doc : ExportDocument W)
    (pops : Nat → Nat) :
    let c := doc.call decode
    let h := p.callAmid pops c
    (∀ outcome, h.result = some (.ok outcome) →
      outcome.records.length = doc.recordCount ∧
      ∃ queued, Handed c.now c.records outcome.records queued ∧
        h.popped ++ h.pipeline.sink.items = p.sink.items ++ queued) ∧
    h.result ≠ none ∧
    (∀ outcome, (p.call c).2 = .ok outcome → h.result = some (.ok outcome)) ∧
    (h.pipeline.sink.accounted = queuedBytes h.pipeline.sink.items ∧
      h.pipeline.sink.accounted ≤ p.sink.ceilingBytes) := by
  intro c h
  have hceiling : h.pipeline.sink.ceilingBytes = p.sink.ceilingBytes → h.pipeline.sink.accounted =
      queuedBytes h.pipeline.sink.items ∧ h.pipeline.sink.accounted ≤ p.sink.ceilingBytes :=
    fun heq => ⟨h.pipeline.sink.exact, heq ▸ h.pipeline.sink.bounded⟩
  cases hx : p.admitCall c with
  | error signal =>
    have hh : h = ⟨p, some (.error signal), []⟩ := by simp only [h, callAmid, hx]
    refine ⟨fun outcome hok => ?_, ?_, fun outcome hok => ?_, hceiling (by rw [hh])⟩
    · rw [hh] at hok
      exact absurd hok (by simp)
    · rw [hh]
      exact Option.some_ne_none _
    · rw [call_eq, hx] at hok
      exact absurd hok (by simp [ingest])
  | ok x =>
    have hhanded := handed_admitCall hx
    have hh : h = p.offerExportAmid pops x := by simp only [h, callAmid, hx]
    by_cases hfits : (p.measured (pops 0) x.nextAddr).fits x.pending = true
    · obtain ⟨hresult, hbytes, hitems⟩ := offerExportAmid_of_fits hfits
      rw [← hh] at hresult hbytes hitems
      refine ⟨fun outcome hok => ?_, ?_, fun outcome hok => ?_, hceiling hbytes⟩
      · obtain rfl := Except.ok.inj (Option.some.inj (hresult.symm.trans hok))
        exact ⟨hhanded.length_eq.trans (doc.length_records decode), _, hhanded, hitems⟩
      · rw [hresult]
        exact Option.some_ne_none _
      · rw [hresult, ((call_ok_iff hx).mp hok).2]
    · obtain ⟨⟨signal, hsaturated⟩, hsink⟩ := offerExportAmid_of_not_fits hfits
      rw [← hh] at hsaturated hsink
      refine ⟨fun outcome hok => ?_, ?_, fun outcome hok => ?_, hceiling ?_⟩
      · rw [hsaturated] at hok
        exact absurd hok (by simp)
      · rw [hsaturated]
        exact Option.some_ne_none _
      · -- were it accepted without the pump, it would fit with it
        exact absurd (fits_popMany ((call_ok_iff hx).mp hok).1 (pops 0) x.nextAddr) hfits
      · rw [hsink]
        exact (BoundedQueue.popMany_spec (pops 0) p.sink).2.1

end Pipeline

end RuntimeTrail
