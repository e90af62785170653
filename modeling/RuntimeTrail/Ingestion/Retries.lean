import RuntimeTrail.Ingestion.Anomalies

/-!
# The counters of a refused export

The undo of a saturated export takes out entries and interns; what admission
counted on the way stays counted.  So an exporter that tries again is counted
again, unless none of its records disturbs what stands.

* **the undo** — `undoExport_frame`, and `streams_undo` for the interned handles it
  leaves;
* **the next attempt** — `disturbed_undo`: what was not counted is not counted
  behind the undo either;
* **the law** — `saturated_counts_iff`.
-/

namespace RuntimeTrail

open Library

namespace AdmissionLedger

theorem anomalies_forget (l : AdmissionLedger) (entity : EntityId) :
    (l.forget entity).anomalies = l.anomalies := by
  cases entity with
  | span traceId spanId => rfl
  | assigned id =>
    rcases l.forget_assigned_cases id with ⟨-, heq⟩ | ⟨identity, -, heq⟩
    · rw [heq]
    · rw [heq]

end AdmissionLedger

namespace Pipeline

/-! ## What the undo leaves -/

/-- The undo is over entries: the limits and the counters stay. -/
theorem undoExport_frame (pending : List PendingOffer) (l : AdmissionLedger) :
    (undoExport pending l).limits = l.limits ∧ (undoExport pending l).anomalies = l.anomalies := by
  induction pending generalizing l with
  | nil => exact ⟨rfl, rfl⟩
  | cons offer rest ih =>
    unfold undoExport
    cases offer.freshInternStream with
    | none =>
      obtain ⟨hlimits, hanomalies⟩ := ih (l.forget offer.queued.entity)
      exact ⟨hlimits.trans (l.limits_forget _), hanomalies.trans (l.anomalies_forget _)⟩
    | some stream =>
      obtain ⟨hlimits, hanomalies⟩ := ih ((l.forget offer.queued.entity).releaseStream stream)
      exact ⟨hlimits.trans (l.limits_forget _), hanomalies.trans (l.anomalies_forget _)⟩

/-- A stream is interned behind the undo as it was before the export, or, where it was not, as the
export left it. -/
theorem streams_undo {p : Pipeline} (hp : p.ledger.Consistent) {c : ExportCall} {x : Export}
    (hx : p.admitCall c = .ok x) (stream : StreamIdentity) :
    (undoExport x.pending x.ledger).streams.getPair? stream = p.ledger.streams.getPair? stream ∨
      (p.ledger.streams.getPair? stream = none ∧
        (undoExport x.pending x.ledger).streams.getPair? stream =
          x.ledger.streams.getPair? stream) := by
  have hl' := consistent_admitCall hp hx
  have hopen : StreamsIdle p.ledger p.openExport :=
    ⟨fun offer hoffer => absurd hoffer (by simp [openExport]), rfl⟩
  cases c with
  | spans now payload =>
    obtain ⟨spans, -, rfl⟩ := admitExport_eq_ok hx
    have hidle := @Export.foldl_keeps _ _ (StreamsIdle p.ledger)
      (fun x r hx => streamsIdle_admitSpan hx now r) spans _ hopen
    rw [tracks_of_streams hidle.1 hidle.2 hl']
    exact Or.inl rfl
  | logs now payload =>
    obtain ⟨logs, -, rfl⟩ := admitExport_eq_ok hx
    have hidle := @Export.foldl_keeps _ _ (StreamsIdle p.ledger)
      (fun x r hx => streamsIdle_admitLog hx now r) logs _ hopen
    rw [tracks_of_streams hidle.1 hidle.2 hl']
    exact Or.inl rfl
  | metrics now payload =>
    obtain ⟨request, hrequest, rfl⟩ := admitExport_eq_ok hx
    obtain ⟨added, hadded, -, hentries⟩ :=
      (@Tracks.admitMetrics p.ledger now request [] false p.openExport
        (Tracks.start p.ledger)).entries_undo hl'
    generalize request.foldl (Export.admitMetric now) p.openExport = x at hadded hentries ⊢
    cases hbefore : p.ledger.streams.getPair? stream with
    | some entry =>
      obtain ⟨hmem, hsame⟩ := ContentMap.getPair?_eq_some_iff.mp hbefore
      refine Or.inl (ContentMap.getPair?_eq_some_iff.mpr ⟨?_, hsame⟩)
      rw [hentries]
      exact List.mem_append_left _ hmem
    | none =>
      cases hafter : (undoExport x.pending x.ledger).streams.getPair? stream with
      | none => exact Or.inl rfl
      | some entry =>
        obtain ⟨hmem, hsame⟩ := ContentMap.getPair?_eq_some_iff.mp hafter
        refine Or.inr ⟨rfl, (ContentMap.getPair?_eq_some_iff.mpr ⟨?_, hsame⟩).symm⟩
        rw [hentries] at hmem
        rw [hadded]
        rcases List.mem_append.mp hmem with hmem | hmem
        · exact List.mem_append_left _ hmem
        · exact List.mem_append_right _ (List.mem_of_mem_filter hmem)

end Pipeline

/-! ## The next attempt -/

namespace AdmissionLedger

variable {l l' : AdmissionLedger}

theorem passes_congr (hlimits : l'.limits = l.limits) (d : PointDelivery) :
    l'.passes d = l.passes d := by
  rw [Bool.eq_iff_iff, passes_iff, passes_iff, gatePoint_eq_ok_iff, gatePoint_eq_ok_iff, hlimits]

theorem standingSpan_congr (hlimits : l'.limits = l.limits) (hspans : l'.spans = l.spans)
    (earlier : List LedgerDelivery) (key : TraceId × SpanId) :
    l'.standingSpan earlier key = l.standingSpan earlier key := by
  induction earlier with
  | nil => rw [standingSpan, standingSpan, hspans]
  | cons d earlier ih => cases d <;> simp only [standingSpan, hlimits, ih]

theorem standingPoint_congr (hlimits : l'.limits = l.limits) (hpoints : l'.points = l.points)
    (earlier : List LedgerDelivery) (key : PointIdentity) :
    l'.standingPoint earlier key = l.standingPoint earlier key := by
  induction earlier with
  | nil => rw [standingPoint, standingPoint, hpoints]
  | cons d earlier ih => cases d <;> simp only [standingPoint, passes_congr hlimits, ih]

/-- A handle, once interned, stays. -/
theorem handle_append {earlier : List LedgerDelivery} {stream standing : StreamIdentity}
    (h : l.handle earlier stream = some standing) (later : List LedgerDelivery) :
    l.handle (later ++ earlier) stream = some standing := by
  induction later with
  | nil => exact h
  | cons d later ih =>
    cases d with
    | span span => exact ih
    | log record => exact ih
    | point d => rw [List.cons_append, handle, ih, Option.some_or]

/-- A point whose stream was interned by its own export is looked up behind the undo under the
handle it was looked up under before, or under its own. -/
theorem handle_repeated (hlimits : l'.limits = l.limits) (hpoints : l'.points = l.points)
    {later earlier : List LedgerDelivery} {d : PointDelivery} (hpasses : l.passes d = true)
    (hdescribed : l.redescribes earlier d = false)
    (hstreams : l'.streams.getPair? d.stream = l.streams.getPair? d.stream ∨
      (l.streams.getPair? d.stream = none ∧ (l'.streams.getPair? d.stream).map (·.1) =
        l.handle (later ++ .point d :: earlier) d.stream)) :
    l'.handle earlier d.stream = l.handle earlier d.stream ∨
      l'.handle earlier d.stream = some d.stream := by
  rcases hstreams with hsame | ⟨hnone, hexport⟩
  · left
    clear hdescribed
    induction earlier with
    | nil => rw [handle, handle, hsame]
    | cons e earlier ih =>
      cases e with
      | span span => exact ih
      | log record => exact ih
      | point e =>
        have hother : l'.redescribes earlier e = l.redescribes earlier e := by
          rw [redescribes, redescribes, standingPoint_congr hlimits hpoints]
        rw [handle, handle, ih, passes_congr hlimits, hother]
  · cases hbefore : l.handle earlier d.stream with
    | some standing =>
      left
      have hown : l.handle (.point d :: earlier) d.stream = some standing := by
        rw [handle, hbefore, Option.some_or]
      rw [handle_append hown] at hexport
      simpa using @handle_append l' [] _ _ hexport earlier
    | none =>
      right
      have hown : l.handle (.point d :: earlier) d.stream = some d.stream := by
        rw [handle, hbefore, hpasses, hdescribed, BEq.rfl]
        rfl
      rw [handle_append hown] at hexport
      simpa using @handle_append l' [] _ _ hexport earlier

end AdmissionLedger

namespace Pipeline

/-- **What was not counted is not counted again.**  An export of which no delivery disturbs what
stands disturbs nothing behind its undo. -/
theorem disturbed_undo {p : Pipeline} (hp : p.ledger.Consistent) {c : ExportCall} {x : Export}
    (hx : p.admitCall c = .ok x) (hquiet : p.ledger.disturbed c.delivered.reverse = false) :
    (undoExport x.pending x.ledger).disturbed c.delivered.reverse = false := by
  have hfollows := follows_admitCall hx
  have hextends := Extends.chain (Extends.start hp) (admits_admitCall hx)
  obtain ⟨hspans, hpoints, -⟩ := hextends.restored hp (consistent_admitCall hp hx)
  obtain ⟨hlimits, -⟩ := undoExport_frame x.pending x.ledger
  replace hlimits := hlimits.trans hfollows.limits
  have hstreams := streams_undo hp hx
  generalize undoExport x.pending x.ledger = l' at hspans hpoints hlimits hstreams ⊢
  rw [AdmissionLedger.disturbed_eq_false_iff] at hquiet ⊢
  intro later d earlier hsplit
  have hbefore := hquiet later d earlier hsplit
  cases d with
  | log record => rfl
  | span span =>
    rw [AdmissionLedger.disturbsAt] at hbefore ⊢
    simp only [hlimits, AdmissionLedger.standingSpan_congr hlimits hspans]
    exact hbefore
  | point d =>
    rw [AdmissionLedger.disturbsAt] at hbefore ⊢
    rw [AdmissionLedger.passes_congr hlimits, AdmissionLedger.standingPoint_congr hlimits hpoints]
    cases hpasses : p.ledger.passes d with
    | false => rfl
    | true =>
      cases hstanding : p.ledger.standingPoint earlier d.identity with
      | none => rfl
      | some first =>
        rw [hpasses, hstanding, Bool.true_and, Option.any_some, Bool.not_eq_false'] at hbefore
        rw [Bool.true_and, Option.any_some, Bool.not_eq_false']
        have hdescribed : p.ledger.redescribes earlier d = false := by
          simp only [AdmissionLedger.pointsAgree, Bool.and_eq_true] at hbefore
          rw [AdmissionLedger.redescribes, hstanding, Option.any_some, hbefore.1.1]
          rfl
        have hhandle := @AdmissionLedger.handle_repeated p.ledger l' hlimits hpoints later earlier
          d hpasses hdescribed ((hstreams d.stream).imp_right fun hgone => ⟨hgone.1, by
            rw [hgone.2, hfollows.streams, hsplit]⟩)
        rcases hhandle with hsame | hown
        · rw [hsame]
          exact hbefore
        · rw [hown]
          simp only [AdmissionLedger.pointsAgree, Bool.and_eq_true] at hbefore ⊢
          exact ⟨hbefore.1, by simp⟩

/-! ## The law -/

/-- An export is refused for saturation. -/
def Saturates (p : Pipeline) (c : ExportCall) : Prop :=
  ∃ queue ceiling attempted, (p.call c).2 = .error (.queueSaturated queue ceiling attempted)

/-- Attempts at an export, each of them refused for saturation, the consumer taking records off the
queue behind each. -/
inductive Retries (c : ExportCall) : Pipeline → Pipeline → Prop
  | first (p : Pipeline) : Retries c p p
  | again {p p' : Pipeline} (refused : p.Saturates c) (pops : Nat)
      (rest : Retries c ((p.call c).1.run (List.replicate pops .pop)) p') : Retries c p p'

/-- A refused export leaves the counters as if it had never arrived, and an export that is taken
behind any number of refused attempts leaves them as one that is taken the first time. -/
structure CountsOnce (p : Pipeline) (c : ExportCall) : Prop where
  untouched : (p.call c).1.ledger.anomalies = p.ledger.anomalies
  retried : ∀ p' sink outcome outcome', Retries c p p' → (p'.call c).2 = .ok outcome →
    (({ p with sink := sink } : Pipeline).call c).2 = .ok outcome' →
      (p'.call c).1.ledger.anomalies =
        (({ p with sink := sink } : Pipeline).call c).1.ledger.anomalies

theorem ledger_run_pops (p : Pipeline) (pops : Nat) :
    (p.run (List.replicate pops .pop)).ledger = p.ledger := by
  induction pops generalizing p with
  | zero => rfl
  | succ pops ih =>
    refine (ih (p.apply .pop)).trans ?_
    simp only [apply]
    split
    · rfl
    · rfl

/-- An export that is taken leaves the ledger its admissions left. -/
theorem taken_cases {p : Pipeline} {c : ExportCall} {outcome : ExportOutcome}
    (h : (p.call c).2 = .ok outcome) :
    ∃ x, p.admitCall c = .ok x ∧ (p.call c).1.ledger = x.ledger := by
  rw [call_eq] at h ⊢
  cases hadmitted : p.admitCall c with
  | error signal =>
    rw [hadmitted] at h
    cases h
  | ok x =>
    rw [hadmitted] at h
    refine ⟨x, rfl, ?_⟩
    simp only [ingest, offerExport] at h ⊢
    split at h
    · rename_i hfits
      rw [if_pos hfits]
    · cases h

/-- An export that disturbs nothing is counted by no attempt, and by none behind it. -/
theorem Retries.quiet {c : ExportCall} {p p' : Pipeline} (h : Retries c p p')
    (hp : p.ledger.Consistent) (hquiet : p.ledger.disturbed c.delivered.reverse = false) :
    p'.ledger.disturbed c.delivered.reverse = false ∧ p'.ledger.anomalies = p.ledger.anomalies := by
  induction h with
  | first p => exact ⟨hquiet, rfl⟩
  | @again p p' refused pops rest ih =>
    obtain ⟨queue, ceiling, attempted, hsaturated⟩ := refused
    obtain ⟨x, hx, hledger, -⟩ := saturated_cases hsaturated
    rw [ledger_run_pops, hledger] at ih
    have hcounted := counted_admitCall hx
    obtain ⟨hlast, hsame⟩ :=
      ih (consistent_undoExport x.pending (consistent_admitCall hp hx)) (disturbed_undo hp hx hquiet)
    exact ⟨hlast, hsame.trans ((undoExport_frame x.pending x.ledger).2.trans
      (hcounted.quiet hquiet))⟩

/-- An export that disturbs nothing and is taken leaves the counters. -/
theorem anomalies_taken {p : Pipeline} {c : ExportCall} {outcome : ExportOutcome}
    (hquiet : p.ledger.disturbed c.delivered.reverse = false) (h : (p.call c).2 = .ok outcome) :
    (p.call c).1.ledger.anomalies = p.ledger.anomalies := by
  obtain ⟨x, hx, hledger⟩ := taken_cases h
  have hcounted := counted_admitCall hx
  rw [hledger, hcounted.quiet hquiet]

/-- **What a refused export counts.**  From every reachable pipeline, an export that is refused for
saturation leaves the counters as if it had never arrived, and is counted once however often it is
tried, exactly when none of its records that pass the gates finds its identity standing, in the
ledger or through an earlier record of the export, with other content, another descriptor or another
schema url. -/
theorem saturated_counts_iff (limits : BudgetLimits) (payloadCeiling queueCeiling : Nat)
    (ops : List PipelineOp) (c : ExportCall) :
    let p := (new limits payloadCeiling queueCeiling).run ops
    p.Saturates c → (p.CountsOnce c ↔ p.ledger.disturbed c.delivered.reverse = false) := by
  intro p hrefused
  have hp : p.ledger.Consistent := consistent_run ops (AdmissionLedger.Consistent.new limits)
  obtain ⟨queue, ceiling, attempted, hsaturated⟩ := hrefused
  obtain ⟨x, hx, hledger, -⟩ := saturated_cases hsaturated
  have hcounted := counted_admitCall hx
  have hanomalies : (p.call c).1.ledger.anomalies = x.ledger.anomalies := by
    rw [hledger, (undoExport_frame x.pending x.ledger).2]
  constructor
  · intro honce
    rw [Bool.eq_false_iff]
    intro hdisturbs
    have hgrown := hcounted.grown hdisturbs
    rw [← hanomalies, honce.untouched] at hgrown
    exact lt_irrefl _ hgrown
  · intro hquiet
    refine ⟨hanomalies.trans (hcounted.quiet hquiet),
      fun p' sink outcome outcome' hretries htaken hfirst => ?_⟩
    obtain ⟨hlast, hsame⟩ := hretries.quiet hp hquiet
    rw [anomalies_taken hlast htaken, hsame,
      anomalies_taken (p := { p with sink := sink }) hquiet hfirst]

/-- The point of "m" once more, from a resource of another schema url, and twenty of the stream "n"
the queue has no room for. -/
def driftingCall : ExportCall :=
  .metrics ⟨1⟩ ⟨1, .ok [⟨.ok (.bare "m" (some "u")), [.ok (.bare 0)]⟩,
    ⟨.ok (.bare "n" none), (List.range 20).map fun n => .ok (.bare n)⟩]⟩

/-- The same point under its own schema url is counted once, however often it is tried. -/
theorem saturated_counts_iff_crowded : (smallest.run [firstPoint]).CountsOnce crowdedCall :=
  (saturated_counts_iff ⟨0, 0, 4096, 0, 0, 0, 8, 10000, 10000, 0⟩ 4194304 3072 [firstPoint]
    crowdedCall ⟨pipelineQueueName, 3072, 3160, by decide +kernel⟩).mpr (by decide +kernel)

/-- A refused export is counted: its first point collapses onto one of another schema url. -/
theorem not_saturated_counts : ¬ ∀ limits payloadCeiling queueCeiling ops c,
    ((new limits payloadCeiling queueCeiling).run ops).Saturates c →
      ((new limits payloadCeiling queueCeiling).run ops).CountsOnce c := by
  intro hclaim
  have honce := hclaim ⟨0, 0, 4096, 0, 0, 0, 8, 10000, 10000, 0⟩ 4194304 3072 [firstPoint]
    driftingCall ⟨pipelineQueueName, 3072, 3160, by decide +kernel⟩
  exact absurd honce.untouched (by decide +kernel)

end Pipeline

end RuntimeTrail
