import RuntimeTrail.Investigation.Stood
import RuntimeTrail.Runtime.Provenance

/-!
# Investigations of a running session

An investigation reads the store of a running session many times, and exports,
the pump, retention and the ledger go on between its reads.  What it answers is
still about what exporters sent.

* **the history** — `Residing`: the residencies of a run, in which an entity id and
  an address keep their meaning (`unique_of_residing`, `apart_of_residing`);
* **the reads** — `FlowReads.During`: each read finds the store at some moment of
  the run;
* **the evidence** — `Attested`, and `investigation_attested`.
-/

namespace RuntimeTrail

open Library

/-! ## The history -/

/-- A resident record as the query engine returns it. -/
def Resident.view : Resident → RecordView
  | span record => .span record
  | log record => .logRecord record
  | point slot => .metricPoint slot.point slot.stream

theorem Resident.view_injective : Function.Injective Resident.view := by
  intro a b h
  cases a with
  | span record =>
    cases b with
    | span other => exact congrArg Resident.span (RecordView.span.inj h)
    | _ => cases h
  | log record =>
    cases b with
    | log other => exact congrArg Resident.log (RecordView.logRecord.inj h)
    | _ => cases h
  | point slot =>
    cases b with
    | point other =>
      obtain ⟨hpoint, hstream⟩ := RecordView.metricPoint.inj h
      exact congrArg Resident.point (PointSlot.mk.injEq .. ▸ ⟨hpoint, hstream⟩)
    | _ => cases h

theorem Resident.addr_view (r : Resident) : r.view.addr = r.addr := by
  cases r <;> rfl

/-- The kind of a walked record. -/
def RecordView.kind : RecordView → SignalKind
  | span _ => .spans
  | logRecord _ => .logRecords
  | metricPoint _ _ => .metricPoints

/-- What a store yields is a resident record, of the kind asked for. -/
theorem InMemoryStore.mem_merged_of_yields {s : InMemoryStore} {kind : SignalKind} {y : Yield}
    (h : y ∈ s.residency.yields kind) :
    ∃ e ∈ s.merged, e.1 = y.key ∧ e.2.view = y.record ∧ y.record.kind = kind := by
  cases kind with
  | spans =>
    obtain ⟨p, hp, rfl⟩ := List.mem_map.mp h
    exact ⟨(p.1, .span p.2), mem_merged.mpr (.inl (List.mem_map_of_mem hp)), rfl, rfl, rfl⟩
  | logRecords =>
    obtain ⟨p, hp, rfl⟩ := List.mem_map.mp h
    exact ⟨(p.1, .log p.2), mem_merged.mpr (.inr (.inl (List.mem_map_of_mem hp))), rfl, rfl, rfl⟩
  | metricPoints =>
    obtain ⟨p, hp, rfl⟩ := List.mem_map.mp h
    obtain ⟨q, hq, rfl⟩ := List.mem_map.mp hp
    exact ⟨(q.1, .point q.2), mem_merged.mpr (.inr (.inr (List.mem_map_of_mem hq))), rfl, rfl, rfl⟩

namespace Session

/-- The store's residency at some moment of the run. -/
def Residing (start : Session) (events : List Event) (residency : Residency) : Prop :=
  ∃ s, Passes step remarks start events s ∧ s.store.residency = residency

section History

variable {limits : BudgetLimits} {payloadCeilingBytes queueCeilingBytes : Nat}
  {config : RetentionConfig} {events : List Event} {s : Session} {journal : List Remark}

/-- What stood in the store at a moment of the run was acknowledged in it. -/
theorem acknowledged_of_stands
    (h : (new limits payloadCeilingBytes queueCeilingBytes config).journaled events =
      some (s, journal)) {kind : SignalKind} {entity : EntityId} {record : RecordView}
    (hstands : Stands (Residing (new limits payloadCeilingBytes queueCeilingBytes config) events)
      kind entity record) :
    record.kind = kind ∧ ∃ e ∈ journal.filterMap Remark.acknowledged?,
      e.1.entity = entity ∧ e.2.view = record := by
  obtain ⟨_, ⟨u, hpasses, rfl⟩, y, hy, rfl, rfl⟩ := hstands
  obtain ⟨e, he, hkey, hview, hkind⟩ := InMemoryStore.mem_merged_of_yields hy
  obtain ⟨before, after, rfl, hrecord⟩ := Passes.invariant (I := OnRecord)
    (fun _ _ _ _ h hstep => h.step hstep)
    (OnRecord.new limits payloadCeilingBytes queueCeilingBytes config) h hpasses
  refine ⟨hkind, e, ?_, congrArg AdmissionKey.entity hkey, hview⟩
  rw [List.filterMap_append]
  refine List.mem_append_left _ (hrecord.conserved.mem_iff.mpr (List.mem_append_left _ ?_))
  exact List.mem_append_right _ (List.mem_append_right _ he)

/-- **An entity id keeps its meaning**, for as long as the session runs and whatever it evicts. -/
theorem unique_of_residing
    (h : (new limits payloadCeilingBytes queueCeilingBytes config).journaled events =
      some (s, journal)) :
    UniqueIdentities
      (Residing (new limits payloadCeilingBytes queueCeilingBytes config) events) := by
  have hrecorded := (OnRecord.of_journaled h).recorded
  have hassigned : ∀ {kind entity record}, kind ≠ .spans →
      Stands (Residing (new limits payloadCeilingBytes queueCeilingBytes config) events)
        kind entity record →
      ∃ e ∈ journal.filterMap Remark.acknowledged?,
        e.1.entity = entity ∧ e.2.view = record ∧ ∃ id, entity = .assigned id := by
    intro kind entity record hkind hstands
    obtain ⟨rfl, ⟨key, r⟩, he, rfl, rfl⟩ := acknowledged_of_stands h hstands
    refine ⟨(key, r), he, rfl, rfl, ?_⟩
    cases r with
    | span record => exact absurd rfl hkind
    | log record => exact hrecorded.identified _ he
    | point slot => exact hrecorded.identified _ he
  have hone : ∀ {kind entity record record'}, kind ≠ .spans →
      Stands (Residing (new limits payloadCeilingBytes queueCeilingBytes config) events)
        kind entity record →
      Stands (Residing (new limits payloadCeilingBytes queueCeilingBytes config) events)
        kind entity record' → record = record' := by
    intro kind entity record record' hkind hstands hstands'
    obtain ⟨e, he, hentity, rfl, id, hid⟩ := hassigned hkind hstands
    obtain ⟨f, hf, hentity', rfl, -⟩ := hassigned hkind hstands'
    rw [hrecorded.eq_of_assigned he hf (hentity.trans hid) (hentity'.trans hid)]
  refine ⟨fun {kind kind' entity record record'} hstands hstands' => ?_,
    fun {entity span trace id} hstands hnatural => ?_, fun hstands hstands' => ?_,
    fun hstands hstands' => ?_⟩
  · obtain ⟨hkind, ⟨key, r⟩, he, hentity, rfl⟩ := acknowledged_of_stands h hstands
    obtain ⟨hkind', ⟨key', r'⟩, hf, hentity', rfl⟩ := acknowledged_of_stands h hstands'
    cases hid : entity with
    | assigned id =>
      have heq := hrecorded.eq_of_assigned he hf (hentity.trans hid) (hentity'.trans hid)
      obtain ⟨-, rfl⟩ := Prod.mk.inj heq
      exact hkind.symm.trans hkind'
    | span trace id =>
      -- only a span is named by a natural identity
      have hspan : ∀ {key : AdmissionKey} {r : Resident},
          (key, r) ∈ journal.filterMap Remark.acknowledged? → key.entity = entity →
            r.view.kind = .spans := by
        intro key r hmem hkey
        cases r with
        | span record => rfl
        | log record =>
          obtain ⟨id', hassigned⟩ := hrecorded.identified _ hmem
          cases hassigned.symm.trans (hkey.trans hid)
        | point slot =>
          obtain ⟨id', hassigned⟩ := hrecorded.identified _ hmem
          cases hassigned.symm.trans (hkey.trans hid)
      exact hkind.symm.trans ((hspan he hentity).trans ((hspan hf hentity').symm.trans hkind'))
  · obtain ⟨-, ⟨key, r⟩, he, rfl, hview⟩ := acknowledged_of_stands h hstands
    cases r with
    | span record =>
      obtain rfl := RecordView.span.inj hview
      have hidentified := hrecorded.identified _ he
      simp only [Identified, hnatural] at hidentified
      exact hidentified
    | log record => cases hview
    | point slot => cases hview
  · exact congrArg Arc.addr (RecordView.logRecord.inj (hone (by decide) hstands hstands'))
  · exact congrArg Arc.addr (RecordView.metricPoint.inj (hone (by decide) hstands hstands')).1

/-- **An address keeps its meaning** over a run. -/
theorem apart_of_residing
    (h : (new limits payloadCeilingBytes queueCeilingBytes config).journaled events =
      some (s, journal)) :
    AddressesApart (Residing (new limits payloadCeilingBytes queueCeilingBytes config) events) := by
  intro kind kind' entity entity' record record' hstands hstands' haddr
  obtain ⟨-, e, he, rfl, rfl⟩ := acknowledged_of_stands h hstands
  obtain ⟨-, f, hf, rfl, rfl⟩ := acknowledged_of_stands h hstands'
  rw [Resident.addr_view, Resident.addr_view] at haddr
  rw [(OnRecord.of_journaled h).recorded.eq_of_addr he hf haddr]
  exact ⟨rfl, rfl⟩

end History

end Session

/-! ## The reads -/

/-- Each read of the flow finds the store at some moment of the run. -/
structure FlowReads.During (reads : FlowReads) (start : Session) (events : List Session.Event) :
    Prop where
  span : ∃ s, Passes Session.step Session.remarks start events s ∧
    reads.span = s.store.driver.span
  pages : ∀ page call, ∃ s, Passes Session.step Session.remarks start events s ∧
    reads.pages page call = s.store.driver
  naming : ∀ scan, ∃ s, Passes Session.step Session.remarks start events s ∧
    reads.naming scan = s.store.driver

/-- A flow that reads the store of a run is answered from the run's residencies. -/
theorem FlowReads.During.over {limits : BudgetLimits} {payloadCeilingBytes queueCeilingBytes : Nat}
    {config : RetentionConfig} {events : List Session.Event} {s : Session} {journal : List Remark}
    {reads : FlowReads}
    (h : (Session.new limits payloadCeilingBytes queueCeilingBytes config).journaled events =
      some (s, journal))
    (hduring : reads.During (Session.new limits payloadCeilingBytes queueCeilingBytes config)
      events) :
    reads.Over (Session.Residing
      (Session.new limits payloadCeilingBytes queueCeilingBytes config) events) := by
  have hserves : ∀ u, Passes Session.step Session.remarks
      (Session.new limits payloadCeilingBytes queueCeilingBytes config) events u →
      u.store.driver.Serves u.store.residency := by
    intro u hpasses
    obtain ⟨before, after, -, hrecord⟩ := Passes.invariant (I := OnRecord)
      (fun _ _ _ _ h hstep => h.step hstep)
      (OnRecord.new limits payloadCeilingBytes queueCeilingBytes config) h hpasses
    obtain ⟨ending, released, hsound⟩ := hrecord.sound
    exact hsound.coherent.serves
  have hspan : ∀ entity root, reads.span entity = some root →
      Stands (Session.Residing (Session.new limits payloadCeilingBytes queueCeilingBytes config)
        events) .spans entity (.span root) := by
    intro entity root hroot
    obtain ⟨u, hpasses, hread⟩ := hduring.span
    rw [hread] at hroot
    obtain ⟨key, rfl, hmem⟩ := ((hserves u hpasses).span entity root).mp hroot
    exact ⟨_, ⟨u, hpasses, rfl⟩, _, List.mem_map_of_mem hmem, rfl, rfl⟩
  refine ⟨hspan, fun entity root hroot other span hstands hsame => ?_, fun page call => ?_,
    fun scan => ?_⟩
  · have haddr : (RecordView.span span).addr = (RecordView.span root).addr :=
      beq_iff_eq.mp hsame
    obtain ⟨-, heq⟩ := Session.apart_of_residing h hstands (hspan entity root hroot) haddr
    exact RecordView.span.inj heq
  · obtain ⟨u, hpasses, hread⟩ := hduring.pages page call
    exact ⟨u.store.residency, ⟨u, hpasses, rfl⟩, hread ▸ hserves u hpasses⟩
  · obtain ⟨u, hpasses, hread⟩ := hduring.naming scan
    exact ⟨u.store.residency, ⟨u, hpasses, rfl⟩, hread ▸ hserves u hpasses⟩

/-! ## The evidence -/

/-- Each view carries the id, and the payload, of a record an export of the run brought and was
answered about. -/
structure Attested (start : Session) (events : List Session.Event) (evidence : Evidence) : Prop where
  spans : ∀ view ∈ evidence.spans, ∃ key, view.entity = some key.entity ∧
    Answered start events key (.span view.span.val)
  logs : ∀ view ∈ evidence.logs, ∃ key, view.entity = some key.entity ∧
    Answered start events key (.log view.log.val)
  points : ∀ view ∈ evidence.points, ∃ key stream, view.entity = some key.entity ∧
    (view.stream == stream) = true ∧ Answered start events key (.point stream view.point.val)

/-- Evidence that stood in the residencies of a run is what its exports brought. -/
theorem EvidenceStands.attested {limits : BudgetLimits}
    {payloadCeilingBytes queueCeilingBytes : Nat} {config : RetentionConfig}
    {events : List Session.Event} {s : Session} {journal : List Remark} {evidence : Evidence}
    (h : (Session.new limits payloadCeilingBytes queueCeilingBytes config).journaled events =
      some (s, journal))
    (hstands : EvidenceStands (Session.Residing
      (Session.new limits payloadCeilingBytes queueCeilingBytes config) events) evidence) :
    Attested (Session.new limits payloadCeilingBytes queueCeilingBytes config) events evidence := by
  have hanswered : ∀ {kind entity} {r : Resident},
      Stands (Session.Residing (Session.new limits payloadCeilingBytes queueCeilingBytes config)
        events) kind entity r.view →
      ∃ key delivered, key.entity = entity ∧ Answered
        (Session.new limits payloadCeilingBytes queueCeilingBytes config) events key delivered ∧
        r.Holds delivered := by
    intro kind entity r hstood
    obtain ⟨-, e, he, rfl, hview⟩ := Session.acknowledged_of_stands h hstood
    obtain rfl := Resident.view_injective hview
    obtain ⟨delivered, hanswered, hholds⟩ := answered_of_mem_journal h he
    exact ⟨e.1, delivered, rfl, hanswered, hholds⟩
  refine ⟨fun view hview => ?_, fun view hview => ?_, fun view hview => ?_⟩
  · obtain ⟨entity, hentity, hstood⟩ := hstands.spans view hview
    obtain ⟨key, delivered, rfl, hanswered, hholds⟩ := hanswered (r := .span view.span) hstood
    cases delivered with
    | span record =>
      obtain rfl : view.span.val = record := hholds
      exact ⟨key, hentity, hanswered⟩
    | _ => exact hholds.elim
  · obtain ⟨entity, hentity, hstood⟩ := hstands.logs view hview
    obtain ⟨key, delivered, rfl, hanswered, hholds⟩ := hanswered (r := .log view.log) hstood
    cases delivered with
    | log record =>
      obtain rfl : view.log.val = record := hholds
      exact ⟨key, hentity, hanswered⟩
    | _ => exact hholds.elim
  · obtain ⟨entity, hentity, hstood⟩ := hstands.points view hview
    obtain ⟨key, delivered, rfl, hanswered, hholds⟩ :=
      hanswered (r := .point ⟨view.point, view.stream⟩) hstood
    cases delivered with
    | point stream payload =>
      obtain ⟨hstream, rfl⟩ : (view.stream == stream) = true ∧ view.point.val = payload := hholds
      exact ⟨key, stream, hentity, hstream, hanswered⟩
    | _ => exact hholds.elim

/-- **An investigation of a running session answers with what exporters sent.**  Wherever its reads
fall between the exports, the pump's keeps, the evictions and the ledger calls of a run, a returned
envelope is honest, and each view of it carries the entity id and the payload of a record that an
export of that run carried and was told is admitted under that very id. -/
theorem investigation_attested (limits : BudgetLimits) (payloadCeilingBytes queueCeilingBytes : Nat)
    (config : RetentionConfig) (events : List Session.Event) (s : Session) (journal : List Remark)
    (h : (Session.new limits payloadCeilingBytes queueCeilingBytes config).journaled events =
      some (s, journal)) (fuel : Nat) (reads : FlowReads)
    (hduring : reads.During (Session.new limits payloadCeilingBytes queueCeilingBytes config) events)
    (stores : Nat → TelemetryStore) (request : TraceInvestigationRequest) (chain : ChainBudget)
    (hpositive : chain.Positive) (envelope : Investigation)
    (hflow : investigateTraceBounded fuel reads (correlate stores) request chain =
      some (.ok envelope)) :
    envelope.Honest ∧
      Attested (Session.new limits payloadCeilingBytes queueCeilingBytes config) events
        envelope.evidence := by
  obtain ⟨root, parts, hroot, hparts, rfl⟩ := investigateTraceBounded_eq_ok hflow
  have hover := hduring.over h
  have hunique := Session.unique_of_residing h
  refine ⟨honest_compose hover hunique stores hpositive hroot hparts, ?_⟩
  exact (evidence_stands hover hunique (Session.apart_of_residing h) hroot hparts).attested h

/-- A point, the span of a trace and its log record, each exported and kept. -/
def Session.tracedEvents : List Session.Event :=
  Session.keepPoint ⟨12⟩ ++
    [.ingestSpans ⟨15⟩ ⟨1, .ok [.ok (.bare 1 1)]⟩, .pop, .keepRecord, .unlockStore,
      .ingestLogs ⟨15⟩ ⟨1, .ok [.ok (.bare (some (.ofByte 1)) none)]⟩, .pop, .keepRecord,
      .unlockStore]

/-- Reads that all find the store of one moment. -/
def Session.reads (s : Session) : FlowReads :=
  ⟨s.store.driver.stats, s.store.driver.span, fun _ _ => s.store.driver, fun _ => still,
    fun _ => s.store.driver⟩

/-- The views an answered investigation holds, kind by kind. -/
def viewCounts : Option (Except FlowError Investigation) → Option (Nat × Nat × Nat)
  | some (.ok envelope) =>
    some (envelope.evidence.spans.length, envelope.evidence.logs.length,
      envelope.evidence.points.length)
  | _ => none

/-- The trace investigated before its point expires: one view of each kind, and the point is gone
when the run ends. -/
theorem investigation_attested_traced : ∃ s journal, ∃ envelope : Investigation,
    Session.small.journaled (Session.tracedEvents ++ Session.expirePoint ⟨24⟩) = some (s, journal) ∧
      s.store.residentRecords = 2 ∧
      envelope.evidence.spans.length + envelope.evidence.logs.length +
        envelope.evidence.points.length = 3 ∧
      envelope.Honest ∧
      Attested Session.small (Session.tracedEvents ++ Session.expirePoint ⟨24⟩) envelope.evidence := by
  obtain ⟨⟨u, before⟩, hbefore, hcounts⟩ : ∃ r,
      Session.small.journaled Session.tracedEvents = some r ∧
        decide (viewCounts (investigateTraceBounded 2 r.1.reads (correlate fun _ => r.1.store.driver)
          (tracedRequest 2) .defaults) = some (1, 1, 1)) = true :=
    (Option.any_eq_true _ _).mp (by decide +kernel)
  obtain ⟨⟨s, journal⟩, hrun, hgone⟩ : ∃ r,
      Session.small.journaled (Session.tracedEvents ++ Session.expirePoint ⟨24⟩) = some r ∧
        decide (r.1.store.residentRecords = 2) = true :=
    (Option.any_eq_true _ _).mp (by decide +kernel)
  have hpasses : Passes Session.step Session.remarks Session.small
      (Session.tracedEvents ++ Session.expirePoint ⟨24⟩) u := ⟨_, _, before, rfl, hbefore⟩
  have hduring : u.reads.During Session.small
      (Session.tracedEvents ++ Session.expirePoint ⟨24⟩) :=
    ⟨⟨u, hpasses, rfl⟩, fun _ _ => ⟨u, hpasses, rfl⟩, fun _ => ⟨u, hpasses, rfl⟩⟩
  have hcounts := of_decide_eq_true hcounts
  cases hflow : investigateTraceBounded 2 u.reads (correlate fun _ => u.store.driver)
      (tracedRequest 2) .defaults with
  | none =>
    rw [hflow] at hcounts
    cases hcounts
  | some answer =>
    rw [hflow] at hcounts
    cases answer with
    | error error => cases hcounts
    | ok envelope =>
      simp only [viewCounts, Option.some.injEq, Prod.mk.injEq] at hcounts
      obtain ⟨hspans, hlogs, hpoints⟩ := hcounts
      obtain ⟨hhonest, hattested⟩ := investigation_attested _ _ _ _ _ _ _ hrun 2 u.reads hduring _ _ _
        ChainBudget.positive_defaults envelope hflow
      exact ⟨s, journal, envelope, hrun, of_decide_eq_true hgone, by omega, hhonest, hattested⟩

end RuntimeTrail
