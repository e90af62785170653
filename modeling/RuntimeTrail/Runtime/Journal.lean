import RuntimeTrail.Ingestion.Retries
import RuntimeTrail.Library.Journal
import RuntimeTrail.Runtime.Invariant

/-!
# What a session has on record

The journal of a run lists what happened to records: an export acknowledged one
and queued it, the store refused one at its keep, a retention pass evicted one.

* **allocations** — `Allocated`, `Numbered`: an export's records are each at an
  address of their own, and a serial is greater than those before it;
* **the notes** — `Session.remarks`: what a step does to records is read off the state
  before it; `Session.journaled`, a run with its notes;
* **the account** — `OnRecord`, kept by every step: the records acknowledged are the
  live ones and the departed ones, each exactly once, the counters are those of the
  departures, and neither an address nor a serial was given twice.
-/

namespace RuntimeTrail

open Library

/-! ## Addresses -/

/-- Where a queued record's payload is allocated. -/
def StoredRecord.addr : StoredRecord → Nat
  | span record => record.addr
  | log record => record.addr
  | point _ record => record.addr

/-- Where a resident record's payload is allocated. -/
def Resident.addr : Resident → Nat
  | span record => record.addr
  | log record => record.addr
  | point slot => slot.point.addr

theorem StoredRecord.addr_resident (record : StoredRecord) :
    record.resident.addr = record.addr := by
  cases record <;> rfl

/-- What an export has deferred was allocated while it ran, each record at an address of its own. -/
structure Allocated (first : Nat) (x : Export) : Prop where
  grows : first ≤ x.nextAddr
  within : ∀ o ∈ x.pending, first ≤ o.queued.record.addr ∧ o.queued.record.addr < x.nextAddr
  apart : (x.pending.map fun o => o.queued.record.addr).Nodup

namespace Allocated

variable {first : Nat} {x x' : Export}

/-- A record that is not admitted takes an address, and defers nothing. -/
theorem passed (h : Allocated first x) (hnext : x'.nextAddr = x.nextAddr + 1)
    (hpending : x'.pending = x.pending) : Allocated first x' where
  grows := by
    rw [hnext]
    exact h.grows.trans (Nat.le_succ _)
  within o ho := by
    rw [hpending] at ho
    rw [hnext]
    exact ⟨(h.within o ho).1, (h.within o ho).2.trans (Nat.lt_succ_self _)⟩
  apart := by
    rw [hpending]
    exact h.apart

/-- An admitted record is deferred at the address it took. -/
theorem deferred (h : Allocated first x) {offer : PendingOffer}
    (hnext : x'.nextAddr = x.nextAddr + 1) (hpending : x'.pending = x.pending ++ [offer])
    (haddr : offer.queued.record.addr = x.nextAddr) : Allocated first x' where
  grows := by
    rw [hnext]
    exact h.grows.trans (Nat.le_succ _)
  within o ho := by
    rw [hpending] at ho
    rw [hnext]
    rcases List.mem_append.mp ho with ho | ho
    · exact ⟨(h.within o ho).1, (h.within o ho).2.trans (Nat.lt_succ_self _)⟩
    · obtain rfl := List.mem_singleton.mp ho
      rw [haddr]
      exact ⟨h.grows, Nat.lt_succ_self _⟩
  apart := by
    rw [hpending, List.map_append, List.map_singleton, haddr]
    refine List.nodup_append'.mpr ⟨h.apart, List.nodup_singleton _, fun addr hmem hlast => ?_⟩
    obtain ⟨o, ho, rfl⟩ := List.mem_map.mp hmem
    exact absurd (List.mem_singleton.mp hlast) (h.within o ho).2.ne

theorem admitSpan (h : Allocated first x) (now : AdmissionTime) (span : Span) :
    Allocated first (x.admitSpan now (.ok span)) := by
  generalize hr : x.ledger.admitSpan x.nextAddr span = r
  have hexit := x.ledger.admitSpan_exit x.nextAddr span
  rw [hr] at hexit
  simp only [Export.admitSpan, hr]
  cases hexit with
  | rejected rejection gate => exact h.passed rfl rfl
  | unnamed gate natural => exact h.deferred rfl rfl rfl
  | collapsed key standing first gate natural stands same => exact h.passed rfl rfl
  | conflict key standing first gate natural stands differs => exact h.passed rfl rfl
  | entered key gate natural absent => exact h.deferred rfl rfl rfl

theorem admitLog (h : Allocated first x) (now : AdmissionTime) (record : LogRecord) :
    Allocated first (x.admitLog now (.ok record)) := by
  simp only [Export.admitLog, AdmissionLedger.admitLogRecord]
  cases checkLogRecord record x.ledger.limits with
  | error rejection => exact h.passed rfl rfl
  | ok u => exact h.deferred rfl rfl rfl

theorem admitPoint (h : Allocated first x) (now : AdmissionTime) (stream : StreamIdentity)
    (point : MetricPoint) : Allocated first (x.admitPoint now stream (.ok point)) := by
  generalize hr : x.ledger.admitMetricPoint x.nextAddr stream point = r
  have hexit := x.ledger.admitMetricPoint_exit x.nextAddr stream point
  rw [hr] at hexit
  simp only [Export.admitPoint, hr]
  cases hexit with
  | refused outcome gate =>
    rcases AdmissionLedger.refusal_of_gatePoint gate with ⟨error, rfl⟩ | ⟨rejection, rfl⟩
    · exact h.passed rfl rfl
    · exact h.passed rfl rfl
  | collapsed first standing gate stands described same => exact h.passed rfl rfl
  | conflict first standing gate stands described differs => exact h.passed rfl rfl
  | redescribed first standing gate stands described => exact h.passed rfl rfl
  | entered gate absent => exact h.deferred rfl rfl rfl

end Allocated

/-- **An export's records are allocated apart.** -/
theorem Pipeline.allocated_admitCall {p : Pipeline} {c : ExportCall} {x : Export}
    (h : p.admitCall c = .ok x) : Allocated p.nextAddr x :=
  Pipeline.delivered_induct (A := fun _ x => Allocated p.nextAddr x)
    (fun _ _ _ hx => ⟨hx.grows, hx.within, hx.apart⟩)
    (fun _ _ now span hx => hx.admitSpan now span)
    (fun _ _ now record hx => hx.admitLog now record)
    (fun _ _ now stream point hx => hx.admitPoint now stream point)
    ⟨le_refl _, fun _ ho => (List.not_mem_nil ho).elim, List.nodup_nil⟩ h

/-! ## Serials -/

/-- The serial of an assigned id. -/
def EntityId.serial? : EntityId → Option Nat
  | span _ _ => none
  | assigned id => some id.serial

theorem EntityId.serial?_eq_some_iff {entity : EntityId} {n : Nat} :
    entity.serial? = some n ↔ ∃ id, entity = .assigned id ∧ id.serial = n := by
  cases entity with
  | span traceId spanId =>
    constructor
    · intro h; cases h
    · rintro ⟨id, hid, -⟩; cases hid
  | assigned id =>
    constructor
    · intro h; exact ⟨id, rfl, Option.some.inj h⟩
    · rintro ⟨id', hid, rfl⟩
      obtain rfl := EntityId.assigned.inj hid
      rfl

/-- What an export has deferred under a serial has one that was not given before. -/
structure Numbered (first : Nat) (x : Export) : Prop where
  grows : first ≤ x.ledger.nextSerial
  fresh : ∀ o ∈ x.pending, ∀ id, o.queued.entity = .assigned id → first < id.serial

theorem Numbered.admits {first : Nat} {x x' : Export} (h : Numbered first x) (hx : Admits x x') :
    Numbered first x' := by
  have hassigned : ∀ {offer : PendingOffer} {serial : Nat}, x.ledger.nextSerial ≤ serial →
      x'.ledger.nextSerial = serial → x'.pending = x.pending ++ [offer] →
      (∀ id, offer.queued.entity = .assigned id → x.ledger.nextSerial < id.serial) →
      Numbered first x' := by
    intro offer serial hserial hnext hpending hoffer
    refine ⟨hnext ▸ h.grows.trans hserial, fun o ho id hid => ?_⟩
    rw [hpending] at ho
    rcases List.mem_append.mp ho with ho | ho
    · exact h.fresh o ho id hid
    · obtain rfl := List.mem_singleton.mp ho
      exact Nat.lt_of_le_of_lt h.grows (hoffer id hid)
  have hnew : ∀ id, EntityId.assigned x.ledger.nextAssigned = .assigned id →
      x.ledger.nextSerial < id.serial := by
    intro id hid
    obtain rfl := EntityId.assigned.inj hid
    exact Nat.lt_succ_self _
  cases hx with
  | nothing anomalies hledger hpending =>
    exact ⟨hledger ▸ h.grows, hpending ▸ h.fresh⟩
  | interned anomalies key entity stream _ _ _ hledger hpending =>
    exact ⟨hledger ▸ h.grows, hpending ▸ h.fresh⟩
  | span now key record _ _ hledger hpending =>
    exact hassigned (le_refl _) (by rw [hledger]) hpending (fun id hid => by cases hid)
  | assigned now record _ hledger hpending =>
    exact hassigned (Nat.le_succ _) (by rw [hledger]; rfl) hpending hnew
  | point now stream point _ hledger hpending =>
    refine hassigned (Nat.le_succ _) ?_ hpending hnew
    rw [hledger]
    exact congrArg Nat.succ (x.ledger.intern_frame stream).1

theorem Numbered.chain {first : Nat} {x x' : Export} (hx : Relation.ReflTransGen Admits x x')
    (h : Numbered first x) : Numbered first x' := by
  induction hx with
  | refl => exact h
  | tail _ hstep ih => exact ih.admits hstep

/-- The undo of a refused export takes no serial back. -/
theorem Pipeline.nextSerial_undoExport (pending : List PendingOffer) (l : AdmissionLedger) :
    (undoExport pending l).nextSerial = l.nextSerial := by
  induction pending generalizing l with
  | nil => rfl
  | cons offer rest ih =>
    unfold undoExport
    cases offer.freshInternStream with
    | none => exact (ih _).trans (l.nextSerial_forget _)
    | some stream => exact (ih _).trans (l.nextSerial_forget _)

/-- What an export leaves: a signal touches nothing, and a hand-off, made or undone, leaves what its
admissions allocated. -/
theorem Pipeline.nextAddr_ingest (p : Pipeline) (x : Export) :
    (p.ingest (.ok x)).1.nextAddr = x.nextAddr := by
  unfold ingest offerExport
  dsimp only
  split <;> rfl

/-! ## The records on record -/

/-- Records that were acknowledged: identified as their kind is, and neither a serial nor an address
given twice. -/
structure Recorded (records : List Entry) (nextSerial nextAddr : Nat) : Prop where
  identified : ∀ e ∈ records, Identified e
  serials : ∀ n ∈ records.filterMap (·.1.entity.serial?), n ≤ nextSerial
  once : (records.filterMap (·.1.entity.serial?)).Nodup
  within : ∀ n ∈ records.map (·.2.addr), n < nextAddr
  apart : (records.map (·.2.addr)).Nodup

namespace Recorded

variable {records added : List Entry} {serial serial' addr addr' : Nat}

theorem nil : Recorded [] serial addr where
  identified _ he := (List.not_mem_nil he).elim
  serials _ hn := (List.not_mem_nil hn).elim
  once := List.nodup_nil
  within _ hn := (List.not_mem_nil hn).elim
  apart := List.nodup_nil

theorem grow (h : Recorded records serial addr) (hserial : serial ≤ serial')
    (haddr : addr ≤ addr') : Recorded records serial' addr' where
  identified := h.identified
  serials n hn := (h.serials n hn).trans hserial
  once := h.once
  within n hn := (h.within n hn).trans_le haddr
  apart := h.apart

/-- Records with greater serials at greater addresses join those on record. -/
theorem append (h : Recorded records serial addr) (hadded : Recorded added serial' addr')
    (hserial : serial ≤ serial') (haddr : addr ≤ addr')
    (hserials : ∀ n ∈ added.filterMap (·.1.entity.serial?), serial < n)
    (haddrs : ∀ n ∈ added.map (·.2.addr), addr ≤ n) :
    Recorded (records ++ added) serial' addr' := by
  have hgrown := h.grow hserial haddr
  refine ⟨?_, ?_, ?_, ?_, ?_⟩
  · exact fun e he => (List.mem_append.mp he).elim (hgrown.identified e) (hadded.identified e)
  · rw [List.filterMap_append]
    exact fun n hn => (List.mem_append.mp hn).elim (hgrown.serials n) (hadded.serials n)
  · rw [List.filterMap_append]
    refine List.nodup_append'.mpr ⟨h.once, hadded.once, fun n hold hnew => ?_⟩
    exact absurd (hserials n hnew) (Nat.not_lt.mpr (h.serials n hold))
  · rw [List.map_append]
    exact fun n hn => (List.mem_append.mp hn).elim (hgrown.within n) (hadded.within n)
  · rw [List.map_append]
    refine List.nodup_append'.mpr ⟨h.apart, hadded.apart, fun n hold hnew => ?_⟩
    exact absurd (h.within n hold) (Nat.not_lt.mpr (haddrs n hnew))

/-- Two records at one address are one record. -/
theorem eq_of_addr (h : Recorded records serial addr) {e f : Entry} (he : e ∈ records)
    (hf : f ∈ records) (haddr : e.2.addr = f.2.addr) : e = f :=
  List.inj_on_of_nodup_map h.apart he hf haddr

/-- Two records under one assigned id are one record. -/
theorem eq_of_assigned (h : Recorded records serial addr) {e f : Entry} (he : e ∈ records)
    (hf : f ∈ records) {id : AssignedId} (hid : e.1.entity = .assigned id)
    (hid' : f.1.entity = .assigned id) : e = f := by
  have hserial : e.1.entity.serial? = some id.serial := by rw [hid]; rfl
  have hserial' : f.1.entity.serial? = some id.serial := by rw [hid']; rfl
  have honce := List.pairwise_filterMap.mp h.once
  by_contra hne
  have : Std.Symm fun a b : Entry => ∀ n, a.1.entity.serial? = some n → ∀ m,
      b.1.entity.serial? = some m → n ≠ m :=
    ⟨fun a b hab n hn m hm => (hab m hm n hn).symm⟩
  exact honce.forall he hf hne _ hserial _ hserial' rfl

end Recorded

theorem addrs_offered (pending : List PendingOffer) :
    (Standing.offered pending).map (·.2.addr) = pending.map fun o => o.queued.record.addr := by
  rw [Standing.offered, List.map_map]
  exact List.map_congr_left fun o _ => o.queued.record.addr_resident

/-- What an export hands over is on record. -/
theorem recorded_offered {x : Export} {records : List Entry} {first : Nat}
    (hstanding : Standing x.ledger (Standing.offered x.pending ++ records))
    (hallocated : Allocated first x) :
    Recorded (Standing.offered x.pending) x.ledger.nextSerial x.nextAddr := by
  refine ⟨fun e he => hstanding.identified e (List.mem_append_left _ he), fun n hn => ?_, ?_, ?_, ?_⟩
  · obtain ⟨e, he, hserial⟩ := List.mem_filterMap.mp hn
    obtain ⟨id, hid, rfl⟩ := EntityId.serial?_eq_some_iff.mp hserial
    exact hstanding.serials e (List.mem_append_left _ he) id hid
  · have hdistinct := hstanding.distinct
    rw [List.map_append] at hdistinct
    have hoffered := hdistinct.of_append_left.filterMap (f := EntityId.serial?) fun a b n ha hb => by
      obtain ⟨id, rfl, hid⟩ := EntityId.serial?_eq_some_iff.mp ha
      obtain ⟨id', rfl, hid'⟩ := EntityId.serial?_eq_some_iff.mp hb
      obtain ⟨serial⟩ := id
      obtain ⟨serial'⟩ := id'
      obtain rfl : serial = serial' := hid.trans hid'.symm
      rfl
    rwa [List.filterMap_map] at hoffered
  · rw [addrs_offered]
    intro n hn
    obtain ⟨o, ho, rfl⟩ := List.mem_map.mp hn
    exact (hallocated.within o ho).2
  · rw [addrs_offered]
    exact hallocated.apart

/-! ## The oldest record -/

namespace InMemoryStore

/-- The oldest resident record, found by its key. -/
def oldest (s : InMemoryStore) : Option Entry :=
  s.oldestKey.bind fun key =>
    (s.spans.tagged .span ++ (s.logs.tagged .log ++ s.points.tagged .point)).find? fun e => e.1 = key

/-- Where no two residents have one entity id, it heads the merged order. -/
theorem oldest_eq_head? {s : InMemoryStore} (h : (s.merged.map (·.1.entity)).Nodup) :
    s.oldest = s.merged.head? := by
  rw [oldest, oldestKey_eq_head?]
  cases hmerged : s.merged with
  | nil => rfl
  | cons e rest =>
    have hmem : ∀ f, f ∈ s.spans.tagged .span ++ (s.logs.tagged .log ++ s.points.tagged .point) ↔
        f ∈ s.merged := fun f => s.merged_perm.mem_iff.symm
    have he : e ∈ s.merged := hmerged ▸ List.mem_cons_self
    simp only [List.head?_cons, Option.map_some, Option.bind_some]
    cases hfound : (s.spans.tagged .span ++ (s.logs.tagged .log ++ s.points.tagged .point)).find?
        fun f => f.1 = e.1 with
    | none => exact absurd (List.find?_eq_none.mp hfound e ((hmem e).mpr he)) (by simp)
    | some f =>
      have hkey : f.1 = e.1 := by simpa using List.find?_some hfound
      have hf := (hmem f).mp (List.mem_of_find?_eq_some hfound)
      exact congrArg some (List.inj_on_of_nodup_map h hf he (congrArg AdmissionKey.entity hkey))

end InMemoryStore

/-! ## The notes -/

/-- What happened to a record. -/
inductive Remark where
  | acknowledged (record : Entry)
  | refused (outcome : KeepOutcome) (record : Entry)
  | evicted (cause : EvictionCause) (record : Entry)

namespace Remark

def acknowledged? : Remark → Option Entry
  | acknowledged record => some record
  | _ => none

/-- The record that left. -/
def departed? : Remark → Option Entry
  | acknowledged _ => none
  | refused _ record => some record
  | evicted _ record => some record

def outcome? : Remark → Option KeepOutcome
  | refused outcome _ => some outcome
  | _ => none

def cause? : Remark → Option EvictionCause
  | evicted cause _ => some cause
  | _ => none

end Remark

/-- The evictions counted under a cause. -/
def Counters.evictedFor (counters : Counters) : EvictionCause → Nat
  | .recordCeiling => counters.evictedForRecordCeiling
  | .accountedBytesCeiling => counters.evictedForAccountedBytesCeiling
  | .admissionWindow => counters.evictedForAdmissionWindow

namespace Session

/-- The export an event brings. -/
def Event.call? : Event → Option ExportCall
  | ingestSpans now payload => some (.spans now payload)
  | ingestLogs now payload => some (.logs now payload)
  | ingestMetrics now payload => some (.metrics now payload)
  | _ => none

theorem admitted_eq (s : Session) (e : Event) :
    s.admitted e = e.call?.map s.pipeline.admitCall := by
  cases e <;> rfl

/-- What an event's export hands to the queue. -/
def handedOver (s : Session) (e : Event) : List Entry :=
  match s.admitted e with
  | some (.ok x) => if s.pipeline.fits x.pending then Standing.offered x.pending else []
  | _ => []

/-- What a step does to records: an export's are acknowledged, the one the pump brings may be
refused, a turn of a pass evicts the oldest one. -/
def remarks (s : Session) (e : Event) : List Remark :=
  match e with
  | .keepRecord =>
    match s.held with
    | some q =>
      match s.store.refusal q.entity q.record.resident with
      | some outcome => [.refused outcome q.entry]
      | none => []
    | none => []
  | .evictOne =>
    match s.lock.reading with
    | some now =>
      match s.store.firstViolation now with
      | some cause => s.store.oldest.toList.map (.evicted cause)
      | none => []
    | none => []
  | e => (s.handedOver e).map .acknowledged

/-- A run of the session, with its journal. -/
def journaled (s : Session) (events : List Event) : Option (Session × List Remark) :=
  Library.journaled step remarks s events

end Session

/-! ## The account -/

/-- No two residents have one entity id. -/
theorem Sound.merged_distinct {s : Session} {ending : Option Entry}
    {released : Option StreamIdentity} (h : Sound s ending released) :
    (s.store.merged.map (·.1.entity)).Nodup := by
  have hdistinct := h.standing.distinct
  rw [Session.live, List.map_append, List.map_append, List.map_append] at hdistinct
  exact hdistinct.of_append_right.of_append_right.of_append_right

/-- **What a journal says of the session it was kept up to.**  Every acknowledged record is live or
has departed, once; the store's counters count the departures; and the records are on record. -/
structure OnRecord (journal : List Remark) (s : Session) : Prop where
  conserved : (journal.filterMap Remark.acknowledged?).Perm
    (s.live ++ journal.filterMap Remark.departed?)
  evictions : ∀ cause,
    (journal.filterMap Remark.cause?).count cause = s.store.counters.evictedFor cause
  refusals : (journal.filterMap Remark.outcome?).length = s.store.counters.refusals
  recorded : Recorded (journal.filterMap Remark.acknowledged?) s.ledger.nextSerial
    s.pipeline.nextAddr
  sound : ∃ ending released, Sound s ending released

namespace OnRecord

variable {s t : Session} {journal : List Remark}

theorem new (limits : BudgetLimits) (payloadCeilingBytes queueCeilingBytes : Nat)
    (config : RetentionConfig) :
    OnRecord [] (Session.new limits payloadCeilingBytes queueCeilingBytes config) where
  conserved := by rw [Session.live_new]; exact List.Perm.nil
  evictions cause := by cases cause <;> rfl
  refusals := rfl
  recorded := .nil
  sound := ⟨none, none, .new limits payloadCeilingBytes queueCeilingBytes config⟩

/-- A step that moves records between the parties. -/
theorem frame (h : OnRecord journal s) (hsound : ∃ ending released, Sound t ending released)
    (hlive : s.live.Perm t.live) (hcounters : t.store.counters = s.store.counters)
    (hserial : s.ledger.nextSerial ≤ t.ledger.nextSerial)
    (haddr : s.pipeline.nextAddr ≤ t.pipeline.nextAddr) : OnRecord journal t where
  conserved := h.conserved.trans (hlive.append_right _)
  evictions := by rw [hcounters]; exact h.evictions
  refusals := by rw [hcounters]; exact h.refusals
  recorded := h.recorded.grow hserial haddr
  sound := hsound

/-- An export is acknowledged: its records join the live ones. -/
theorem acknowledged (h : OnRecord journal s)
    (hsound : ∃ ending released, Sound t ending released) {added : List Entry}
    (hlive : t.live.Perm (s.live ++ added)) (hstore : t.store = s.store)
    (hrecorded : Recorded (journal.filterMap Remark.acknowledged? ++ added) t.ledger.nextSerial
      t.pipeline.nextAddr) : OnRecord (journal ++ added.map .acknowledged) t := by
  have hall : ((added.map Remark.acknowledged).filterMap Remark.acknowledged?) = added := by
    rw [List.filterMap_map]
    exact List.filterMap_some
  have hnone : ∀ {β : Type} (f : Remark → Option β), (∀ e, f (.acknowledged e) = none) →
      (journal ++ added.map Remark.acknowledged).filterMap f = journal.filterMap f := by
    intro β f hf
    rw [List.filterMap_append, List.filterMap_map]
    refine (congrArg _ (List.filterMap_eq_nil_iff.mpr fun e _ => hf e)).trans (List.append_nil _)
  refine ⟨?_, fun cause => ?_, ?_, ?_, hsound⟩
  · rw [hnone Remark.departed? fun _ => rfl, List.filterMap_append, hall]
    have hswap : (s.live ++ journal.filterMap Remark.departed? ++ added).Perm
        (s.live ++ added ++ journal.filterMap Remark.departed?) := by
      rw [List.append_assoc, List.append_assoc]
      exact List.perm_append_comm.append_left _
    exact (h.conserved.append_right added).trans (hswap.trans (hlive.symm.append_right _))
  · rw [hnone Remark.cause? fun _ => rfl, hstore]
    exact h.evictions cause
  · rw [hnone Remark.outcome? fun _ => rfl, hstore]
    exact h.refusals
  · rw [List.filterMap_append, hall]
    exact hrecorded

/-- A record departs. -/
theorem departed (h : OnRecord journal s) (hsound : ∃ ending released, Sound t ending released)
    {remark : Remark} {e : Entry} (hremark : remark.departed? = some e)
    (hlive : s.live.Perm (e :: t.live))
    (hevictions : ∀ cause, t.store.counters.evictedFor cause =
      s.store.counters.evictedFor cause + (remark.cause?.toList).count cause)
    (hrefusals : t.store.counters.refusals =
      s.store.counters.refusals + remark.outcome?.toList.length)
    (hserial : t.ledger.nextSerial = s.ledger.nextSerial)
    (haddr : t.pipeline.nextAddr = s.pipeline.nextAddr) : OnRecord (journal ++ [remark]) t := by
  have hone : ∀ {β : Type} (f : Remark → Option β),
      (journal ++ [remark]).filterMap f = journal.filterMap f ++ (f remark).toList := by
    intro β f
    rw [List.filterMap_append]
    cases hf : f remark with
    | none => rw [List.filterMap_cons_none hf]; rfl
    | some b => rw [List.filterMap_cons_some hf]; rfl
  have hkept : remark.acknowledged? = none := by
    cases remark with
    | acknowledged record => cases hremark
    | _ => rfl
  refine ⟨?_, fun cause => ?_, ?_, ?_, hsound⟩
  · rw [hone, hone, hkept, hremark, Option.toList_none, List.append_nil, Option.toList_some]
    refine h.conserved.trans ((hlive.append_right _).trans ?_)
    rw [List.cons_append, ← List.append_assoc]
    exact (List.perm_append_singleton e _).symm
  · rw [hone, List.count_append, h.evictions, hevictions]
  · rw [hone, List.length_append, h.refusals, hrefusals]
  · rw [hone, hkept, Option.toList_none, List.append_nil, hserial, haddr]
    exact h.recorded

/-- An export that was handed over is on record; one that was refused has taken serials and
addresses, and nothing else. -/
theorem exported (h : OnRecord journal s) {e : Session.Event} {c : ExportCall}
    (hcall : e.call? = some c) :
    OnRecord (journal ++ (s.handedOver e).map .acknowledged)
      { s with pipeline := (s.pipeline.ingest (s.pipeline.admitCall c)).1 } := by
  have he : s.admitted e = some (s.pipeline.admitCall c) := by rw [s.admitted_eq, hcall]; rfl
  obtain ⟨ending, released, hsound⟩ := h.sound
  have hafter := hsound.exported he
  cases hadmitted : s.pipeline.admitCall c with
  | error signal =>
    rw [Session.handedOver, he, hadmitted]
    simp only [List.map_nil, List.append_nil]
    exact h
  | ok x =>
    rw [hadmitted] at he hafter
    have hnumbered : Numbered s.ledger.nextSerial x :=
      Numbered.chain (Session.admits_of_admitted he)
        ⟨le_refl _, fun _ ho => (List.not_mem_nil ho).elim⟩
    have hallocated := Pipeline.allocated_admitCall hadmitted
    have hstanding := (hsound.openExport.chain (Session.admits_of_admitted he)
      hsound.recordsBacked).standing
    have hnext := s.pipeline.nextAddr_ingest x
    by_cases hfits : s.pipeline.fits x.pending = true
    · have hover : s.handedOver e = Standing.offered x.pending := by
        rw [Session.handedOver, he]
        exact if_pos hfits
      have hingest : s.pipeline.ingest (.ok x) = ({ s.pipeline with
          nextAddr := x.nextAddr
          ledger := x.ledger
          sink := Pipeline.offerAll x.pending s.pipeline.sink }, .ok ⟨x.records⟩) := if_pos hfits
      have hitems := Pipeline.offerAll_items x.pending s.pipeline.sink
        (by simpa [Pipeline.fits] using hfits)
      rw [hingest] at hafter ⊢
      rw [hover]
      refine h.acknowledged ⟨_, _, hafter⟩ ?_ rfl ?_
      · simp only [Session.live, hitems, List.map_append, List.append_assoc, List.map_map]
        exact (List.perm_append_comm.append_left _).trans (by
          rw [List.append_assoc]
          exact List.Perm.refl _)
      · refine h.recorded.append ?_ hnumbered.grows hallocated.grows ?_ ?_
        · exact recorded_offered hstanding hallocated
        · intro n hn
          obtain ⟨f, hf, hserial⟩ := List.mem_filterMap.mp hn
          obtain ⟨o, ho, rfl⟩ := List.mem_map.mp hf
          obtain ⟨id, hid, rfl⟩ := EntityId.serial?_eq_some_iff.mp hserial
          exact hnumbered.fresh o ho id hid
        · intro n hn
          rw [addrs_offered] at hn
          obtain ⟨o, ho, rfl⟩ := List.mem_map.mp hn
          exact (hallocated.within o ho).1
    · have hover : s.handedOver e = [] := by
        rw [Session.handedOver, he]
        exact if_neg hfits
      have hingest : (s.pipeline.ingest (.ok x)).1 = { s.pipeline with
          nextAddr := x.nextAddr
          ledger := Pipeline.undoExport x.pending x.ledger } := congrArg Prod.fst (if_neg hfits)
      rw [hingest] at hafter ⊢
      rw [hover, List.map_nil, List.append_nil]
      refine h.frame ⟨_, _, hafter⟩ (List.Perm.refl _) rfl ?_ hallocated.grows
      exact hnumbered.grows.trans (Pipeline.nextSerial_undoExport x.pending x.ledger).ge

/-- A keep is refused, and the record departs, or it enters a shelf and stays live. -/
theorem kept (h : OnRecord journal s) {q : QueuedRecord} (hlock : s.lock = .free)
    (hheld : s.held = some q) :
    OnRecord (journal ++ s.remarks .keepRecord) (s.keepRecord q) := by
  obtain ⟨ending, released, hsound⟩ := h.sound
  unfold Session.remarks Session.keepRecord
  rw [hheld]
  dsimp only
  cases hrefusal : s.store.refusal q.entity q.record.resident with
  | some outcome =>
    have hrefused := @InMemoryStore.refused_of_refusal _ q.entry.1 _ _ hrefusal
    have hmerged := s.store.merged_refuse q.entity q.record.resident outcome
    have hcounters := hrefused.counters
    refine h.departed ⟨_, _, hsound.refused hlock hheld hrefusal⟩ rfl
      (Session.live_refused rfl hheld rfl hmerged) (fun cause => ?_) hrefused.refusals rfl rfl
    have hcounters : (s.store.refuse q.entity q.record.resident outcome).store.counters = _ :=
      hcounters
    rw [hcounters]
    cases cause <;> cases outcome <;> rfl
  | none =>
    rw [List.append_nil]
    obtain ⟨-, -, hcounters, -⟩ := s.store.enter_frame q.entry.1 q.record.resident
    exact h.frame ⟨_, _, hsound.entered hheld hrefusal⟩
      (Session.live_kept rfl hheld rfl (hsound.coherent.tallied.merged_enter
        (@InMemoryStore.not_holds_of_refusal _ q.entry.1.entity _ hrefusal)))
      hcounters (le_refl _) (le_refl _)

/-- A turn of a pass evicts the oldest record, and it departs. -/
theorem evicted (h : OnRecord journal s) {pass : InMemoryStore.Pass} (hhook : s.hook = [])
    (hturn : s.passTurn = some pass) :
    OnRecord (journal ++ s.remarks .evictOne)
      { s with store := pass.store, hook := pass.calls.flatMap ledgerHook } := by
  obtain ⟨ending, released, hsound⟩ := h.sound
  unfold Session.passTurn at hturn
  cases hnow : s.lock.reading with
  | none =>
    rw [hnow] at hturn
    cases hturn
  | some now =>
    rw [hnow] at hturn
    dsimp only at hturn
    obtain ⟨e, hmerged, hafter⟩ := hsound.evicted hhook hnow hturn
    obtain ⟨cause, key, r, gone, s', hcause, -, hremoves, rfl⟩ := InMemoryStore.evictOne_spec hturn
    have hcause : s.store.firstViolation now = some cause := hcause
    obtain ⟨-, -, hcounters, -⟩ := hremoves.frame
    have hremark : s.remarks .evictOne = [.evicted cause e] := by
      unfold Session.remarks
      rw [hnow]
      dsimp only
      rw [hcause, InMemoryStore.oldest_eq_head? hsound.merged_distinct, hmerged]
      rfl
    rw [hremark]
    refine h.departed ⟨_, _, hafter⟩ rfl (Session.live_evicted rfl rfl hmerged) (fun other => ?_) ?_
      rfl rfl
    · dsimp only
      rw [hcounters]
      cases s'.hook <;> cases cause <;> cases other <;> rfl
    · dsimp only
      rw [hcounters]
      cases s'.hook <;> cases cause <;> rfl

/-- **Every step keeps the account.** -/
theorem step (h : OnRecord journal s) {e : Session.Event} (hstep : s.step e = some t) :
    OnRecord (journal ++ s.remarks e) t := by
  obtain ⟨ending, released, hsound⟩ := h.sound
  have hquiet : s.remarks e = [] → s.live.Perm t.live → t.store.counters = s.store.counters →
      s.ledger.nextSerial ≤ t.ledger.nextSerial → s.pipeline.nextAddr ≤ t.pipeline.nextAddr →
      OnRecord (journal ++ s.remarks e) t := by
    intro hnone hlive hcounters hserial haddr
    rw [hnone, List.append_nil]
    exact h.frame (hsound.step hstep) hlive hcounters hserial haddr
  unfold Session.step at hstep
  cases e with
  | ingestSpans now payload => exact Option.some.inj hstep ▸ h.exported (c := .spans now payload) rfl
  | ingestLogs now payload => exact Option.some.inj hstep ▸ h.exported (c := .logs now payload) rfl
  | ingestMetrics now payload =>
    exact Option.some.inj hstep ▸ h.exported (c := .metrics now payload) rfl
  | beginDraining =>
    obtain rfl := Option.some.inj hstep
    exact hquiet rfl (List.Perm.refl _) rfl (le_refl _) (le_refl _)
  | pop =>
    dsimp only at hstep
    split at hstep
    · rename_i hidle
      obtain ⟨r, hpop, rfl⟩ := Option.map_eq_some_iff.mp hstep
      simp only [Bool.and_eq_true, Option.isNone_iff_eq_none] at hidle
      exact hquiet rfl (Session.live_popped hidle.1 hpop rfl rfl rfl) rfl (le_refl _) (le_refl _)
    · cases hstep
  | keepRecord =>
    dsimp only at hstep
    split at hstep
    · rename_i q hlock hheld
      exact Option.some.inj hstep ▸ h.kept hlock hheld
    · cases hstep
  | retentionTick now =>
    dsimp only at hstep
    split at hstep
    · obtain rfl := Option.some.inj hstep
      exact hquiet rfl (List.Perm.refl _) rfl (le_refl _) (le_refl _)
    · cases hstep
  | evictOne =>
    dsimp only at hstep
    split at hstep
    · rename_i pass hhook hturn
      exact Option.some.inj hstep ▸ h.evicted hhook hturn
    · cases hstep
  | callLedger =>
    dsimp only at hstep
    split at hstep
    · cases hstep
    · rename_i call rest hhook
      obtain rfl := Option.some.inj hstep
      refine hquiet rfl (List.Perm.refl _) rfl ?_ (le_refl _)
      cases call with
      | forget entity => exact (s.ledger.nextSerial_forget entity).ge
      | releaseStream stream => exact le_refl _
  | unlockStore =>
    dsimp only at hstep
    split at hstep
    · cases hstep
    · obtain rfl := Option.some.inj hstep
      exact hquiet rfl (List.Perm.refl _) rfl (le_refl _) (le_refl _)
    · cases hstep

/-- **Every run is on record.** -/
theorem of_journaled {limits : BudgetLimits} {payloadCeilingBytes queueCeilingBytes : Nat}
    {config : RetentionConfig} {events : List Session.Event}
    (h : (Session.new limits payloadCeilingBytes queueCeilingBytes config).journaled events =
      some (s, journal)) : OnRecord journal s :=
  journaled_invariant (I := OnRecord) (fun _ _ _ _ h hstep => h.step hstep)
    (OnRecord.new limits payloadCeilingBytes queueCeilingBytes config) h

end OnRecord

end RuntimeTrail
