import RuntimeTrail.Memory.Horizon
import RuntimeTrail.Runtime.Session
import RuntimeTrail.Sqlite.Opened

/-!
# Sessions over one file

A file-backed store outlives the process: each session opens it with a fresh
admission ledger, whose serials start at one again, over records that keep the
ids earlier sessions gave them.  `FileSession` is one such session between two
steps, and a run crosses any number of them.  Commits may fail, and records
admitted and not yet handed to the store are lost with their session.

* **one session** — an id it hands out is none it handed out before, so none of
  its own residents' (`Sparing.issued`, `Sparing.distinct`);
* **across sessions** — of what it opened, a session has left exactly what its
  retention has not reached (`Sparing.left`), however much it kept meanwhile;
* **the law** — `Spared` compares the serials of the records opened, the serials
  handed out so far and how far retention got.  Runs that keep to it never hand
  the store an assigned id it holds (`assigned_ids_spared`), and a step that does
  not hands out just such an id;
* **without it** — `not_assigned_ids_spared`: a log kept, the file reopened, and
  the next log is refused as a duplicate.
-/

namespace RuntimeTrail

open Library

/-! ## Ids on any shelf -/

namespace InMemoryStore

/-- Whether a record of any kind is resident under this id. -/
def names (s : InMemoryStore) (entity : EntityId) : Bool :=
  s.spans.contains entity || s.logs.contains entity || s.points.contains entity

theorem names_eq_true {s : InMemoryStore} {entity : EntityId} :
    s.names entity = true ↔ s.spans.contains entity = true ∨ s.logs.contains entity = true ∨
      s.points.contains entity = true := by
  simp only [names, Bool.or_eq_true, or_assoc]

/-- The ids resident are those of the residency order. -/
theorem names_iff {s : InMemoryStore} (hc : s.Tallied) {entity : EntityId} :
    s.names entity = true ↔ ∃ e ∈ s.merged, e.1.entity = entity := by
  have hshelf : ∀ {R : Type} {shelf : Shelf R} (tag : R → Resident), shelf.Indexed →
      (shelf.contains entity = true ↔ ∃ e ∈ shelf.tagged tag, e.1.entity = entity) := by
    intro R shelf tag hindexed
    rw [hindexed.contains_iff]
    simp only [Shelf.tagged, List.mem_map, exists_exists_and_eq_and]
  rw [names_eq_true, hshelf .span hc.spans, hshelf .log hc.logs, hshelf .point hc.points]
  simp only [mem_merged, or_and_right, exists_or]

/-- A record's own shelf names it, so the store does. -/
theorem names_of_holds {s : InMemoryStore} {entity : EntityId} {r : Resident}
    (h : s.holds entity r = true) : s.names entity = true := by
  cases r with
  | span record => exact names_eq_true.mpr (Or.inl h)
  | log record => exact names_eq_true.mpr (Or.inr (Or.inl h))
  | point slot => exact names_eq_true.mpr (Or.inr (Or.inr h))

/-- A keep answers duplicate only for an id that is resident. -/
theorem names_of_duplicate {s : InMemoryStore} {op : StoreOp} {key : AdmissionKey} {r : Resident}
    (hoffer : op.offer = some (key, r)) (h : (s.apply op).2.1 = .keep .duplicate) :
    s.names key.entity = true := by
  rw [apply_keep hoffer] at h
  have houtcome := StoreReply.keep.inj h
  unfold keepResident at houtcome
  cases hr : s.refusal key.entity r with
  | some outcome =>
    rw [hr] at houtcome
    have hrefused : (s.refuse key.entity r outcome).outcome = outcome := by
      unfold refuse
      split <;> rfl
    rw [hrefused.symm.trans houtcome] at hr
    exact names_of_holds (holds_of_duplicate hr)
  | none =>
    rw [hr] at houtcome
    exact absurd houtcome (by simp)

end InMemoryStore

/-! ## A session -/

/-- A record as it arrives at admission, translated. -/
inductive Arrival where
  | span (span : Span)
  | log (record : LogRecord)
  | point (identity : StreamIdentity) (point : MetricPoint)

/-- Admits one arrival to an export. -/
def Arrival.admitInto (now : AdmissionTime) (x : Export) : Arrival → Export
  | .span record => x.admitSpan now (.ok record)
  | .log record => x.admitLog now (.ok record)
  | .point identity record => x.admitPoint now identity (.ok record)

/-- Whether an arrival's admission hands out a serial: it passes its gates, and no identity of its
own names it or makes it collapse. -/
def TakesSerial (l : AdmissionLedger) (addr : Nat) : Arrival → Prop
  | .span span => checkSpan span l.limits = .ok () ∧ span.naturalIdentity = none
  | .log record => checkLogRecord record l.limits = .ok ()
  | .point identity point => l.gatePoint identity point = .ok () ∧
      l.points.getPair? (.ofInterned identity ⟨addr, point⟩) = none

/-! What an admission does to the serials. -/

/-- An admission gives the next serial to the one record it defers, or gives none and defers
nothing but a naturally named span. -/
theorem Admits.serial {x x' : Export} (h : Admits x x') :
    (x'.ledger.nextSerial = x.ledger.nextSerial + 1 ∧ ∃ offer, x'.pending = x.pending ++ [offer] ∧
      offer.queued.entity = .assigned x.ledger.nextAssigned) ∨
    (x'.ledger.nextSerial = x.ledger.nextSerial ∧ ∃ offers, x'.pending = x.pending ++ offers ∧
      ∀ offer ∈ offers, ∀ id, offer.queued.entity ≠ .assigned id) := by
  have hnone : ∀ {x' : Export}, x'.ledger.nextSerial = x.ledger.nextSerial →
      x'.pending = x.pending → (x'.ledger.nextSerial = x.ledger.nextSerial ∧
        ∃ offers, x'.pending = x.pending ++ offers ∧
          ∀ offer ∈ offers, ∀ id, offer.queued.entity ≠ .assigned id) :=
    fun hserial hpending => ⟨hserial, [], by rw [hpending, List.append_nil], by simp⟩
  cases h with
  | nothing anomalies ledger pending => exact Or.inr (hnone (by rw [ledger]) pending)
  | interned anomalies key entity stream fresh standing same ledger pending =>
    exact Or.inr (hnone (by rw [ledger]) pending)
  | span now key record natural absent ledger pending =>
    refine Or.inr ⟨by rw [ledger], _, pending, fun offer hoffer id => ?_⟩
    obtain rfl := List.mem_singleton.mp hoffer
    exact EntityId.noConfusion
  | assigned now record unnamed ledger pending =>
    exact Or.inl ⟨by rw [ledger]; rfl, _, pending, rfl⟩
  | point now stream point absent ledger pending =>
    refine Or.inl ⟨?_, _, pending, rfl⟩
    rw [ledger]
    change (x.ledger.intern stream).1.nextSerial + 1 = _
    rw [(x.ledger.intern_frame stream).1]

theorem Arrival.admits_admitInto (now : AdmissionTime) (x : Export) (arrival : Arrival) :
    Admits x (arrival.admitInto now x) := by
  cases arrival with
  | span span => exact x.admits_admitSpan now (.ok span)
  | log record => exact x.admits_admitLog now (.ok record)
  | point identity point => exact x.admits_admitPoint now identity (.ok point)

/-- **A serial is handed out exactly where the gates pass a record without an identity that
stands.** -/
theorem takesSerial_iff (now : AdmissionTime) (x : Export) (arrival : Arrival) :
    TakesSerial x.ledger x.nextAddr arrival ↔
      (arrival.admitInto now x).ledger.nextSerial = x.ledger.nextSerial + 1 := by
  cases arrival with
  | span span =>
    change _ ↔ (x.admitSpan now (.ok span)).ledger.nextSerial = _
    rw [Export.ledger_admitSpan, TakesSerial, AdmissionLedger.admitSpan]
    cases hgate : checkSpan span x.ledger.limits with
    | error rejection => simp
    | ok u =>
      cases hnatural : span.naturalIdentity with
      | none => simp [AdmissionLedger.assign]
      | some key =>
        refine ⟨fun h => absurd h.2 (by simp), fun h => ?_⟩
        dsimp only at h
        split at h
        · split at h
          · exact absurd h (by simp)
          · exact absurd h (by simp)
        · exact absurd h (by simp)
  | log record =>
    change _ ↔ (x.admitLog now (.ok record)).ledger.nextSerial = _
    rw [Export.ledger_admitLog, TakesSerial, AdmissionLedger.admitLogRecord]
    cases hgate : checkLogRecord record x.ledger.limits with
    | error rejection => simp
    | ok u => simp [AdmissionLedger.assign]
  | point identity point =>
    change _ ↔ (x.admitPoint now identity (.ok point)).ledger.nextSerial = _
    rw [Export.ledger_admitPoint, TakesSerial, AdmissionLedger.admitMetricPoint]
    have hserial := (x.ledger.intern_frame identity).1
    have hstands := x.ledger.getPair?_intern identity ⟨x.nextAddr, point⟩
    cases hgate : x.ledger.gatePoint identity point with
    | error outcome => simp
    | ok u =>
      dsimp only
      rw [AdmissionLedger.settlePoint, hstands]
      cases hpair : x.ledger.points.getPair? (.ofInterned identity ⟨x.nextAddr, point⟩) with
      | none => simp [AdmissionLedger.assign, hserial]
      | some standing =>
        refine ⟨fun h => absurd h.2 (by simp), fun h => ?_⟩
        dsimp only at h
        split at h
        · split at h
          · exact absurd (hserial.symm.trans h) (by simp)
          · exact absurd (hserial.symm.trans h) (by simp)
        · split at h
          · exact absurd (hserial.symm.trans h) (by simp)
          · exact absurd (hserial.symm.trans h) (by simp)

/-- One session over the file, between two steps. -/
structure FileSession where
  ledger : AdmissionLedger
  /-- Where the next payload is allocated. -/
  nextAddr : Nat
  /-- Admitted, and not yet handed to the store. -/
  pending : List QueuedRecord
  store : FileBackedStore
  /-- What was resident when this session opened the file. -/
  opened : List Entry
  /-- What retention has evicted in this session. -/
  evicted : List Entry

namespace FileSession

/-- The first session, over a fresh file. -/
def start (limits : BudgetLimits) (config : RetentionConfig) (hook : Bool) : FileSession where
  ledger := AdmissionLedger.new limits
  nextAddr := 0
  pending := []
  store := FileBackedStore.openFresh config hook
  opened := []
  evicted := []

/-- What can happen to a session. -/
inductive Event where
  | arrive (arrival : Arrival) (now : AdmissionTime)
  | keep (q : QueuedRecord) (succeeds : Bool)
  | discard (q : QueuedRecord)
  | enforceRetention (now : AdmissionTime) (succeeds : Bool)
  | callLedger (call : LedgerCall)
  | reopen (limits : BudgetLimits) (config : RetentionConfig) (hook succeeds : Bool)
      (addresses : Allocation)

/-- An export holding this session's ledger, and nothing else. -/
def openExport (s : FileSession) : Export := ⟨s.ledger, s.nextAddr, [], []⟩

/-- What an arrival adds to the records waiting for the store. -/
def queuedBy (s : FileSession) (arrival : Arrival) (now : AdmissionTime) : List QueuedRecord :=
  (arrival.admitInto now s.openExport).pending.map (·.queued)

/-- One step of a session, or from one session to the next. -/
def Step (codec : Codec) (decoder : RowDecoder) (s : FileSession) : Event → FileSession → Prop
  | .arrive arrival now, t =>
    t = { s with
      ledger := (arrival.admitInto now s.openExport).ledger
      nextAddr := (arrival.admitInto now s.openExport).nextAddr
      pending := s.pending ++ s.queuedBy arrival now }
  | .keep q succeeds, t => ∃ before after, s.pending = before ++ q :: after ∧
      t = { s with
        pending := before ++ after
        store := (s.store.apply codec succeeds q.keepOp).1
        evicted := s.evicted ++ s.store.memory.evictedBy q.keepOp }
  | .discard q, t => ∃ before after, s.pending = before ++ q :: after ∧
      t = { s with pending := before ++ after }
  | .enforceRetention now succeeds, t =>
    t = { s with
      store := (s.store.apply codec succeeds (.enforceRetention now)).1
      evicted := s.evicted ++ s.store.memory.evictedBy (.enforceRetention now) }
  | .callLedger call, t => t = { s with ledger := call.run s.ledger }
  | .reopen limits config hook succeeds addresses, t => ∃ rows store calls,
      openFile decoder s.store.inner.conn rows addresses config hook succeeds =
        .ok (store, calls) ∧
      t = ⟨AdmissionLedger.new limits, 0, [], store, store.memory.merged, []⟩

/-- Retention has not got this far: all it has evicted in this session comes before the record. -/
def Ahead (s : FileSession) (e : Entry) : Prop :=
  ∀ gone ∈ s.evicted, gone.Before e

/-- Retention has got as far as each record that was opened with the serial an arrival takes. -/
def Spared (s : FileSession) : Event → Prop
  | .arrive arrival _ => TakesSerial s.ledger s.nextAddr arrival →
      ∀ e ∈ s.opened, e.1.entity = .assigned s.ledger.nextAssigned → ¬ s.Ahead e
  | _ => True

/-! ## Every step -/

/-- What holds of a session's serials: those waiting are distinct and none of them is resident,
and the residents with a serial it has yet to hand out are what retention left of those opened. -/
structure Sparing (s : FileSession) : Prop where
  configured : s.store.Configured
  tallied : s.store.memory.Tallied
  issued : ∀ q ∈ s.pending, ∀ id, q.entity = .assigned id → id.serial ≤ s.ledger.nextSerial
  distinct : s.pending.Pairwise fun p q => ∀ id, p.entity = .assigned id → q.entity ≠ .assigned id
  pending_free : ∀ q ∈ s.pending, ∀ id, q.entity = .assigned id →
    s.store.memory.names q.entity = false
  left : ∀ e id, e.1.entity = .assigned id → s.ledger.nextSerial < id.serial →
    (e ∈ s.store.memory.merged ↔ e ∈ s.opened ∧ s.Ahead e)

/-- What an arrival queues: one record under the next serial, or none with a serial. -/
theorem queuedBy_cases (s : FileSession) (arrival : Arrival) (now : AdmissionTime) :
    (TakesSerial s.ledger s.nextAddr arrival ∧
      (arrival.admitInto now s.openExport).ledger.nextSerial = s.ledger.nextSerial + 1 ∧
      ∃ q, s.queuedBy arrival now = [q] ∧ q.entity = .assigned s.ledger.nextAssigned) ∨
    (¬ TakesSerial s.ledger s.nextAddr arrival ∧
      (arrival.admitInto now s.openExport).ledger.nextSerial = s.ledger.nextSerial ∧
      ∀ q ∈ s.queuedBy arrival now, ∀ id, q.entity ≠ .assigned id) := by
  have htakes := takesSerial_iff now s.openExport arrival
  rcases (arrival.admits_admitInto now s.openExport).serial with ⟨hserial, offer, hpending, hentity⟩ |
    ⟨hserial, offers, hpending, hnone⟩
  · refine Or.inl ⟨htakes.mpr hserial, hserial, offer.queued, ?_, hentity⟩
    rw [queuedBy, hpending]
    rfl
  · refine Or.inr ⟨fun h => ?_, hserial, fun q hq id => ?_⟩
    · have := (htakes.mp h).symm.trans hserial
      omega
    · rw [queuedBy, hpending] at hq
      obtain ⟨offer, hoffer, rfl⟩ := List.mem_map.mp hq
      exact hnone offer hoffer id

/-- The id an arrival is given is its session's next serial. -/
theorem queuedBy_assigned {s : FileSession} {arrival : Arrival} {now : AdmissionTime}
    {q : QueuedRecord} {id : AssignedId} (hq : q ∈ s.queuedBy arrival now)
    (hid : q.entity = .assigned id) :
    TakesSerial s.ledger s.nextAddr arrival ∧ q.entity = .assigned s.ledger.nextAssigned := by
  rcases s.queuedBy_cases arrival now with ⟨htakes, -, q', hqueued, hentity⟩ | ⟨-, -, hnone⟩
  · rw [hqueued] at hq
    obtain rfl := List.mem_singleton.mp hq
    exact ⟨htakes, hentity⟩
  · exact absurd hid (hnone q hq id)

namespace Sparing

variable {s t : FileSession}

theorem start (limits : BudgetLimits) (config : RetentionConfig) (hook : Bool) :
    (FileSession.start limits config hook).Sparing where
  configured := rfl
  tallied := (InMemoryStore.Coherent.new config hook).tallied.of_eq rfl rfl rfl rfl
  issued q hq := absurd hq (by simp [FileSession.start])
  distinct := List.Pairwise.nil
  pending_free q hq := absurd hq (by simp [FileSession.start])
  left e id _ _ := by
    have hnone : (FileBackedStore.openFresh config hook).memory.merged = [] :=
      List.length_eq_zero_iff.mp (InMemoryStore.length_merged _)
    simp [FileSession.start, hnone]

/-- **The next serial names a resident exactly where a record opened with it is one retention has
not got to.** -/
theorem names_next_iff (h : s.Sparing) :
    s.store.memory.names (.assigned s.ledger.nextAssigned) = true ↔
      ∃ e ∈ s.opened, e.1.entity = .assigned s.ledger.nextAssigned ∧ s.Ahead e := by
  have hnext : s.ledger.nextSerial < s.ledger.nextAssigned.serial := by
    simp [AdmissionLedger.nextAssigned]
  rw [InMemoryStore.names_iff h.tallied]
  constructor
  · rintro ⟨e, he, hentity⟩
    obtain ⟨hopened, hahead⟩ := (h.left e _ hentity hnext).mp he
    exact ⟨e, hopened, hentity, hahead⟩
  · rintro ⟨e, hopened, hentity, hahead⟩
    exact ⟨e, (h.left e _ hentity hnext).mpr ⟨hopened, hahead⟩, hentity⟩

theorem arrive (h : s.Sparing) {arrival : Arrival} {now : AdmissionTime}
    (hspared : s.Spared (.arrive arrival now)) :
    Sparing { s with
      ledger := (arrival.admitInto now s.openExport).ledger
      nextAddr := (arrival.admitInto now s.openExport).nextAddr
      pending := s.pending ++ s.queuedBy arrival now } := by
  have hmono : s.ledger.nextSerial ≤ (arrival.admitInto now s.openExport).ledger.nextSerial := by
    rcases s.queuedBy_cases arrival now with ⟨-, hserial, -⟩ | ⟨-, hserial, -⟩
    · omega
    · omega
  refine ⟨h.configured, h.tallied, ?_, ?_, ?_,
    fun e id hid hlt => h.left e id hid (hmono.trans_lt hlt)⟩
  · intro q hq id hid
    rcases List.mem_append.mp hq with hq | hq
    · exact (h.issued q hq id hid).trans hmono
    · rcases s.queuedBy_cases arrival now with ⟨-, hserial, q', hqueued, hentity⟩ | ⟨-, -, hnone⟩
      · rw [hqueued] at hq
        obtain rfl := List.mem_singleton.mp hq
        obtain rfl := EntityId.assigned.inj (hid.symm.trans hentity)
        exact hserial.ge
      · exact absurd hid (hnone q hq id)
  · refine List.pairwise_append.mpr ⟨h.distinct, ?_, ?_⟩
    · rcases s.queuedBy_cases arrival now with ⟨-, -, q', hqueued, -⟩ | ⟨-, -, hnone⟩
      · rw [hqueued]
        exact List.pairwise_singleton _ _
      · exact List.pairwise_of_forall_mem_list fun p hp q hq id hid => absurd hid (hnone p hp id)
    · intro p hp q hq id hpid hqid
      obtain ⟨-, hentity⟩ := queuedBy_assigned hq hqid
      obtain rfl := EntityId.assigned.inj (hqid.symm.trans hentity)
      exact absurd (h.issued p hp _ hpid) (by simp [AdmissionLedger.nextAssigned])
  · intro q hq id hid
    rcases List.mem_append.mp hq with hq | hq
    · exact h.pending_free q hq id hid
    · -- the serial is this arrival's, so a resident under it was opened with it
      obtain ⟨htakes, hentity⟩ := queuedBy_assigned hq hid
      rw [hentity]
      by_contra hnames
      obtain ⟨e, hopened, hserial, hahead⟩ := h.names_next_iff.mp (by simpa using hnames)
      exact hspared htakes e hopened hserial hahead

/-- A record that leaves those waiting. -/
theorem taken (h : s.Sparing) {before after : List QueuedRecord} {q : QueuedRecord}
    (hpending : s.pending = before ++ q :: after) :
    Sparing { s with pending := before ++ after } := by
  have hsub : (before ++ after).Sublist s.pending := by
    rw [hpending]
    exact (List.Sublist.refl before).append (List.sublist_cons_self q after)
  exact ⟨h.configured, h.tallied, fun p hp => h.issued p (hsub.subset hp), h.distinct.sublist hsub,
    fun p hp => h.pending_free p (hsub.subset hp), h.left⟩

/-- An operation that offers no record under a serial that waits, nor one of no session. -/
theorem apply (h : s.Sparing) {codec : Codec} {succeeds : Bool} {op : StoreOp}
    (hoffer : ∀ key r, op.offer = some (key, r) → ∀ id, key.entity = .assigned id →
      id.serial ≤ s.ledger.nextSerial ∧ ∀ q ∈ s.pending, q.entity ≠ .assigned id) :
    Sparing { s with
      store := (s.store.apply codec succeeds op).1
      evicted := s.evicted ++ s.store.memory.evictedBy op } := by
  obtain ⟨hmatches, -⟩ := FileBackedStore.apply_matches h.configured codec op succeeds
  have hresident : ∀ {e : Entry}, op.offer ≠ some e →
      (e ∈ (s.store.apply codec succeeds op).1.memory.merged ↔
        e ∈ s.store.memory.merged ∧ ∀ gone ∈ s.store.memory.evictedBy op, gone.Before e) :=
    fun hne => by
      rw [hmatches.memory]
      exact InMemoryStore.mem_merged_apply_iff h.tallied hne
  have htallied : (s.store.apply codec succeeds op).1.memory.Tallied := by
    rw [hmatches.memory]
    exact h.tallied.apply op
  refine ⟨hmatches.configured, htallied, h.issued, h.distinct, ?_, ?_⟩
  · intro q hq id hid
    by_contra hnames
    obtain ⟨e, he, hentity⟩ := (InMemoryStore.names_iff htallied).mp (by simpa using hnames)
    have hne : op.offer ≠ some e := fun heq =>
      (hoffer e.1 e.2 heq id (hentity.trans hid)).2 q hq hid
    have hbefore := (InMemoryStore.names_iff h.tallied).mpr ⟨e, ((hresident hne).mp he).1, hentity⟩
    rw [h.pending_free q hq id hid] at hbefore
    exact absurd hbefore (by simp)
  · intro e id hid hlt
    have hne : op.offer ≠ some e := fun heq =>
      absurd (hoffer e.1 e.2 heq id hid).1 (not_le.mpr hlt)
    rw [hresident hne, h.left e id hid hlt, and_assoc]
    refine and_congr_right fun _ => ?_
    simp only [Ahead, List.forall_mem_append]

theorem keep (h : s.Sparing) {codec : Codec} {succeeds : Bool} {before after : List QueuedRecord}
    {q : QueuedRecord} (hpending : s.pending = before ++ q :: after) :
    Sparing { s with
      pending := before ++ after
      store := (s.store.apply codec succeeds q.keepOp).1
      evicted := s.evicted ++ s.store.memory.evictedBy q.keepOp } := by
  refine (h.taken hpending).apply (s := { s with pending := before ++ after }) ?_
  intro key r hkr id hid
  rw [q.offer_keepOp] at hkr
  obtain rfl := (congrArg Prod.fst (Option.some.inj hkr)).symm
  have hdistinct := h.distinct
  rw [hpending] at hdistinct
  obtain ⟨-, hafter, hbefore⟩ := List.pairwise_append.mp hdistinct
  refine ⟨h.issued q (by rw [hpending]; simp) id hid, fun p hp hpid => ?_⟩
  rcases List.mem_append.mp hp with hp | hp
  · exact hbefore p hp q List.mem_cons_self id hpid hid
  · exact (List.pairwise_cons.mp hafter).1 p hp id hid hpid

theorem callLedger (h : s.Sparing) (call : LedgerCall) :
    Sparing { s with ledger := call.run s.ledger } := by
  have hserial : (call.run s.ledger).nextSerial = s.ledger.nextSerial := by
    cases call with
    | forget entity => exact s.ledger.nextSerial_forget entity
    | releaseStream stream => rfl
  exact ⟨h.configured, h.tallied, hserial ▸ h.issued, h.distinct, h.pending_free, hserial ▸ h.left⟩

theorem reopen {limits : BudgetLimits} {store : FileBackedStore} (htallied : store.memory.Tallied)
    (hstore : store.Configured) :
    Sparing ⟨AdmissionLedger.new limits, 0, [], store, store.memory.merged, []⟩ where
  configured := hstore
  tallied := htallied
  issued q hq := absurd hq (by simp)
  distinct := List.Pairwise.nil
  pending_free q hq := absurd hq (by simp)
  left e id _ _ := by simp [Ahead]

theorem step (h : s.Sparing) {codec : Codec} {decoder : RowDecoder} {e : Event}
    (hspared : s.Spared e) (hstep : Step codec decoder s e t) : t.Sparing := by
  cases e with
  | arrive arrival now =>
    obtain rfl := hstep
    exact h.arrive hspared
  | keep q succeeds =>
    obtain ⟨before, after, hpending, rfl⟩ := hstep
    exact h.keep hpending
  | discard q =>
    obtain ⟨before, after, hpending, rfl⟩ := hstep
    exact h.taken hpending
  | enforceRetention now succeeds =>
    obtain rfl := hstep
    exact h.apply fun key r hkr => absurd hkr (by simp [StoreOp.offer])
  | callLedger call =>
    obtain rfl := hstep
    exact h.callLedger call
  | reopen limits config hook succeeds addresses =>
    obtain ⟨rows, store, calls, hopen, rfl⟩ := hstep
    obtain ⟨htallied, hconfigured⟩ := tallied_of_openFile hopen
    exact Sparing.reopen htallied hconfigured

end Sparing

/-! ## Every run -/

/-- **Where retention stays ahead of the serials, no assigned id is refused as a duplicate.**
In a run of sessions over one file in which every admission that hands out a serial finds that
retention has got as far as each record opened with it, no record waiting for the store has an
assigned id that is resident, so its keep is not refused as a duplicate; and an arrival in a state
so reached is given a resident id exactly where retention has not got that far. -/
theorem assigned_ids_spared {codec : Codec} {decoder : RowDecoder} {limits : BudgetLimits}
    {config : RetentionConfig} {hook : Bool} {s : FileSession}
    (h : Reaches (Step codec decoder) Spared (start limits config hook) s) :
    (∀ q ∈ s.pending, ∀ id, q.entity = .assigned id → s.store.memory.names q.entity = false ∧
      ∀ succeeds, (s.store.apply codec succeeds q.keepOp).2.1 ≠ .keep .duplicate) ∧
    ∀ arrival now, ∀ q ∈ s.queuedBy arrival now, ∀ id, q.entity = .assigned id →
      (s.store.memory.names q.entity = true ↔ ¬ s.Spared (.arrive arrival now)) := by
  have hsparing : s.Sparing :=
    h.invariant (Sparing.start limits config hook) fun _ _ _ hs hok hstep => hs.step hok hstep
  refine ⟨fun q hq id hid => ⟨hsparing.pending_free q hq id hid, fun succeeds hduplicate => ?_⟩,
    fun arrival now q hq id hid => ?_⟩
  · obtain ⟨-, hreply⟩ := FileBackedStore.apply_matches hsparing.configured codec q.keepOp succeeds
    rw [hreply] at hduplicate
    have hnames := InMemoryStore.names_of_duplicate q.offer_keepOp hduplicate
    change s.store.memory.names q.entity = true at hnames
    rw [hsparing.pending_free q hq id hid] at hnames
    exact absurd hnames (by simp)
  · obtain ⟨htakes, hentity⟩ := queuedBy_assigned hq hid
    rw [hentity, hsparing.names_next_iff]
    constructor
    · rintro ⟨e, hopened, hserial, hahead⟩ hspared
      exact hspared htakes e hopened hserial hahead
    · intro hnot
      simp only [Spared, Classical.not_imp, not_forall, not_not] at hnot
      obtain ⟨-, e, hopened, hserial, hahead⟩ := hnot
      exact ⟨e, hopened, hserial, hahead⟩

/-! ## A log, and a log after a restart -/

/-- A log record of one severity text. -/
def logOf (text : String) : LogRecord := { LogRecord.bare none none with severityText := some text }

/-- A serializer of such log records. -/
def logCodec : Codec where
  span _ := none
  logRecord record := record.val.severityText
  metricPoint _ := none
  streamIdentity _ := none

/-- What reads that serializer's payloads back. -/
def logDecoder : RowDecoder where
  span _ := .error "no span"
  logRecord text := .ok (logOf text)
  metricPoint _ := .error "no point"
  streamIdentity _ := .error "no stream"

/-- A log record as a session queues it under a serial. -/
def queuedLog (serial nano : Nat) (text : String) : QueuedRecord :=
  ⟨.serial serial, ⟨nano⟩, .log ⟨serial - 1, logOf text⟩⟩

/-- The store of a first session that kept one log record. -/
def storeOfOne : FileBackedStore :=
  ((FileBackedStore.openFresh InMemoryStore.windowConfig true).apply logCodec true
    (queuedLog 1 0 "first").keepOp).1

/-- The store of a first session that kept a second one, later. -/
def storeOfTwo : FileBackedStore :=
  (storeOfOne.apply logCodec true (queuedLog 2 5 "second").keepOp).1

/-- Two logs kept and the file reopened: once the window has passed over the older, its serial is
free again, and the next log stands beside the younger. -/
theorem assigned_ids_spared_evicted : ∃ store calls,
    openFile logDecoder storeOfTwo.inner.conn (RowOrder.asEntered _) (fun _ _ => 7)
      InMemoryStore.windowConfig true true = .ok (store, calls) ∧
    store.memory.names (.serial 1) = true ∧
    (store.apply logCodec true (.enforceRetention ⟨12⟩)).1.memory.names (.serial 2) = true ∧
    ((store.apply logCodec true (.enforceRetention ⟨12⟩)).1.apply logCodec true
      (queuedLog 1 12 "third").keepOp).2.1 ≠ .keep .duplicate := by
  obtain ⟨store, calls, hopen, hone, hgone, htwo⟩ : ∃ store calls,
      openFile logDecoder storeOfTwo.inner.conn (RowOrder.asEntered _) (fun _ _ => 7)
        InMemoryStore.windowConfig true true = .ok (store, calls) ∧
      store.memory.names (.serial 1) = true ∧
      (store.apply logCodec true (.enforceRetention ⟨12⟩)).1.memory.names (.serial 1) = false ∧
      (store.apply logCodec true (.enforceRetention ⟨12⟩)).1.memory.names (.serial 2) = true :=
    ⟨_, _, rfl, rfl, rfl, rfl⟩
  obtain ⟨htallied, hconfigured⟩ := tallied_of_openFile hopen
  obtain ⟨hmatches, -⟩ :=
    FileBackedStore.apply_matches hconfigured logCodec (.enforceRetention ⟨12⟩) true
  rw [hmatches.memory] at hgone
  have hpassed : ∀ e ∈ store.memory.merged, e.1.entity = .serial 1 →
      e ∈ store.memory.evictedBy (.enforceRetention ⟨12⟩) := fun e he hentity => by
    refine (List.mem_append.mp ((InMemoryStore.order_of_apply htallied _).2.1 e he)).resolve_right
      fun hleft => ?_
    have hnames := (InMemoryStore.names_iff (htallied.apply _)).mpr ⟨e, hleft, hentity⟩
    rw [hgone] at hnames
    exact absurd hnames (by simp)
  have hreach : Reaches (Step logCodec logDecoder) Spared
      (start .default InMemoryStore.windowConfig true)
      ⟨(AdmissionLedger.new .default).assign, 1, [queuedLog 1 12 "third"],
        (store.apply logCodec true (.enforceRetention ⟨12⟩)).1, store.memory.merged,
        store.memory.evictedBy (.enforceRetention ⟨12⟩)⟩ :=
    Reaches.head (e := .arrive (.log (logOf "first")) ⟨0⟩)
      (fun _ _ h => absurd h (by simp [start])) rfl <|
    Reaches.head (e := .keep (queuedLog 1 0 "first") true) trivial ⟨[], [], rfl, rfl⟩ <|
    Reaches.head (e := .arrive (.log (logOf "second")) ⟨5⟩)
      (fun _ _ h => absurd h (by simp [start])) rfl <|
    Reaches.head (e := .keep (queuedLog 2 5 "second") true) trivial ⟨[], [], rfl, rfl⟩ <|
    Reaches.head
      (e := .reopen .default InMemoryStore.windowConfig true true fun _ _ => 7) trivial
      ⟨_, store, calls, hopen, rfl⟩ <|
    Reaches.head (e := .enforceRetention ⟨12⟩ true) trivial rfl <|
    Reaches.head (e := .arrive (.log (logOf "third")) ⟨12⟩)
      (fun _ e he hentity hahead => Entry.Before.irrefl e (hahead e (hpassed e he hentity)))
      rfl <|
    Reaches.refl _
  exact ⟨store, calls, hopen, hone, htwo,
    ((assigned_ids_spared hreach).1 _ List.mem_cons_self _ rfl).2 true⟩

/-- A log kept, its file reopened, and the next log: it is given the first one's id, and refused
as a duplicate of it. -/
theorem not_assigned_ids_spared :
    ¬ ∀ (codec : Codec) (decoder : RowDecoder) (limits : BudgetLimits) (config : RetentionConfig)
        (hook : Bool) (s : FileSession),
      Reaches (Step codec decoder) (fun _ _ => True) (start limits config hook) s →
        ∀ q ∈ s.pending, ∀ id, q.entity = .assigned id →
          (s.store.apply codec true q.keepOp).2.1 ≠ .keep .duplicate := by
  intro hclaim
  obtain ⟨store, calls, hopen, hduplicate⟩ : ∃ store calls,
      openFile logDecoder storeOfOne.inner.conn (RowOrder.asEntered _) (fun _ _ => 7)
        InMemoryStore.windowConfig true true = .ok (store, calls) ∧
      (store.apply logCodec true (queuedLog 1 0 "second").keepOp).2.1 = .keep .duplicate :=
    ⟨_, _, rfl, rfl⟩
  refine hclaim logCodec logDecoder .default InMemoryStore.windowConfig true
    ⟨(AdmissionLedger.new .default).assign, 1, [queuedLog 1 0 "second"], store,
      store.memory.merged, []⟩
    ?_ _ List.mem_cons_self _ rfl hduplicate
  exact Reaches.head (e := .arrive (.log (logOf "first")) ⟨0⟩) trivial rfl <|
    Reaches.head (e := .keep (queuedLog 1 0 "first") true) trivial ⟨[], [], rfl, rfl⟩ <|
    Reaches.head (e := .reopen .default InMemoryStore.windowConfig true true fun _ _ => 7) trivial
      ⟨_, store, calls, hopen, rfl⟩ <|
    Reaches.head (e := .arrive (.log (logOf "second")) ⟨0⟩) trivial rfl <| Reaches.refl _

end FileSession

end RuntimeTrail
