import RuntimeTrail.Ingestion.Bound
import RuntimeTrail.Ingestion.Handoff
import RuntimeTrail.Runtime.Streams

/-!
# The session's memory is bounded

However long the traffic and however the threads interleave, what a session holds is
bounded by its configuration: the queue by its ceiling, the store by its ceilings and
the one record a keep's pass is making room for, the ledger by one entry for each
record that is queued, in the pump's hand or resident.

* **the store** — `Bounded`: within its ceilings, but while a keep's pass is underway;
  each step keeps it (`Bounded.step`), because a thread leaves the store only where a
  pass found nothing left to evict (`within_of_firstViolation`);
* **the ledger** — `Sound.identities_le` and `Sound.streams_le`: the live records back
  every entry, and few of them fit the queue (`length_items_le`);
* **the law** — `memory_bounded`.
-/

namespace RuntimeTrail

open Library

/-! ## The queue -/

/-- Every record is charged at least its fixed structure. -/
theorem structureFixedBytes_le (record : StoredRecord) :
    structureFixedBytes ≤ accountedSize record := by
  rw [StoredRecord.accountedSize_eq_spend]
  refine le_trans ?_ (Nat.le_add_left _ _)
  cases record with
  | span s =>
    simp only [StoredRecord.unbudgetedBytes, Span.unbudgetedBytes]
    omega
  | log r =>
    simp only [StoredRecord.unbudgetedBytes, LogRecord.unbudgetedBytes]
    omega
  | point stream p =>
    simp only [StoredRecord.unbudgetedBytes, StreamIdentity.unbudgetedBytes]
    omega

theorem length_mul_le_queuedBytes (items : List QueuedRecord) :
    items.length * structureFixedBytes ≤ queuedBytes items := by
  induction items with
  | nil => exact Nat.le_of_eq (Nat.zero_mul _)
  | cons item items ih =>
    have hitem := structureFixedBytes_le item.record
    simp only [queuedBytes, List.length_cons, List.map_cons, List.sum_cons, Nat.succ_mul] at ih ⊢
    omega

/-- A queue holds no more records than fixed structures fit its ceiling. -/
theorem BoundedQueue.length_items_le (q : BoundedQueue) :
    q.items.length ≤ q.ceilingBytes / structureFixedBytes := by
  refine (Nat.le_div_iff_mul_le (by decide)).mpr ?_
  calc q.items.length * structureFixedBytes
      ≤ queuedBytes q.items := length_mul_le_queuedBytes q.items
    _ = q.accounted := q.exact.symm
    _ ≤ q.ceilingBytes := q.bounded

theorem Pipeline.offerAll_ceilingBytes (pending : List PendingOffer) (sink : BoundedQueue) :
    (Pipeline.offerAll pending sink).ceilingBytes = sink.ceilingBytes := by
  induction pending generalizing sink with
  | nil => rfl
  | cons offer rest ih =>
    unfold Pipeline.offerAll
    split
    · rename_i sink' hok
      rw [ih, (BoundedQueue.offer_eq_ok hok).2.1]
    · exact ih sink

theorem Pipeline.ingest_ceilingBytes (p : Pipeline) (admitted : Except AdmissionSignal Export) :
    (p.ingest admitted).1.sink.ceilingBytes = p.sink.ceilingBytes := by
  unfold Pipeline.ingest
  split
  · rfl
  · unfold Pipeline.offerExport
    dsimp only
    split
    · exact Pipeline.offerAll_ceilingBytes _ _
    · rfl

/-! ## The store -/

namespace Session

/-- The record a keep's pass is making room for, counted. -/
def entering (s : Session) : Nat :=
  match s.lock with
  | .keeping (some _) => 1
  | _ => 0

/-- What a step does with the store's lock: leaves it with who has it, and the pump's hand with
it while it keeps; takes it; or gives it back, once the pass has no turn left. -/
inductive Locks (s t : Session) : Prop
  | left (hlock : t.lock = s.lock) (hheld : s.lock.isKeeping = true → t.held = s.held)
  | kept (hlock : s.lock = .free) (hheld : t.held = none)
  | ticked (hlock : s.lock = .free) (hticking : t.lock.isKeeping = false)
  | freed (hlock : t.lock = .free) (hstopped : s.passTurn = none)

theorem locks_of_step {s t : Session} {e : Event} (h : s.Step e t) : Locks s t := by
  unfold Step step at h
  cases e with
  | pop =>
    dsimp only at h
    split at h
    · rename_i hidle
      obtain ⟨r, -, rfl⟩ := Option.map_eq_some_iff.mp h
      simp only [Bool.and_eq_true, Bool.not_eq_true'] at hidle
      exact .left rfl fun hkeeping => absurd hkeeping (by simp [hidle.2])
    · exact absurd h (by simp)
  | keepRecord =>
    dsimp only at h
    split at h
    · rename_i hlock _
      obtain rfl := Option.some.inj h
      refine .kept hlock ?_
      unfold keepRecord
      split <;> rfl
    · exact absurd h (by simp)
  | retentionTick now =>
    dsimp only at h
    split at h
    · rename_i hlock
      obtain rfl := Option.some.inj h
      exact .ticked hlock rfl
    · exact absurd h (by simp)
  | unlockStore =>
    dsimp only at h
    split at h
    · exact absurd h (by simp)
    · rename_i hstopped _
      obtain rfl := Option.some.inj h
      exact .freed rfl hstopped
    · exact absurd h (by simp)
  | evictOne =>
    dsimp only at h
    split at h
    · obtain rfl := Option.some.inj h
      exact .left rfl fun _ => rfl
    · exact absurd h (by simp)
  | callLedger =>
    dsimp only at h
    split at h
    · exact absurd h (by simp)
    · obtain rfl := Option.some.inj h
      exact .left rfl fun _ => rfl
  | _ =>
    obtain rfl := Option.some.inj h
    exact .left rfl fun _ => rfl

end Session

namespace InMemoryStore

/-- A record that is not refused is within the byte ceiling on its own. -/
theorem size_le_of_refusal {s : InMemoryStore} {entity : EntityId} {r : Resident}
    (h : s.refusal entity r = none) : r.size ≤ s.config.maxAccountedBytes := by
  by_contra hlarge
  unfold refusal at h
  split at h
  · exact absurd h (by simp)
  · rw [if_pos (not_le.mp hlarge)] at h
    exact absurd h (by simp)

theorem shelfBytes_le_recordBytes {s : InMemoryStore} (h : ∀ kind, BytesExact kind s)
    (kind : RecordKind) : s.shelfBytes kind ≤ recordBytes s.merged := by
  rw [h kind, recordBytes_merged]
  cases kind <;> omega

/-- A store that violates no ceiling holds no more than its ceilings. -/
theorem within_of_firstViolation {s : InMemoryStore} {now : AdmissionTime}
    (h : s.firstViolation now = none) (hexact : ∀ kind, BytesExact kind s)
    (hfits : recordBytes s.merged ≤ u64Max) :
    s.residentRecords ≤ s.config.maxRecords ∧
      recordBytes s.merged ≤ s.config.maxAccountedBytes := by
  have hrecords := recordBytes_merged s
  have hspans : s.spans.accountedBytes = s.recordSum .span := hexact .span
  have hlogs : s.logs.accountedBytes = s.recordSum .log := hexact .log
  have hpoints : s.points.accountedBytes = s.recordSum .point := hexact .point
  have haccounted : recordBytes s.merged ≤ s.accountedBytes := by
    rw [accountedBytes, recordAccountedBytes, hspans, hlogs, hpoints]
    simp only [saturatingAdd]
    omega
  rw [firstViolation] at h
  split at h
  · exact absurd h (by simp)
  · rename_i hr
    split at h
    · exact absurd h (by simp)
    · rename_i hb
      exact ⟨not_lt.mp hr, haccounted.trans (not_lt.mp hb)⟩

end InMemoryStore

/-- The store's share of a session within its ceilings, but for the record a keep's pass is
making room for. -/
structure Bounded (config : RetentionConfig) (s : Session) : Prop where
  config_eq : s.store.config = config
  exact : ∀ kind, InMemoryStore.BytesExact kind s.store
  records : s.store.merged.length ≤ config.maxRecords + s.entering
  bytes : recordBytes s.store.merged ≤ config.maxAccountedBytes * (1 + s.entering)

namespace Bounded

variable {config : RetentionConfig} {s t : Session}

theorem new (limits : BudgetLimits) (payloadCeilingBytes queueCeilingBytes : Nat)
    (config : RetentionConfig) :
    Bounded config (Session.new limits payloadCeilingBytes queueCeilingBytes config) := by
  have hempty : (InMemoryStore.new config true).merged = [] := by
    simp [InMemoryStore.merged, InMemoryStore.new, Shelf.tagged, Shelf.entries, Shelf.new,
      SortedMap.empty]
  refine ⟨rfl, fun kind => .new kind config true, ?_, ?_⟩
  · change (InMemoryStore.new config true).merged.length ≤ _
    rw [hempty]
    exact Nat.zero_le _
  · change recordBytes (InMemoryStore.new config true).merged ≤ _
    rw [hempty]
    exact Nat.zero_le _

/-- A step that leaves what is resident alone, and takes nobody out of a keep. -/
theorem frame (h : Bounded config s) (hconfig : t.store.config = s.store.config)
    (hspans : t.store.spans = s.store.spans) (hlogs : t.store.logs = s.store.logs)
    (hpoints : t.store.points = s.store.points) (hentering : s.entering ≤ t.entering) :
    Bounded config t := by
  have hmerged : t.store.merged = s.store.merged := by
    rw [InMemoryStore.merged, InMemoryStore.merged, hspans, hlogs, hpoints]
  refine ⟨hconfig.trans h.config_eq, fun kind => (h.exact kind).of_eq hspans hlogs hpoints, ?_, ?_⟩
  · rw [hmerged]
    exact h.records.trans (Nat.add_le_add_left hentering _)
  · rw [hmerged]
    exact h.bytes.trans (Nat.mul_le_mul_left _ (Nat.add_le_add_left hentering _))

theorem entering_le (s : Session) : s.entering ≤ 1 := by
  unfold Session.entering
  split <;> omega

/-- Where a pass has no turn left, the store is within its ceilings. -/
theorem stopped (h : Bounded config s) (hceiling : 2 * config.maxAccountedBytes ≤ u64Max)
    (hstopped : s.passTurn = none) : s.store.merged.length ≤ config.maxRecords ∧
      recordBytes s.store.merged ≤ config.maxAccountedBytes := by
  have hbytes := h.bytes
  have hrecords := h.records
  unfold Session.passTurn at hstopped
  split at hstopped
  · rename_i hnone
    have hidle : s.entering = 0 := by
      unfold Session.entering
      split
      · rename_i hlock
        rw [hlock] at hnone
        exact absurd hnone (by simp [StoreLock.reading])
      · rfl
    rw [hidle] at hbytes hrecords
    exact ⟨hrecords, by simpa using hbytes⟩
  · rcases InMemoryStore.evictOne_eq_none_iff.mp hstopped with hnone | hempty
    · have hmost : config.maxAccountedBytes * (1 + s.entering) ≤ 2 * config.maxAccountedBytes := by
        rw [Nat.mul_comm]
        exact Nat.mul_le_mul_right _ (by have := entering_le s; omega)
      have hwithin := InMemoryStore.within_of_firstViolation hnone h.exact
        (hbytes.trans (hmost.trans hceiling))
      rw [← InMemoryStore.length_merged, h.config_eq] at hwithin
      exact hwithin
    · rw [show s.store.merged = [] from hempty]
      exact ⟨Nat.zero_le _, Nat.zero_le _⟩

/-- A record enters a store nobody is in: the store is over by that record at most. -/
theorem entered (h : Bounded config s) (hceiling : 2 * config.maxAccountedBytes ≤ u64Max)
    (hcoherent : s.store.Coherent) (hlock : s.lock = .free) {q : QueuedRecord}
    (hr : s.store.refusal q.entity q.record.resident = none)
    (hstore : t.store = s.store.enter q.entry.1 q.record.resident)
    (hkeeping : t.lock = .keeping (some q.admittedAt)) : Bounded config t := by
  have hidle : s.entering = 0 := by rw [Session.entering, hlock]
  have hentering : t.entering = 1 := by rw [Session.entering, hkeeping]
  have hsize := InMemoryStore.size_le_of_refusal hr
  rw [h.config_eq] at hsize
  have hfresh : s.store.holds q.entry.1.entity q.record.resident = false :=
    InMemoryStore.not_holds_of_refusal hr
  have hbytes := h.bytes
  have hrecords := h.records
  rw [hidle] at hbytes hrecords
  have hperm := hcoherent.tallied.merged_enter hfresh
  refine ⟨?_, fun kind => ?_, ?_, ?_⟩
  · rw [hstore, (s.store.enter_frame _ _).1, h.config_eq]
  · rw [hstore]
    refine (h.exact kind).enter hcoherent.tallied hfresh fun _ => ?_
    have hshelf := InMemoryStore.shelfBytes_le_recordBytes h.exact kind
    omega
  · rw [hstore, hperm.length_eq, List.length_cons, hentering]
    omega
  · rw [hstore, recordBytes_perm hperm, recordBytes_cons, hentering]
    change q.record.resident.size + _ ≤ _
    omega

/-- An eviction takes a record out. -/
theorem evicted (h : Bounded config s) {now : AdmissionTime} {pass : InMemoryStore.Pass}
    (hturn : InMemoryStore.evictOne now ⟨s.store, 0, []⟩ = some pass)
    (hstore : t.store = pass.store) (hlock : t.lock = s.lock) : Bounded config t := by
  have hentering : t.entering = s.entering := by rw [Session.entering, hlock, Session.entering]
  obtain ⟨cause, key, r, released, s', -, hmerged, hremoves, rfl⟩ :=
    InMemoryStore.evictOne_spec hturn
  have hmerged' : t.store.merged = s'.merged := by rw [hstore]; rfl
  have hrecords := h.records
  have hbytes := h.bytes
  rw [show s.store.merged = (key, r) :: s'.merged from hmerged] at hrecords hbytes
  rw [List.length_cons] at hrecords
  rw [recordBytes_cons] at hbytes
  refine ⟨?_, fun kind => ?_, ?_, ?_⟩
  · rw [hstore]
    exact hremoves.frame.1.trans h.config_eq
  · rw [hstore]
    exact ((h.exact kind).removes hremoves).of_eq rfl rfl rfl
  · rw [hmerged', hentering]
    omega
  · rw [hmerged', hentering]
    omega

/-- **Every step keeps the store within its ceilings**, but while a keep's pass is underway. -/
theorem step (h : Bounded config s) (hceiling : 2 * config.maxAccountedBytes ≤ u64Max)
    {ending : Option Entry} {released : Option StreamIdentity} (hsound : Sound s ending released)
    {e : Session.Event} (hstep : s.Step e t) : Bounded config t := by
  cases Session.moves_of_step hstep with
  | exported admitted he => exact h.frame rfl rfl rfl rfl (le_refl _)
  | draining => exact h.frame rfl rfl rfl rfl (le_refl _)
  | popped q sink hheld hpop => exact h.frame rfl rfl rfl rfl (le_refl _)
  | refused q outcome he hlock hheld hr =>
    obtain ⟨hspans, hlogs, hpoints, -, -, hconfig, -⟩ :=
      s.store.refuse_frame q.entity q.record.resident outcome
    exact h.frame hconfig hspans hlogs hpoints (by simp [Session.entering, hlock])
  | entered q hlock hheld hr => exact h.entered hceiling hsound.coherent hlock hr rfl rfl
  | ticked now hlock => exact h.frame rfl rfl rfl rfl (by simp [Session.entering, hlock])
  | evicted now pass he hhook hnow hturn => exact h.evicted hturn rfl rfl
  | called call rest hhook => exact h.frame rfl rfl rfl rfl (le_refl _)
  | unlocked hhook =>
    -- the pass has stopped: what it was making room for has its place
    cases Session.locks_of_step hstep with
    | left hlock hheld => exact h.frame rfl rfl rfl rfl (by rw [Session.entering, ← hlock]; rfl)
    | kept hlock hheld => exact h.frame rfl rfl rfl rfl (by simp [Session.entering, hlock])
    | ticked hlock hticking => exact h.frame rfl rfl rfl rfl (by simp [Session.entering, hlock])
    | freed hlock hstopped =>
      obtain ⟨hrecords, hbytes⟩ := h.stopped hceiling hstopped
      exact ⟨h.config_eq, h.exact, hrecords, by simpa [Session.entering] using hbytes⟩

end Bounded

/-! ## The ledger -/

namespace Sound

variable {s : Session} {ending : Option Entry} {released : Option StreamIdentity}

/-- A record stands as a span or as a point, never as both. -/
theorem length_entries_le (records : List Entry) :
    (records.filterMap spanEntry).length + (records.filterMap pointEntry).length ≤
      records.length := by
  induction records with
  | nil => exact Nat.le_refl _
  | cons e records ih =>
    obtain ⟨key, r⟩ := e
    cases r with
    | span record =>
      rw [List.filterMap_cons_none (show pointEntry (key, .span record) = none from rfl)]
      cases hnat : record.val.naturalIdentity with
      | none =>
        rw [List.filterMap_cons_none (by simp [spanEntry, hnat]), List.length_cons]
        omega
      | some id =>
        have hentry : spanEntry (key, .span record) = some (id, (key.entity, record)) := by
          simp [spanEntry, hnat]
        rw [List.filterMap_cons_some hentry, List.length_cons, List.length_cons]
        omega
    | log record =>
      rw [List.filterMap_cons_none (show spanEntry (key, .log record) = none from rfl),
        List.filterMap_cons_none (show pointEntry (key, .log record) = none from rfl),
        List.length_cons]
      omega
    | point slot =>
      rw [List.filterMap_cons_none (show spanEntry (key, .point slot) = none from rfl),
        List.filterMap_cons_some (show pointEntry (key, .point slot) =
          some (.ofInterned slot.stream slot.point, key.entity) from rfl),
        List.length_cons, List.length_cons]
      omega

theorem length_ending_le (ending : Option Entry) (live : List Entry) :
    (ending.toList ++ live).length ≤ live.length + 1 := by
  cases ending <;> simp

/-- The ledger's identities are one for each live record, and one for the record whose end it has
yet to hear of. -/
theorem identities_le (h : Sound s ending released) :
    s.ledger.spans.length + s.ledger.points.length ≤ s.live.length + 1 ∧
      s.ledger.assignedPoints.length ≤ s.live.length + 1 := by
  have hending := length_ending_le ending s.live
  have hspans := h.standing.spans.length_eq
  have hpoints := h.standing.points.length_eq
  have hassigned := h.standing.assignedPoints.length_eq
  have hentries := length_entries_le (ending.toList ++ s.live)
  have hserials := List.length_filterMap_le serialEntry (ending.toList ++ s.live)
  simp only [ContentMap.length]
  omega

/-- Its interned streams are told apart, and each is a live point's, or the one whose release is
on its way. -/
theorem streams_le (h : Sound s ending released) :
    s.ledger.residentStreams ≤ s.live.length + 1 := by
  have hcover : ∀ k ∈ s.ledger.streams.entries.map (·.1),
      ∃ r ∈ backing s.live released, r == k ∧ 1 = 1 := by
    intro k hk
    obtain ⟨p, hp, rfl⟩ := List.mem_map.mp hk
    obtain ⟨r, hr, hrk⟩ := h.backed p.1 (ContentMap.contains_iff.mpr ⟨p, hp, BEq.rfl⟩)
    exact ⟨r, hr, hrk, rfl⟩
  have hcount := @sum_le_of_cover _ _ (fun _ => 1) _ _ _
    (ContentMap.pairwise_fst.mp s.ledger.streams.distinct) hcover
  have hbacking : (backing s.live released).length ≤ s.live.length + 1 := by
    have hlive := List.length_filterMap_le (fun e : Entry => e.2.stream?) s.live
    rw [backing, List.length_append, streamsOf]
    cases released <;> simp <;> omega
  simp only [List.map_const', List.sum_replicate_nat, List.length_map, Nat.mul_one] at hcount
  exact hcount.trans hbacking

end Sound

/-! ## The law -/

/-- What a session holds, against what it was configured with. -/
structure Session.Within (queueCeilingBytes : Nat) (config : RetentionConfig) (s : Session) :
    Prop where
  queue : queuedBytes s.pipeline.sink.items ≤ queueCeilingBytes
  /-- One record is in the pump's hand, or being made room for. -/
  hand : s.held.toList.length + s.entering ≤ 1
  records : s.store.residentRecords ≤ config.maxRecords + s.entering
  bytes : recordBytes s.store.merged ≤ config.maxAccountedBytes * (1 + s.entering)
  series : s.store.series.length ≤ config.seriesCap
  identities : s.ledger.spans.length + s.ledger.points.length ≤
    queueCeilingBytes / structureFixedBytes + config.maxRecords + 2
  serials : s.ledger.assignedPoints.length ≤
    queueCeilingBytes / structureFixedBytes + config.maxRecords + 2
  streams : s.ledger.residentStreams ≤
    queueCeilingBytes / structureFixedBytes + config.maxRecords + 2

/-- Every step keeps the pump to one record. -/
theorem Session.held_of_keeping {s t : Session} {e : Session.Event} (h : s.Step e t)
    (hs : s.lock.isKeeping = true → s.held = none) (hkeeping : t.lock.isKeeping = true) :
    t.held = none := by
  cases Session.locks_of_step h with
  | left hlock hheld =>
    rw [hlock] at hkeeping
    exact (hheld hkeeping).trans (hs hkeeping)
  | kept hlock hheld => exact hheld
  | ticked hlock hticking => exact absurd hkeeping (by simp [hticking])
  | freed hlock hstopped => exact absurd hkeeping (by simp [hlock, StoreLock.isKeeping])

/-- A step leaves the queue's ceiling alone. -/
theorem Session.ceilingBytes_of_step {s t : Session} {e : Session.Event} (h : s.Step e t) :
    t.pipeline.sink.ceilingBytes = s.pipeline.sink.ceilingBytes := by
  cases Session.moves_of_step h with
  | exported admitted he => exact Pipeline.ingest_ceilingBytes _ _
  | popped q sink hheld hpop => exact (BoundedQueue.popLocked_frame hpop).1
  | _ => rfl

/-- **A session's memory is bounded**, whatever was sent to it and whoever ran when: the queue and
the store are within their ceilings, but for the one record in the pump's hand, and the ledger
holds no more than an entry for each record that can be live. -/
theorem memory_bounded {limits : BudgetLimits} {payloadCeilingBytes queueCeilingBytes : Nat}
    {config : RetentionConfig} {s : Session}
    (hceiling : 2 * config.maxAccountedBytes ≤ u64Max)
    (h : Reaches Session.Step Session.anyEvent
      (Session.new limits payloadCeilingBytes queueCeilingBytes config) s) :
    s.Within queueCeilingBytes config := by
  obtain ⟨⟨ending, released, hsound⟩, hbounded, hhand, hceil⟩ := h.invariant
    (I := fun s => (∃ ending released, Sound s ending released) ∧ Bounded config s ∧
      (s.lock.isKeeping = true → s.held = none) ∧
      s.pipeline.sink.ceilingBytes = queueCeilingBytes)
    ⟨⟨none, none, .new limits payloadCeilingBytes queueCeilingBytes config⟩,
      .new limits payloadCeilingBytes queueCeilingBytes config, fun _ => rfl, rfl⟩
    fun _ _ _ ⟨⟨_, _, hsound⟩, hbounded, hhand, hceil⟩ _ hstep =>
      ⟨hsound.step hstep, hbounded.step hceiling hsound hstep, Session.held_of_keeping hstep hhand,
        (Session.ceilingBytes_of_step hstep).trans hceil⟩
  have hqueue := s.pipeline.sink.length_items_le
  rw [hceil] at hqueue
  have hrecords : s.store.residentRecords ≤ config.maxRecords + s.entering := by
    rw [← InMemoryStore.length_merged]
    exact hbounded.records
  have hone : s.held.toList.length + s.entering ≤ 1 := by
    cases hlock : s.lock with
    | keeping pass =>
      rw [hhand (by rw [hlock]; rfl)]
      simpa using Bounded.entering_le s
    | _ =>
      have hidle : s.entering = 0 := by rw [Session.entering, hlock]
      rw [hidle]
      cases s.held <;> simp
  have hlive := s.length_live
  obtain ⟨hidentities, hserials⟩ := hsound.identities_le
  have hstreams := hsound.streams_le
  exact
    { queue := by
        rw [← hceil, ← s.pipeline.sink.exact]
        exact s.pipeline.sink.bounded
      hand := hone
      records := hrecords
      bytes := hbounded.bytes
      series := hbounded.config_eq ▸ hsound.coherent.seriesCap
      identities := by omega
      serials := by omega
      streams := by omega }

/-- A point expired, a second one kept, a third one just entered and a fourth one queued. -/
def Session.fourPoints : List Session.Event :=
  keepPoint ⟨0⟩ ++ expirePoint ⟨20⟩ ++ keepPoint ⟨20⟩ ++
    [.ingestMetrics ⟨25⟩ (onePoint 25), .pop, .keepRecord, .ingestMetrics ⟨28⟩ (onePoint 28)]

theorem memory_bounded_fourPoints :
    ∃ s, Session.small.run Session.fourPoints = some s ∧ s.store.residentRecords = 2 ∧
      s.pipeline.sink.items.length = 1 ∧ s.Within 100000 ⟨10, 100000, 10, 5⟩ := by
  have hruns : (Session.small.run Session.fourPoints).map (fun s =>
      (s.store.residentRecords, s.pipeline.sink.items.length)) = some (2, 1) := by decide +kernel
  obtain ⟨s, hs, hcounts⟩ := Option.map_eq_some_iff.mp hruns
  obtain ⟨hrecords, hqueued⟩ := Prod.mk.inj hcounts
  exact ⟨s, hs, hrecords, hqueued, memory_bounded (by decide) (Session.reaches_of_run hs)⟩

end RuntimeTrail
