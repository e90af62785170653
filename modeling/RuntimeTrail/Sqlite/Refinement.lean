import RuntimeTrail.Memory.Coherence
import RuntimeTrail.Sqlite.Store

/-!
# The two drivers answer alike

What the file-backed store has resident is an in-memory store with a file beside
it: `Inner.view` forgets the file.  Every operation of the one is the same
operation of the other under that view, whatever the file does:

* **eviction** — `popOldest_view`, `tracks_sweep`: the two passes run in lockstep,
  the staged deliveries being the calls the memory driver makes inline;
* **delivery** — `deliver_eq`: delivering after the commit makes those calls and
  counts them as they were counted there;
* **commits** — `commit_view`: a commit, failed or not, changes nothing seen.

So two runs of the same operations answer the same, statistics and hook calls
included (`run_eq_memory`), and readers of the store find what its memory holds
(`serves_run`).
-/

namespace RuntimeTrail

open Library

namespace Inner

/-- What is resident, as the memory driver would hold it with these counters. -/
def view (i : Inner) (counters : Counters) : InMemoryStore where
  config := i.config
  windowNanos := i.windowNanos
  hook := i.hook
  spans := i.spans
  logs := i.logs
  points := i.points
  series := i.series
  identityAccountedBytes := i.identityAccountedBytes
  counters := counters
  anomalies := i.anomalies

/-- What is resident, counters included. -/
def memory (i : Inner) : InMemoryStore := i.view i.counters

/-! ## Eviction -/

theorem firstViolation_view (i : Inner) (counters : Counters) (now : AdmissionTime) :
    (i.view counters).firstViolation now = i.firstViolation now := rfl

theorem releaseStreamRef_view (i : Inner) (counters : Counters) (stream : StreamIdentity) :
    (i.view counters).releaseStreamRef stream =
      ((i.releaseStreamRef stream).1.view counters, (i.releaseStreamRef stream).2) := by
  unfold InMemoryStore.releaseStreamRef releaseStreamRef
  rw [show (i.view counters).series.get? stream = i.series.get? stream from rfl]
  cases i.series.get? stream with
  | none => rfl
  | some count =>
    dsimp only
    by_cases hlast : count - 1 = 0
    · rw [if_pos hlast, if_pos hlast]; rfl
    · rw [if_neg hlast, if_neg hlast]; rfl

theorem releaseStreamRef_frame (i : Inner) (stream : StreamIdentity) :
    (i.releaseStreamRef stream).1.conn = i.conn ∧ (i.releaseStreamRef stream).1.hook = i.hook ∧
      (i.releaseStreamRef stream).1.counters = i.counters := by
  unfold releaseStreamRef
  split
  · exact ⟨rfl, rfl, rfl⟩
  · split <;> exact ⟨rfl, rfl, rfl⟩

/-- A removal takes the same record off the same shelf in both drivers. -/
theorem popOldest_view (i : Inner) (counters : Counters) (ops : List DbOp) :
    (i.view counters).popOldest =
      (i.popOldest ops).map fun r => (r.1, r.2.1.view counters) := by
  unfold InMemoryStore.popOldest popOldest
  rw [show (i.view counters).oldestKey = i.oldestKey from rfl]
  cases i.oldestKey with
  | none => rfl
  | some oldest =>
    rw [show (i.view counters).spans = i.spans from rfl,
      show (i.view counters).logs = i.logs from rfl,
      show (i.view counters).points = i.points from rfl]
    dsimp only
    by_cases hspan : some oldest = i.spans.smallestKey
    · rw [if_pos hspan, if_pos hspan, Option.map_map]
      rfl
    · rw [if_neg hspan, if_neg hspan]
      by_cases hlog : some oldest = i.logs.smallestKey
      · rw [if_pos hlog, if_pos hlog, Option.map_map]
        rfl
      · rw [if_neg hlog, if_neg hlog]
        cases i.points.popSmallest with
        | none => rfl
        | some popped =>
          obtain ⟨⟨key, slot⟩, points⟩ := popped
          exact congrArg (fun released : InMemoryStore × Bool =>
              some ((key, if released.2 then some slot.stream else none), released.1))
            (releaseStreamRef_view { i with points := points } counters slot.stream)

theorem popOldest_frame {i i' : Inner} {ops ops' : List DbOp}
    {r : AdmissionKey × Option StreamIdentity} (h : i.popOldest ops = some (r, i', ops')) :
    i'.hook = i.hook ∧ i'.counters = i.counters := by
  unfold popOldest at h
  split at h
  · exact absurd h (by simp)
  · split at h
    · obtain ⟨_, -, heq⟩ := Option.map_eq_some_iff.mp h
      obtain ⟨-, rfl, -⟩ := heq
      exact ⟨rfl, rfl⟩
    · split at h
      · obtain ⟨_, -, heq⟩ := Option.map_eq_some_iff.mp h
        obtain ⟨-, rfl, -⟩ := heq
        exact ⟨rfl, rfl⟩
      · split at h
        · exact absurd h (by simp)
        · rename_i key slot points hpop
          obtain ⟨-, hi⟩ := Prod.mk.inj (Option.some.inj h)
          obtain ⟨rfl, -⟩ := Prod.mk.inj hi
          exact (releaseStreamRef_frame { i with points := points } slot.stream).2

/-! ## Delivery -/

/-- The counters once these deliveries are made. -/
def delivered (hook : Bool) (counters : Counters) (deliveries : List Delivery) : Counters :=
  if hook then deliveries.foldl countDelivery counters else counters

theorem deliver_eq : ∀ (deliveries : List Delivery) (i : Inner),
    i.deliver deliveries = ({ i with counters := delivered i.hook i.counters deliveries },
      if i.hook then deliveries.map Delivery.call else []) := by
  intro deliveries
  induction deliveries with
  | nil => intro i; simp only [deliver, delivered, List.foldl_nil, List.map_nil, ite_self]
  | cons delivery rest ih =>
    intro i
    cases h : i.hook with
    | false => simp [deliver, delivered, ih, h]
    | true => simp [deliver, delivered, ih, h]

/-- Counting an eviction and counting its delivery are independent. -/
theorem delivered_countEviction (hook : Bool) (cause : EvictionCause)
    (deliveries : List Delivery) (counters : Counters) :
    delivered hook (counters.countEviction cause) deliveries =
      (delivered hook counters deliveries).countEviction cause := by
  cases hook with
  | false => rfl
  | true =>
    have hone : ∀ (c : Counters) (d : Delivery),
        countDelivery (c.countEviction cause) d = (countDelivery c d).countEviction cause := by
      intro c d
      cases d <;> cases cause <;> rfl
    unfold delivered
    simp only [if_true]
    induction deliveries generalizing counters with
    | nil => rfl
    | cons d ds ih => rw [List.foldl_cons, hone, ih, List.foldl_cons]

/-- One eviction's deliveries count one call. -/
theorem delivered_evictionDeliveries (hook : Bool) (counters : Counters)
    (deliveries : List Delivery) (key : AdmissionKey) (released : Option StreamIdentity) :
    delivered hook counters (deliveries ++ evictionDeliveries key released) =
      if hook then { delivered hook counters deliveries with
        hookDeliveries := (delivered hook counters deliveries).hookDeliveries + 1 }
      else delivered hook counters deliveries := by
  cases hook with
  | false => rfl
  | true => cases released <;> simp [delivered, evictionDeliveries, List.foldl_append, countDelivery]

theorem calls_evictionDeliveries (hook : Bool) (key : AdmissionKey)
    (released : Option StreamIdentity) :
    (if hook then (evictionDeliveries key released).map Delivery.call else []) =
      InMemoryStore.evictionCalls hook key released := by
  cases hook <;> cases released <;> rfl

/-! ## The passes in lockstep -/

/-- The memory driver's pass beside this one: the same residents, the deliveries made. -/
structure Tracks (sweep : Sweep) (pass : InMemoryStore.Pass) : Prop where
  store : pass.store =
    sweep.inner.view (delivered sweep.inner.hook sweep.inner.counters sweep.deliveries)
  evicted : pass.evicted = sweep.evicted
  calls : pass.calls = if sweep.inner.hook then sweep.deliveries.map Delivery.call else []

theorem Tracks.turn {now : AdmissionTime} {sweep sweep' : Sweep} {pass : InMemoryStore.Pass}
    (h : Tracks sweep pass) (hstep : evictOne now sweep = some sweep') :
    ∃ pass', InMemoryStore.evictOne now pass = some pass' ∧ Tracks sweep' pass' := by
  unfold evictOne at hstep
  split at hstep
  · exact absurd hstep (by simp)
  · rename_i cause hcause
    split at hstep
    · exact absurd hstep (by simp)
    · rename_i key released i ops hpop
      obtain rfl := Option.some.inj hstep
      obtain ⟨hhook, hcounters⟩ := popOldest_frame hpop
      have hviolation : pass.store.firstViolation now = some cause := by
        rw [h.store, firstViolation_view, hcause]
      have hmemory : pass.store.popOldest = some ((key, released),
          i.view (delivered sweep.inner.hook sweep.inner.counters sweep.deliveries)) := by
        rw [h.store, popOldest_view _ _ sweep.ops, hpop]
        rfl
      refine ⟨_, by simp only [InMemoryStore.evictOne, hviolation, hmemory]; rfl, ?_, ?_, ?_⟩
      · change InMemoryStore.mk .. = view _ _
        simp only [view, delivered_evictionDeliveries, delivered_countEviction, hhook, hcounters]
      · change pass.evicted + 1 = sweep.evicted + 1
        rw [h.evicted]
      · change pass.calls ++ InMemoryStore.evictionCalls i.hook key released =
          if i.hook then (sweep.deliveries ++ evictionDeliveries key released).map Delivery.call
          else []
        rw [h.calls, ← calls_evictionDeliveries, hhook]
        cases sweep.inner.hook <;> simp

theorem Tracks.stop {now : AdmissionTime} {sweep : Sweep} {pass : InMemoryStore.Pass}
    (h : Tracks sweep pass) (hstep : evictOne now sweep = none) :
    InMemoryStore.evictOne now pass = none := by
  have hviolation : pass.store.firstViolation now = sweep.inner.firstViolation now := by
    rw [h.store, firstViolation_view]
  cases hcause : sweep.inner.firstViolation now with
  | none => simp only [InMemoryStore.evictOne, hviolation, hcause]
  | some cause =>
    cases hpop : sweep.inner.popOldest sweep.ops with
    | none =>
      have hmemory : pass.store.popOldest = none := by
        rw [h.store, popOldest_view _ _ sweep.ops, hpop]
        rfl
      simp only [InMemoryStore.evictOne, hviolation, hcause, hmemory]
    | some popped => simp [evictOne, hcause, hpop] at hstep

/-- **The passes run in lockstep**, whatever is already staged for the file. -/
theorem tracks_sweep (i : Inner) (now : AdmissionTime) (ops : List DbOp) :
    Tracks (i.enforceAgainst now ops []) (i.memory.enforceAgainst now) := by
  refine Loop.run_lockstep (R := Tracks) (fun _ _ h hstep => h.stop hstep)
    (fun _ _ _ h hstep => h.turn hstep) ⟨?_, rfl, ?_⟩
  · cases h : i.hook <;> simp [memory, delivered]
  · cases h : i.hook <;> simp

/-! ## Commits -/

theorem commit_view (i : Inner) (ops : List DbOp) (succeeds : Bool) (counters : Counters) :
    (i.commit ops succeeds).view counters = i.view counters ∧
      (i.commit ops succeeds).counters = i.counters ∧
      (i.commit ops succeeds).hook = i.hook ∧ (i.commit ops succeeds).config = i.config := by
  unfold commit
  split <;> exact ⟨rfl, rfl, rfl, rfl⟩

/-- Committing and then delivering: what is seen is the delivery alone. -/
theorem deliver_commit (i : Inner) (ops : List DbOp) (succeeds : Bool)
    (deliveries : List Delivery) :
    ((i.commit ops succeeds).deliver deliveries).1.memory =
        i.view (delivered i.hook i.counters deliveries) ∧
      ((i.commit ops succeeds).deliver deliveries).2 =
        (if i.hook then deliveries.map Delivery.call else []) ∧
      ((i.commit ops succeeds).deliver deliveries).1.config = i.config := by
  obtain ⟨-, hcounters, hhook, hconfig⟩ := i.commit_view ops succeeds i.counters
  rw [deliver_eq]
  refine ⟨?_, by rw [hhook], hconfig⟩
  change (i.commit ops succeeds).view (delivered (i.commit ops succeeds).hook
    (i.commit ops succeeds).counters deliveries) = _
  rw [hhook, hcounters, (i.commit_view ops succeeds _).1]

end Inner

namespace FileBackedStore

/-- The in-memory store this one is beside its file. -/
def memory (f : FileBackedStore) : InMemoryStore := f.inner.memory

/-- The two copies of the configuration agree. -/
def Configured (f : FileBackedStore) : Prop := f.config = f.inner.config

/-! ## Every operation -/

/-- What an operation of the file-backed store shows is what the memory driver shows. -/
structure Matches (f : FileBackedStore) (s : InMemoryStore) : Prop where
  memory : f.memory = s
  configured : f.Configured

/-- A keep's end: the staged pass, committed and delivered, is the memory driver's pass. -/
theorem matches_sweep {f : FileBackedStore} {i : Inner} (hconfig : f.config = i.config)
    (now : AdmissionTime) (ops : List DbOp) (succeeds : Bool) :
    let sweep := i.enforceAgainst now ops []
    let delivered := (sweep.inner.commit sweep.ops succeeds).deliver sweep.deliveries
    Matches { f with inner := delivered.1 } (i.memory.enforceAgainst now).store ∧
      sweep.evicted = (i.memory.enforceAgainst now).evicted ∧
      delivered.2 = (i.memory.enforceAgainst now).calls := by
  intro sweep delivered
  have htracks := Inner.tracks_sweep i now ops
  obtain ⟨hmemory, hcalls, hcfg⟩ :=
    Inner.deliver_commit sweep.inner sweep.ops succeeds sweep.deliveries
  have hsweep : sweep.inner.config = i.config := by
    have := congrArg InMemoryStore.config htracks.store
    have hkeep : (i.memory.enforceAgainst now).store.config = i.config :=
      (InMemoryStore.passLoop now).run_invariant
        (I := fun pass => pass.store.config = i.config) (s := ⟨i.memory, 0, []⟩)
        (fun _ _ hp hstep => by
          obtain ⟨cause, key, r, released, s', -, -, hremoves, rfl⟩ :=
            InMemoryStore.evictOne_spec hstep
          exact hremoves.frame.1.trans hp) rfl
    exact this.symm.trans hkeep
  refine ⟨⟨hmemory.trans htracks.store.symm, ?_⟩, htracks.evicted.symm,
    hcalls.trans htracks.calls.symm⟩
  exact hconfig.trans (hsweep.symm.trans hcfg.symm)

/-- A refusal's end: its counter is the memory driver's, and its report, when it owes one. -/
theorem matches_refusal {f : FileBackedStore} {i : Inner} (hconfig : f.config = i.config)
    (succeeds : Bool) (entity : EntityId) (stream : Option StreamIdentity) (outcome : KeepOutcome) :
    Matches (f.finish i outcome [] [] succeeds).store i.memory ∧
      (f.finish i outcome [] [] succeeds).calls = [] ∧
      Matches (f.finish i outcome [] [.refused entity stream] succeeds).store
        (i.memory.reportRefusal entity stream).1 ∧
      (f.finish i outcome [] [.refused entity stream] succeeds).calls =
        (i.memory.reportRefusal entity stream).2 := by
  obtain ⟨hmemory, hcalls, hcfg⟩ := Inner.deliver_commit i [] succeeds []
  obtain ⟨hmemory', hcalls', hcfg'⟩ := Inner.deliver_commit i [] succeeds [.refused entity stream]
  refine ⟨⟨hmemory.trans ?_, hconfig.trans hcfg.symm⟩, hcalls.trans (by cases i.hook <;> rfl),
    ⟨hmemory'.trans ?_, hconfig.trans hcfg'.symm⟩, hcalls'.trans ?_⟩
  · cases h : i.hook <;> simp [Inner.memory, Inner.delivered]
  · unfold InMemoryStore.reportRefusal
    cases h : i.hook with
    | false => simp [Inner.memory, Inner.delivered, Inner.view, h]
    | true => simp [Inner.memory, Inner.delivered, Inner.view, h, Inner.countDelivery]
  · unfold InMemoryStore.reportRefusal
    cases h : i.hook <;> simp [Inner.memory, Inner.view, h, Delivery.call]

/-! ## Keeps in one shape -/

end FileBackedStore

/-- Enter one record on its shelf, charging a point's stream. -/
def Inner.enter (i : Inner) (key : AdmissionKey) : Resident → Inner
  | .span record => { i with spans := i.spans.insert ⟨key.entity, key.admittedAt, record⟩ }
  | .log record => { i with logs := i.logs.insert ⟨key.entity, key.admittedAt, record⟩ }
  | .point slot =>
    chargeStream { i with points := i.points.insert ⟨key.entity, key.admittedAt, slot⟩ }
      slot.stream

theorem Inner.memory_enter (i : Inner) (key : AdmissionKey) (r : Resident) :
    (i.enter key r).memory = i.memory.enter key r := by
  cases r <;> rfl

theorem Inner.config_enter (i : Inner) (key : AdmissionKey) (r : Resident) :
    (i.enter key r).config = i.config := by
  cases r <;> rfl

namespace FileBackedStore

/-- A keep of any kind: the refusal it meets, or the entry, its staged row and the pass. -/
def keepResident (f : FileBackedStore) (key : AdmissionKey) (r : Resident) (put : List DbOp)
    (succeeds : Bool) : Kept :=
  match f.memory.refusal key.entity r with
  | some outcome =>
    f.finish { f.inner with counters := f.inner.counters.countRefusal outcome } outcome []
      (if outcome.reported then [.refused key.entity r.stream?] else []) succeeds
  | none =>
    let sweep := (f.inner.enter key r).enforceAgainst key.admittedAt put []
    f.finish sweep.inner (.kept sweep.evicted) sweep.ops sweep.deliveries succeeds

/-- The row a keep stages, when the record and its stream can be encoded. -/
def row (codec : Codec) (key : AdmissionKey) : Resident → List DbOp
  | .span record =>
    match codec.span record with
    | some payload => [.putSpan key.entity key.admittedAt.unixNano payload]
    | none => []
  | .log record =>
    match codec.logRecord record with
    | some payload => [.putLog key.entity key.admittedAt.unixNano payload]
    | none => []
  | .point slot =>
    match codec.metricPoint slot.point, codec.streamIdentity slot.stream with
    | some payload, some streamPayload =>
      [.putPoint key.entity key.admittedAt.unixNano payload streamPayload]
    | _, _ => []

theorem keepSpan_eq {f : FileBackedStore} (h : f.Configured) (codec : Codec)
    (admitted : Admitted (Arc Span)) (succeeds : Bool) :
    f.keepSpan codec admitted succeeds =
      f.keepResident ⟨admitted.admittedAt, admitted.entity⟩ (.span admitted.record)
        (row codec ⟨admitted.admittedAt, admitted.entity⟩ (.span admitted.record)) succeeds := by
  have hconfig : f.config = f.inner.config := h
  unfold keepSpan keepOnShelf refuseEarly keepResident InMemoryStore.refusal InMemoryStore.holds
  by_cases hdup : f.inner.spans.contains admitted.entity
  · simp [hdup, finishKeep, Counters.countRefusal, KeepOutcome.reported, memory, Inner.memory,
      Inner.view]
  · by_cases hsize : f.inner.config.maxAccountedBytes < accountedU64 admitted.record
    · simp [hdup, hsize, hconfig, finishKeep, Counters.countRefusal, KeepOutcome.reported,
        Resident.size, Resident.stream?, memory, Inner.memory, Inner.view]
    · -- the staged row is there when the codec writes the record
      cases hpayload : codec.span admitted.record <;>
        simp [hdup, hsize, hconfig, finishKeep, Resident.size, Resident.stream?, memory,
          Inner.memory, Inner.view, Inner.enter, row, hpayload]

theorem keepLogRecord_eq {f : FileBackedStore} (h : f.Configured) (codec : Codec)
    (admitted : Admitted (Arc LogRecord)) (succeeds : Bool) :
    f.keepLogRecord codec admitted succeeds =
      f.keepResident ⟨admitted.admittedAt, admitted.entity⟩ (.log admitted.record)
        (row codec ⟨admitted.admittedAt, admitted.entity⟩ (.log admitted.record)) succeeds := by
  have hconfig : f.config = f.inner.config := h
  unfold keepLogRecord keepOnShelf refuseEarly keepResident InMemoryStore.refusal
    InMemoryStore.holds
  by_cases hdup : f.inner.logs.contains admitted.entity
  · simp [hdup, finishKeep, Counters.countRefusal, KeepOutcome.reported, memory, Inner.memory,
      Inner.view]
  · by_cases hsize : f.inner.config.maxAccountedBytes < accountedU64 admitted.record
    · simp [hdup, hsize, hconfig, finishKeep, Counters.countRefusal, KeepOutcome.reported,
        Resident.size, Resident.stream?, memory, Inner.memory, Inner.view]
    · -- the staged row is there when the codec writes the record
      cases hpayload : codec.logRecord admitted.record <;>
        simp [hdup, hsize, hconfig, finishKeep, Resident.size, Resident.stream?, memory,
          Inner.memory, Inner.view, Inner.enter, row, hpayload]

theorem keepMetricPoint_eq {f : FileBackedStore} (h : f.Configured) (codec : Codec)
    (admitted : Admitted (Arc MetricPoint)) (stream : StreamIdentity) (succeeds : Bool) :
    f.keepMetricPoint codec admitted stream succeeds =
      f.keepResident ⟨admitted.admittedAt, admitted.entity⟩ (.point ⟨admitted.record, stream⟩)
        (row codec ⟨admitted.admittedAt, admitted.entity⟩ (.point ⟨admitted.record, stream⟩))
        succeeds := by
  have hconfig : f.config = f.inner.config := h
  have hslot : ∀ slot : PointSlot, accountedU64 slot = accountedU64 slot.point := fun _ => rfl
  unfold keepMetricPoint refuseEarly keepResident InMemoryStore.refusal InMemoryStore.holds
  by_cases hdup : f.inner.points.contains admitted.entity
  · simp [hdup, Counters.countRefusal, KeepOutcome.reported, memory, Inner.memory, Inner.view]
  · by_cases hsize : f.inner.config.maxAccountedBytes < accountedU64 admitted.record
    · simp [hdup, hsize, hconfig, Counters.countRefusal, KeepOutcome.reported, Resident.size,
        Resident.stream?, hslot, memory, Inner.memory, Inner.view]
    · by_cases hident : f.inner.config.maxAccountedBytes < accountedU64 stream
      · simp [hdup, hsize, hident, hconfig, Counters.countRefusal, KeepOutcome.reported,
          Resident.size, Resident.stream?, hslot, memory, Inner.memory, Inner.view]
      · by_cases hcap : f.inner.series.contains stream = false ∧
            f.inner.config.seriesCap ≤ f.inner.series.length
        · simp [hdup, hsize, hident, hcap.1, hcap.2, hconfig, Inner.residentStreams,
            InMemoryStore.residentStreams, Counters.countRefusal, KeepOutcome.reported,
            Resident.size, Resident.stream?, hslot, memory, Inner.memory, Inner.view]
        · cases hpayload : codec.metricPoint admitted.record <;>
            cases hstream : codec.streamIdentity stream <;>
            simp [hdup, hsize, hident, hcap, hconfig, Inner.residentStreams,
              InMemoryStore.residentStreams, Resident.size, Resident.stream?, hslot, memory,
              Inner.memory, Inner.view, Inner.enter, row, hpayload, hstream]

/-- Every keep ends as the memory driver's does. -/
theorem matches_keepResident {f : FileBackedStore} (h : f.Configured) (key : AdmissionKey)
    (r : Resident) (put : List DbOp) (succeeds : Bool) :
    Matches (f.keepResident key r put succeeds).store (f.memory.keepResident key r).store ∧
      (f.keepResident key r put succeeds).outcome = (f.memory.keepResident key r).outcome ∧
      (f.keepResident key r put succeeds).calls = (f.memory.keepResident key r).calls := by
  unfold keepResident InMemoryStore.keepResident
  cases f.memory.refusal key.entity r with
  | some outcome =>
    obtain ⟨hplain, hnone, hreported, hcalls⟩ := matches_refusal (f := f)
      (i := { f.inner with counters := f.inner.counters.countRefusal outcome }) h succeeds
      key.entity r.stream? outcome
    unfold InMemoryStore.refuse
    dsimp only
    by_cases hr : outcome.reported = true
    · rw [if_pos hr, if_pos hr]
      exact ⟨hreported, rfl, hcalls⟩
    · rw [if_neg hr, if_neg hr]
      exact ⟨hplain, rfl, hnone⟩
  | none =>
    obtain ⟨hmatches, hevicted, hcalls⟩ := matches_sweep (f := f) (i := f.inner.enter key r)
      (h.trans (f.inner.config_enter key r).symm) key.admittedAt put succeeds
    rw [Inner.memory_enter] at hmatches hevicted hcalls
    exact ⟨hmatches, congrArg KeepOutcome.kept hevicted, hcalls⟩

/-! ## Every run -/

/-- **One operation shows the same on both drivers.** -/
theorem apply_matches {f : FileBackedStore} (h : f.Configured) (codec : Codec) (op : StoreOp)
    (succeeds : Bool) :
    Matches (f.apply codec succeeds op).1 (f.memory.apply op).1 ∧
      (f.apply codec succeeds op).2 = (f.memory.apply op).2 := by
  have hkeep : ∀ {key r put},
      Matches (f.keepResident key r put succeeds).store (f.memory.keepResident key r).store ∧
        ((StoreReply.keep (f.keepResident key r put succeeds).outcome,
            (f.keepResident key r put succeeds).calls) : StoreReply × List HookCall) =
          (.keep (f.memory.keepResident key r).outcome, (f.memory.keepResident key r).calls) :=
    fun {key r put} => by
      obtain ⟨hmatches, houtcome, hcalls⟩ := matches_keepResident h key r put succeeds
      exact ⟨hmatches, by rw [houtcome, hcalls]⟩
  cases op with
  | keepSpan admitted =>
    simp only [apply, InMemoryStore.apply, keepSpan_eq h, InMemoryStore.keepSpan_eq]
    exact hkeep
  | keepLogRecord admitted =>
    simp only [apply, InMemoryStore.apply, keepLogRecord_eq h, InMemoryStore.keepLogRecord_eq]
    exact hkeep
  | keepMetricPoint admitted stream =>
    simp only [apply, InMemoryStore.apply, keepMetricPoint_eq h,
      InMemoryStore.keepMetricPoint_eq]
    exact hkeep
  | enforceRetention now =>
    obtain ⟨hmatches, hevicted, hcalls⟩ := matches_sweep (f := f) (i := f.inner) h now [] succeeds
    exact ⟨hmatches, Prod.ext (congrArg StoreReply.evicted hevicted) hcalls⟩
  | observeAdmissionAnomalies total => exact ⟨⟨rfl, h⟩, rfl⟩
  | span entity => exact ⟨⟨rfl, h⟩, rfl⟩
  | logRecord entity => exact ⟨⟨rfl, h⟩, rfl⟩
  | metricPoint entity => exact ⟨⟨rfl, h⟩, rfl⟩
  | scanSpans after limit => exact ⟨⟨rfl, h⟩, rfl⟩
  | scanLogRecords after limit => exact ⟨⟨rfl, h⟩, rfl⟩
  | scanMetricPoints after limit => exact ⟨⟨rfl, h⟩, rfl⟩
  | stats => exact ⟨⟨rfl, h⟩, rfl⟩

theorem run_matches (codec : Codec) : ∀ (ops : List (StoreOp × Bool)) {f : FileBackedStore},
    f.Configured → Matches (f.run codec ops).1 (f.memory.run (ops.map (·.1))).1 ∧
      (f.run codec ops).2 = (f.memory.run (ops.map (·.1))).2 := by
  intro ops
  induction ops with
  | nil => intro f h; exact ⟨⟨rfl, h⟩, rfl⟩
  | cons op ops ih =>
    intro f h
    obtain ⟨hmatches, hreply⟩ := apply_matches h codec op.1 op.2
    obtain ⟨hrest, hreplies⟩ := ih hmatches.configured
    rw [hmatches.memory] at hrest hreplies
    refine ⟨hrest, ?_⟩
    simp only [run, InMemoryStore.run, List.map_cons]
    rw [hreplies, hreply]

/-- **The drivers are observationally equal.**  Started empty under one configuration and wired
to hooks alike, they answer every sequence of operations with the same outcomes, batches,
statistics and hook calls, whichever commits fail and whatever the serializer cannot encode. -/
theorem run_eq_memory (codec : Codec) (config : RetentionConfig) (hook : Bool)
    (ops : List (StoreOp × Bool)) :
    ((openFresh config hook).run codec ops).2 =
        ((InMemoryStore.new config hook).run (ops.map (·.1))).2 ∧
      ((openFresh config hook).run codec ops).1.memory =
        ((InMemoryStore.new config hook).run (ops.map (·.1))).1 := by
  obtain ⟨hmatches, hreplies⟩ := run_matches codec ops (f := openFresh config hook) rfl
  exact ⟨hreplies, hmatches.memory⟩

/-! ## Reads -/

/-- What is read of the store is read of its memory. -/
theorem driver_eq (f : FileBackedStore) : f.driver = f.memory.driver := rfl

/-- **The store serves what is resident**, behind every run of a fresh one, whichever commits
failed. -/
theorem serves_run (codec : Codec) (config : RetentionConfig) (hook : Bool)
    (ops : List (StoreOp × Bool)) :
    ((openFresh config hook).run codec ops).1.driver.Serves
      ((openFresh config hook).run codec ops).1.memory.residency := by
  have hmemory : ((openFresh config hook).run codec ops).1.memory =
      ((InMemoryStore.new config hook).run (ops.map (·.1))).1 :=
    (run_matches codec ops (f := openFresh config hook) rfl).1.memory
  have hcoherent : ((openFresh config hook).run codec ops).1.memory.Coherent :=
    hmemory ▸ InMemoryStore.coherent_of_reaches
      (@InMemoryStore.reaches_run InMemoryStore.anyOp (fun _ _ => trivial) _ _)
  rw [driver_eq]
  exact hcoherent.serves

end FileBackedStore

end RuntimeTrail
