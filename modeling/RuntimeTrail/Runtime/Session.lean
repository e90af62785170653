import RuntimeTrail.Ingestion.Pipeline
import RuntimeTrail.Memory.Reports

/-!
# A running session

One pipeline, one queue, one store and the hook between the store and the ledger,
composed.  Exports run whole under the ledger lock, at any time.  The pump pops a
record, and hands it to the store under the store's lock; the retention timer
takes the same lock.  Whoever holds it evicts record by record, and the hook it
calls takes the ledger lock anew for each call, so exports run between any two of
them.

`Session.step` is one such step, and a run is any sequence of them.  With nobody
in between, the steps of a keep are the store's own keep and the ledger calls it
reports (`keep_alone`).
-/

namespace RuntimeTrail

open Library

/-! ## The hook -/

/-- What the hook asks of the ledger, one lock acquisition each. -/
inductive LedgerCall where
  | forget (entity : EntityId)
  | releaseStream (stream : StreamIdentity)

/-- The eviction hook: the store's reports end identities in the ledger. -/
def ledgerHook : HookCall → List LedgerCall
  | .evicted entity => [.forget entity]
  | .streamReleased stream => [.releaseStream stream]
  | .keepRefused entity none => [.forget entity]
  | .keepRefused entity (some stream) => [.forget entity, .releaseStream stream]

/-- One call of the releaser. -/
def LedgerCall.run (ledger : AdmissionLedger) : LedgerCall → AdmissionLedger
  | forget entity => ledger.forget entity
  | releaseStream stream => ledger.releaseStream stream

/-! ## Queued records as the store sees them -/

/-- The record as the store's residents are. -/
def StoredRecord.resident : StoredRecord → Resident
  | span record => .span record
  | log record => .log record
  | point stream record => .point ⟨record, stream⟩

/-- The queued record with the place it would take in the residency order. -/
def QueuedRecord.entry (q : QueuedRecord) : Entry := (⟨q.admittedAt, q.entity⟩, q.record.resident)

/-- The keep the pump makes of a queued record. -/
def QueuedRecord.keepOp (q : QueuedRecord) : StoreOp :=
  match q.record with
  | .span record => .keepSpan ⟨q.entity, q.admittedAt, record⟩
  | .log record => .keepLogRecord ⟨q.entity, q.admittedAt, record⟩
  | .point stream point => .keepMetricPoint ⟨q.entity, q.admittedAt, point⟩ stream

theorem QueuedRecord.offer_keepOp (q : QueuedRecord) : q.keepOp.offer = some q.entry := by
  obtain ⟨entity, admittedAt, record⟩ := q
  cases record <;> rfl

/-! ## The session -/

/-- Who holds the store's lock: the pump in a keep (with the reading its pass runs against, or
none after a refusal), or the retention timer in a tick. -/
inductive StoreLock where
  | free
  | keeping (pass : Option AdmissionTime)
  | ticking (now : AdmissionTime)
deriving DecidableEq

/-- The reading of the pass underway. -/
def StoreLock.reading : StoreLock → Option AdmissionTime
  | free => none
  | keeping pass => pass
  | ticking now => some now

/-- Whether the pump is inside the store. -/
def StoreLock.isKeeping : StoreLock → Bool
  | keeping _ => true
  | _ => false

/-- The composed runtime between two steps. -/
structure Session where
  pipeline : Pipeline
  /-- What the pump has popped and not yet handed to the store. -/
  held : Option QueuedRecord
  store : InMemoryStore
  lock : StoreLock
  /-- The ledger calls the running hook still owes. -/
  hook : List LedgerCall

namespace Session

/-- A session as it is built: everything empty, the hook wired. -/
def new (limits : BudgetLimits) (payloadCeilingBytes queueCeilingBytes : Nat)
    (config : RetentionConfig) : Session where
  pipeline := Pipeline.new limits payloadCeilingBytes queueCeilingBytes
  held := none
  store := InMemoryStore.new config true
  lock := .free
  hook := []

def ledger (s : Session) : AdmissionLedger := s.pipeline.ledger

/-- One step of one of the session's threads. -/
inductive Event where
  | ingestSpans (now : AdmissionTime) (payload : Payload (List (Except RecordRejection Span)))
  | ingestLogs (now : AdmissionTime) (payload : Payload (List (Except RecordRejection LogRecord)))
  | ingestMetrics (now : AdmissionTime) (payload : Payload (List WireMetric))
  | beginDraining
  | pop
  | keepRecord
  | retentionTick (now : AdmissionTime)
  | evictOne
  | callLedger
  | unlockStore

/-- The pump enters the store with a record: refused, or entered and its pass begun. -/
def keepRecord (s : Session) (q : QueuedRecord) : Session :=
  match s.store.refusal q.entity q.record.resident with
  | some outcome =>
    let kept := s.store.refuse q.entity q.record.resident outcome
    { s with
      held := none
      store := kept.store
      lock := .keeping none
      hook := kept.calls.flatMap ledgerHook }
  | none =>
    { s with
      held := none
      store := s.store.enter q.entry.1 q.record.resident
      lock := .keeping (some q.admittedAt) }

/-- One turn of the pass underway, if it has one left. -/
def passTurn (s : Session) : Option InMemoryStore.Pass :=
  match s.lock.reading with
  | none => none
  | some now => InMemoryStore.evictOne now ⟨s.store, 0, []⟩

/-- One step; `none` where the step is not the thread's to take. -/
def step (s : Session) : Event → Option Session
  | .ingestSpans now payload =>
    some { s with pipeline := (s.pipeline.ingestSpans now payload).1 }
  | .ingestLogs now payload => some { s with pipeline := (s.pipeline.ingestLogs now payload).1 }
  | .ingestMetrics now payload =>
    some { s with pipeline := (s.pipeline.ingestMetrics now payload).1 }
  | .beginDraining => some { s with pipeline := s.pipeline.beginDraining }
  | .pop =>
    -- the pump holds one record at a time
    if s.held.isNone && !s.lock.isKeeping then
      s.pipeline.sink.popLocked.map fun r =>
        { s with held := some r.1, pipeline := { s.pipeline with sink := r.2 } }
    else none
  | .keepRecord =>
    match s.lock, s.held with
    | .free, some q => some (s.keepRecord q)
    | _, _ => none
  | .retentionTick now =>
    match s.lock with
    | .free => some { s with lock := .ticking now }
    | _ => none
  | .evictOne =>
    -- the pass goes on when the hook it called has returned
    match s.hook, s.passTurn with
    | [], some pass => some { s with store := pass.store, hook := pass.calls.flatMap ledgerHook }
    | _, _ => none
  | .callLedger =>
    match s.hook with
    | [] => none
    | call :: rest =>
      some { s with pipeline := { s.pipeline with ledger := call.run s.ledger }, hook := rest }
  | .unlockStore =>
    match s.lock, s.hook, s.passTurn with
    | .free, _, _ => none
    | _, [], none => some { s with lock := .free }
    | _, _, _ => none

/-- One step as a relation. -/
def Step (s : Session) (e : Event) (t : Session) : Prop := s.step e = some t

/-- Any step, in any state. -/
def anyEvent (_ : Session) (_ : Event) : Prop := True

/-- A run of events, where each of them is its thread's to take. -/
def run (s : Session) : List Event → Option Session
  | [] => some s
  | e :: rest => (s.step e).bind fun t => t.run rest

theorem reaches_of_run : ∀ {events : List Event} {s t : Session}, s.run events = some t →
    Reaches Step anyEvent s t := by
  intro events
  induction events with
  | nil => intro s t h; exact Option.some.inj h ▸ Reaches.refl s
  | cons e rest ih =>
    intro s t h
    obtain ⟨u, hu, hrest⟩ := Option.bind_eq_some_iff.mp h
    exact Reaches.head trivial hu (ih hrest)

/-- Every record that is queued, held by the pump, or resident. -/
def live (s : Session) : List Entry :=
  s.pipeline.sink.items.map QueuedRecord.entry ++
    (s.held.toList.map QueuedRecord.entry ++ s.store.merged)

theorem live_new (limits : BudgetLimits) (payloadCeilingBytes queueCeilingBytes : Nat)
    (config : RetentionConfig) :
    (new limits payloadCeilingBytes queueCeilingBytes config).live = [] := by
  simp [live, new, Pipeline.new, BoundedQueue.new, InMemoryStore.merged, InMemoryStore.new,
    Shelf.tagged, Shelf.entries, Shelf.new, SortedMap.empty]

theorem length_live (s : Session) : s.live.length =
    s.pipeline.sink.items.length + s.held.toList.length + s.store.residentRecords := by
  simp only [live, List.length_append, List.length_map, InMemoryStore.length_merged]
  omega

/-! Between two steps a record changes hands: from the queue to the pump, from the pump to a shelf
or away, from a shelf away. -/

section Hands

variable {s t : Session} {q : QueuedRecord}

theorem live_popped {sink : BoundedQueue} (hheld : s.held = none)
    (hpop : s.pipeline.sink.popLocked = some (q, sink)) (hsink : t.pipeline.sink = sink)
    (hheld' : t.held = some q) (hstore : t.store = s.store) : s.live.Perm t.live := by
  simp only [live, hheld, hheld', hsink, hstore, BoundedQueue.items_of_popLocked hpop,
    Option.toList_none, List.map_nil, List.nil_append, List.map_cons, Option.toList_some]
  exact List.perm_middle.symm

theorem live_kept (hsink : t.pipeline.sink = s.pipeline.sink) (hheld : s.held = some q)
    (hheld' : t.held = none) (hmerged : t.store.merged.Perm (q.entry :: s.store.merged)) :
    s.live.Perm t.live := by
  simp only [live, hheld, hheld', hsink]
  exact hmerged.symm.append_left _

theorem live_refused (hsink : t.pipeline.sink = s.pipeline.sink) (hheld : s.held = some q)
    (hheld' : t.held = none) (hmerged : t.store.merged = s.store.merged) :
    s.live.Perm (q.entry :: t.live) := by
  simp only [live, hheld, hheld', hsink, hmerged]
  exact List.perm_middle

theorem live_evicted {e : Entry} (hsink : t.pipeline.sink = s.pipeline.sink)
    (hheld : t.held = s.held) (hmerged : s.store.merged = e :: t.store.merged) :
    s.live.Perm (e :: t.live) := by
  simp only [live, hheld, hsink, hmerged]
  rw [← List.append_assoc, ← List.append_assoc]
  exact List.perm_middle

end Hands

/-! ## What a step does -/

/-- The export an event brings, up to its hand-off. -/
def admitted (s : Session) : Event → Option (Except AdmissionSignal Export)
  | .ingestSpans now payload => some (s.pipeline.admitSpans now payload)
  | .ingestLogs now payload => some (s.pipeline.admitLogs now payload)
  | .ingestMetrics now payload => some (s.pipeline.admitMetrics now payload)
  | _ => none

theorem admits_of_admitted {s : Session} {e : Event} {x : Export}
    (h : s.admitted e = some (.ok x)) : Relation.ReflTransGen Admits s.pipeline.openExport x := by
  cases e with
  | ingestSpans now payload => exact Pipeline.admits_admitSpans (Option.some.inj h)
  | ingestLogs now payload => exact Pipeline.admits_admitLogs (Option.some.inj h)
  | ingestMetrics now payload => exact Pipeline.admits_admitMetrics (Option.some.inj h)
  | _ => exact absurd h (by simp [admitted])

/-- Everything a step can be, with its guard and what it leaves. -/
inductive Moves (s : Session) (e : Event) : Session → Prop
  | exported (admitted : Except AdmissionSignal Export) (he : s.admitted e = some admitted) :
      Moves s e { s with pipeline := (s.pipeline.ingest admitted).1 }
  | draining : Moves s e { s with pipeline := s.pipeline.beginDraining }
  | popped (q : QueuedRecord) (sink : BoundedQueue) (hheld : s.held = none)
      (hpop : s.pipeline.sink.popLocked = some (q, sink)) :
      Moves s e { s with held := some q, pipeline := { s.pipeline with sink := sink } }
  | refused (q : QueuedRecord) (outcome : KeepOutcome) (he : e = .keepRecord)
      (hlock : s.lock = .free) (hheld : s.held = some q)
      (hr : s.store.refusal q.entity q.record.resident = some outcome) :
      Moves s e { s with
        held := none
        store := (s.store.refuse q.entity q.record.resident outcome).store
        lock := .keeping none
        hook := (s.store.refuse q.entity q.record.resident outcome).calls.flatMap ledgerHook }
  | entered (q : QueuedRecord) (hlock : s.lock = .free) (hheld : s.held = some q)
      (hr : s.store.refusal q.entity q.record.resident = none) :
      Moves s e { s with
        held := none
        store := s.store.enter q.entry.1 q.record.resident
        lock := .keeping (some q.admittedAt) }
  | ticked (now : AdmissionTime) (hlock : s.lock = .free) :
      Moves s e { s with lock := .ticking now }
  | evicted (now : AdmissionTime) (pass : InMemoryStore.Pass) (he : e = .evictOne)
      (hhook : s.hook = []) (hnow : s.lock.reading = some now)
      (hturn : InMemoryStore.evictOne now ⟨s.store, 0, []⟩ = some pass) :
      Moves s e { s with store := pass.store, hook := pass.calls.flatMap ledgerHook }
  | called (call : LedgerCall) (rest : List LedgerCall) (hhook : s.hook = call :: rest) :
      Moves s e { s with
        pipeline := { s.pipeline with ledger := call.run s.ledger }, hook := rest }
  | unlocked (hhook : s.hook = []) : Moves s e { s with lock := .free }

theorem moves_of_step {s t : Session} {e : Event} (h : s.Step e t) : s.Moves e t := by
  unfold Step step at h
  cases e with
  | ingestSpans now payload => exact Option.some.inj h ▸ .exported _ rfl
  | ingestLogs now payload => exact Option.some.inj h ▸ .exported _ rfl
  | ingestMetrics now payload => exact Option.some.inj h ▸ .exported _ rfl
  | beginDraining => exact Option.some.inj h ▸ .draining
  | pop =>
    dsimp only at h
    split at h
    · rename_i hidle
      obtain ⟨r, hpop, rfl⟩ := Option.map_eq_some_iff.mp h
      simp only [Bool.and_eq_true, Option.isNone_iff_eq_none] at hidle
      exact .popped r.1 r.2 hidle.1 hpop
    · exact absurd h (by simp)
  | keepRecord =>
    dsimp only at h
    split at h
    · rename_i q hlock hheld
      obtain rfl := Option.some.inj h
      unfold keepRecord
      split
      · rename_i outcome hr
        exact .refused q outcome rfl hlock hheld hr
      · rename_i hr
        exact .entered q hlock hheld hr
    · exact absurd h (by simp)
  | retentionTick now =>
    dsimp only at h
    split at h
    · rename_i hlock
      exact Option.some.inj h ▸ .ticked now hlock
    · exact absurd h (by simp)
  | evictOne =>
    dsimp only at h
    split at h
    · rename_i pass hhook hturn
      unfold passTurn at hturn
      split at hturn
      · exact absurd hturn (by simp)
      · rename_i now hnow
        exact Option.some.inj h ▸ .evicted now pass rfl hhook hnow hturn
    · exact absurd h (by simp)
  | callLedger =>
    dsimp only at h
    split at h
    · exact absurd h (by simp)
    · rename_i call rest hhook
      exact Option.some.inj h ▸ .called call rest hhook
  | unlockStore =>
    dsimp only at h
    split at h
    · exact absurd h (by simp)
    · rename_i hhook _ _
      exact Option.some.inj h ▸ .unlocked hhook
    · exact absurd h (by simp)

/-! ## With nobody in between

The steps of a store operation are the operation itself and its hook's calls, one after the
other. -/

/-- The ledger once the hook has forwarded these reports. -/
def forward (ledger : AdmissionLedger) (calls : List HookCall) : AdmissionLedger :=
  (calls.flatMap ledgerHook).foldl LedgerCall.run ledger

theorem forward_append (ledger : AdmissionLedger) (calls calls' : List HookCall) :
    forward ledger (calls ++ calls') = forward (forward ledger calls) calls' := by
  rw [forward, List.flatMap_append, List.foldl_append]
  rfl

/-- The session with its store and its ledger moved on. -/
def settle (s : Session) (store : InMemoryStore) (ledger : AdmissionLedger) : Session :=
  { s with store := store, pipeline := { s.pipeline with ledger := ledger } }

theorem callLedger_alone : ∀ (calls : List LedgerCall) (s : Session), s.hook = calls →
    Reaches Step anyEvent s
      { s with
        pipeline := { s.pipeline with ledger := calls.foldl LedgerCall.run s.ledger }
        hook := [] } := by
  intro calls
  induction calls with
  | nil =>
    intro s hhook
    obtain ⟨pipeline, held, store, lock, hook⟩ := s
    obtain rfl : hook = [] := hhook
    exact Reaches.refl _
  | cons call rest ih =>
    intro s hhook
    refine Reaches.head (e := .callLedger) trivial ?_ (ih { s with
      pipeline := { s.pipeline with ledger := call.run s.ledger }, hook := rest } rfl)
    simp [Step, step, hhook]

/-- A turn counts and reports on top of what the pass has so far. -/
theorem evictOne_restart {now : AdmissionTime} {a a' : InMemoryStore.Pass}
    (h : InMemoryStore.evictOne now a = some a') :
    ∃ calls, a'.calls = a.calls ++ calls ∧
      InMemoryStore.evictOne now ⟨a.store, 0, []⟩ = some ⟨a'.store, 1, calls⟩ := by
  unfold InMemoryStore.evictOne at h ⊢
  split at h
  · exact absurd h (by simp)
  · rename_i cause hcause
    split at h
    · exact absurd h (by simp)
    · rename_i key released store' hpop
      obtain rfl := Option.some.inj h
      refine ⟨_, rfl, ?_⟩
      simp only [hcause, hpop, Nat.zero_add, List.nil_append]

/-- A pass runs to completion, turn by turn. -/
theorem pass_alone {s : Session} {now : AdmissionTime} (hreading : s.lock.reading = some now)
    (hhook : s.hook = []) :
    Reaches Step anyEvent s (s.settle (s.store.enforceAgainst now).store
      (forward s.ledger (s.store.enforceAgainst now).calls)) := by
  have hrun := (InMemoryStore.passLoop now).run_induct (P := fun a r => ∀ ledger,
      ∃ calls, r.calls = a.calls ++ calls ∧
        Reaches Step anyEvent (s.settle a.store ledger)
          (s.settle r.store (forward ledger calls)))
    (fun a _ ledger => ⟨[], by simp, Reaches.refl _⟩) ?_ ⟨s.store, 0, []⟩ s.ledger
  · obtain ⟨calls, hcalls, hreaches⟩ := hrun
    rw [InMemoryStore.enforceAgainst, hcalls, List.nil_append]
    exact hreaches
  · intro a a' hstep ih ledger
    obtain ⟨new, hnew, hturn⟩ := evictOne_restart hstep
    obtain ⟨calls, hcalls, hreaches⟩ := ih (forward ledger new)
    refine ⟨new ++ calls, by rw [hcalls, hnew, List.append_assoc], ?_⟩
    rw [forward_append]
    have hevict : (s.settle a.store ledger).Step .evictOne
        { s.settle a'.store ledger with hook := new.flatMap ledgerHook } := by
      have hpass : (s.settle a.store ledger).passTurn = some ⟨a'.store, 1, new⟩ := by
        have hlock : (s.settle a.store ledger).lock.reading = some now := hreading
        simp only [passTurn, hlock]
        exact hturn
      have hquiet : (s.settle a.store ledger).hook = [] := hhook
      simp only [Step, step, hquiet, hpass]
      rfl
    have hcall := callLedger_alone (new.flatMap ledgerHook)
      { s.settle a'.store ledger with hook := new.flatMap ledgerHook } rfl
    refine Reaches.head trivial hevict (Relation.ReflTransGen.trans hcall ?_)
    have hsettled : ({ s.settle a'.store ledger with
        pipeline := { (s.settle a'.store ledger).pipeline with ledger := forward ledger new }
        hook := [] } : Session) = s.settle a'.store (forward ledger new) := by
      simp only [settle, hhook]
    exact hsettled ▸ hreaches

theorem unlock_alone {s : Session} (hlock : s.lock ≠ .free) (hhook : s.hook = [])
    (hturn : s.passTurn = none) : Reaches Step anyEvent s { s with lock := .free } := by
  refine Reaches.head (e := .unlockStore) trivial ?_ (Reaches.refl _)
  cases hs : s.lock with
  | free => exact absurd hs hlock
  | _ => simp only [Step, step, hs, hhook, hturn]

/-- **A keep with nobody in between is the store's keep.**  The pump's record leaves its hand, the
store is what its own operation makes of it, and the ledger has every call the operation
reports. -/
theorem keep_alone {s : Session} {q : QueuedRecord} (hlock : s.lock = .free)
    (hhook : s.hook = []) (hheld : s.held = some q) :
    Reaches Step anyEvent s { s.settle (s.store.apply q.keepOp).1
      (forward s.ledger (s.store.apply q.keepOp).2.2) with held := none } := by
  obtain ⟨pipeline, held, store, lock, hook⟩ := s
  obtain rfl : lock = .free := hlock
  obtain rfl : hook = [] := hhook
  obtain rfl : held = some q := hheld
  rw [InMemoryStore.apply_keep q.offer_keepOp]
  refine Reaches.head (e := .keepRecord) trivial rfl ?_
  unfold keepRecord InMemoryStore.keepResident
  change Reaches Step anyEvent (match store.refusal q.entity q.record.resident with
    | some outcome => _ | none => _) _
  cases hr : store.refusal q.entity q.record.resident with
  | some outcome =>
    refine (callLedger_alone _ _ rfl).trans ?_
    exact unlock_alone (by simp) rfl rfl
  | none =>
    refine (@pass_alone _ q.admittedAt rfl rfl).trans ?_
    refine unlock_alone (StoreLock.noConfusion) rfl ?_
    have hstop := (InMemoryStore.passLoop q.admittedAt).step_run
      ⟨store.enter q.entry.1 q.record.resident, 0, []⟩
    have hidle := InMemoryStore.evictOne_eq_none_iff.mp hstop
    exact InMemoryStore.evictOne_eq_none_iff.mpr hidle

/-! ## A small session -/

/-- A window of ten nanoseconds, and room for everything else. -/
def small : Session := new BudgetLimits.default 1000 100000 ⟨10, 100000, 10, 5⟩

/-- One point of the stream "m", exported on its own. -/
def onePoint (timeUnixNano : Nat) : Payload (List WireMetric) :=
  ⟨1, .ok [⟨.ok (.bare "m" none), [.ok (.bare timeUnixNano)]⟩]⟩

/-- A point exported and kept. -/
def keepPoint (now : AdmissionTime) : List Event :=
  [.ingestMetrics now (onePoint now.unixNano), .pop, .keepRecord, .unlockStore]

/-- A tick whose pass evicts one point and retires its stream. -/
def expirePoint (now : AdmissionTime) : List Event :=
  [.retentionTick now, .evictOne, .callLedger, .callLedger, .unlockStore]

end Session

end RuntimeTrail
