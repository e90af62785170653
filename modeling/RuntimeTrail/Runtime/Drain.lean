import RuntimeTrail.Ingestion.Handoff
import RuntimeTrail.Library.Threads
import RuntimeTrail.Runtime.Session

/-!
# The runtime's threads

What serves a session beside each other: the handlers, one for each export, the
pump that hands what they queue to the store, the retention timer, and the calls
that shut the session down.  `Serving.step` is the next step of one of them,
`Serving.Stepped` what it does, and a run is any sequence of such steps.

A handler tests the gates without a lock.  It admits under the ledger's lock, and
holds it while it hands its records over, one lock of the queue for each.  A keep
holds the store's lock until its hook has made the ledger calls it owes.  A
shutdown takes the workers, begins the drain, waits for the pump, and only then
reads what is left in the queue; a call that finds no workers reads it at once.
-/

namespace RuntimeTrail

open Library

/-- How long after a shutdown begins the pump may keep what is queued: five seconds. -/
def drainDeadlineNanos : Nat := 5000000000

/-! ## Counters -/

/-- The pump's outcome counters. -/
structure PumpCounters where
  kept : Nat
  evictedOnKeep : Nat
  duplicates : Nat
  oversizedRefusals : Nat
  seriesCapRefusals : Nat
  identityOverCeilingRefusals : Nat
  /-- Outcomes without a name of their own; there is none. -/
  unknownOutcomes : Nat
  droppedOnDrain : Nat
deriving DecidableEq

/-- What a shutdown reports: the counters, and the refused keeps whose identities the hook
ended. -/
structure RunSummary where
  counters : PumpCounters
  refusedForwards : Nat
deriving DecidableEq

namespace PumpCounters

def default : PumpCounters := ⟨0, 0, 0, 0, 0, 0, 0, 0⟩

/-- Counts one keep outcome, by name. -/
def observe (c : PumpCounters) : KeepOutcome → PumpCounters
  | .kept evicted => { c with kept := c.kept + 1, evictedOnKeep := c.evictedOnKeep + evicted }
  | .duplicate => { c with duplicates := c.duplicates + 1 }
  | .oversized => { c with oversizedRefusals := c.oversizedRefusals + 1 }
  | .seriesCapReached => { c with seriesCapRefusals := c.seriesCapRefusals + 1 }
  | .identityOverCeiling _ _ =>
    { c with identityOverCeilingRefusals := c.identityOverCeilingRefusals + 1 }

/-- Counts the records a shutdown found left in the queue. -/
def drop (c : PumpCounters) (dropped : Nat) : PumpCounters :=
  { c with droppedOnDrain := c.droppedOnDrain + dropped }

end PumpCounters

/-- Whether a call of the hook reports a refused keep. -/
def HookCall.isRefusal : HookCall → Bool
  | .keepRefused _ _ => true
  | _ => false

/-! ## The threads' stages -/

/-- Where a handler stands with its export. -/
inductive HandlerStage where
  | arrived
  /-- Past both gates, and not yet at the ledger. -/
  | gated
  /-- Holding the ledger, with these records still to hand over. -/
  | offering (rest : List PendingOffer) (records : List RecordOutcome)
  | returned (result : Except AdmissionSignal ExportOutcome)

/-- One export's handler, and what it has handed to the queue. -/
structure Handler where
  call : ExportCall
  stage : HandlerStage
  offered : List QueuedRecord

/-- Where the pump stands in its loop. -/
inductive PumpStage where
  /-- Leading an iteration: the drain state is read first. -/
  | leading
  | polling
  | draining (deadline : Nat)
  | popped (q : QueuedRecord)
  /-- Inside the store, with an outcome, and the refusals its hook reports. -/
  | keeping (q : QueuedRecord) (outcome : KeepOutcome) (forwards : Nat)
  | observing (q : QueuedRecord) (outcome : KeepOutcome)
  | exited

/-- The record the pump has popped and not yet counted. -/
def PumpStage.held : PumpStage → Option QueuedRecord
  | .popped q => some q
  | .keeping q _ _ => some q
  | .observing q _ => some q
  | _ => none

def PumpStage.hasExited : PumpStage → Bool
  | .exited => true
  | _ => false

theorem PumpStage.eq_exited_of_hasExited {stage : PumpStage} (h : stage.hasExited = true) :
    stage = .exited := by
  cases stage with
  | exited => rfl
  | _ => exact absurd h Bool.false_ne_true

def PumpStage.isKeeping : PumpStage → Bool
  | .keeping _ _ _ => true
  | _ => false

/-- Where a call of `shutdown` stands; from its read on, with the records it found in the queue. -/
inductive ShutdownStage where
  | called
  | draining (deadline : Nat)
  | anchoring (deadline : Nat)
  | joining
  | reading
  | adding (left : List QueuedRecord)
  | reporting (left : List QueuedRecord)
  | returned (left : List QueuedRecord) (summary : RunSummary)

namespace ShutdownStage

/-- What the call has read. -/
def read? : ShutdownStage → Option (List QueuedRecord)
  | .adding left => some left
  | .reporting left => some left
  | .returned left _ => some left
  | _ => none

/-- The summary the call has returned. -/
def summary? : ShutdownStage → Option RunSummary
  | .returned _ summary => some summary
  | _ => none

/-- What the call has counted as dropped. -/
def dropped : ShutdownStage → List QueuedRecord
  | .reporting left => left
  | .returned left _ => left
  | _ => []

end ShutdownStage

/-! ## The runtime -/

/-- What the threads share. -/
structure CoreRuntime where
  /-- The pipeline, with its ledger and its queue. -/
  pipeline : Pipeline
  /-- The handler that holds the ledger's lock. -/
  ledgerHolder : Option Nat
  store : InMemoryStore
  /-- The ledger calls the hook still owes; the store's lock is held until they are made. -/
  hook : List LedgerCall
  counters : PumpCounters
  refusedForwards : Nat
  drainDeadline : Option Nat
  /-- Whether the worker handles are still there to be taken. -/
  workers : Bool
  /-- The time. -/
  now : Nat

namespace CoreRuntime

def build (limits : BudgetLimits) (payloadCeilingBytes queueCeilingBytes : Nat)
    (config : RetentionConfig) (now : Nat) : CoreRuntime where
  pipeline := Pipeline.new limits payloadCeilingBytes queueCeilingBytes
  ledgerHolder := none
  store := InMemoryStore.new config true
  hook := []
  counters := PumpCounters.default
  refusedForwards := 0
  drainDeadline := none
  workers := true
  now := now

def summary (r : CoreRuntime) : RunSummary := ⟨r.counters, r.refusedForwards⟩

/-- The records waiting in the hand-off queue. -/
def queued (r : CoreRuntime) : List QueuedRecord := r.pipeline.sink.items

/-- Raise the flag the gates test. -/
def beginDraining (r : CoreRuntime) : CoreRuntime := { r with pipeline := r.pipeline.beginDraining }

/-- Anchor the drain deadline; whoever comes first does. -/
def anchorDeadline (r : CoreRuntime) (deadline : Nat) : CoreRuntime :=
  match r.drainDeadline with
  | none => { r with drainDeadline := some deadline }
  | some _ => r

/-- Hand one queued record to the store. -/
def keepRecord (store : InMemoryStore) (q : QueuedRecord) : InMemoryStore.Kept :=
  match q.record with
  | .span record => store.keepSpan ⟨q.entity, q.admittedAt, record⟩
  | .log record => store.keepLogRecord ⟨q.entity, q.admittedAt, record⟩
  | .point stream point => store.keepMetricPoint ⟨q.entity, q.admittedAt, point⟩ stream

/-! ## One step of each thread -/

/-- Admits an export whose gates were passed, and measures its offer-set: what is left of it to
hand over, or how it returns. -/
def admitGated (r : CoreRuntime) (i : Nat) (call : ExportCall) :
    Option (CoreRuntime × HandlerStage) :=
  -- the flag was tested at the gate, and is not tested again
  match { r.pipeline with draining := false }.admitCall call with
  | .error signal => some (r, .returned (.error signal))
  | .ok x =>
    match r.ledgerHolder with
    | some _ => none
    | none =>
      let pipeline := { r.pipeline with nextAddr := x.nextAddr }
      if pipeline.fits x.pending then
        some ({ r with pipeline := { pipeline with ledger := x.ledger }, ledgerHolder := some i },
          .offering x.pending x.records)
      else
        some ({ r with pipeline :=
            { pipeline with ledger := Pipeline.undoExport x.pending x.ledger } },
          .returned (.error (.queueSaturated pipeline.sink.name pipeline.sink.ceilingBytes
            (Pipeline.offerBytes x.pending))))

/-- A handler's next step; `none` where it waits for the ledger. -/
def handlerStep (r : CoreRuntime) (i : Nat) (h : Handler) : Option (CoreRuntime × Handler) :=
  match h.stage with
  | .arrived =>
    match r.pipeline.gate h.call.payloadBytes with
    | .error signal => some (r, { h with stage := .returned (.error signal) })
    | .ok () => some (r, { h with stage := .gated })
  | .gated => (r.admitGated i h.call).map fun next => (next.1, { h with stage := next.2 })
  | .offering [] records =>
    some ({ r with ledgerHolder := none }, { h with stage := .returned (.ok ⟨records⟩) })
  | .offering (offer :: rest) records =>
    match r.pipeline.sink.offer offer.queued with
    | .ok sink =>
      some ({ r with pipeline := { r.pipeline with sink := sink } },
        { h with stage := .offering rest records, offered := h.offered ++ [offer.queued] })
    -- a refusal would be a panic: `offer_accepted` says that there is none
    | .error _ => none
  | .returned _ => none

/-- The pump's next step, and what it observed; `none` where it waits. -/
def pumpStep (r : CoreRuntime) :
    PumpStage → Option (CoreRuntime × PumpStage × List (QueuedRecord × KeepOutcome))
  | .leading =>
    match r.drainDeadline with
    | none => some (r, .polling, [])
    | some deadline => some (r, if deadline < r.now then .exited else .draining deadline, [])
  | .polling =>
    match r.pipeline.sink.popLocked with
    | some (q, sink) => some ({ r with pipeline := { r.pipeline with sink := sink } }, .popped q, [])
    | none => some (r, .leading, [])
  | .draining deadline =>
    match r.pipeline.sink.popLocked with
    | some (q, sink) => some ({ r with pipeline := { r.pipeline with sink := sink } }, .popped q, [])
    | none => if deadline < r.now then some (r, .exited, []) else none
  | .popped q =>
    match r.hook with
    | [] =>
      let kept := keepRecord r.store q
      some ({ r with store := kept.store, hook := kept.calls.flatMap ledgerHook },
        .keeping q kept.outcome (kept.calls.countP HookCall.isRefusal), [])
    | _ :: _ => none
  | .keeping q outcome forwards =>
    match r.hook with
    | [] => some ({ r with refusedForwards := r.refusedForwards + forwards },
        .observing q outcome, [])
    | _ :: _ => none
  | .observing q outcome =>
    some ({ r with counters := r.counters.observe outcome }, .leading, [(q, outcome)])
  | .exited => none

/-- A shutdown call's next step; `none` where it waits for the pump, or has returned. -/
def shutdownStep (r : CoreRuntime) (pump : PumpStage) :
    ShutdownStage → Option (CoreRuntime × ShutdownStage)
  | .called =>
    if r.workers then some ({ r with workers := false }, .draining (r.now + drainDeadlineNanos))
    else some (r, .reading)
  | .draining deadline => some (r.beginDraining, .anchoring deadline)
  | .anchoring deadline => some (r.anchorDeadline deadline, .joining)
  | .joining => if pump.hasExited then some (r, .reading) else none
  | .reading => some (r, .adding r.queued)
  | .adding left => some ({ r with counters := r.counters.drop left.length }, .reporting left)
  | .reporting left => some (r, .returned left r.summary)
  | .returned _ _ => none

end CoreRuntime

/-! ## Every interleaving -/

/-- The runtime, its threads, and what its pump has observed. -/
structure Serving where
  runtime : CoreRuntime
  handlers : List Handler
  pump : PumpStage
  shutdowns : List ShutdownStage
  observed : List (QueuedRecord × KeepOutcome)

namespace Serving

/-- A runtime just built: the pump leads its first iteration. -/
def start (runtime : CoreRuntime) : Serving := ⟨runtime, [], .leading, [], []⟩

/-- Whose step is next. -/
inductive Event where
  | arrive (call : ExportCall)
  | handler (i : Nat)
  | pump
  | callLedger
  | retentionTick (now : AdmissionTime)
  | beginDraining
  | anchorDeadline (deadline : Nat)
  | callShutdown
  | shutdown (j : Nat)
  | advance (nanos : Nat)

/-- One step; `none` where the thread waits. -/
def step (s : Serving) : Event → Option Serving
  | .arrive call => some { s with handlers := s.handlers ++ [⟨call, .arrived, []⟩] }
  | .handler i =>
    match s.handlers[i]? with
    | none => none
    | some h => (s.runtime.handlerStep i h).map fun next =>
        { s with runtime := next.1, handlers := s.handlers.set i next.2 }
  | .pump =>
    (s.runtime.pumpStep s.pump).map fun next =>
      { s with runtime := next.1, pump := next.2.1, observed := s.observed ++ next.2.2 }
  | .callLedger =>
    match s.runtime.hook, s.runtime.ledgerHolder with
    | call :: rest, none =>
      some { s with runtime := { s.runtime with
        pipeline := { s.runtime.pipeline with ledger := call.run s.runtime.pipeline.ledger }
        hook := rest } }
    | _, _ => none
  | .retentionTick now =>
    -- the store's lock is free
    if s.runtime.hook.isEmpty && !s.pump.isKeeping then
      let pass := s.runtime.store.enforceAgainst now
      some { s with runtime := { s.runtime with
        store := pass.store, hook := pass.calls.flatMap ledgerHook } }
    else none
  | .beginDraining => some { s with runtime := s.runtime.beginDraining }
  | .anchorDeadline deadline => some { s with runtime := s.runtime.anchorDeadline deadline }
  | .callShutdown => some { s with shutdowns := s.shutdowns ++ [.called] }
  | .shutdown j =>
    match s.shutdowns[j]? with
    | none => none
    | some stage => (s.runtime.shutdownStep s.pump stage).map fun next =>
        { s with runtime := next.1, shutdowns := s.shutdowns.set j next.2 }
  | .advance nanos => some { s with runtime := { s.runtime with now := s.runtime.now + nanos } }

/-- Whether a handler's next step hands a record to the queue. -/
def handsOver (s : Serving) (i : Nat) : Bool :=
  match s.handlers[i]? with
  | some ⟨_, .offering (_ :: _) _, _⟩ => true
  | _ => false

/-- Whether a shutdown call's next step reads the queue. -/
def readsNext (s : Serving) (j : Nat) : Bool :=
  match s.shutdowns[j]? with
  | some .reading => true
  | _ => false

/-- One step as a relation. -/
def Step (s : Serving) (e : Event) (t : Serving) : Prop := s.step e = some t

/-- What an event does where its thread can take a step. -/
inductive Stepped (s : Serving) : Event → Serving → Prop
  | arrive (call : ExportCall) :
      Stepped s (.arrive call) { s with handlers := s.handlers ++ [⟨call, .arrived, []⟩] }
  | handler {i : Nat} {h after : Handler} {r : CoreRuntime} (standing : s.handlers[i]? = some h)
      (next : s.runtime.handlerStep i h = some (r, after)) :
      Stepped s (.handler i) { s with runtime := r, handlers := s.handlers.set i after }
  | pump {r : CoreRuntime} {stage : PumpStage} {observed : List (QueuedRecord × KeepOutcome)}
      (next : s.runtime.pumpStep s.pump = some (r, stage, observed)) :
      Stepped s .pump
        { s with runtime := r, pump := stage, observed := s.observed ++ observed }
  | callLedger {call : LedgerCall} {rest : List LedgerCall}
      (hook : s.runtime.hook = call :: rest) (free : s.runtime.ledgerHolder = none) :
      Stepped s .callLedger { s with runtime := { s.runtime with
        pipeline := { s.runtime.pipeline with ledger := call.run s.runtime.pipeline.ledger }
        hook := rest } }
  | retentionTick (now : AdmissionTime)
      (free : (s.runtime.hook.isEmpty && !s.pump.isKeeping) = true) :
      Stepped s (.retentionTick now) { s with runtime := { s.runtime with
        store := (s.runtime.store.enforceAgainst now).store
        hook := (s.runtime.store.enforceAgainst now).calls.flatMap ledgerHook } }
  | beginDraining : Stepped s .beginDraining { s with runtime := s.runtime.beginDraining }
  | anchorDeadline (deadline : Nat) :
      Stepped s (.anchorDeadline deadline)
        { s with runtime := s.runtime.anchorDeadline deadline }
  | callShutdown : Stepped s .callShutdown { s with shutdowns := s.shutdowns ++ [.called] }
  | shutdown {j : Nat} {stage after : ShutdownStage} {r : CoreRuntime}
      (standing : s.shutdowns[j]? = some stage)
      (next : s.runtime.shutdownStep s.pump stage = some (r, after)) :
      Stepped s (.shutdown j) { s with runtime := r, shutdowns := s.shutdowns.set j after }
  | advance (nanos : Nat) :
      Stepped s (.advance nanos)
        { s with runtime := { s.runtime with now := s.runtime.now + nanos } }

theorem stepped_of_step {s t : Serving} {e : Event} (h : Step s e t) : Stepped s e t := by
  unfold Step step at h
  cases e with
  | arrive call =>
    obtain rfl := Option.some.inj h
    exact .arrive call
  | handler i =>
    dsimp only at h
    split at h
    · cases h
    · rename_i hget
      obtain ⟨⟨r, after⟩, hnext, rfl⟩ := Option.map_eq_some_iff.mp h
      exact .handler hget hnext
  | pump =>
    obtain ⟨⟨r, stage, observed⟩, hnext, rfl⟩ := Option.map_eq_some_iff.mp h
    exact .pump hnext
  | callLedger =>
    dsimp only at h
    split at h
    · rename_i hhook hfree
      obtain rfl := Option.some.inj h
      exact .callLedger hhook hfree
    · cases h
  | retentionTick now =>
    dsimp only at h
    split at h
    · rename_i hfree
      obtain rfl := Option.some.inj h
      exact .retentionTick now hfree
    · cases h
  | beginDraining =>
    obtain rfl := Option.some.inj h
    exact .beginDraining
  | anchorDeadline deadline =>
    obtain rfl := Option.some.inj h
    exact .anchorDeadline deadline
  | callShutdown =>
    obtain rfl := Option.some.inj h
    exact .callShutdown
  | shutdown j =>
    dsimp only at h
    split at h
    · cases h
    · rename_i hget
      obtain ⟨⟨r, after⟩, hnext, rfl⟩ := Option.map_eq_some_iff.mp h
      exact .shutdown hget hnext
  | advance nanos =>
    obtain rfl := Option.some.inj h
    exact .advance nanos

/-- A run of events, where each is permitted and its thread's to take. -/
def run (permits : Serving → Event → Bool) : Serving → List Event → Option Serving :=
  runLabels step permits

end Serving

end RuntimeTrail
