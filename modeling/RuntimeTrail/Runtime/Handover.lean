import RuntimeTrail.Runtime.Drain

/-!
# What each thread's step does

A handler's step leaves the counters, and hands over one record or none; the
pump's moves a record from the queue to its hands, or from its hands to a
counter; a shutdown call's reads, adds or reports, once each.

* **the moves** — `handlerStep_spec`, `pumpStep_spec`, `shutdownStep_spec`;
* **what is reported is handed over** — `Handler.Balanced`;
* **no offer is refused** — `Serving.offer_accepted`: the panic in a hand-off is
  never reached.
-/

namespace RuntimeTrail

open Library

/-! ## What an export reports -/

/-- The entity of a record that was freshly admitted. -/
def RecordOutcome.admittedEntity : RecordOutcome → Option EntityId
  | .admitted entity => some entity
  | _ => none

/-- The entities an export's outcome reports as admitted. -/
def admittedEntities (records : List RecordOutcome) : List EntityId :=
  records.filterMap RecordOutcome.admittedEntity

theorem Handed.admittedEntities_eq {now : AdmissionTime}
    {records : List (Except RecordRejection Delivered)} {outcomes : List RecordOutcome}
    {queued : List QueuedRecord} (h : Handed now records outcomes queued) :
    queued.map (·.entity) = admittedEntities outcomes := by
  induction h with
  | nil => rfl
  | admitted delivered entity record holds rest ih =>
    rw [List.map_cons, ih]
    rfl
  | refused reason rest ih => exact ih
  | turned delivered outcome entered rest ih =>
    rw [ih]
    cases outcome with
    | admitted entity => exact absurd rfl (entered entity)
    | collapsed entity => rfl
    | conflict entity => rfl
    | rejected reason => rfl

namespace Handler

/-- The entities a handler has reported as admitted. -/
def reported (h : Handler) : List EntityId :=
  match h.stage with
  | .returned (.ok outcome) => admittedEntities outcome.records
  | _ => []

def hasReturned (h : Handler) : Bool :=
  match h.stage with
  | .returned _ => true
  | _ => false

/-- What a handler has handed over is what it reports; while it hands over, with what is left. -/
def Balanced (h : Handler) : Prop :=
  match h.stage with
  | .arrived => h.offered = []
  | .gated => h.offered = []
  | .offering rest records =>
    (h.offered ++ rest.map (·.queued)).map (·.entity) = admittedEntities records
  | .returned (.ok outcome) => h.offered.map (·.entity) = admittedEntities outcome.records
  | .returned (.error _) => h.offered = []

theorem Balanced.reported_eq {h : Handler} (hb : h.Balanced) (hreturned : h.hasReturned = true) :
    h.reported = h.offered.map (·.entity) := by
  obtain ⟨call, stage, offered⟩ := h
  cases stage with
  | arrived => exact absurd hreturned (by simp [hasReturned])
  | gated => exact absurd hreturned (by simp [hasReturned])
  | offering rest records => exact absurd hreturned (by simp [hasReturned])
  | returned result =>
    cases result with
    | error signal =>
      obtain rfl : offered = [] := hb
      rfl
    | ok outcome => exact Eq.symm hb

end Handler

/-! ## One step of each thread -/

namespace CoreRuntime

variable {r r' : CoreRuntime}

/-- A handler's step leaves the counters, and hands over one record or none. -/
structure HandlerMoves (r : CoreRuntime) (h : Handler) (r' : CoreRuntime) (h' : Handler) : Prop where
  summary : r'.summary = r.summary
  balanced : h.Balanced → h'.Balanced
  queued : (r'.queued = r.queued ∧ h'.offered = h.offered) ∨
    ∃ offer rest records, h.stage = .offering (offer :: rest) records ∧
      r'.queued = r.queued ++ [offer.queued] ∧ h'.offered = h.offered ++ [offer.queued]

theorem admitGated_spec {i : Nat} {call : ExportCall} {stage : HandlerStage}
    (h : r.admitGated i call = some (r', stage)) :
    r'.summary = r.summary ∧ r'.queued = r.queued ∧
      ((∃ signal, stage = .returned (.error signal)) ∨ ∃ rest records,
        stage = .offering rest records ∧
          (rest.map (·.queued)).map (·.entity) = admittedEntities records) := by
  unfold admitGated at h
  split at h
  · rename_i signal hadmit
    obtain ⟨rfl, rfl⟩ := Prod.mk.inj (Option.some.inj h)
    exact ⟨rfl, rfl, Or.inl ⟨signal, rfl⟩⟩
  · rename_i x hadmit
    split at h
    · exact absurd h (by simp)
    · dsimp only at h
      split at h
      · obtain ⟨rfl, rfl⟩ := Prod.mk.inj (Option.some.inj h)
        exact ⟨rfl, rfl, Or.inr ⟨_, _, rfl, (Pipeline.handed_admitCall hadmit).admittedEntities_eq⟩⟩
      · obtain ⟨rfl, rfl⟩ := Prod.mk.inj (Option.some.inj h)
        exact ⟨rfl, rfl, Or.inl ⟨_, rfl⟩⟩

theorem handlerStep_spec {i : Nat} {h h' : Handler} (hstep : r.handlerStep i h = some (r', h')) :
    HandlerMoves r h r' h' := by
  obtain ⟨call, stage, offered⟩ := h
  unfold handlerStep at hstep
  cases stage with
  | arrived =>
    dsimp only at hstep
    split at hstep
    · obtain ⟨rfl, rfl⟩ := Prod.mk.inj (Option.some.inj hstep)
      exact ⟨rfl, fun hb => hb, Or.inl ⟨rfl, rfl⟩⟩
    · obtain ⟨rfl, rfl⟩ := Prod.mk.inj (Option.some.inj hstep)
      exact ⟨rfl, fun hb => hb, Or.inl ⟨rfl, rfl⟩⟩
  | gated =>
    obtain ⟨⟨r'', stage⟩, hadmit, heq⟩ := Option.map_eq_some_iff.mp hstep
    obtain ⟨rfl, rfl⟩ := Prod.mk.inj heq
    obtain ⟨hsummary, hqueued, hstage⟩ := admitGated_spec hadmit
    refine ⟨hsummary, fun hb => ?_, Or.inl ⟨hqueued, rfl⟩⟩
    obtain rfl : offered = [] := hb
    rcases hstage with ⟨signal, rfl⟩ | ⟨rest, records, rfl, hentities⟩
    · exact rfl
    · exact hentities
  | offering rest records =>
    cases rest with
    | nil =>
      obtain ⟨rfl, rfl⟩ := Prod.mk.inj (Option.some.inj hstep)
      refine ⟨rfl, fun hb => ?_, Or.inl ⟨rfl, rfl⟩⟩
      change (offered ++ []).map QueuedRecord.entity = admittedEntities records at hb
      rwa [List.append_nil] at hb
    | cons offer rest =>
      dsimp only at hstep
      split at hstep
      · rename_i sink hoffer
        obtain ⟨rfl, rfl⟩ := Prod.mk.inj (Option.some.inj hstep)
        refine ⟨rfl, fun hb => ?_, Or.inr ⟨offer, rest, records, rfl, ?_, rfl⟩⟩
        · change (offered ++ offer.queued :: rest.map PendingOffer.queued).map QueuedRecord.entity =
            admittedEntities records at hb
          change (offered ++ [offer.queued] ++ rest.map PendingOffer.queued).map
            QueuedRecord.entity = admittedEntities records
          rwa [List.append_assoc, List.singleton_append]
        · exact (BoundedQueue.offer_eq_ok hoffer).1
      · exact absurd hstep (by simp)
  | returned result => exact absurd hstep (by simp)

/-- Everything a pump's step can be. -/
inductive PumpMoves (r : CoreRuntime) (stage : PumpStage) (r' : CoreRuntime) (stage' : PumpStage)
    (observed : List (QueuedRecord × KeepOutcome)) : Prop
  | quiet (hqueued : r'.queued = r.queued) (hheld : stage'.held = stage.held)
      (hobserved : observed = []) (hcounters : r'.counters = r.counters)
      (hforwards : stage.held = none → r'.refusedForwards = r.refusedForwards)
  | popped (q : QueuedRecord) (hqueued : r.queued = q :: r'.queued) (hheld : stage.held = none)
      (hheld' : stage'.held = some q) (hobserved : observed = []) (hsummary : r'.summary = r.summary)
  | observed (q : QueuedRecord) (outcome : KeepOutcome) (hqueued : r'.queued = r.queued)
      (hheld : stage.held = some q) (hheld' : stage'.held = none)
      (hobserved : observed = [(q, outcome)]) (hcounters : r'.counters = r.counters.observe outcome)

theorem pumpStep_spec {stage stage' : PumpStage} {observed : List (QueuedRecord × KeepOutcome)}
    (h : r.pumpStep stage = some (r', stage', observed)) :
    PumpMoves r stage r' stage' observed ∧ stage ≠ .exited := by
  have hpop : ∀ {q sink}, r.pipeline.sink.popLocked = some (q, sink) →
      some ({ r with pipeline := { r.pipeline with sink := sink } }, PumpStage.popped q,
        ([] : List (QueuedRecord × KeepOutcome))) = some (r', stage', observed) →
      stage.held = none → PumpMoves r stage r' stage' observed := by
    intro q sink hpopped heq hheld
    simp only [Option.some.injEq, Prod.mk.injEq] at heq
    obtain ⟨rfl, rfl, rfl⟩ := heq
    exact .popped q (BoundedQueue.items_of_popLocked hpopped) hheld rfl rfl rfl
  unfold pumpStep at h
  cases stage with
  | leading =>
    dsimp only at h
    split at h
    · obtain ⟨rfl, heq⟩ := Prod.mk.inj (Option.some.inj h)
      obtain ⟨rfl, rfl⟩ := Prod.mk.inj heq
      exact ⟨.quiet rfl rfl rfl rfl fun _ => rfl, by simp⟩
    · obtain ⟨rfl, heq⟩ := Prod.mk.inj (Option.some.inj h)
      obtain ⟨rfl, rfl⟩ := Prod.mk.inj heq
      refine ⟨.quiet rfl ?_ rfl rfl fun _ => rfl, by simp⟩
      split
      · rfl
      · rfl
  | polling =>
    dsimp only at h
    split at h
    · rename_i q sink hpopped
      exact ⟨hpop hpopped h rfl, by simp⟩
    · obtain ⟨rfl, heq⟩ := Prod.mk.inj (Option.some.inj h)
      obtain ⟨rfl, rfl⟩ := Prod.mk.inj heq
      exact ⟨.quiet rfl rfl rfl rfl fun _ => rfl, by simp⟩
  | draining deadline =>
    dsimp only at h
    split at h
    · rename_i q sink hpopped
      exact ⟨hpop hpopped h rfl, by simp⟩
    · split at h
      · obtain ⟨rfl, heq⟩ := Prod.mk.inj (Option.some.inj h)
        obtain ⟨rfl, rfl⟩ := Prod.mk.inj heq
        exact ⟨.quiet rfl rfl rfl rfl fun _ => rfl, by simp⟩
      · exact absurd h (by simp)
  | popped q =>
    dsimp only at h
    split at h
    · obtain ⟨rfl, heq⟩ := Prod.mk.inj (Option.some.inj h)
      obtain ⟨rfl, rfl⟩ := Prod.mk.inj heq
      exact ⟨.quiet rfl rfl rfl rfl fun _ => rfl, by simp⟩
    · exact absurd h (by simp)
  | keeping q outcome forwards =>
    dsimp only at h
    split at h
    · obtain ⟨rfl, heq⟩ := Prod.mk.inj (Option.some.inj h)
      obtain ⟨rfl, rfl⟩ := Prod.mk.inj heq
      exact ⟨.quiet rfl rfl rfl rfl fun hheld => absurd hheld (by simp [PumpStage.held]), by simp⟩
    · exact absurd h (by simp)
  | observing q outcome =>
    obtain ⟨rfl, heq⟩ := Prod.mk.inj (Option.some.inj h)
    obtain ⟨rfl, rfl⟩ := Prod.mk.inj heq
    exact ⟨.observed q outcome rfl rfl rfl rfl rfl, by simp⟩
  | exited => exact absurd h (by simp)

theorem anchorDeadline_frame (r : CoreRuntime) (deadline : Nat) :
    (r.anchorDeadline deadline).queued = r.queued ∧
      (r.anchorDeadline deadline).summary = r.summary := by
  unfold anchorDeadline
  split
  · exact ⟨rfl, rfl⟩
  · exact ⟨rfl, rfl⟩

/-- Everything a shutdown call's step can be. -/
inductive ShutdownMoves (r : CoreRuntime) (pump : PumpStage) (stage : ShutdownStage) :
    CoreRuntime → ShutdownStage → Prop
  | quiet (r' : CoreRuntime) (stage' : ShutdownStage) (hqueued : r'.queued = r.queued)
      (hsummary : r'.summary = r.summary) (hread : stage.read? = none) (hread' : stage'.read? = none) :
      ShutdownMoves r pump stage r' stage'
  | reads (hstage : stage = .reading) : ShutdownMoves r pump stage r (.adding r.queued)
  | adds (left : List QueuedRecord) (hstage : stage = .adding left) :
      ShutdownMoves r pump stage { r with counters := r.counters.drop left.length } (.reporting left)
  | reports (left : List QueuedRecord) (hstage : stage = .reporting left) :
      ShutdownMoves r pump stage r (.returned left r.summary)

theorem shutdownStep_spec {pump : PumpStage} {stage stage' : ShutdownStage}
    (h : r.shutdownStep pump stage = some (r', stage')) : ShutdownMoves r pump stage r' stage' := by
  unfold shutdownStep at h
  cases stage with
  | called =>
    dsimp only at h
    split at h
    · obtain ⟨rfl, rfl⟩ := Prod.mk.inj (Option.some.inj h)
      exact .quiet _ _ rfl rfl rfl rfl
    · obtain ⟨rfl, rfl⟩ := Prod.mk.inj (Option.some.inj h)
      exact .quiet _ _ rfl rfl rfl rfl
  | draining deadline =>
    obtain ⟨rfl, rfl⟩ := Prod.mk.inj (Option.some.inj h)
    exact .quiet _ _ rfl rfl rfl rfl
  | anchoring deadline =>
    obtain ⟨rfl, rfl⟩ := Prod.mk.inj (Option.some.inj h)
    obtain ⟨hqueued, hsummary⟩ := r.anchorDeadline_frame deadline
    exact .quiet _ _ hqueued hsummary rfl rfl
  | joining =>
    dsimp only at h
    split at h
    · obtain ⟨rfl, rfl⟩ := Prod.mk.inj (Option.some.inj h)
      exact .quiet _ _ rfl rfl rfl rfl
    · exact absurd h (by simp)
  | reading =>
    obtain ⟨rfl, rfl⟩ := Prod.mk.inj (Option.some.inj h)
    exact .reads rfl
  | adding left =>
    obtain ⟨rfl, rfl⟩ := Prod.mk.inj (Option.some.inj h)
    exact .adds left rfl
  | reporting left =>
    obtain ⟨rfl, rfl⟩ := Prod.mk.inj (Option.some.inj h)
    exact .reports left rfl
  | returned left summary => exact absurd h (by simp)

end CoreRuntime

/-! ## No offer is refused -/

/-- A handler that hands over holds the ledger, and what it has left fits the queue. -/
def Serving.Holding (s : Serving) : Prop :=
  ∀ i h rest records, s.handlers[i]? = some h → h.stage = .offering rest records →
    s.runtime.ledgerHolder = some i ∧ Pipeline.offerBytes rest + s.runtime.pipeline.sink.accounted ≤
      s.runtime.pipeline.sink.ceilingBytes

namespace CoreRuntime

variable {r r' : CoreRuntime}

/-- A step that is not a handler's leaves the ledger's holder, and never fills the queue. -/
def Eases (r r' : CoreRuntime) : Prop :=
  r'.ledgerHolder = r.ledgerHolder ∧
    r'.pipeline.sink.ceilingBytes = r.pipeline.sink.ceilingBytes ∧
    r'.pipeline.sink.accounted ≤ r.pipeline.sink.accounted

theorem Eases.refl (r : CoreRuntime) : Eases r r := ⟨rfl, rfl, le_refl _⟩

theorem pumpStep_eases {stage stage' : PumpStage} {observed : List (QueuedRecord × KeepOutcome)}
    (h : r.pumpStep stage = some (r', stage', observed)) : Eases r r' := by
  have hpop : ∀ {q sink}, r.pipeline.sink.popLocked = some (q, sink) →
      Eases r { r with pipeline := { r.pipeline with sink := sink } } := fun hpopped => by
    obtain ⟨hceiling, -, haccounted⟩ := BoundedQueue.popLocked_frame hpopped
    exact ⟨rfl, hceiling, haccounted⟩
  unfold pumpStep at h
  cases stage with
  | leading =>
    dsimp only at h
    split at h <;> (simp only [Option.some.injEq, Prod.mk.injEq] at h; obtain ⟨rfl, -, -⟩ := h)
    · exact Eases.refl r
    · exact Eases.refl r
  | polling =>
    dsimp only at h
    split at h <;> (simp only [Option.some.injEq, Prod.mk.injEq] at h; obtain ⟨rfl, -, -⟩ := h)
    · exact hpop ‹_›
    · exact Eases.refl r
  | draining deadline =>
    dsimp only at h
    split at h
    · simp only [Option.some.injEq, Prod.mk.injEq] at h
      obtain ⟨rfl, -, -⟩ := h
      exact hpop ‹_›
    · split at h
      · simp only [Option.some.injEq, Prod.mk.injEq] at h
        obtain ⟨rfl, -, -⟩ := h
        exact Eases.refl r
      · exact absurd h (by simp)
  | popped q =>
    dsimp only at h
    split at h
    · simp only [Option.some.injEq, Prod.mk.injEq] at h
      obtain ⟨rfl, -, -⟩ := h
      exact Eases.refl r
    · exact absurd h (by simp)
  | keeping q outcome forwards =>
    dsimp only at h
    split at h
    · simp only [Option.some.injEq, Prod.mk.injEq] at h
      obtain ⟨rfl, -, -⟩ := h
      exact Eases.refl r
    · exact absurd h (by simp)
  | observing q outcome =>
    simp only [Option.some.injEq, Prod.mk.injEq] at h
    obtain ⟨rfl, -, -⟩ := h
    exact Eases.refl r
  | exited => exact absurd h (by simp)

theorem anchorDeadline_eases (r : CoreRuntime) (deadline : Nat) :
    Eases r (r.anchorDeadline deadline) := by
  unfold anchorDeadline
  split
  · exact Eases.refl r
  · exact Eases.refl r

theorem shutdownStep_eases {pump : PumpStage} {stage stage' : ShutdownStage}
    (h : r.shutdownStep pump stage = some (r', stage')) : Eases r r' := by
  unfold shutdownStep at h
  cases stage with
  | called =>
    dsimp only at h
    split at h
    · obtain ⟨rfl, -⟩ := Prod.mk.inj (Option.some.inj h)
      exact Eases.refl r
    · obtain ⟨rfl, -⟩ := Prod.mk.inj (Option.some.inj h)
      exact Eases.refl r
  | joining =>
    dsimp only at h
    split at h
    · obtain ⟨rfl, -⟩ := Prod.mk.inj (Option.some.inj h)
      exact Eases.refl r
    · exact absurd h (by simp)
  | anchoring deadline =>
    obtain ⟨rfl, -⟩ := Prod.mk.inj (Option.some.inj h)
    exact r.anchorDeadline_eases deadline
  | returned left summary => exact absurd h (by simp)
  | _ =>
    obtain ⟨rfl, -⟩ := Prod.mk.inj (Option.some.inj h)
    exact Eases.refl r

end CoreRuntime

namespace Serving.Holding

variable {s t : Serving}

theorem of_eases (h : s.Holding) (hhandlers : t.handlers = s.handlers)
    (heases : s.runtime.Eases t.runtime) : t.Holding := by
  obtain ⟨hholder, hceiling, haccounted⟩ := heases
  intro i handler rest records hget hstage
  rw [hhandlers] at hget
  obtain ⟨hholds, hfits⟩ := h i handler rest records hget hstage
  exact ⟨hholder.trans hholds, by rw [hceiling]; omega⟩

/-- A handler's step, where the others hold nothing that it takes. -/
theorem of_set (h : s.Holding) {i : Nat} {after : Handler} {r : CoreRuntime}
    (hfree : s.runtime.ledgerHolder = none ∨ s.runtime.ledgerHolder = some i)
    (hafter : ∀ rest records, after.stage = .offering rest records →
      r.ledgerHolder = some i ∧ Pipeline.offerBytes rest + r.pipeline.sink.accounted ≤
        r.pipeline.sink.ceilingBytes) :
    Holding { s with runtime := r, handlers := s.handlers.set i after } := by
  intro j handler rest records hget hstage
  rcases getElem?_set_cases hget with ⟨rfl, rfl⟩ | ⟨hne, hget⟩
  · exact hafter rest records hstage
  · obtain ⟨hholds, -⟩ := h j handler rest records hget hstage
    rcases hfree with hnone | hself
    · exact absurd (hnone.symm.trans hholds) (by simp)
    · exact absurd (Option.some.inj (hholds.symm.trans hself)) hne

theorem handler (h : s.Holding) {i : Nat} {before after : Handler} {r : CoreRuntime}
    (hget : s.handlers[i]? = some before)
    (hstep : s.runtime.handlerStep i before = some (r, after)) :
    Holding { s with runtime := r, handlers := s.handlers.set i after } := by
  obtain ⟨call, stage, offered⟩ := before
  -- a step that offers nothing and leaves the runtime leaves the other handlers as they are
  have hidle : ∀ {stage' : HandlerStage}, (∀ rest records, stage' ≠ .offering rest records) →
      Holding { s with handlers := s.handlers.set i ⟨call, stage', offered⟩ } := by
    intro stage' hstage' j handler rest records hgetj hstage
    rcases getElem?_set_cases hgetj with ⟨rfl, rfl⟩ | ⟨-, hgetj⟩
    · exact absurd hstage (hstage' rest records)
    · exact h j handler rest records hgetj hstage
  unfold CoreRuntime.handlerStep at hstep
  cases stage with
  | arrived =>
    dsimp only at hstep
    split at hstep
    · obtain ⟨rfl, rfl⟩ := Prod.mk.inj (Option.some.inj hstep)
      exact hidle (by simp)
    · obtain ⟨rfl, rfl⟩ := Prod.mk.inj (Option.some.inj hstep)
      exact hidle (by simp)
  | gated =>
    obtain ⟨⟨r', stage'⟩, hadmit, heq⟩ := Option.map_eq_some_iff.mp hstep
    obtain ⟨rfl, rfl⟩ := Prod.mk.inj heq
    unfold CoreRuntime.admitGated at hadmit
    split at hadmit
    · obtain ⟨rfl, rfl⟩ := Prod.mk.inj (Option.some.inj hadmit)
      exact hidle (by simp)
    · rename_i x hx
      split at hadmit
      · exact absurd hadmit (by simp)
      · rename_i hfree
        dsimp only at hadmit
        split at hadmit
        · rename_i hfits
          obtain ⟨rfl, rfl⟩ := Prod.mk.inj (Option.some.inj hadmit)
          refine h.of_set (Or.inl hfree) fun rest records hstage => ?_
          obtain ⟨rfl, rfl⟩ := HandlerStage.offering.inj hstage
          exact ⟨rfl, of_decide_eq_true hfits⟩
        · obtain ⟨rfl, rfl⟩ := Prod.mk.inj (Option.some.inj hadmit)
          exact h.of_set (Or.inl hfree) fun rest records hstage => absurd hstage (by simp)
  | offering rest records =>
    obtain ⟨hholds, hfits⟩ := h i _ rest records hget rfl
    cases rest with
    | nil =>
      obtain ⟨rfl, rfl⟩ := Prod.mk.inj (Option.some.inj hstep)
      exact h.of_set (Or.inr hholds) fun rest records hstage => absurd hstage (by simp)
    | cons offer rest =>
      dsimp only at hstep
      split at hstep
      · rename_i sink hoffer
        obtain ⟨rfl, rfl⟩ := Prod.mk.inj (Option.some.inj hstep)
        refine h.of_set (Or.inr hholds) fun rest' records' hstage => ?_
        obtain ⟨rfl, rfl⟩ := HandlerStage.offering.inj hstage
        obtain ⟨-, hceiling, haccounted⟩ := BoundedQueue.offer_eq_ok hoffer
        refine ⟨hholds, ?_⟩
        have hbytes : Pipeline.offerBytes (offer :: rest) =
            accountedSize offer.queued.record + Pipeline.offerBytes rest := by
          simp [Pipeline.offerBytes, queuedBytes]
        change Pipeline.offerBytes rest + sink.accounted ≤ sink.ceilingBytes
        rw [hceiling]
        omega
      · exact absurd hstep (by simp)
  | returned result => exact absurd hstep (by simp)

theorem step (h : s.Holding) {e : Serving.Event} (hstep : Step s e t) : t.Holding := by
  cases stepped_of_step hstep with
  | arrive call =>
    intro i handler rest records hget hstage
    change (s.handlers ++ [(⟨call, .arrived, []⟩ : Handler)])[i]? = some handler at hget
    rw [List.getElem?_append] at hget
    split at hget
    · exact h i handler rest records hget hstage
    · obtain rfl := List.mem_singleton.mp (List.mem_of_getElem? hget)
      exact absurd hstage (by simp)
  | handler standing next => exact h.handler standing next
  | pump next => exact h.of_eases rfl (CoreRuntime.pumpStep_eases next)
  | anchorDeadline deadline => exact h.of_eases rfl (s.runtime.anchorDeadline_eases deadline)
  | shutdown standing next => exact h.of_eases rfl (CoreRuntime.shutdownStep_eases next)
  | _ => exact h.of_eases rfl (CoreRuntime.Eases.refl _)

end Serving.Holding

/-- **No offer is refused**: in every interleaving, a handler that hands over can take its next
step, so the panic a refusal would be is never reached. -/
theorem Serving.offer_accepted {runtime : CoreRuntime} {Ok : Serving → Serving.Event → Prop}
    {s : Serving} (hreach : Reaches Step Ok (start runtime) s) {i : Nat} {h : Handler}
    {rest : List PendingOffer} {records : List RecordOutcome} (hget : s.handlers[i]? = some h)
    (hstage : h.stage = .offering rest records) : ∃ t, Step s (.handler i) t := by
  have hholding : s.Holding :=
    hreach.invariant (fun i h rest records hget => absurd hget (by simp [start]))
      fun _ _ _ hs _ hstep => hs.step hstep
  obtain ⟨-, hfits⟩ := hholding i h rest records hget hstage
  obtain ⟨call, stage, offered⟩ := h
  obtain rfl : stage = .offering rest records := hstage
  cases rest with
  | nil => exact ⟨_, by simp only [Step, step, hget, CoreRuntime.handlerStep]; rfl⟩
  | cons offer rest =>
    have hbytes : Pipeline.offerBytes (offer :: rest) =
        accountedSize offer.queued.record + Pipeline.offerBytes rest := by
      simp [Pipeline.offerBytes, queuedBytes]
    obtain ⟨sink, hoffer, -⟩ := @BoundedQueue.offer_of_fits s.runtime.pipeline.sink offer.queued
      (by omega)
    exact ⟨_, by simp only [Step, step, hget, CoreRuntime.handlerStep, hoffer]; rfl⟩

end RuntimeTrail
