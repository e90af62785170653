import RuntimeTrail.Runtime.Handover

/-!
# A shutdown accounts for what was acknowledged

Every record an export reports as admitted is handed to the queue before the
export returns, and the pump counts the outcome of every record it takes: both
hold in every interleaving (`Counted`).  What a shutdown adds is the length it
reads of the queue, so all turns on when it reads and how often.

* **the tally** — `counted_of_reaches`: counters are the counts of the records
  observed and dropped, whatever the order of steps;
* **the law** — `shutdown_accounts`: in a run that keeps to `Settled` each
  acknowledged record is in exactly one counter, and every call returns one
  summary;
* **without it** — `not_shutdown_accounts`: a handler that passed the gate hands
  its record over after the read, and a second call counts what is left again.
-/

namespace RuntimeTrail

open Library

/-! ## Fates -/

/-- What became of an acknowledged record: the outcome the pump counted, or the drop a shutdown
did. -/
inductive Fate where
  | kept
  | duplicate
  | oversized
  | seriesCapReached
  | identityOverCeiling
  | dropped
deriving DecidableEq

/-- The fate an outcome of a keep is. -/
def KeepOutcome.fate : KeepOutcome → Fate
  | .kept _ => .kept
  | .duplicate => .duplicate
  | .oversized => .oversized
  | .seriesCapReached => .seriesCapReached
  | .identityOverCeiling _ _ => .identityOverCeiling

/-- The counter of a fate. -/
def PumpCounters.of (c : PumpCounters) : Fate → Nat
  | .kept => c.kept
  | .duplicate => c.duplicates
  | .oversized => c.oversizedRefusals
  | .seriesCapReached => c.seriesCapRefusals
  | .identityOverCeiling => c.identityOverCeilingRefusals
  | .dropped => c.droppedOnDrain

theorem PumpCounters.of_observe (c : PumpCounters) (outcome : KeepOutcome) (fate : Fate) :
    (c.observe outcome).of fate = c.of fate + if outcome.fate = fate then 1 else 0 := by
  cases outcome <;> cases fate <;> rfl

theorem PumpCounters.of_drop (c : PumpCounters) (dropped : Nat) (fate : Fate) :
    (c.drop dropped).of fate = c.of fate + if Fate.dropped = fate then dropped else 0 := by
  cases fate <;> rfl

/-- The fates of the records the pump observed, and of those that were left. -/
def fates (observed : List (QueuedRecord × KeepOutcome)) (left : List QueuedRecord) :
    List (QueuedRecord × Fate) :=
  (observed.map fun p => (p.1, p.2.fate)) ++ left.map fun q => (q, Fate.dropped)

/-- How often a fate was met. -/
def met (fate : Fate) (counted : List (QueuedRecord × Fate)) : Nat :=
  counted.countP fun p => p.2 = fate

theorem met_fates (fate : Fate) (observed : List (QueuedRecord × KeepOutcome))
    (left : List QueuedRecord) :
    met fate (fates observed left) = (observed.countP fun p => p.2.fate = fate) +
      if Fate.dropped = fate then left.length else 0 := by
  rw [met, fates, List.countP_append, List.countP_map, List.countP_map]
  by_cases h : Fate.dropped = fate
  · simp [h, Function.comp_def]
  · simp [h, Function.comp_def]

theorem map_entity_fates (observed : List (QueuedRecord × KeepOutcome))
    (left : List QueuedRecord) :
    ((fates observed left).map fun p => p.1.entity) =
      (observed.map Prod.fst ++ left).map QueuedRecord.entity := by
  simp [fates, Function.comp_def]

/-- **Each reported record in exactly one counter**: a fate for each, and for each fate its
count. -/
structure AccountedFor (counters : PumpCounters) (reported : List EntityId)
    (counted : List (QueuedRecord × Fate)) : Prop where
  each : (counted.map fun p => p.1.entity).Perm reported
  counts : ∀ fate, counters.of fate = met fate counted

/-- So the counters sum to as many as were reported. -/
theorem AccountedFor.sum_eq {counters : PumpCounters} {reported : List EntityId}
    {counted : List (QueuedRecord × Fate)} (h : AccountedFor counters reported counted) :
    counters.kept + counters.duplicates + (counters.oversizedRefusals + counters.seriesCapRefusals +
      counters.identityOverCeilingRefusals) + counters.droppedOnDrain = reported.length := by
  have hmet : ∀ counted : List (QueuedRecord × Fate),
      met .kept counted + met .duplicate counted + (met .oversized counted +
        met .seriesCapReached counted + met .identityOverCeiling counted) + met .dropped counted =
          counted.length := by
    intro counted
    induction counted with
    | nil => rfl
    | cons p rest ih =>
      obtain ⟨q, fate⟩ := p
      cases fate <;> simp only [met, List.countP_cons, List.length_cons] at ih ⊢ <;> simp <;> omega
  have hlength := h.each.length_eq
  rw [List.length_map] at hlength
  rw [← hlength, ← hmet counted, ← h.counts, ← h.counts, ← h.counts, ← h.counts, ← h.counts,
    ← h.counts]
  rfl

namespace Serving

/-! ## Whatever the order -/

/-- The records that have been counted, each with its fate. -/
def counted (s : Serving) : List (QueuedRecord × Fate) :=
  fates s.observed (s.shutdowns.flatMap ShutdownStage.dropped)

/-- The entities the exports that returned reported as admitted. -/
def reported (s : Serving) : List EntityId := s.handlers.flatMap Handler.reported

/-- What holds in every interleaving: exports hand over what they report, what is handed over is
queued, held by the pump or observed by it, and the counters are the counts. -/
structure Counted (s : Serving) : Prop where
  balanced : ∀ h ∈ s.handlers, h.Balanced
  conserved : (s.handlers.flatMap Handler.offered).Perm
    (s.runtime.queued ++ s.pump.held.toList ++ s.observed.map Prod.fst)
  counts : ∀ fate, s.runtime.counters.of fate = met fate s.counted

namespace Counted

variable {s t : Serving}

theorem start {runtime : CoreRuntime} (hcounters : runtime.counters = PumpCounters.default)
    (hqueued : runtime.queued = []) : (Serving.start runtime).Counted where
  balanced h hh := absurd hh (by simp [Serving.start])
  conserved := by simp [Serving.start, hqueued, PumpStage.held]
  counts fate := by
    rw [show (Serving.start runtime).runtime.counters = PumpCounters.default from hcounters]
    cases fate <;> rfl

/-- A step that leaves the queue, the counters and every thread but its own state as they are. -/
theorem of_eq (h : s.Counted) (hhandlers : t.handlers = s.handlers)
    (hqueued : t.runtime.queued = s.runtime.queued) (hpump : t.pump = s.pump)
    (hobserved : t.observed = s.observed) (hcounters : t.runtime.counters = s.runtime.counters)
    (hdropped : t.shutdowns.flatMap ShutdownStage.dropped =
      s.shutdowns.flatMap ShutdownStage.dropped) : t.Counted where
  balanced := hhandlers ▸ h.balanced
  conserved := by rw [hhandlers, hqueued, hpump, hobserved]; exact h.conserved
  counts fate := by rw [hcounters, counted, hobserved, hdropped]; exact h.counts fate

theorem handler (h : s.Counted) {i : Nat} {before after : Handler} {r : CoreRuntime}
    (hget : s.handlers[i]? = some before)
    (hmoves : CoreRuntime.HandlerMoves s.runtime before r after) :
    Counted { s with runtime := r, handlers := s.handlers.set i after } where
  balanced := forall_mem_set h.balanced
    (hmoves.balanced (h.balanced before (List.mem_of_getElem? hget)))
  conserved := by
    rcases hmoves.queued with ⟨hqueued, hoffered⟩ | ⟨offer, rest, records, -, hqueued, hoffered⟩
    · change ((s.handlers.set i after).flatMap Handler.offered).Perm (r.queued ++ _ ++ _)
      rw [flatMap_set_eq hget hoffered, hqueued]
      exact h.conserved
    · change ((s.handlers.set i after).flatMap Handler.offered).Perm (r.queued ++ _ ++ _)
      refine (flatMap_set_perm hget (List.Perm.of_eq hoffered)).trans ?_
      rw [hqueued, List.append_assoc, List.append_assoc]
      refine (h.conserved.append_right _).trans ?_
      rw [List.append_assoc, List.append_assoc]
      refine List.Perm.append_left _ ?_
      rw [← List.append_assoc]
      exact List.perm_append_comm
  counts fate := by
    rw [show r.counters = s.runtime.counters from congrArg RunSummary.counters hmoves.summary]
    exact h.counts fate

theorem pump (h : s.Counted) {stage : PumpStage} {r : CoreRuntime}
    {observed : List (QueuedRecord × KeepOutcome)}
    (hmoves : CoreRuntime.PumpMoves s.runtime s.pump r stage observed) :
    Counted { s with runtime := r, pump := stage, observed := s.observed ++ observed } := by
  cases hmoves with
  | quiet hqueued hheld hobserved hcounters hforwards =>
    subst hobserved
    refine ⟨h.balanced, ?_, fun fate => ?_⟩
    · change (s.handlers.flatMap Handler.offered).Perm
        (r.queued ++ stage.held.toList ++ (s.observed ++ []).map Prod.fst)
      rw [hqueued, hheld, List.append_nil]
      exact h.conserved
    · change r.counters.of fate = met fate (fates (s.observed ++ []) _)
      rw [hcounters, List.append_nil]
      exact h.counts fate
  | popped q hqueued hheld hheld' hobserved hsummary =>
    subst hobserved
    refine ⟨h.balanced, ?_, fun fate => ?_⟩
    · change (s.handlers.flatMap Handler.offered).Perm
        (r.queued ++ stage.held.toList ++ (s.observed ++ []).map Prod.fst)
      have hconserved := h.conserved
      rw [hqueued, hheld] at hconserved
      rw [hheld', List.append_nil]
      refine hconserved.trans ?_
      simp only [Option.toList_none, List.append_nil, Option.toList_some, List.cons_append,
        List.append_assoc, List.nil_append]
      exact List.perm_middle.symm
    · change r.counters.of fate = met fate (fates (s.observed ++ []) _)
      rw [show r.counters = s.runtime.counters from congrArg RunSummary.counters hsummary,
        List.append_nil]
      exact h.counts fate
  | observed q outcome hqueued hheld hheld' hobserved hcounters =>
    subst hobserved
    refine ⟨h.balanced, ?_, fun fate => ?_⟩
    · change (s.handlers.flatMap Handler.offered).Perm
        (r.queued ++ stage.held.toList ++ (s.observed ++ [(q, outcome)]).map Prod.fst)
      have hconserved := h.conserved
      rw [hheld] at hconserved
      rw [hqueued, hheld', List.map_append]
      refine hconserved.trans ?_
      simp only [Option.toList_none, List.append_nil, Option.toList_some, List.append_assoc,
        List.map_cons, List.map_nil]
      exact List.Perm.append_left _ List.perm_append_comm
    · change r.counters.of fate = met fate (fates (s.observed ++ [(q, outcome)]) _)
      have hcounts := h.counts fate
      rw [counted, met_fates] at hcounts
      rw [hcounters, PumpCounters.of_observe, hcounts, met_fates, List.countP_append]
      have hone : ([(q, outcome)].countP fun p => p.2.fate = fate) =
          if outcome.fate = fate then 1 else 0 := by
        by_cases hfate : outcome.fate = fate
        · simp [hfate]
        · simp [hfate]
      rw [hone]
      exact Nat.add_right_comm _ _ _

theorem shutdown (h : s.Counted) {j : Nat} {before after : ShutdownStage} {r : CoreRuntime}
    (hget : s.shutdowns[j]? = some before)
    (hmoves : CoreRuntime.ShutdownMoves s.runtime s.pump before r after) :
    Counted { s with runtime := r, shutdowns := s.shutdowns.set j after } := by
  have hunread : ∀ {stage : ShutdownStage}, stage.read? = none → stage.dropped = [] := by
    intro stage hread
    cases stage with
    | reporting left => exact absurd hread (by simp [ShutdownStage.read?])
    | returned left summary => exact absurd hread (by simp [ShutdownStage.read?])
    | _ => rfl
  cases hmoves with
  | quiet r after hqueued hsummary hread hread' =>
    exact h.of_eq rfl hqueued rfl rfl (congrArg RunSummary.counters hsummary)
      (flatMap_set_eq hget ((hunread hread').trans (hunread hread).symm))
  | reads hstage =>
    subst hstage
    exact h.of_eq rfl rfl rfl rfl rfl (flatMap_set_eq hget rfl)
  | adds left hstage =>
    subst hstage
    refine ⟨h.balanced, h.conserved, fun fate => ?_⟩
    change (s.runtime.counters.drop left.length).of fate = met fate (fates s.observed
      ((s.shutdowns.set j (.reporting left)).flatMap ShutdownStage.dropped))
    have hperm : ((s.shutdowns.set j (.reporting left)).flatMap ShutdownStage.dropped).Perm
        (s.shutdowns.flatMap ShutdownStage.dropped ++ left) :=
      flatMap_set_perm hget (List.Perm.refl _)
    have hcounts := h.counts fate
    rw [counted, met_fates] at hcounts
    rw [PumpCounters.of_drop, hcounts, met_fates, hperm.length_eq, List.length_append]
    by_cases hfate : Fate.dropped = fate
    · rw [if_pos hfate, if_pos hfate, if_pos hfate, Nat.add_assoc]
    · rw [if_neg hfate, if_neg hfate, if_neg hfate]
  | reports left hstage =>
    subst hstage
    exact h.of_eq rfl rfl rfl rfl rfl (flatMap_set_eq hget rfl)

/-- **Every step keeps the counts.** -/
theorem step (h : s.Counted) {e : Event} (hstep : Step s e t) : t.Counted := by
  cases stepped_of_step hstep with
  | arrive call =>
    refine ⟨fun handler hh => ?_, ?_, h.counts⟩
    · rcases List.mem_append.mp hh with hh | hh
      · exact h.balanced handler hh
      · obtain rfl := List.mem_singleton.mp hh
        exact rfl
    · change ((s.handlers ++ [(⟨call, .arrived, []⟩ : Handler)]).flatMap Handler.offered).Perm _
      rw [List.flatMap_append, List.flatMap_singleton, List.append_nil]
      exact h.conserved
  | handler standing next => exact h.handler standing (CoreRuntime.handlerStep_spec next)
  | pump next => exact h.pump (CoreRuntime.pumpStep_spec next).1
  | anchorDeadline deadline =>
    obtain ⟨hqueued, hsummary⟩ := s.runtime.anchorDeadline_frame deadline
    exact h.of_eq rfl hqueued rfl rfl (congrArg RunSummary.counters hsummary) rfl
  | callShutdown =>
    refine h.of_eq rfl rfl rfl rfl rfl ?_
    rw [List.flatMap_append]
    exact List.append_nil _
  | shutdown standing next => exact h.shutdown standing (CoreRuntime.shutdownStep_spec next)
  | _ => exact h.of_eq rfl rfl rfl rfl rfl rfl

end Counted

/-! ## Once a shutdown has read -/

/-- No call has read the queue. -/
def unread (s : Serving) : Bool := s.shutdowns.all fun c => c.read?.isNone

theorem unread_iff {s : Serving} : s.unread = true ↔ ∀ c ∈ s.shutdowns, c.read? = none := by
  simp [unread]

/-- What a shutdown needs of a step: no record is handed to the queue after a call has read it;
and a call reads it when nothing is on its way to a counter, or, the pump having exited, as the
first that reads. -/
def Settled (s : Serving) : Event → Prop
  | .handler i => s.handsOver i = true → s.unread = true
  | .shutdown j => s.readsNext j = true →
      (s.runtime.queued.isEmpty && s.pump.held.isNone) = true ∨
        (s.pump.hasExited && s.unread) = true
  | _ => True

instance (s : Serving) : DecidablePred s.Settled
  | .handler i => inferInstanceAs (Decidable (s.handsOver i = true → s.unread = true))
  | .shutdown j => inferInstanceAs (Decidable (s.readsNext j = true →
      (s.runtime.queued.isEmpty && s.pump.held.isNone) = true ∨
        (s.pump.hasExited && s.unread) = true))
  | .arrive _ => inferInstanceAs (Decidable True)
  | .pump => inferInstanceAs (Decidable True)
  | .callLedger => inferInstanceAs (Decidable True)
  | .retentionTick _ => inferInstanceAs (Decidable True)
  | .beginDraining => inferInstanceAs (Decidable True)
  | .anchorDeadline _ => inferInstanceAs (Decidable True)
  | .callShutdown => inferInstanceAs (Decidable True)
  | .advance _ => inferInstanceAs (Decidable True)

/-- From the first read on nothing moves: each call that read found what is queued still, the pump
holds nothing, one call alone found records, and what was returned is the summary. -/
structure Frozen (s : Serving) : Prop where
  reads : ∀ c ∈ s.shutdowns, ∀ left, c.read? = some left →
    left = s.runtime.queued ∧ s.pump.held = none ∧ (s.runtime.queued = [] ∨ s.pump = .exited)
  single : s.runtime.queued = [] ∨
    (s.shutdowns.flatMap fun c => c.read?.toList).length ≤ 1
  reported : ∀ left summary, .returned left summary ∈ s.shutdowns → summary = s.runtime.summary

namespace Frozen

variable {s t : Serving}

theorem start (runtime : CoreRuntime) : (Serving.start runtime).Frozen where
  reads c hc := absurd hc (by simp [Serving.start])
  single := Or.inr (by simp [Serving.start])
  reported left summary hmem := absurd hmem (by simp [Serving.start])

/-- Before any call has read there is nothing to keep. -/
theorem of_unread (h : ∀ c ∈ s.shutdowns, c.read? = none) : s.Frozen where
  reads c hc left hread := absurd ((h c hc).symm.trans hread) (by simp)
  single := by
    refine Or.inr (le_of_eq_of_le ?_ (Nat.zero_le 1))
    rw [List.length_eq_zero_iff, List.flatMap_eq_nil_iff]
    intro c hc
    rw [h c hc]
    rfl
  reported left summary hmem := absurd (h _ hmem) (by simp [ShutdownStage.read?])

/-- A step that leaves the queue, the summary, the pump's hands and the reads as they are. -/
theorem of_eq (h : s.Frozen) (hqueued : t.runtime.queued = s.runtime.queued)
    (hsummary : t.runtime.summary = s.runtime.summary) (hpump : t.pump = s.pump)
    (hshutdowns : t.shutdowns = s.shutdowns) : t.Frozen where
  reads := by rw [hqueued, hpump, hshutdowns]; exact h.reads
  single := by rw [hqueued, hshutdowns]; exact h.single
  reported := by rw [hshutdowns, hsummary]; exact h.reported

theorem pump (h : s.Frozen) {stage : PumpStage} {r : CoreRuntime}
    {observed observed' : List (QueuedRecord × KeepOutcome)}
    (hmoves : CoreRuntime.PumpMoves s.runtime s.pump r stage observed)
    (hrunning : s.pump ≠ .exited) :
    Frozen { s with runtime := r, pump := stage, observed := observed' } := by
  by_cases hunread : ∀ c ∈ s.shutdowns, c.read? = none
  · exact of_unread hunread
  · -- a call has read, so the queue is empty and the pump holds nothing
    obtain ⟨c, hc, hread⟩ : ∃ c ∈ s.shutdowns, c.read? ≠ none := by simpa using hunread
    obtain ⟨left, hleft⟩ := Option.ne_none_iff_exists'.mp hread
    obtain ⟨-, hheld, hempty⟩ := h.reads c hc left hleft
    have hempty := hempty.resolve_right hrunning
    cases hmoves with
    | quiet hqueued hheld' hobserved hcounters hforwards =>
      have hsummary : r.summary = s.runtime.summary := by
        rw [CoreRuntime.summary, CoreRuntime.summary, hcounters, hforwards hheld]
      refine ⟨fun c hc left hread => ?_, Or.inl (hqueued.trans hempty), fun left summary hmem => ?_⟩
      · exact ⟨(h.reads c hc left hread).1.trans hqueued.symm, hheld'.trans hheld,
          Or.inl (hqueued.trans hempty)⟩
      · exact (h.reported left summary hmem).trans hsummary.symm
    | popped q hqueued hheld hheld' hobserved hsummary =>
      exact absurd (hempty.symm.trans hqueued) (by simp)
    | observed q outcome hqueued hholding hheld' hobserved hcounters =>
      exact absurd (hheld.symm.trans hholding) (by simp)

theorem handler (h : s.Frozen) {i : Nat} {before after : Handler} {handlers : List Handler}
    {r : CoreRuntime} (hget : s.handlers[i]? = some before)
    (hmoves : CoreRuntime.HandlerMoves s.runtime before r after)
    (hsettled : s.Settled (.handler i)) :
    Frozen { s with runtime := r, handlers := handlers } := by
  rcases hmoves.queued with ⟨hqueued, -⟩ | ⟨offer, rest, records, hstage, -, -⟩
  · exact h.of_eq hqueued hmoves.summary rfl rfl
  · refine of_unread (unread_iff.mp (hsettled ?_))
    rw [handsOver, hget]
    obtain ⟨call, stage, offered⟩ := before
    obtain rfl : stage = .offering (offer :: rest) records := hstage
    rfl

/-- The reads of the calls, when one of them read. -/
theorem length_reads_set {j : Nat} {before after : ShutdownStage} {left : List QueuedRecord}
    (hget : s.shutdowns[j]? = some before) (hbefore : before.read? = none)
    (hafter : after.read? = some left) :
    ((s.shutdowns.set j after).flatMap fun c => c.read?.toList).length =
      (s.shutdowns.flatMap fun c => c.read?.toList).length + 1 := by
  have hperm : ((s.shutdowns.set j after).flatMap fun c => c.read?.toList).Perm
      ((s.shutdowns.flatMap fun c => c.read?.toList) ++ [left]) :=
    flatMap_set_perm hget (List.Perm.of_eq (by rw [hbefore, hafter]; rfl))
  rw [hperm.length_eq, List.length_append, List.length_singleton]

/-- Two calls that read, and are not the same stage, are two reads. -/
theorem two_reads {j : Nat} {c d : ShutdownStage} {left left' : List QueuedRecord}
    (hget : s.shutdowns[j]? = some c) (hc : c.read? = some left) (hd : d ∈ s.shutdowns)
    (hread : d.read? = some left') (hne : d ≠ c) :
    2 ≤ (s.shutdowns.flatMap fun c => c.read?.toList).length := by
  obtain ⟨front, back, hsplit, -⟩ := split_of_getElem? hget
  have hmem : left' ∈ d.read?.toList := by
    rw [hread]
    exact List.mem_singleton_self left'
  have hpos : ∀ cs : List ShutdownStage, d ∈ cs →
      0 < (cs.flatMap fun c => c.read?.toList).length := fun cs hcs =>
    List.length_pos_of_mem (List.mem_flatMap.mpr ⟨d, hcs, hmem⟩)
  have hone : c.read?.toList.length = 1 := by rw [hc]; rfl
  rw [hsplit] at hd
  rw [hsplit, List.flatMap_append, List.flatMap_cons, List.length_append, List.length_append, hone]
  rcases List.mem_append.mp hd with hd | hd
  · have := hpos front hd
    omega
  · rcases List.mem_cons.mp hd with heq | hd
    · exact absurd heq hne
    · have := hpos back hd
      omega

theorem shutdown (h : s.Frozen) {j : Nat} {before after : ShutdownStage} {r : CoreRuntime}
    (hget : s.shutdowns[j]? = some before)
    (hmoves : CoreRuntime.ShutdownMoves s.runtime s.pump before r after)
    (hsettled : s.Settled (.shutdown j)) :
    Frozen { s with runtime := r, shutdowns := s.shutdowns.set j after } := by
  have hmem := List.mem_of_getElem? hget
  -- what the calls have read does not change where this one's read does not
  have hsame : ∀ after : ShutdownStage, after.read? = before.read? →
      ((s.shutdowns.set j after).flatMap fun c => c.read?.toList) =
        s.shutdowns.flatMap fun c => c.read?.toList := fun _ heq =>
    flatMap_set_eq hget (by rw [heq])
  cases hmoves with
  | quiet r after hqueued hsummary hread hread' =>
    refine ⟨?_, ?_, fun left summary hreturned => ?_⟩
    · rw [hqueued]
      exact forall_mem_set h.reads fun left hleft => absurd (hread'.symm.trans hleft) (by simp)
    · rw [hqueued, hsame _ (hread'.trans hread.symm)]
      exact h.single
    · rw [hsummary]
      rcases List.mem_or_eq_of_mem_set hreturned with hreturned | rfl
      · exact h.reported left summary hreturned
      · exact absurd hread' (by simp [ShutdownStage.read?])
  | reads hstage =>
    subst hstage
    have hreported : ∀ left summary, ShutdownStage.returned left summary ∈
        s.shutdowns.set j (.adding s.runtime.queued) → summary = s.runtime.summary :=
      fun left summary hreturned => by
        rcases List.mem_or_eq_of_mem_set hreturned with hreturned | heq
        · exact h.reported left summary hreturned
        · exact absurd heq (by simp)
    have hnext : s.readsNext j = true := by rw [readsNext, hget]
    rcases hsettled hnext with hidle | hfirst
    · obtain ⟨hempty, hheld⟩ : s.runtime.queued = [] ∧ s.pump.held = none := by simpa using hidle
      refine ⟨forall_mem_set (fun c hc left hread => h.reads c hc left hread)
        fun left hleft => ?_, Or.inl hempty, hreported⟩
      exact ⟨(Option.some.inj hleft).symm, hheld, Or.inl hempty⟩
    · obtain ⟨hexit, hall⟩ := Bool.and_eq_true_iff.mp hfirst
      have hexited := PumpStage.eq_exited_of_hasExited hexit
      have hunread := unread_iff.mp hall
      refine ⟨forall_mem_set (fun c hc left hread => h.reads c hc left hread)
        fun left hleft => ?_, Or.inr ?_, hreported⟩
      · exact ⟨(Option.some.inj hleft).symm, by rw [hexited]; rfl, Or.inr hexited⟩
      · -- no call has read before this one
        rw [length_reads_set hget rfl rfl]
        have hnone : (s.shutdowns.flatMap fun c => c.read?.toList) = [] := by
          rw [List.flatMap_eq_nil_iff]
          intro c hc
          rw [hunread c hc]
          rfl
        rw [hnone]
        exact le_refl 1
  | adds left hstage =>
    subst hstage
    obtain ⟨hleft, hheld, -⟩ := h.reads _ hmem left rfl
    refine ⟨forall_mem_set h.reads (h.reads (.adding left) hmem), ?_,
      fun left' summary hreturned => ?_⟩
    · rw [hsame (.reporting left) rfl]
      exact h.single
    · have hreturned : ShutdownStage.returned left' summary ∈ s.shutdowns := by
        rcases List.mem_or_eq_of_mem_set hreturned with hreturned | heq
        · exact hreturned
        · exact absurd heq (by simp)
      rw [h.reported left' summary hreturned]
      rcases h.single with hempty | hsingle
      · -- nothing was left, so nothing is added
        rw [hleft, hempty]
        rfl
      · exact absurd (two_reads hget rfl hreturned rfl (by simp)) (by omega)
  | reports left hstage =>
    subst hstage
    refine ⟨forall_mem_set h.reads (h.reads (.reporting left) hmem), ?_,
      fun left' summary hreturned => ?_⟩
    · rw [hsame (.returned left s.runtime.summary) rfl]
      exact h.single
    · rcases List.mem_or_eq_of_mem_set hreturned with hreturned | heq
      · exact h.reported left' summary hreturned
      · exact (ShutdownStage.returned.inj heq).2

/-- **A settled step keeps what was read.** -/
theorem step (h : s.Frozen) {e : Event} (hsettled : s.Settled e) (hstep : Step s e t) :
    t.Frozen := by
  cases stepped_of_step hstep with
  | handler standing next =>
    exact h.handler standing (CoreRuntime.handlerStep_spec next) hsettled
  | pump next =>
    obtain ⟨hmoves, hrunning⟩ := CoreRuntime.pumpStep_spec next
    exact h.pump hmoves hrunning
  | anchorDeadline deadline =>
    obtain ⟨hqueued, hsummary⟩ := s.runtime.anchorDeadline_frame deadline
    exact h.of_eq hqueued hsummary rfl rfl
  | callShutdown =>
    have hreads : ((s.shutdowns ++ [ShutdownStage.called]).flatMap fun c => c.read?.toList) =
        s.shutdowns.flatMap fun c => c.read?.toList := by
      rw [List.flatMap_append]
      exact List.append_nil _
    refine ⟨fun c hc left hread => ?_, by rw [hreads]; exact h.single, fun left summary hmem => ?_⟩
    · rcases List.mem_append.mp hc with hc | hc
      · exact h.reads c hc left hread
      · obtain rfl := List.mem_singleton.mp hc
        exact absurd hread (by simp [ShutdownStage.read?])
    · rcases List.mem_append.mp hmem with hmem | hmem
      · exact h.reported left summary hmem
      · exact absurd (List.mem_singleton.mp hmem) (by simp)
  | shutdown standing next =>
    exact h.shutdown standing (CoreRuntime.shutdownStep_spec next) hsettled
  | _ => exact h.of_eq rfl rfl rfl rfl

/-- Once a call has returned, what the calls dropped is what is left in the queue. -/
theorem dropped_eq (h : s.Frozen) {left : List QueuedRecord} {summary : RunSummary}
    (hreturned : .returned left summary ∈ s.shutdowns) :
    s.shutdowns.flatMap ShutdownStage.dropped = s.runtime.queued := by
  obtain ⟨hleft, -, -⟩ := h.reads _ hreturned left rfl
  have hread : ∀ c : ShutdownStage, ∀ q ∈ c.dropped, ∃ left, c.read? = some left ∧ q ∈ left := by
    intro c q hq
    cases c with
    | reporting left => exact ⟨left, rfl, hq⟩
    | returned left summary => exact ⟨left, rfl, hq⟩
    | _ => exact absurd hq (by simp [ShutdownStage.dropped])
  rcases h.single with hempty | hsingle
  · rw [hempty, List.flatMap_eq_nil_iff]
    intro c hc
    refine List.eq_nil_iff_forall_not_mem.mpr fun q hq => ?_
    obtain ⟨left', hread', hmem⟩ := hread c q hq
    rw [(h.reads c hc left' hread').1, hempty] at hmem
    exact absurd hmem (by simp)
  · -- this call alone has read, so it alone dropped
    obtain ⟨j, hget⟩ := List.getElem?_of_mem hreturned
    obtain ⟨front, back, hsplit, -⟩ := split_of_getElem? hget
    rw [hsplit, List.flatMap_append, List.flatMap_cons, List.length_append, List.length_append]
      at hsingle
    have hone : ((ShutdownStage.returned left summary).read?.toList).length = 1 := rfl
    have hnone : ∀ cs : List ShutdownStage, (cs.flatMap fun c => c.read?.toList).length = 0 →
        cs.flatMap ShutdownStage.dropped = [] := by
      intro cs hcs
      rw [List.length_eq_zero_iff, List.flatMap_eq_nil_iff] at hcs
      rw [List.flatMap_eq_nil_iff]
      intro c hc
      refine List.eq_nil_iff_forall_not_mem.mpr fun q hq => ?_
      obtain ⟨left', hread', -⟩ := hread c q hq
      have := hcs c hc
      rw [hread'] at this
      exact absurd this (by simp)
    rw [hsplit, List.flatMap_append, List.flatMap_cons, hnone front (by omega),
      hnone back (by omega), List.nil_append, List.append_nil]
    exact hleft

end Frozen

/-! ## The law -/

theorem counted_of_reaches {runtime : CoreRuntime} {Ok : Serving → Event → Prop} {s : Serving}
    (hcounters : runtime.counters = PumpCounters.default) (hqueued : runtime.queued = [])
    (h : Reaches Step Ok (start runtime) s) : s.Counted :=
  h.invariant (Counted.start hcounters hqueued) fun _ _ _ hs _ hstep => hs.step hstep

/-- The summaries the shutdown calls have returned. -/
def summaries (s : Serving) : List RunSummary := s.shutdowns.filterMap ShutdownStage.summary?

theorem mem_summaries {s : Serving} {summary : RunSummary} :
    summary ∈ s.summaries ↔ ∃ left, .returned left summary ∈ s.shutdowns := by
  rw [summaries, List.mem_filterMap]
  constructor
  · rintro ⟨c, hc, hsummary⟩
    cases c with
    | returned left summary' =>
      obtain rfl := Option.some.inj hsummary
      exact ⟨left, hc⟩
    | _ => exact absurd hsummary (by simp [ShutdownStage.summary?])
  · rintro ⟨left, hmem⟩
    exact ⟨_, hmem, rfl⟩

/-- **A shutdown accounts for what was acknowledged.**  In a run whose steps are all settled, once
every handler and a shutdown call have returned, each record an export reported as admitted is in
exactly one counter of the summary that call returned, which are the final counters; and every
other call that returned returned the same summary. -/
theorem shutdown_accounts {limits : BudgetLimits} {payloadCeilingBytes queueCeilingBytes : Nat}
    {config : RetentionConfig} {now : Nat} {s : Serving}
    (h : Reaches Step Settled
      (start (.build limits payloadCeilingBytes queueCeilingBytes config now)) s)
    (hreturned : ∀ handler ∈ s.handlers, handler.hasReturned = true) {summary : RunSummary}
    (hshutdown : summary ∈ s.summaries) :
    (∃ counted, AccountedFor summary.counters s.reported counted) ∧ summary = s.runtime.summary ∧
      ∀ other ∈ s.summaries, other = summary := by
  have hcounted := counted_of_reaches rfl rfl h
  have hfrozen : s.Frozen :=
    h.invariant (Frozen.start _) fun _ _ _ hs hok hstep => hs.step hok hstep
  obtain ⟨left, hmem⟩ := mem_summaries.mp hshutdown
  have hfinal := hfrozen.reported left summary hmem
  refine ⟨⟨s.counted, ?_, fun fate => ?_⟩, hfinal, fun other hother => ?_⟩
  · have hheld := (hfrozen.reads _ hmem left rfl).2.1
    have hconserved := hcounted.conserved
    rw [hheld, Option.toList_none, List.append_nil] at hconserved
    have hreported : s.reported = (s.handlers.flatMap Handler.offered).map QueuedRecord.entity := by
      rw [reported, List.map_flatMap]
      refine List.flatMap_congr fun handler hh => ?_
      exact (hcounted.balanced handler hh).reported_eq (hreturned handler hh)
    rw [counted, map_entity_fates, hfrozen.dropped_eq hmem, hreported]
    exact ((hconserved.trans List.perm_append_comm).map _).symm
  · rw [hfinal]
    exact hcounted.counts fate
  · obtain ⟨left', hmem'⟩ := mem_summaries.mp hother
    exact (hfrozen.reported left' other hmem').trans hfinal.symm

/-! ## Three runs -/

/-- What a run comes to: whether every handler has returned, how many records were reported as
admitted, and the summaries returned. -/
def closing (s : Serving) : Bool × Nat × List RunSummary :=
  (s.handlers.all Handler.hasReturned, s.reported.length, s.summaries)

/-- An export of one log record. -/
def oneLog : ExportCall := .logs ⟨0⟩ ⟨10, .ok [.ok (LogRecord.bare none none)]⟩

/-- A session under the default budgets, with room for a few records. -/
def small : Serving := start (.build .default 100 100000 InMemoryStore.windowConfig 0)

/-- A summary of so many kept and so many dropped. -/
def keptAndDropped (kept dropped : Nat) : RunSummary := ⟨⟨kept, 0, 0, 0, 0, 0, 0, dropped⟩, 0⟩

/-- Shutdown call 0 takes the workers, the drain deadline passes, and the pump exits. -/
def drainOut : List Event :=
  [.callShutdown, .shutdown 0, .shutdown 0, .shutdown 0, .advance (drainDeadlineNanos + 1), .pump]

/-- The rest of shutdown call `j`: it is let through, reads, adds and returns. -/
def readOut (j : Nat) : List Event := [.shutdown j, .shutdown j, .shutdown j, .shutdown j]

/-- Two exports of a record each: the pump takes the first before the shutdown begins, and the
second is left when the deadline passes. -/
def keptAndLeft : List Event :=
  [.arrive oneLog, .handler 0, .handler 0, .handler 0, .handler 0, .pump, .pump,
    .arrive oneLog, .handler 1, .handler 1, .handler 1, .handler 1, .pump, .pump, .pump] ++
  drainOut ++ readOut 0

/-- One record kept and one dropped, each counted once. -/
theorem shutdown_accounts_keptAndLeft : ∃ s, small.run (fun s e => decide (s.Settled e)) keptAndLeft =
    some s ∧ s.reported.length = 2 ∧
      ∃ counted, AccountedFor (keptAndDropped 1 1).counters s.reported counted := by
  obtain ⟨s, hrun, hclosing⟩ := Option.map_eq_some_iff.mp
    (show (small.run (fun s e => decide (s.Settled e)) keptAndLeft).map closing =
      some (true, 2, [keptAndDropped 1 1]) by decide +kernel)
  obtain ⟨hreturned, hcount, hsummaries⟩ : s.handlers.all Handler.hasReturned = true ∧
      s.reported.length = 2 ∧ s.summaries = [keptAndDropped 1 1] := by
    simpa [closing] using hclosing
  have hreach : Reaches Step Settled small s :=
    Reaches.weaken (fun _ _ h => of_decide_eq_true h) (reaches_of_runLabels hrun)
  exact ⟨s, hrun, hcount, (shutdown_accounts hreach (List.all_eq_true.mp hreturned)
    (by rw [hsummaries]; exact List.mem_singleton_self _)).1⟩

/-- A handler past the gate waits until the shutdown has read the queue. -/
def handedLate : List Event :=
  [.arrive oneLog, .handler 0] ++ drainOut ++ readOut 0 ++ [.handler 0, .handler 0, .handler 0]

/-- A record is left in the queue, and shutdown is called again. -/
def calledTwice : List Event :=
  [.arrive oneLog, .handler 0, .handler 0, .handler 0, .handler 0] ++ drainOut ++ readOut 0 ++
    .callShutdown :: readOut 1

/-- The record that is handed over late is acknowledged and in no counter; and a second call counts
what is left again, and returns another summary. -/
theorem not_shutdown_accounts :
    (¬ ∀ (limits : BudgetLimits) (payloadCeilingBytes queueCeilingBytes : Nat)
        (config : RetentionConfig) (now : Nat) (s : Serving),
      Reaches Step (fun _ _ => True)
          (start (.build limits payloadCeilingBytes queueCeilingBytes config now)) s →
        (∀ handler ∈ s.handlers, handler.hasReturned = true) → ∀ summary ∈ s.summaries,
          ∃ counted, AccountedFor summary.counters s.reported counted) ∧
    (¬ ∀ (limits : BudgetLimits) (payloadCeilingBytes queueCeilingBytes : Nat)
        (config : RetentionConfig) (now : Nat) (s : Serving),
      Reaches Step (fun _ _ => True)
          (start (.build limits payloadCeilingBytes queueCeilingBytes config now)) s →
        ∀ first ∈ s.summaries, ∀ second ∈ s.summaries, second = first) := by
  have hreach : ∀ {events s}, small.run (fun _ _ => true) events = some s →
      Reaches Step (fun _ _ => True) small s := fun hrun =>
    Reaches.weaken (fun _ _ _ => trivial) (reaches_of_runLabels hrun)
  constructor
  · intro hclaim
    obtain ⟨s, hrun, hclosing⟩ := Option.map_eq_some_iff.mp
      (show (small.run (fun _ _ => true) handedLate).map closing =
        some (true, 1, [keptAndDropped 0 0]) by decide +kernel)
    obtain ⟨hreturned, hcount, hsummaries⟩ : s.handlers.all Handler.hasReturned = true ∧
        s.reported.length = 1 ∧ s.summaries = [keptAndDropped 0 0] := by
      simpa [closing] using hclosing
    obtain ⟨counted, haccounted⟩ := hclaim _ _ _ _ _ s (hreach hrun)
      (List.all_eq_true.mp hreturned) (keptAndDropped 0 0)
      (by rw [hsummaries]; exact List.mem_singleton_self _)
    exact absurd (haccounted.sum_eq.trans hcount) (by decide)
  · intro hclaim
    obtain ⟨s, hrun, hclosing⟩ := Option.map_eq_some_iff.mp
      (show (small.run (fun _ _ => true) calledTwice).map closing =
        some (true, 1, [keptAndDropped 0 1, keptAndDropped 0 2]) by decide +kernel)
    obtain ⟨-, -, hsummaries⟩ : s.handlers.all Handler.hasReturned = true ∧
        s.reported.length = 1 ∧ s.summaries = [keptAndDropped 0 1, keptAndDropped 0 2] := by
      simpa [closing] using hclosing
    exact absurd (hclaim _ _ _ _ _ s (hreach hrun) (keptAndDropped 0 1) (by simp [hsummaries])
      (keptAndDropped 0 2) (by simp [hsummaries])) (by decide)

end Serving

end RuntimeTrail
