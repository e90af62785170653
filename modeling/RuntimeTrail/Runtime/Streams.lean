import RuntimeTrail.Runtime.Invariant

/-!
# Interned streams over a session's runs

The ledger interns a stream when it admits a point of it, and drops it when the
store says so.  Two questions about every interleaving:

* **is a stream ever left behind?** — no: with no point queued, held or resident
  and no hook running, nothing is interned (`no_stream_leaks`);
* **is a stream ever dropped too early?** — yes.  The store counts resident points
  only and a refused keep counts none, so a release can overtake a point of the
  stream that is queued, in the pump's hand, or resident beside the refused one
  (`not_stays_interned`).  `Spared` is what a step must avoid, and every run that
  avoids it keeps each live point's stream interned (`stays_interned`).
-/

namespace RuntimeTrail

open Library

/-! ## No stream is left behind -/

/-- **No stream leaks.**  Whatever was accepted, refused, saturated or evicted on the way, a
session with no live point and no hook running has no stream interned. -/
theorem no_stream_leaks {limits : BudgetLimits} {payloadCeilingBytes queueCeilingBytes : Nat}
    {config : RetentionConfig} {s : Session}
    (h : Reaches Session.Step Session.anyEvent
      (Session.new limits payloadCeilingBytes queueCeilingBytes config) s)
    (hpoints : ∀ e ∈ s.live, e.2.kind ≠ .point) (hquiet : s.hook = []) :
    s.ledger.residentStreams = 0 := by
  obtain ⟨ending, released, hsound⟩ := sound_of_reaches h
  obtain ⟨rfl, rfl⟩ := owed_eq_nil (hsound.hook.symm.trans hquiet)
  have hnone : backing s.live none = [] := by
    rw [backing, Option.toList_none, List.append_nil]
    refine List.filterMap_eq_nil_iff.mpr fun e he => ?_
    have hkind := hpoints e he
    cases hr : e.2 with
    | point slot => exact absurd (by rw [hr]; rfl) hkind
    | _ => rfl
  refine List.length_eq_zero_iff.mpr (List.eq_nil_iff_forall_not_mem.mpr fun p hp => ?_)
  obtain ⟨Q, hQ, -⟩ := hsound.backed p.1 (ContentMap.contains_iff.mpr ⟨p, hp, BEq.rfl⟩)
  rw [hnone] at hQ
  exact absurd hQ (by simp)

theorem no_stream_leaks_expired :
    ∃ s, Session.small.run (Session.keepPoint ⟨0⟩ ++ Session.expirePoint ⟨20⟩) = some s ∧
      s.ledger.residentStreams = 0 := by
  obtain ⟨s, hs⟩ := Option.isSome_iff_exists.mp (show (Session.small.run
    (Session.keepPoint ⟨0⟩ ++ Session.expirePoint ⟨20⟩)).isSome = true by decide)
  have hend : (Session.small.run (Session.keepPoint ⟨0⟩ ++ Session.expirePoint ⟨20⟩)).map
      (fun s => (s.pipeline.sink.items.length + s.held.toList.length + s.store.residentRecords,
        s.hook.isEmpty)) = some (0, true) := by decide
  rw [hs] at hend
  obtain ⟨hlength, hquiet⟩ := Prod.mk.inj (Option.some.inj hend)
  have hlive : s.live = [] := List.length_eq_zero_iff.mp ((Session.length_live s).trans hlength)
  exact ⟨s, hs, no_stream_leaks (Session.reaches_of_run hs) (by simp [hlive])
    (List.isEmpty_iff.mp hquiet)⟩

/-! ## When a stream is dropped too early -/

/-- The streams of what is queued. -/
def Session.queuedStreams (s : Session) : List StreamIdentity :=
  streamsOf (s.pipeline.sink.items.map QueuedRecord.entry)

/-- The streams of what the pump holds. -/
def Session.heldStreams (s : Session) : List StreamIdentity :=
  streamsOf (s.held.toList.map QueuedRecord.entry)

/-- A step that decides no release while a point of the stream stands elsewhere. -/
structure Spared (s : Session) (e : Session.Event) : Prop where
  /-- The store refuses no point while another one of its stream is queued or resident. -/
  refusal : e = .keepRecord → ∀ q P, s.held = some q → q.record.resident.stream? = some P →
    s.store.refusal q.entity q.record.resident ≠ none →
    ∀ Q ∈ s.queuedStreams ++ streamsOf s.store.merged, (Q == P) = false
  /-- No eviction takes a stream's last resident point while one is queued or held. -/
  eviction : e = .evictOne → ∀ oldest rest P, s.store.merged = oldest :: rest →
    oldest.2.stream? = some P → (∀ Q ∈ streamsOf rest, (Q == P) = false) →
    ∀ Q ∈ s.queuedStreams ++ s.heldStreams, (Q == P) = false
  /-- No export hands over a point of a stream whose release is under way. -/
  handOff : ∀ x, s.admitted e = some (.ok x) → s.pipeline.fits x.pending = true →
    ∀ P, .releaseStream P ∈ s.hook →
    ∀ Q ∈ streamsOf (Standing.offered x.pending), (Q == P) = false

/-- Every live point's stream is interned, and no release under way names one. -/
structure Interned (s : Session) : Prop where
  live : ∀ Q ∈ streamsOf s.live, s.ledger.streams.contains Q = true
  spared : ∀ P, .releaseStream P ∈ s.hook → ∀ Q ∈ streamsOf s.live, (Q == P) = false

theorem mem_streamsOf_live {s : Session} {Q : StreamIdentity} :
    Q ∈ streamsOf s.live ↔
      Q ∈ s.queuedStreams ∨ Q ∈ s.heldStreams ∨ Q ∈ streamsOf s.store.merged := by
  rw [Session.live, mem_streamsOf_append, mem_streamsOf_append]
  rfl

namespace Interned

variable {s t : Session} {ending : Option Entry} {released : Option StreamIdentity}

/-- A step that moves records between the parties, and nothing else. -/
theorem frame (h : Interned s) (hledger : t.ledger = s.ledger) (hhook : t.hook = s.hook)
    (hlive : s.live.Perm t.live) : Interned t where
  live Q hQ := by
    rw [hledger]
    exact h.live Q ((mem_streamsOf_perm hlive).mpr hQ)
  spared P hP Q hQ := h.spared P (hhook ▸ hP) Q ((mem_streamsOf_perm hlive).mpr hQ)

theorem exported (h : Interned s) (hsound : Sound s ending released) {e : Session.Event}
    (hspared : Spared s e) {admitted : Except AdmissionSignal Export}
    (he : s.admitted e = some admitted) :
    Interned { s with pipeline := (s.pipeline.ingest admitted).1 } := by
  have hkept : ∀ x, admitted = .ok x → ∀ Q ∈ streamsOf s.live,
      x.ledger.streams.contains Q = true ∧ ¬ FreshIn x.pending Q := fun x hx Q hQ =>
    Admits.keeps_chain (Session.admits_of_admitted (hx ▸ he)) (h.live Q hQ)
      (by rintro ⟨o, ho, -⟩; exact absurd ho (by simp [Pipeline.openExport]))
  rcases s.pipeline.ingest_cases admitted with ⟨signal, heq⟩ | ⟨x, rfl, hfits, hledger, hitems⟩ |
    ⟨x, rfl, -, hledger, hsink⟩
  · rw [heq]
    exact h
  · have hx := hsound.openExport.chain (Session.admits_of_admitted he) hsound.recordsBacked
    have hlive : ∀ Q, Q ∈ streamsOf
        (Session.live { s with pipeline := (s.pipeline.ingest (.ok x)).1 }) →
        Q ∈ streamsOf s.live ∨ Q ∈ streamsOf (Standing.offered x.pending) := fun Q hQ => by
      rw [mem_streamsOf_live] at hQ ⊢
      simp only [Session.queuedStreams, hitems, List.map_append, List.map_map,
        mem_streamsOf_append] at hQ
      rcases hQ with (hQ | hQ) | hQ
      · exact Or.inl (Or.inl hQ)
      · exact Or.inr hQ
      · exact Or.inl (Or.inr hQ)
    refine ⟨fun Q hQ => ?_, fun P hP Q hQ => ?_⟩
    · change (s.pipeline.ingest (.ok x)).1.ledger.streams.contains Q = true
      rw [hledger]
      rcases hlive Q hQ with hQ | hQ
      · exact (hkept x rfl Q hQ).1
      · exact hx.offered Q hQ
    · rcases hlive Q hQ with hQ | hQ
      · exact h.spared P hP Q hQ
      · exact hspared.handOff x he hfits P hP Q hQ
  · -- the undo releases no stream a live point is of
    have hlive : Session.live { s with pipeline := (s.pipeline.ingest (.ok x)).1 } = s.live := by
      simp only [Session.live, hsink]
    refine ⟨fun Q hQ => ?_, fun P hP Q hQ => h.spared P hP Q (hlive ▸ hQ)⟩
    change (s.pipeline.ingest (.ok x)).1.ledger.streams.contains Q = true
    rw [hledger, contains_undoExport]
    exact hkept x rfl Q (hlive ▸ hQ)

/-- A release the store has just decided names no stream of what is still live. -/
theorem ended {e : Entry} {P? : Option StreamIdentity} (h : Interned s)
    (hledger : t.ledger = s.ledger) (hhook : t.hook = owed (some e) P?)
    (hlive : s.live.Perm (e :: t.live))
    (hspared : ∀ P, P? = some P → ∀ Q ∈ streamsOf t.live, (Q == P) = false) : Interned t where
  live Q hQ := by
    rw [hledger]
    refine h.live Q ((mem_streamsOf_perm hlive).mpr ?_)
    exact (mem_streamsOf_append (a := [e])).mpr (Or.inr hQ)
  spared P hP Q hQ := by
    rw [hhook] at hP
    refine hspared P ?_ Q hQ
    cases P? with
    | none => exact absurd hP (by simp [owed])
    | some R => simpa [owed, eq_comm] using hP

/-- A call of the hook drops no stream a live point is of. -/
theorem called (h : Interned s) {call : LedgerCall} {rest : List LedgerCall}
    (hhook : s.hook = call :: rest) :
    Interned { s with
      pipeline := { s.pipeline with ledger := call.run s.ledger }, hook := rest } where
  live Q hQ := by
    change (call.run s.ledger).streams.contains Q = true
    cases call with
    | forget entity => exact (congrArg (·.contains Q) (s.ledger.streams_forget entity)).trans (h.live Q hQ)
    | releaseStream P =>
      have hne : (P == Q) = false := by
        rw [BEq.comm]
        exact h.spared P (by rw [hhook]; exact List.mem_cons_self) Q hQ
      change (s.ledger.streams.erase P).contains Q = true
      rw [ContentMap.contains_erase, hne, h.live Q hQ]
      rfl
  spared P hP Q hQ := h.spared P (by rw [hhook]; exact List.mem_cons_of_mem _ hP) Q hQ

/-- **A spared step keeps every live point's stream interned.** -/
theorem step (h : Interned s) (hsound : Sound s ending released) {e : Session.Event}
    (hspared : Spared s e) (hstep : s.Step e t) : Interned t := by
  cases Session.moves_of_step hstep with
  | exported admitted he => exact h.exported hsound hspared he
  | draining => exact h.frame rfl rfl (List.Perm.refl _)
  | popped q sink hheld hpop => exact h.frame rfl rfl (Session.live_popped hheld hpop rfl rfl rfl)
  | refused q outcome he hlock hheld hr =>
    have hsound' := hsound.refused hlock hheld hr
    have hmerged := s.store.merged_refuse q.entity q.record.resident outcome
    refine h.ended rfl hsound'.hook (Session.live_refused rfl hheld rfl hmerged)
      fun P hP Q hQ => ?_
    refine hspared.refusal he q P hheld hP (by rw [hr]; simp) Q ?_
    rw [mem_streamsOf_live] at hQ
    rcases hQ with hQ | hQ | hQ
    · exact List.mem_append_left _ hQ
    · exact absurd hQ (by simp [Session.heldStreams, streamsOf])
    · exact List.mem_append_right _ (hmerged ▸ hQ)
  | entered q hlock hheld hr =>
    exact h.frame rfl rfl (Session.live_kept rfl hheld rfl
      (hsound.coherent.tallied.merged_enter (InMemoryStore.not_holds_of_refusal hr)))
  | ticked now hlock => exact h.frame rfl rfl (List.Perm.refl _)
  | evicted now pass he hhook hnow hturn =>
    obtain ⟨e, hmerged, hsound'⟩ := hsound.evicted hhook hnow hturn
    refine h.ended rfl hsound'.hook (Session.live_evicted rfl rfl hmerged) fun P hP Q hQ => ?_
    unfold retired at hP
    split at hP
    · exact absurd hP (by simp)
    · rename_i R hR
      split at hP
      · exact absurd hP (by simp)
      · rename_i hlast
        obtain rfl : R = P := Option.some.inj hP
        have hlast : ∀ Q ∈ streamsOf pass.store.merged, (Q == R) = false := fun Q hQ => by
          simpa using fun hQR => hlast (List.any_eq_true.mpr ⟨Q, hQ, hQR⟩)
        have hothers := hspared.eviction he e pass.store.merged R hmerged hR hlast
        rw [mem_streamsOf_live] at hQ
        rcases hQ with hQ | hQ | hQ
        · exact hothers Q (List.mem_append_left _ hQ)
        · exact hothers Q (List.mem_append_right _ hQ)
        · exact hlast Q hQ
  | called call rest hhook => exact h.called hhook
  | unlocked hhook => exact h.frame rfl rfl (List.Perm.refl _)

end Interned

/-- **Streams stay interned in every run whose steps are spared.**  In every state such a run
reaches, a stream is interned while any point of it is queued, held by the pump, or resident. -/
theorem stays_interned {limits : BudgetLimits} {payloadCeilingBytes queueCeilingBytes : Nat}
    {config : RetentionConfig} {s : Session}
    (h : Reaches Session.Step Spared
      (Session.new limits payloadCeilingBytes queueCeilingBytes config) s) :
    ∀ e ∈ s.live, ∀ P, e.2.stream? = some P → s.ledger.streams.contains P = true := by
  have hboth := h.invariant
    (I := fun s => (∃ ending released, Sound s ending released) ∧ Interned s)
    ⟨⟨none, none, .new limits payloadCeilingBytes queueCeilingBytes config⟩, ?_⟩
    fun s e t ⟨⟨ending, released, hsound⟩, hs⟩ hspared hstep =>
      ⟨hsound.step hstep, hs.step hsound hspared hstep⟩
  · exact fun e he P hP => hboth.2.live P (List.mem_filterMap.mpr ⟨e, he, hP⟩)
  · refine ⟨fun Q hQ => absurd hQ ?_, fun P hP => absurd hP (by simp [Session.new])⟩
    rw [Session.live_new]
    simp [streamsOf]

/-- With no release under way, the events that decide none are spared. -/
theorem spared_of_quiet {s : Session} {e : Session.Event} (hhook : s.hook = [])
    (hkeep : e = .keepRecord → ∀ q, s.held = some q →
      s.store.refusal q.entity q.record.resident = none) (hevict : e ≠ .evictOne) :
    Spared s e where
  refusal he q P hheld _ hr := absurd (hkeep he q hheld) hr
  eviction he := absurd he hevict
  handOff x _ _ P hP := absurd hP (by simp [hhook])

theorem stays_interned_kept :
    ∃ s, Session.small.run (Session.keepPoint ⟨0⟩ ++ [.ingestMetrics ⟨5⟩ (Session.onePoint 5)]) =
        some s ∧ s.ledger.streams.contains (.bare "m" none) = true := by
  refine ⟨_, rfl, @stays_interned BudgetLimits.default 1000 100000 ⟨10, 100000, 10, 5⟩ _ ?_ _
    (List.mem_append_left _ List.mem_cons_self) _ rfl⟩
  refine Reaches.head (e := .ingestMetrics ⟨0⟩ (Session.onePoint 0))
    (spared_of_quiet rfl nofun nofun) rfl ?_
  refine Reaches.head (e := .pop) (spared_of_quiet rfl nofun nofun) rfl ?_
  refine Reaches.head (e := .keepRecord) (spared_of_quiet rfl (fun _ q hq => ?_) nofun) rfl ?_
  · obtain rfl := Option.some.inj hq
    decide
  · refine Reaches.head (e := .unlockStore) (spared_of_quiet rfl nofun nofun) rfl ?_
    exact Reaches.head (e := .ingestMetrics ⟨5⟩ (Session.onePoint 5))
      (spared_of_quiet rfl nofun nofun) rfl (Reaches.refl _)

/-- A point of the stream "m" with one attribute, too large for a store of 300 bytes. -/
def Session.largePoint : Payload (List WireMetric) :=
  ⟨1, .ok [⟨.ok (.bare "m" none),
    [.ok (.number ⟨⟨SortedMap.empty.insert "k" (.bool true)⟩, none, 5, .int 0, 0, []⟩)]⟩]⟩

/-- A point kept, and the next one of its stream refused as oversized. -/
def Session.refusingEvents : List Session.Event :=
  Session.keepPoint ⟨0⟩ ++ [.ingestMetrics ⟨5⟩ Session.largePoint, .pop, .keepRecord, .callLedger,
    .callLedger, .unlockStore]

/-- The stream of a resident point is dropped: another point of it is refused as oversized, and
the refusal releases the stream they share. -/
theorem not_stays_interned :
    ¬ ∀ (limits : BudgetLimits) (payloadCeilingBytes queueCeilingBytes : Nat)
      (config : RetentionConfig) (s : Session),
      Reaches Session.Step Session.anyEvent
        (Session.new limits payloadCeilingBytes queueCeilingBytes config) s →
      ∀ e ∈ s.live, ∀ P, e.2.stream? = some P → s.ledger.streams.contains P = true := by
  intro hclaim
  have hend : ((Session.new BudgetLimits.default 1000 100000 ⟨10, 300, 10, 5⟩).run
      Session.refusingEvents).map (fun s => (s.store.points.entries.isEmpty,
        s.ledger.residentStreams)) = some (false, 0) := by decide
  obtain ⟨s, hs, hs'⟩ := Option.map_eq_some_iff.mp hend
  obtain ⟨hresident, hnone⟩ := Prod.mk.inj hs'
  obtain ⟨p, hp⟩ := List.exists_mem_of_ne_nil _ (List.isEmpty_eq_false_iff.mp hresident)
  have hlive : p.2.stream ∈ streamsOf s.live := mem_streamsOf_live.mpr
    (Or.inr (Or.inr (InMemoryStore.mem_streamsOf_merged.mpr ⟨p, hp, rfl⟩)))
  obtain ⟨e, he, hstream⟩ := List.mem_filterMap.mp hlive
  have hin := hclaim _ _ _ _ s (Session.reaches_of_run hs) e he _ hstream
  obtain ⟨q, hq, -⟩ := ContentMap.contains_iff.mp hin
  rw [List.length_eq_zero_iff.mp hnone] at hq
  exact absurd hq (by simp)

end RuntimeTrail
