import RuntimeTrail.Runtime.Invariant

/-!
# One identity, one record

A natural identity is standing in the ledger for exactly as long as its record is
queued, held by the pump, or resident.  Between the store's decision that a
record leaves and the hook's call there is a moment in which the ledger still
has it; with no call owed there is none, and the ledger's three maps are the
live records' identities, entry for entry (`identities_one_to_one`).

What follows from it: no keep of the pump meets its own record as a duplicate,
and an identity that no live record has is free again.
-/

namespace RuntimeTrail

open Library

namespace Standing

variable {l : AdmissionLedger} {records : List Entry}

/-- No two of the records have one natural identity. -/
theorem spans_distinct (h : Standing l records) :
    (records.filterMap spanEntry).Pairwise (fun a b => (a.1 == b.1) = false) :=
  (h.spans.pairwise_iff fun {a b} hab => by rw [BEq.comm, hab]).mp l.spans.distinct

/-- No two of the records have one point identity. -/
theorem points_distinct (h : Standing l records) :
    (records.filterMap pointEntry).Pairwise (fun a b => (a.1 == b.1) = false) :=
  (h.points.pairwise_iff fun {a b} hab => by rw [BEq.comm, hab]).mp l.points.distinct

/-- A span whose natural identity no record has is admitted, if its budgets allow it. -/
theorem admits_span (h : Standing l records) {span : Span} {key : TraceId × SpanId}
    (hgate : checkSpan span l.limits = .ok ()) (hnat : span.naturalIdentity = some key)
    (hfree : ∀ e ∈ records, e.1.entity ≠ .span key.1 key.2) (addr : Nat) :
    (l.admitSpan addr span).2.outcome = .admitted (.span key.1 key.2) :=
  AdmissionLedger.admitSpan_of_absent hgate hnat (h.spans_getPair?_eq_none_iff.mpr hfree) addr

/-- A point whose identity no record has is admitted, if its gates allow it. -/
theorem admits_point (h : Standing l records) {stream : StreamIdentity} {point : MetricPoint}
    {addr : Nat} (hgate : l.gatePoint stream point = .ok ())
    (hfree : ∀ e ∈ records, ∀ p, pointEntry e = some p →
      (p.1 == .ofInterned stream ⟨addr, point⟩) = false) :
    (l.admitMetricPoint addr stream point).2.outcome = .admitted (.assigned l.nextAssigned) := by
  refine AdmissionLedger.admitMetricPoint_of_absent hgate ?_
  rw [ContentMap.getPair?_eq_none_iff]
  intro p hp
  obtain ⟨e, he, hentry⟩ := List.mem_filterMap.mp (h.points.mem_iff.mp hp)
  exact hfree e he p hentry

end Standing

/-- The pump's keep is not refused as a duplicate of what is resident. -/
theorem Sound.keep_ne_duplicate {s : Session} {ending : Option Entry}
    {released : Option StreamIdentity} (h : Sound s ending released) {q : QueuedRecord}
    (hheld : s.held = some q) : (s.store.apply q.keepOp).2.1 ≠ .keep .duplicate := by
  rw [InMemoryStore.apply_keep q.offer_keepOp]
  intro hdup
  have hdup : (s.store.keepResident q.entry.1 q.record.resident).outcome = .duplicate :=
    StoreReply.keep.inj hdup
  unfold InMemoryStore.keepResident at hdup
  split at hdup
  · rename_i outcome hr
    have houtcome : (s.store.refuse q.entry.1.entity q.record.resident outcome).outcome =
        outcome := by unfold InMemoryStore.refuse; split <;> rfl
    rw [houtcome] at hdup
    have hholds := InMemoryStore.holds_of_duplicate (hdup ▸ hr)
    have hfresh : s.store.holds q.entry.1.entity q.record.resident = false := h.not_duplicate hheld
    rw [hfresh] at hholds
    exact absurd hholds (by simp)
  · exact absurd hdup (by simp)

/-- **Identities and live records are one to one.**  In every state any interleaving reaches, a
keep of the pump is never a duplicate; and where no hook is running, the ledger's maps are the
identities of the live records, one entry for each and no two alike, and any identity that no
live record has is admitted when it is delivered within its gates. -/
theorem identities_one_to_one {limits : BudgetLimits}
    {payloadCeilingBytes queueCeilingBytes : Nat} {config : RetentionConfig} {s : Session}
    (h : Reaches Session.Step Session.anyEvent
      (Session.new limits payloadCeilingBytes queueCeilingBytes config) s) :
    (∀ q, s.held = some q → (s.store.apply q.keepOp).2.1 ≠ .keep .duplicate) ∧
    (s.hook = [] →
      (Standing s.ledger s.live ∧
        (s.live.filterMap spanEntry).Pairwise (fun a b => (a.1 == b.1) = false) ∧
        (s.live.filterMap pointEntry).Pairwise (fun a b => (a.1 == b.1) = false)) ∧
      (∀ addr span key, span.naturalIdentity = some key →
        checkSpan span s.ledger.limits = .ok () →
        (∀ e ∈ s.live, e.1.entity ≠ .span key.1 key.2) →
        (s.ledger.admitSpan addr span).2.outcome = .admitted (.span key.1 key.2)) ∧
      ∀ addr stream point, s.ledger.gatePoint stream point = .ok () →
        (∀ e ∈ s.live, ∀ p, pointEntry e = some p →
          (p.1 == .ofInterned stream ⟨addr, point⟩) = false) →
        (s.ledger.admitMetricPoint addr stream point).2.outcome =
          .admitted (.assigned s.ledger.nextAssigned)) := by
  obtain ⟨ending, released, hsound⟩ := sound_of_reaches h
  refine ⟨fun q hheld => hsound.keep_ne_duplicate hheld, fun hquiet => ?_⟩
  obtain ⟨rfl, rfl⟩ := owed_eq_nil (hsound.hook.symm.trans hquiet)
  have hstanding : Standing s.ledger s.live := hsound.standing
  exact ⟨⟨hstanding, hstanding.spans_distinct, hstanding.points_distinct⟩,
    fun addr span key hnat hgate hfree => hstanding.admits_span hgate hnat hfree addr,
    fun addr stream point hgate hfree => hstanding.admits_point hgate hfree⟩

/-- A span kept, a point kept and expired, and the next one of its stream still queued. -/
def Session.expiringEvents : List Session.Event :=
  [.ingestSpans ⟨15⟩ ⟨1, .ok [.ok (.bare 1 1)]⟩, .pop, .keepRecord, .unlockStore] ++
    Session.keepPoint ⟨0⟩ ++ [.ingestMetrics ⟨5⟩ (Session.onePoint 5)] ++ Session.expirePoint ⟨20⟩

theorem identities_one_to_one_expiring :
    ∃ s, Session.small.run Session.expiringEvents = some s ∧ Standing s.ledger s.live := by
  obtain ⟨s, hs⟩ := Option.isSome_iff_exists.mp
    (show (Session.small.run Session.expiringEvents).isSome = true by decide)
  have hquiet : (Session.small.run Session.expiringEvents).map (·.hook.isEmpty) = some true := by
    decide
  rw [hs] at hquiet
  have h := identities_one_to_one (Session.reaches_of_run hs)
  exact ⟨s, hs, (h.2 (List.isEmpty_iff.mp (Option.some.inj hquiet))).1.1⟩

end RuntimeTrail
