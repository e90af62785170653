import RuntimeTrail.Ingestion.Document
import RuntimeTrail.Runtime.Identities
import RuntimeTrail.Runtime.Journal

/-!
# Where the records of a session come from

What exporters were told and what the session has, over whole runs: each record an
export was answered about as admitted is live, or was evicted, or was refused at
its keep, and no record is there that no export brought.

* **the answers** — `Answered`: a record of an export, and the answer it was given;
* **the law** — `records_conserved`.
-/

namespace RuntimeTrail

open Library

/-! ## The answers -/

/-- Whether a resident record is a delivered one: its payload, and for a point an equal stream. -/
def Resident.Holds : Resident → Delivered → Prop
  | .span record, .span delivered => record.val = delivered
  | .log record, .log delivered => record.val = delivered
  | .point slot, .point delivered payload =>
    (slot.stream == delivered) = true ∧ slot.point.val = payload
  | _, _ => False

theorem StoredRecord.Holds.resident {record : StoredRecord} {delivered : Delivered}
    (h : record.Holds delivered) : record.resident.Holds delivered := by
  cases record <;> cases delivered <;> exact h

/-- An export of the run was answered, and a record it carries with it: admitted under the key's
entity id, at the key's time. -/
def Answered (start : Session) (events : List Session.Event) (key : AdmissionKey)
    (delivered : Delivered) : Prop :=
  ∃ front e back s journal call outcome, events = front ++ e :: back ∧
    start.journaled front = some (s, journal) ∧ e.call? = some call ∧
    (s.pipeline.call call).2 = .ok outcome ∧ call.now = key.admittedAt ∧
    ∃ i : Nat, call.records[i]? = some (.ok delivered) ∧
      outcome.records[i]? = some (RecordOutcome.admitted key.entity)

/-- What is queued of an export, it carried and answered as admitted. -/
theorem Handed.answered {now : AdmissionTime} {records : List (Except RecordRejection Delivered)}
    {outcomes : List RecordOutcome} {queued : List QueuedRecord}
    (h : Handed now records outcomes queued) {q : QueuedRecord} (hq : q ∈ queued) :
    ∃ (i : Nat) (delivered : Delivered), records[i]? = some (.ok delivered) ∧
      outcomes[i]? = some (RecordOutcome.admitted q.entity) ∧ q.admittedAt = now ∧
      q.record.Holds delivered := by
  induction h with
  | nil => cases hq
  | admitted delivered entity record holds rest ih =>
    rcases List.mem_cons.mp hq with rfl | hq
    · exact ⟨0, delivered, rfl, rfl, rfl, holds⟩
    · obtain ⟨i, delivered', hrecord, houtcome, hheld⟩ := ih hq
      exact ⟨i + 1, delivered', hrecord, houtcome, hheld⟩
  | refused reason rest ih =>
    obtain ⟨i, delivered', hrecord, houtcome, hheld⟩ := ih hq
    exact ⟨i + 1, delivered', hrecord, houtcome, hheld⟩
  | turned delivered outcome entered rest ih =>
    obtain ⟨i, delivered', hrecord, houtcome, hheld⟩ := ih hq
    exact ⟨i + 1, delivered', hrecord, houtcome, hheld⟩

/-- What an export answered as admitted is queued. -/
theorem Handed.queued {now : AdmissionTime} {records : List (Except RecordRejection Delivered)}
    {outcomes : List RecordOutcome} {queued : List QueuedRecord}
    (h : Handed now records outcomes queued) {i : Nat} {delivered : Delivered} {entity : EntityId}
    (hrecord : records[i]? = some (.ok delivered))
    (houtcome : outcomes[i]? = some (RecordOutcome.admitted entity)) :
    ∃ q ∈ queued, q.entity = entity ∧ q.admittedAt = now ∧ q.record.Holds delivered := by
  induction h generalizing i with
  | nil => cases hrecord
  | admitted delivered' entity' record holds rest ih =>
    cases i with
    | zero =>
      obtain rfl := Except.ok.inj (Option.some.inj hrecord)
      obtain rfl := RecordOutcome.admitted.inj (Option.some.inj houtcome)
      exact ⟨_, List.mem_cons_self, rfl, rfl, holds⟩
    | succ i =>
      obtain ⟨q, hq, hheld⟩ := ih hrecord houtcome
      exact ⟨q, List.mem_cons_of_mem _ hq, hheld⟩
  | refused reason rest ih =>
    cases i with
    | zero => cases hrecord
    | succ i => exact ih hrecord houtcome
  | turned delivered' outcome entered rest ih =>
    cases i with
    | zero => exact absurd (Option.some.inj houtcome) (entered entity)
    | succ i => exact ih hrecord houtcome

namespace Session

/-- An export that answers hands over what its answer says. -/
theorem handedOver_handed {s : Session} {e : Event} {call : ExportCall}
    (hcall : e.call? = some call) {outcome : ExportOutcome}
    (hanswer : (s.pipeline.call call).2 = .ok outcome) :
    ∃ queued, s.handedOver e = queued.map QueuedRecord.entry ∧
      Handed call.now call.records outcome.records queued := by
  rw [s.pipeline.call_eq] at hanswer
  unfold handedOver
  rw [s.admitted_eq, hcall, Option.map_some]
  cases hadmitted : s.pipeline.admitCall call with
  | error signal =>
    rw [hadmitted] at hanswer
    cases hanswer
  | ok x =>
    rw [hadmitted] at hanswer
    by_cases hfits : s.pipeline.fits x.pending = true
    · have hingest : (s.pipeline.ingest (.ok x)).2 = .ok ⟨x.records⟩ :=
        congrArg Prod.snd (if_pos hfits)
      obtain rfl := Except.ok.inj (hingest.symm.trans hanswer)
      refine ⟨x.pending.map (·.queued), ?_, Pipeline.handed_admitCall hadmitted⟩
      rw [List.map_map]
      exact if_pos hfits
    · have hingest : ∃ signal, (s.pipeline.ingest (.ok x)).2 = .error signal :=
        ⟨_, congrArg Prod.snd (if_neg hfits)⟩
      obtain ⟨signal, hsignal⟩ := hingest
      rw [hsignal] at hanswer
      cases hanswer

/-- A step that acknowledges a record is an export's that answered, and hands the record over. -/
theorem answered_of_acknowledged {s : Session} {e : Event} {record : Entry}
    (h : Remark.acknowledged record ∈ s.remarks e) :
    ∃ call outcome, e.call? = some call ∧ (s.pipeline.call call).2 = .ok outcome ∧
      record ∈ s.handedOver e := by
  have hover : record ∈ s.handedOver e := by
    cases e with
    | keepRecord =>
      simp only [remarks] at h
      split at h
      · split at h
        · rw [List.mem_singleton] at h
          cases h
        · cases h
      · cases h
    | evictOne =>
      simp only [remarks] at h
      split at h
      · split at h
        · obtain ⟨_, _, heq⟩ := List.mem_map.mp h
          cases heq
        · cases h
      · cases h
    | _ =>
      obtain ⟨_, hmem, heq⟩ := List.mem_map.mp h
      exact Remark.acknowledged.inj heq ▸ hmem
  unfold handedOver at hover
  rw [s.admitted_eq] at hover
  cases hcall : e.call? with
  | none =>
    rw [hcall] at hover
    cases hover
  | some call =>
    rw [hcall, Option.map_some] at hover
    cases hadmitted : s.pipeline.admitCall call with
    | error signal =>
      rw [hadmitted] at hover
      cases hover
    | ok x =>
      rw [hadmitted] at hover
      dsimp only at hover
      split at hover
      · rename_i hfits
        refine ⟨call, ⟨x.records⟩, rfl, ?_, ?_⟩
        · rw [s.pipeline.call_eq, hadmitted]
          exact congrArg Prod.snd (if_pos hfits)
        · unfold handedOver
          rw [s.admitted_eq, hcall, Option.map_some, hadmitted]
          dsimp only
          rwa [if_pos hfits]
      · cases hover

end Session

/-! ## The law -/

/-- What a run leaves account of. -/
structure Conserved (start : Session) (events : List Session.Event) (s : Session)
    (journal : List Remark) : Prop where
  /-- Each acknowledged record is live, or has departed, and is so once. -/
  conserved : (journal.filterMap Remark.acknowledged?).Perm
    (s.live ++ journal.filterMap Remark.departed?)
  once : (journal.filterMap Remark.acknowledged?).Nodup
  /-- The store's statistics count the departures, each under its cause. -/
  evictions : ∀ cause,
    (journal.filterMap Remark.cause?).count cause = s.store.counters.evictedFor cause
  refusals : (journal.filterMap Remark.outcome?).length = s.store.counters.refusals
  /-- What was acknowledged, an export carried and was answered about. -/
  answered : ∀ record ∈ journal.filterMap Remark.acknowledged?, ∃ delivered,
    Answered start events record.1 delivered ∧ record.2.Holds delivered
  /-- What an export was answered about as admitted, is acknowledged. -/
  acknowledged : ∀ key delivered, Answered start events key delivered →
    ∃ record ∈ journal.filterMap Remark.acknowledged?, record.1 = key ∧ record.2.Holds delivered

/-- An acknowledged record was answered about. -/
theorem answered_of_mem_journal {start s : Session} {events : List Session.Event}
    {journal : List Remark} (h : start.journaled events = some (s, journal)) {record : Entry}
    (hrecord : record ∈ journal.filterMap Remark.acknowledged?) :
    ∃ delivered, Answered start events record.1 delivered ∧ record.2.Holds delivered := by
  obtain ⟨remark, hremark, heq⟩ := List.mem_filterMap.mp hrecord
  obtain rfl : remark = .acknowledged record := by
    cases remark with
    | acknowledged other => rw [Option.some.inj heq]
    | _ => cases heq
  obtain ⟨front, e, back, u, before, rfl, hfront, hnoted⟩ := exists_noted h hremark
  obtain ⟨call, outcome, hcall, hanswer, hover⟩ := Session.answered_of_acknowledged hnoted
  obtain ⟨queued, hqueued, hhanded⟩ := Session.handedOver_handed hcall hanswer
  rw [hqueued] at hover
  obtain ⟨q, hq, rfl⟩ := List.mem_map.mp hover
  obtain ⟨i, delivered, hdelivered, houtcome, hnow, hholds⟩ := hhanded.answered hq
  exact ⟨delivered, ⟨front, e, back, u, before, call, outcome, rfl, hfront, hcall, hanswer,
    hnow.symm, i, hdelivered, houtcome⟩, hholds.resident⟩

/-- A record that was answered about is acknowledged. -/
theorem mem_journal_of_answered {start s : Session} {events : List Session.Event}
    {journal : List Remark} (h : start.journaled events = some (s, journal)) {key : AdmissionKey}
    {delivered : Delivered} (hanswered : Answered start events key delivered) :
    ∃ record ∈ journal.filterMap Remark.acknowledged?,
      record.1 = key ∧ record.2.Holds delivered := by
  obtain ⟨front, e, back, u, before, call, outcome, rfl, hfront, hcall, hanswer, hnow, i, hrecord,
    houtcome⟩ := hanswered
  obtain ⟨u', before', after, hfront', hback, rfl⟩ := journaled_append h
  obtain ⟨rfl, rfl⟩ := Prod.mk.inj (Option.some.inj (hfront.symm.trans hfront'))
  obtain ⟨v, rest, -, -, rfl⟩ := journaled_cons_eq_some hback
  obtain ⟨queued, hqueued, hhanded⟩ := Session.handedOver_handed hcall hanswer
  obtain ⟨q, hq, hentity, hadmitted, hholds⟩ := hhanded.queued hrecord houtcome
  refine ⟨q.entry, List.mem_filterMap.mpr ⟨.acknowledged q.entry, ?_, rfl⟩, ?_, hholds.resident⟩
  · refine List.mem_append_right _ (List.mem_append_left _ ?_)
    have hremarks : u.remarks e = (u.handedOver e).map .acknowledged := by
      cases e with
      | keepRecord => cases hcall
      | evictOne => cases hcall
      | _ => rfl
    rw [hremarks, hqueued]
    exact List.mem_map_of_mem (List.mem_map_of_mem hq)
  · obtain ⟨admittedAt, entity⟩ := key
    obtain ⟨entity', admittedAt', record⟩ := q
    obtain rfl : entity' = entity := hentity
    obtain rfl : admittedAt' = admittedAt := hadmitted.trans hnow
    rfl

/-- **Records are conserved.**  Whatever the exports, the pump, the store and its passes do, and in
whatever order: the records exporters were told are admitted are the records that are queued, held or
resident and those that were evicted or refused at their keep, each of them once; the statistics count
the departures, cause by cause; and each of the records is, in its payload, the one record of the one
export whose answer named its entity id. -/
theorem records_conserved (limits : BudgetLimits) (payloadCeilingBytes queueCeilingBytes : Nat)
    (config : RetentionConfig) (events : List Session.Event) (s : Session) (journal : List Remark)
    (h : (Session.new limits payloadCeilingBytes queueCeilingBytes config).journaled events =
      some (s, journal)) :
    Conserved (Session.new limits payloadCeilingBytes queueCeilingBytes config) events s journal := by
  have hrecord := OnRecord.of_journaled h
  exact ⟨hrecord.conserved, hrecord.recorded.apart.of_map _, hrecord.evictions, hrecord.refusals,
    fun _ hmem => answered_of_mem_journal h hmem, fun _ _ => mem_journal_of_answered h⟩

/-- Three records acknowledged, of which one expired. -/
theorem records_conserved_expiring : ∃ s journal,
    Session.small.journaled Session.expiringEvents = some (s, journal) ∧
      (journal.filterMap Remark.acknowledged?).length = 3 ∧
      (journal.filterMap Remark.cause?) = [.admissionWindow] ∧
      Conserved Session.small Session.expiringEvents s journal := by
  obtain ⟨⟨s, journal⟩, hrun, hcheck⟩ : ∃ r,
      Session.small.journaled Session.expiringEvents = some r ∧
        (decide ((r.2.filterMap Remark.acknowledged?).length = 3) &&
          decide (r.2.filterMap Remark.cause? = [.admissionWindow])) = true :=
    (Option.any_eq_true _ _).mp (by decide +kernel)
  rw [Bool.and_eq_true] at hcheck
  exact ⟨s, journal, hrun, of_decide_eq_true hcheck.1, of_decide_eq_true hcheck.2,
    records_conserved _ _ _ _ _ _ _ hrun⟩

end RuntimeTrail
