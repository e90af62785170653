import RuntimeTrail.Memory.Retention

/-!
# The reports of a store are exact

The admission side forgets what the store reports gone, so a missed or doubled
call blocks an identity for ever or frees one that still stands.  What a run
reports is said by its records alone:

* **refusals** — `Refused`: nothing resident moves, one refusal counter counts it,
  and the refusal is reported once, the duplicate's not at all;
* **evictions** — `evictionLog`: the calls a pass makes are a function of what left
  and what stayed, each record once in the order it left, and after it its stream
  when no point of that stream is left behind it;
* **the balance** — every record kept is resident or counted evicted.

All three hold of every run (`reports_exact`).
-/

namespace RuntimeTrail

open Library

/-! ## The reference log -/

/-- The call that retires a point's stream, when none of these records is a point of it. -/
def releaseCall (stream : Option StreamIdentity) (later : List Entry) : List HookCall :=
  match stream with
  | none => []
  | some stream =>
    if (streamsOf later).any (· == stream) then [] else [.streamReleased stream]

/-- What evicting these records in order reports, where `rest` stays. -/
def evictionLog (rest : List Entry) : List Entry → List HookCall
  | [] => []
  | e :: removed =>
    .evicted e.1.entity :: releaseCall e.2.stream? (removed ++ rest) ++ evictionLog rest removed

/-- Every eviction, all causes together. -/
def Counters.evictions (counters : Counters) : Nat :=
  counters.evictedForRecordCeiling + counters.evictedForAccountedBytesCeiling +
    counters.evictedForAdmissionWindow

/-- Every refusal of a keep, all causes together. -/
def Counters.refusals (counters : Counters) : Nat :=
  counters.oversizedRefusals + counters.duplicateKeeps + counters.keptOutSeriesCap +
    counters.identityOverCeilingRefusals

theorem Counters.evictions_countEviction (counters : Counters) (cause : EvictionCause) :
    (counters.countEviction cause).evictions = counters.evictions + 1 := by
  cases cause <;> simp only [countEviction, evictions] <;> omega

theorem Counters.refusals_countRefusal {counters : Counters} {outcome : KeepOutcome}
    (h : ∀ n, outcome ≠ .kept n) :
    (counters.countRefusal outcome).refusals = counters.refusals + 1 := by
  cases outcome with
  | kept n => exact absurd rfl (h n)
  | _ => simp only [countRefusal, refusals]; omega

/-- Whether a keep was accepted. -/
def StoreReply.isKept : StoreReply → Bool
  | .keep (.kept _) => true
  | _ => false

namespace InMemoryStore

/-! ## What a refusal does -/

/-- A refused keep: the residents, the accounts and the series table as they were, its one counter,
and one report unless it is a duplicate. -/
structure Refused (s : InMemoryStore) (key : AdmissionKey) (r : Resident) (outcome : KeepOutcome)
    (s' : InMemoryStore) (calls : List HookCall) : Prop where
  spans : s'.spans = s.spans
  logs : s'.logs = s.logs
  points : s'.points = s.points
  series : s'.series = s.series
  accountedBytes : s'.accountedBytes = s.accountedBytes
  counters : s'.counters = { s.counters.countRefusal outcome with
    refusedHookDeliveries := s.counters.refusedHookDeliveries + calls.length }
  refusals : s'.counters.refusals = s.counters.refusals + 1
  calls : calls = if s.hook = true ∧ outcome ≠ .duplicate then
    [.keepRefused key.entity r.stream?] else []

theorem refused_of_refusal {s : InMemoryStore} {key : AdmissionKey} {r : Resident}
    {outcome : KeepOutcome} (h : s.refusal key.entity r = some outcome) :
    s.Refused key r outcome (s.refuse key.entity r outcome).store
      (s.refuse key.entity r outcome).calls := by
  have hkept : ∀ n, outcome ≠ .kept n := by rintro n rfl; exact refusal_ne_kept h
  obtain ⟨hspans, hlogs, hpoints, hseries, htotal, -⟩ := s.refuse_frame key.entity r outcome
  have hrefused : (s.counters.countRefusal outcome).refusedHookDeliveries =
      s.counters.refusedHookDeliveries := by cases outcome <;> rfl
  have hreported : outcome.reported = true ↔ outcome ≠ .duplicate := by
    cases outcome with
    | kept n => exact absurd rfl (hkept n)
    | _ => simp [KeepOutcome.reported]
  have hcalls : (s.refuse key.entity r outcome).calls =
      if s.hook = true ∧ outcome ≠ .duplicate then [.keepRefused key.entity r.stream?] else [] := by
    unfold refuse reportRefusal
    by_cases hd : outcome.reported = true
    · by_cases hhook : s.hook = true <;> simp [hd, hhook, hreported.mp hd]
    · have : outcome = .duplicate := by simpa using fun h => hd (hreported.mpr h)
      rw [if_neg hd, if_neg (by simp [this])]
  have hcounters : (s.refuse key.entity r outcome).store.counters =
      { s.counters.countRefusal outcome with
        refusedHookDeliveries :=
          s.counters.refusedHookDeliveries + (s.refuse key.entity r outcome).calls.length } := by
    unfold refuse reportRefusal
    by_cases hd : outcome.reported = true
    · by_cases hhook : s.hook = true
      · simp [hd, hhook, hrefused]
      · simp [hd, hhook, ← hrefused]
    · simp [hd, ← hrefused]
  refine ⟨hspans, hlogs, hpoints, hseries, ?_, hcounters, ?_, hcalls⟩
  · rw [accountedBytes, accountedBytes, recordAccountedBytes, recordAccountedBytes, hspans, hlogs,
      hpoints, htotal]
  · rw [hcounters]
    exact Counters.refusals_countRefusal hkept

/-! ## What a pass does -/

/-- What a pass from `s` leaves: the records before what stays are gone, counted, and logged. -/
structure Evicted (s : InMemoryStore) (order removed : List Entry) (s' : InMemoryStore)
    (calls : List HookCall) : Prop where
  order_eq : order = removed ++ s'.merged
  counted : s'.counters.evictions = s.counters.evictions + removed.length
  calls : calls = if s.hook then evictionLog s'.merged removed else []

/-- A removal retires a point's stream exactly when no point of it stays. -/
theorem Removes.released_eq {s s' : InMemoryStore} (hc : s.Coherent) {key : AdmissionKey}
    {released : Option StreamIdentity} {r : Resident} (h : s.Removes key released s' r) :
    evictionCalls true key released = .evicted key.entity :: releaseCall r.stream? s'.merged := by
  cases r with
  | span record => obtain ⟨spans, -, -, rfl⟩ := h; rfl
  | log record => obtain ⟨logs, -, -, rfl⟩ := h; rfl
  | point slot =>
    obtain ⟨points, hpop, rfl, hreleased⟩ := h
    have hentries := (Shelf.popSmallest_eq_some hpop).1
    have hpoints := (releaseStreamRef_shelves { s with points := points } slot.stream).2.2
    have hany : (streamsOf (releaseStreamRef { s with points := points } slot.stream).1.merged).any
        (· == slot.stream) = true ↔ points.pointCount slot.stream ≠ 0 := by
      rw [List.any_eq_true, ← Nat.pos_iff_ne_zero, Shelf.pointCount, List.countP_pos_iff]
      constructor
      · rintro ⟨stream, hs, heq⟩
        obtain ⟨p, hp, rfl⟩ := mem_streamsOf_merged.mp hs
        exact ⟨p, by rw [hpoints] at hp; exact hp, heq⟩
      · rintro ⟨p, hp, heq⟩
        exact ⟨_, mem_streamsOf_merged.mpr ⟨p, by rw [hpoints]; exact hp, rfl⟩, heq⟩
    by_cases hlast : points.pointCount slot.stream = 0
    · have hflag : (releaseStreamRef { s with points := points } slot.stream).2 = true := by
        rw [releaseStreamRef_eq hc.series hentries, if_pos hlast]
      have hcall : releaseCall (some slot.stream)
          (releaseStreamRef { s with points := points } slot.stream).1.merged =
          [.streamReleased slot.stream] := if_neg fun h => hany.mp h hlast
      rw [hreleased, if_pos hflag, Resident.stream?, hcall]
      rfl
    · have hflag : ¬ (releaseStreamRef { s with points := points } slot.stream).2 = true := by
        rw [releaseStreamRef_eq hc.series hentries, if_neg hlast]
        simp
      have hcall : releaseCall (some slot.stream)
          (releaseStreamRef { s with points := points } slot.stream).1.merged = [] :=
        if_pos (hany.mpr hlast)
      rw [hreleased, if_neg hflag, Resident.stream?, hcall]
      rfl

/-- **A pass logs what left.** -/
theorem evicted_of_pass {s : InMemoryStore} (hc : s.Coherent) (now : AdmissionTime) :
    ∃ removed, s.Evicted s.merged removed (s.enforceAgainst now).store
        (s.enforceAgainst now).calls ∧ (s.enforceAgainst now).evicted = removed.length := by
  have hrun := (passLoop now).run_induct (P := fun a r => a.store.Coherent →
      ∃ removed, a.store.merged = removed ++ r.store.merged ∧
        r.store.counters.evictions = a.store.counters.evictions + removed.length ∧
        r.evicted = a.evicted + removed.length ∧
        r.calls = a.calls ++ if a.store.hook then evictionLog r.store.merged removed else [])
    (fun a _ _ => ⟨[], rfl, rfl, rfl, by cases a.store.hook <;> simp [evictionLog]⟩) ?_
    ⟨s, 0, []⟩ hc
  · obtain ⟨removed, horder, hcount, hevicted, hcalls⟩ := hrun
    exact ⟨removed, ⟨horder, hcount, by rw [enforceAgainst, hcalls]; rfl⟩, by
      rw [enforceAgainst, hevicted, Nat.zero_add]⟩
  · intro a a' hstep ih ha
    generalize (passLoop now).run a' = fin at ih ⊢
    obtain ⟨removed, horder, hcount, hevicted, hcalls⟩ := ih (ha.evictOne hstep)
    obtain ⟨cause, key, r, released, s', -, hmerged, hremoves, rfl⟩ := evictOne_spec hstep
    obtain ⟨-, hhook, hcounters, -⟩ := hremoves.frame
    have hstay : s'.merged = removed ++ fin.store.merged := horder
    have hevictions : (if s'.hook then
        { s'.counters.countEviction cause with
          hookDeliveries := (s'.counters.countEviction cause).hookDeliveries + 1 }
        else s'.counters.countEviction cause).evictions = a.store.counters.evictions + 1 := by
      rw [← hcounters, ← Counters.evictions_countEviction s'.counters cause]
      split <;> rfl
    refine ⟨(key, r) :: removed, ?_, ?_, ?_, ?_⟩
    · rw [hmerged, hstay, List.cons_append]
    · rw [hcount, hevictions, List.length_cons]
      omega
    · rw [hevicted, List.length_cons]
      change a.evicted + 1 + removed.length = _
      omega
    · rw [hcalls]
      change (a.calls ++ evictionCalls s'.hook key released) ++ (if s'.hook then _ else _) = _
      rw [hhook, List.append_assoc]
      cases hh : a.store.hook with
      | false => simp [evictionCalls]
      | true =>
        rw [if_pos rfl, if_pos rfl, hremoves.released_eq ha, hstay]
        rfl

/-! ## Every run -/

/-- What one operation reports, in full. -/
structure Reports (s : InMemoryStore) (op : StoreOp) (s' : InMemoryStore) (reply : StoreReply)
    (calls : List HookCall) : Prop where
  refused : ∀ key r outcome, op.offer = some (key, r) → reply = .keep outcome →
    (∀ n, outcome ≠ .kept n) → s.Refused key r outcome s' calls
  kept : ∀ key r n, op.offer = some (key, r) → reply = .keep (.kept n) →
    ∃ order removed : List Entry, order.Perm ((key, r) :: s.merged) ∧
      order.Pairwise (fun a b => a.1 ≤ b.1) ∧ s.Evicted order removed s' calls ∧
      n = removed.length
  swept : ∀ now, op = .enforceRetention now →
    ∃ removed, s.Evicted s.merged removed s' calls ∧ reply = .evicted removed.length
  silent : op.offer = none → (∀ now, op ≠ .enforceRetention now) →
    calls = [] ∧ s'.merged = s.merged ∧ s'.counters = s.counters

theorem reports_of_coherent {s : InMemoryStore} (hc : s.Coherent) (op : StoreOp) :
    s.Reports op (s.apply op).1 (s.apply op).2.1 (s.apply op).2.2 := by
  rcases apply_cases s op with ⟨key, r, hoffer, outcome, hr, heq⟩ | ⟨key, r, hoffer, hr, heq⟩ |
    ⟨now, rfl, heq⟩ | ⟨hoffer, hsweep, anomalies, reply, hreply, heq⟩
  · rw [heq]
    refine ⟨?_, ?_, ?_, ?_⟩
    · rintro key' r' outcome' hoffer' houtcome -
      obtain ⟨rfl, rfl⟩ := Prod.mk.inj (Option.some.inj (hoffer.symm.trans hoffer'))
      obtain rfl := StoreReply.keep.inj houtcome
      exact refused_of_refusal hr
    · rintro key' r' n - hkept
      exact absurd (StoreReply.keep.inj hkept ▸ hr) refusal_ne_kept
    · rintro now rfl
      exact absurd hoffer (by simp [StoreOp.offer])
    · rintro hnone -
      exact absurd (hoffer.symm.trans hnone) (by simp)
  · obtain ⟨removed, hevicted, hcount⟩ := evicted_of_pass (hc.enter hr) key.admittedAt
    obtain ⟨-, hhook, hcounters, -⟩ := s.enter_frame key r
    rw [heq]
    refine ⟨?_, ?_, ?_, ?_⟩
    · rintro key' r' outcome - houtcome hne
      exact absurd (StoreReply.keep.inj houtcome).symm (hne _)
    · rintro key' r' n hoffer' hkept
      obtain ⟨rfl, rfl⟩ := Prod.mk.inj (Option.some.inj (hoffer.symm.trans hoffer'))
      refine ⟨_, removed, hc.tallied.merged_enter (not_holds_of_refusal hr), merged_sorted _,
        ⟨hevicted.order_eq, ?_, ?_⟩, ?_⟩
      · rw [hevicted.counted, hcounters]
      · rw [hevicted.calls, hhook]
      · rw [← hcount]
        exact (KeepOutcome.kept.inj (StoreReply.keep.inj hkept)).symm
    · rintro now rfl
      exact absurd hoffer (by simp [StoreOp.offer])
    · rintro hnone -
      exact absurd (hoffer.symm.trans hnone) (by simp)
  · obtain ⟨removed, hevicted, hcount⟩ := evicted_of_pass hc now
    rw [heq]
    refine ⟨?_, ?_, ?_, ?_⟩
    · rintro key r outcome hoffer
      exact absurd hoffer (by simp [StoreOp.offer])
    · rintro key r n hoffer
      exact absurd hoffer (by simp [StoreOp.offer])
    · rintro now' hnow
      obtain rfl := StoreOp.enforceRetention.inj hnow
      exact ⟨removed, hevicted, by rw [hcount]⟩
    · rintro - hnow
      exact absurd rfl (hnow now)
  · rw [heq]
    refine ⟨?_, ?_, ?_, fun _ _ => ⟨rfl, rfl, rfl⟩⟩
    · rintro key r outcome hoffer'
      exact absurd (hoffer.symm.trans hoffer') (by simp)
    · rintro key r n hoffer'
      exact absurd (hoffer.symm.trans hoffer') (by simp)
    · rintro now rfl
      exact absurd rfl (hsweep now)

/-- One operation keeps the balance of what was kept and what is resident or evicted. -/
theorem kept_balance {s : InMemoryStore} (hc : s.Coherent) (op : StoreOp) :
    (if (s.apply op).2.1.isKept then 1 else 0) + s.residentRecords + s.counters.evictions =
      (s.apply op).1.residentRecords + (s.apply op).1.counters.evictions := by
  have hpass : ∀ {s : InMemoryStore}, s.Coherent → ∀ now,
      (s.enforceAgainst now).store.residentRecords +
          (s.enforceAgainst now).store.counters.evictions =
        s.residentRecords + s.counters.evictions := fun {s} hc now => by
    obtain ⟨removed, hevicted, -⟩ := evicted_of_pass hc now
    have hlen := congrArg List.length hevicted.order_eq
    rw [List.length_append, length_merged, length_merged] at hlen
    have := hevicted.counted
    omega
  rcases apply_cases s op with ⟨key, r, -, outcome, hr, heq⟩ | ⟨key, r, -, hr, heq⟩ |
    ⟨now, -, heq⟩ | ⟨-, -, anomalies, reply, hreply, heq⟩
  · have hrefused := refused_of_refusal hr
    have hcount : ∀ counters : Counters, (counters.countRefusal outcome).evictions =
        counters.evictions := by intro counters; cases outcome <;> rfl
    have hevictions : (s.refuse key.entity r outcome).store.counters.evictions =
        s.counters.evictions := by
      rw [hrefused.counters]
      exact hcount s.counters
    have hkept : (StoreReply.keep outcome).isKept = false := by
      cases outcome with
      | kept n => exact absurd hr refusal_ne_kept
      | _ => rfl
    rw [heq, residentRecords, residentRecords, hrefused.spans, hrefused.logs, hrefused.points,
      hevictions, hkept]
    simp
  · have hlen := (hc.tallied.merged_enter (not_holds_of_refusal hr)).length_eq
    rw [List.length_cons, length_merged, length_merged] at hlen
    have hbalance := hpass (hc.enter hr) key.admittedAt
    rw [(s.enter_frame key r).2.2.1] at hbalance
    rw [heq]
    simp only [StoreReply.isKept, if_true]
    omega
  · have hbalance := hpass hc now
    rw [heq]
    simp only [StoreReply.isKept, Bool.false_eq_true, if_false]
    omega
  · have hkept : reply.isKept = false := by
      cases reply with
      | keep outcome => exact absurd rfl (hreply outcome)
      | _ => rfl
    rw [heq, hkept]
    simp [residentRecords]

theorem run_balance : ∀ (ops : List StoreOp) {s : InMemoryStore}, s.Coherent →
    (s.run ops).2.countP (fun r => r.1.isKept) + s.residentRecords + s.counters.evictions =
      (s.run ops).1.residentRecords + (s.run ops).1.counters.evictions := by
  intro ops
  induction ops with
  | nil => intro s _; simp [run]
  | cons op ops ih =>
    intro s hc
    have hstep := kept_balance hc op
    have hrest := ih (hc.apply op)
    rw [run, List.countP_cons]
    dsimp only
    omega

/-- **The reports of every run are exact.**  At any point of any run the records kept so far are
the residents and the evictions counted; and the next operation, if it refuses a record, changes
one refusal counter and reports it once unless it is a duplicate, and otherwise removes records
from the front of the residency order, each reported once in that order and followed by its
stream exactly when no point of the stream is left. -/
theorem reports_exact (config : RetentionConfig) (hook : Bool) (ops : List StoreOp) :
    ((new config hook).run ops).2.countP (fun r => r.1.isKept) =
        ((new config hook).run ops).1.stats.residentRecords +
          ((new config hook).run ops).1.stats.totalEvictions ∧
      ∀ op, ((new config hook).run ops).1.Reports op
        (((new config hook).run ops).1.apply op).1 (((new config hook).run ops).1.apply op).2.1
        (((new config hook).run ops).1.apply op).2.2 := by
  have hc := coherent_of_reaches (@reaches_run anyOp (fun _ _ => trivial) ops
    (new config hook))
  exact ⟨run_balance ops (Coherent.new config hook), fun op => reports_of_coherent hc op⟩

end InMemoryStore

end RuntimeTrail
