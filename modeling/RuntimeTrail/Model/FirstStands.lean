import RuntimeTrail.Model.LedgerRuns
import RuntimeTrail.Model.Records

/-!
# First delivery stands

What a later delivery of a standing identity is told, and what it leaves.

* **what stands stays** — `span_stays`, `point_stays`: no call but the
  forgetting of its identity moves an entry, so the first payload is the one
  every later delivery is compared with (`first_delivery_stands`);
* **provenance** — the drift of a collapse is counted against the interned
  handle, and an admission counts none: `drift_counted_iff` says when a drift
  from the handle a point stands under goes uncounted;
* **refusals** — a refused delivery leaves the ledger alone, except that a
  conflict with a point whose stream was released interns the stream again
  (`refused_untouched_iff`).
-/

namespace RuntimeTrail

open Library

namespace AdmissionLedger

/-! ## What stands stays -/

/-- A span's entry outlives every call but the forgetting of its identity. -/
theorem span_stays {l : AdmissionLedger} {key : TraceId × SpanId} {v : EntityId × Arc Span}
    (h : (key, v) ∈ l.spans.entries) {op : LedgerOp} (hop : op ≠ .forget (.span key.1 key.2)) :
    (key, v) ∈ (l.apply op).1.spans.entries := by
  have hall := l.applied op
  generalize l.apply op = r at hall ⊢
  cases hall with
  | span exit =>
    cases exit with
    | rejected rejection gate => exact h
    | unnamed gate natural => exact h
    | collapsed key' standing first gate natural stands same => exact h
    | conflict key' standing first gate natural stands differs => exact h
    | entered key' gate natural absent =>
      simp only [ContentMap.entries_insert_of_none absent, List.mem_append]
      exact Or.inl h
  | logRejected refused => exact h
  | logEntered record => exact h
  | @point addr stream point r exit =>
    obtain ⟨-, hspans, -⟩ := l.intern_frame stream
    have hkept : r.1.spans = l.spans := by
      cases exit with
      | refused outcome gate => rfl
      | collapsed first standing gate stands described same => exact hspans
      | conflict first standing gate stands described differs => exact hspans
      | redescribed first standing gate stands described => rfl
      | entered gate absent => exact hspans
    rw [hkept]
    exact h
  | forget entity =>
    cases entity with
    | span traceId spanId =>
      refine ContentMap.mem_erase.mpr ⟨h, ?_⟩
      rw [beq_eq_false_iff_ne]
      rintro rfl
      exact hop rfl
    | assigned id =>
      rw [spans_forget_assigned]
      exact h
  | releaseStream stream => exact h

/-- A point's entry outlives every call but the forgetting of its serial. -/
theorem point_stays {l : AdmissionLedger} (hc : l.Consistent) {key : PointIdentity}
    {entity : EntityId} (h : (key, entity) ∈ l.points.entries) {op : LedgerOp}
    (hop : op ≠ .forget entity) : (key, entity) ∈ (l.apply op).1.points.entries := by
  have hall := l.applied op
  generalize l.apply op = r at hall ⊢
  cases hall with
  | span exit => cases exit <;> exact h
  | logRejected refused => exact h
  | logEntered record => exact h
  | @point addr stream point _ exit =>
    obtain ⟨-, -, hpoints, -⟩ := l.intern_frame stream
    cases exit with
    | refused outcome gate => exact h
    | collapsed first standing gate stands described same => rw [hpoints]; exact h
    | conflict first standing gate stands described differs => rw [hpoints]; exact h
    | redescribed first standing gate stands described => exact h
    | entered gate absent =>
      have habsent := (l.getPair?_intern stream ⟨addr, point⟩).trans absent
      simp only [enterPoint, ContentMap.entries_insert_of_none habsent, List.mem_append]
      rw [hpoints]
      exact Or.inl h
  | forget forgotten =>
    cases forgotten with
    | span traceId spanId => exact h
    | assigned id =>
      rcases l.forget_assigned_cases id with ⟨-, heq⟩ | ⟨identity, hmem, heq⟩
      · rw [heq]
        exact h
      · rw [heq]
        refine ContentMap.mem_erase.mpr ⟨h, ?_⟩
        -- an equal identity would be the forgotten point's own
        by_contra hbeq
        have hsame := ContentMap.eq_of_mem_of_beq h (hc.indexPointed _ hmem) (by simpa using hbeq)
        have hentity : entity = .assigned id := congrArg Prod.snd hsame
        exact hop (by rw [hentity])
  | releaseStream stream => exact h

theorem span_stays_run (ops : List LedgerOp) {l : AdmissionLedger} {key : TraceId × SpanId}
    {v : EntityId × Arc Span} (h : (key, v) ∈ l.spans.entries)
    (hops : ∀ op ∈ ops, op ≠ .forget (.span key.1 key.2)) :
    (key, v) ∈ (l.run ops).1.spans.entries := by
  induction ops generalizing l with
  | nil => exact h
  | cons op ops ih =>
    exact ih (span_stays h (hops op List.mem_cons_self))
      fun o ho => hops o (List.mem_cons_of_mem _ ho)

theorem point_stays_run (ops : List LedgerOp) {l : AdmissionLedger} (hc : l.Consistent)
    {key : PointIdentity} {entity : EntityId} (h : (key, entity) ∈ l.points.entries)
    (hops : ∀ op ∈ ops, op ≠ .forget entity) : (key, entity) ∈ (l.run ops).1.points.entries := by
  induction ops generalizing l with
  | nil => exact h
  | cons op ops ih =>
    exact ih (hc.apply op) (point_stays hc h (hops op List.mem_cons_self))
      fun o ho => hops o (List.mem_cons_of_mem _ ho)

/-! ## The verdict on a standing identity -/

/-- A delivery of a standing span collapses on an equal payload and conflicts on any other. -/
theorem admitSpan_of_stands {l : AdmissionLedger} {key : TraceId × SpanId} {entity : EntityId}
    {first : Arc Span} (h : (key, entity, first) ∈ l.spans.entries) {addr : Nat} {span : Span}
    (hnat : span.naturalIdentity = some key) (hgate : checkSpan span l.limits = .ok ()) :
    ((first.val == span) = true →
      (l.admitSpan addr span).2.outcome = .collapsed entity) ∧
    ((first.val == span) = false →
      (l.admitSpan addr span).2.outcome = .conflict entity ∧
        (l.admitSpan addr span).1.anomalies = l.anomalies.countSpanConflict) := by
  have hstands : l.spans.get? key = some (entity, first) :=
    ContentMap.get?_eq_some_iff.mpr ⟨key, h, BEq.rfl⟩
  constructor
  · intro hsame
    simp only [admitSpan, hgate, hnat, hstands, hsame, if_true]
  · intro hdiffers
    simp [admitSpan, hgate, hnat, hstands, hdiffers]

/-- A delivery of a standing point collapses on an equal stream and payload and conflicts on any
other. -/
theorem admitMetricPoint_of_stands {l : AdmissionLedger} {first : PointIdentity}
    {entity : EntityId} (h : (first, entity) ∈ l.points.entries) {addr : Nat}
    {stream : StreamIdentity} {point : MetricPoint}
    (hsame : (first == identityOf stream addr point) = true)
    (hgate : l.gatePoint stream point = .ok ()) :
    ((first.stream == stream) = true ∧
        first.point.val.identityPayloadEq point stream.kind = true →
      (l.admitMetricPoint addr stream point).2.outcome = .collapsed entity) ∧
    (¬ ((first.stream == stream) = true ∧
        first.point.val.identityPayloadEq point stream.kind = true) →
      (l.admitMetricPoint addr stream point).2.outcome = .conflict entity ∧
        (l.admitMetricPoint addr stream point).1.anomalies = l.anomalies.countPointConflict) := by
  have hstanding : l.points.getPair? (identityOf stream addr point) = some (first, entity) :=
    ContentMap.getPair?_eq_some_iff.mpr ⟨h, hsame⟩
  generalize hr : l.admitMetricPoint addr stream point = r
  have hexit := l.admitMetricPoint_exit addr stream point
  rw [hr] at hexit
  cases hexit with
  | refused outcome gate => rw [hgate] at gate; exact absurd gate (by simp)
  | collapsed first' standing gate stands described same =>
    obtain ⟨rfl, rfl⟩ := Prod.mk.inj (Option.some.inj (hstanding.symm.trans stands))
    exact ⟨fun _ => rfl, fun hnot => absurd ⟨described, same⟩ hnot⟩
  | conflict first' standing gate stands described differs =>
    obtain ⟨rfl, rfl⟩ := Prod.mk.inj (Option.some.inj (hstanding.symm.trans stands))
    refine ⟨fun hboth => ?_, fun _ => ⟨rfl, rfl⟩⟩
    rw [hboth.2] at differs
    exact absurd differs (by simp)
  | redescribed first' standing gate stands described =>
    obtain ⟨rfl, rfl⟩ := Prod.mk.inj (Option.some.inj (hstanding.symm.trans stands))
    refine ⟨fun hboth => ?_, fun _ => ⟨rfl, rfl⟩⟩
    rw [hboth.1] at described
    exact absurd described (by simp)
  | entered gate absent => rw [hstanding] at absent; exact absurd absent (by simp)

/-- An admitted span stands under its natural identity. -/
theorem stands_of_admitSpan {l : AdmissionLedger} {addr : Nat} {span : Span}
    {key : TraceId × SpanId} {entity : EntityId} (hnat : span.naturalIdentity = some key)
    (h : (l.admitSpan addr span).2.outcome = .admitted entity) :
    entity = .span key.1 key.2 ∧
      (key, entity, (⟨addr, span⟩ : Arc Span)) ∈ (l.admitSpan addr span).1.spans.entries := by
  generalize hr : l.admitSpan addr span = r at h
  have hexit := l.admitSpan_exit addr span
  rw [hr] at hexit
  cases hexit with
  | rejected rejection gate => exact absurd h (by simp)
  | unnamed gate natural => rw [hnat] at natural; exact absurd natural (by simp)
  | collapsed key' standing first gate natural stands same => exact absurd h (by simp)
  | conflict key' standing first gate natural stands differs => exact absurd h (by simp)
  | entered key' gate natural absent =>
    obtain rfl := Option.some.inj (hnat.symm.trans natural)
    obtain rfl := AdmissionOutcome.admitted.inj h
    refine ⟨rfl, ?_⟩
    simp only [ContentMap.entries_insert_of_none absent, List.mem_append, List.mem_singleton]
    exact Or.inr trivial

/-- An admitted point stands under its identity, with the handle its admission interned. -/
theorem stands_of_admitMetricPoint {l : AdmissionLedger} {addr : Nat} {stream : StreamIdentity}
    {point : MetricPoint} {entity : EntityId}
    (h : (l.admitMetricPoint addr stream point).2.outcome = .admitted entity) :
    (PointIdentity.ofInterned (l.intern stream).2.1 ⟨addr, point⟩, entity) ∈
      (l.admitMetricPoint addr stream point).1.points.entries := by
  generalize hr : l.admitMetricPoint addr stream point = r at h
  have hexit := l.admitMetricPoint_exit addr stream point
  rw [hr] at hexit
  cases hexit with
  | refused outcome gate =>
    rw [show outcome = .admitted entity from h] at gate
    exact absurd gate gatePoint_ne_admitted
  | collapsed first standing gate stands described same => exact absurd h (by simp)
  | conflict first standing gate stands described differs => exact absurd h (by simp)
  | redescribed first standing gate stands described =>
    exact absurd h (by simp [PointAdmission.bare])
  | entered gate absent =>
    have habsent := (l.getPair?_intern stream ⟨addr, point⟩).trans absent
    obtain rfl := AdmissionOutcome.admitted.inj h
    simp only [enterPoint, ContentMap.entries_insert_of_none habsent, List.mem_append,
      List.mem_singleton, nextAssigned_intern]
    exact Or.inr trivial

/-- **First delivery stands.**  Over any run, from the admission of a payload until its identity is
forgotten, what stands under the identity is that payload, and every later delivery of it that the
gates pass is collapsed when it is equal to the standing one and is a counted conflict when not. -/
theorem first_delivery_stands (limits : BudgetLimits) (before between : List LedgerOp)
    (addr : Nat) :
    let l := ((new limits).run before).1
    (∀ span key entity, span.naturalIdentity = some key →
      (l.admitSpan addr span).2.outcome = .admitted entity →
      (∀ op ∈ between, op ≠ .forget entity) →
      let l' := ((l.admitSpan addr span).1.run between).1
      l'.spans.get? key = some (entity, ⟨addr, span⟩) ∧
      ∀ addr' delivered, delivered.naturalIdentity = some key →
        checkSpan delivered limits = .ok () →
        ((span == delivered) = true →
          (l'.admitSpan addr' delivered).2.outcome = .collapsed entity) ∧
        ((span == delivered) = false →
          (l'.admitSpan addr' delivered).2.outcome = .conflict entity ∧
            (l'.admitSpan addr' delivered).1.anomalies = l'.anomalies.countSpanConflict)) ∧
    (∀ stream point entity,
      (l.admitMetricPoint addr stream point).2.outcome = .admitted entity →
      (∀ op ∈ between, op ≠ .forget entity) →
      let l' := ((l.admitMetricPoint addr stream point).1.run between).1
      let first := PointIdentity.ofInterned (l.intern stream).2.1 ⟨addr, point⟩
      l'.points.getPair? (identityOf stream addr point) = some (first, entity) ∧
      ∀ addr' stream' delivered,
        (identityOf stream addr point == identityOf stream' addr' delivered) = true →
        l'.gatePoint stream' delivered = .ok () →
        ((stream == stream') = true ∧ point.identityPayloadEq delivered stream'.kind = true →
          (l'.admitMetricPoint addr' stream' delivered).2.outcome = .collapsed entity) ∧
        (¬ ((stream == stream') = true ∧ point.identityPayloadEq delivered stream'.kind = true) →
          (l'.admitMetricPoint addr' stream' delivered).2.outcome = .conflict entity ∧
            (l'.admitMetricPoint addr' stream' delivered).1.anomalies =
              l'.anomalies.countPointConflict)) := by
  intro l
  have hc : l.Consistent := (Consistent.new limits).run before
  have hlimits : l.limits = limits := run_limits before (new limits)
  constructor
  · intro span key entity hnat hadmitted hbetween l'
    obtain ⟨rfl, hmem⟩ := stands_of_admitSpan hnat hadmitted
    have hstands := span_stays_run between hmem hbetween
    have hlimits' : l'.limits = limits :=
      (run_limits between _).trans ((l.apply_limits (.admitSpan addr span)).trans hlimits)
    refine ⟨ContentMap.get?_eq_some_iff.mpr ⟨key, hstands, BEq.rfl⟩, ?_⟩
    intro addr' delivered hnat' hgate
    rw [← hlimits'] at hgate
    exact admitSpan_of_stands hstands hnat' hgate
  · intro stream point entity hadmitted hbetween l' first
    have hmem := stands_of_admitMetricPoint hadmitted
    have hstands := point_stays_run between (hc.admitMetricPoint addr stream point) hmem hbetween
    have hbeq := l.intern_beq stream
    have hfirst : (first == identityOf stream addr point) = true :=
      PointIdentity.ofInterned_beq hbeq ⟨addr, point⟩
    refine ⟨ContentMap.getPair?_eq_some_iff.mpr ⟨hstands, hfirst⟩, ?_⟩
    intro addr' stream' delivered hsame hgate
    have hverdict := admitMetricPoint_of_stands hstands (BEq.trans hfirst hsame) hgate
    -- the handle it stands under is the delivered stream, up to equality
    have hstream : (first.stream == stream') = (stream == stream') := BEq.congr_left hbeq
    rw [hstream] at hverdict
    exact hverdict

theorem first_delivery_stands_released :
    let l := (((new .default).admitMetricPoint 0 (.bare "m" none) (.bare 0)).1.run
      [.releaseStream (.bare "m" none)]).1
    (l.admitMetricPoint 1 (.bare "m" (some "u")) (.bare 0)).2.outcome =
      .collapsed (.assigned ⟨1⟩) :=
  (((first_delivery_stands .default [] [.releaseStream (.bare "m" none)] 0).2
    (.bare "m" none) (.bare 0) (.assigned ⟨1⟩) rfl (by simp)).2
    1 (.bare "m" (some "u")) (.bare 0) rfl rfl).1 ⟨rfl, rfl⟩

/-! ## Provenance -/

/-- A delivery whose resource schema url differs from the one of the handle its point then stands
under is counted. -/
def DriftCounted (l : AdmissionLedger) (addr : Nat) (stream : StreamIdentity)
    (point : MetricPoint) : Prop :=
  let r := l.admitMetricPoint addr stream point
  ∀ key entity, r.1.points.getPair? (identityOf stream addr point) = some (key, entity) →
    key.stream.resource.schemaUrl ≠ stream.resource.schemaUrl →
    r.1.anomalies.provenanceMismatches = l.anomalies.provenanceMismatches + 1

/-- Whether the interned handle of a stream, if there is one, carries another schema url. -/
def InternedDrifts (l : AdmissionLedger) (stream : StreamIdentity) : Prop :=
  ∃ handle, l.streams.getPair? stream = some (handle, ()) ∧
    handle.resource.schemaUrl ≠ stream.resource.schemaUrl

/-- A new point's stream is interned with its own schema url or not at all; a standing point whose
handle carries another one finds a drifting handle interned. -/
def DriftVisible (l : AdmissionLedger) (addr : Nat) (stream : StreamIdentity)
    (point : MetricPoint) : Prop :=
  match l.points.getPair? (identityOf stream addr point) with
  | none => ¬ l.InternedDrifts stream
  | some (first, _) =>
    first.stream.resource.schemaUrl ≠ stream.resource.schemaUrl → l.InternedDrifts stream

/-- The interned handle drifts from a delivery exactly where one that drifts stood interned. -/
theorem intern_drifts_iff (l : AdmissionLedger) (stream : StreamIdentity) :
    (l.intern stream).2.1.resource.schemaUrl ≠ stream.resource.schemaUrl ↔
      l.InternedDrifts stream := by
  rcases l.intern_cases stream with ⟨handle, hstanding, heq⟩ | ⟨hfresh, heq⟩
  · rw [heq]
    constructor
    · intro hdrift
      exact ⟨handle, hstanding, hdrift⟩
    · rintro ⟨handle', hstanding', hdrift⟩
      obtain ⟨rfl, -⟩ := Prod.mk.inj (Option.some.inj (hstanding.symm.trans hstanding'))
      exact hdrift
  · rw [heq]
    constructor
    · intro hdrift
      exact absurd rfl hdrift
    · rintro ⟨handle, hstanding, -⟩
      rw [hfresh] at hstanding
      exact absurd hstanding (by simp)

/-- A mismatch is counted exactly for two different schema urls. -/
theorem countMismatch_eq_succ_iff (a : AdmissionAnomalies) (standing delivered : Option String) :
    (a.countMismatch standing delivered).provenanceMismatches = a.provenanceMismatches + 1 ↔
      standing ≠ delivered := by
  unfold AdmissionAnomalies.countMismatch
  split
  · rename_i hdiffers
    exact ⟨fun _ => hdiffers, fun _ => rfl⟩
  · rename_i hequal
    exact ⟨fun h => absurd h (Nat.ne_of_lt (Nat.lt_succ_self _)), fun h => absurd h hequal⟩

/-- **When provenance drift is counted.**  In every ledger, a delivery that is admitted or collapsed
counts its drift from the handle its point then stands under exactly when the drift is visible: a
new point counts none, and a collapse compares with the interned handle only. -/
theorem drift_counted_iff (l : AdmissionLedger) (addr : Nat) (stream : StreamIdentity)
    (point : MetricPoint) (entity : EntityId)
    (h : (l.admitMetricPoint addr stream point).2.outcome = .admitted entity ∨
      (l.admitMetricPoint addr stream point).2.outcome = .collapsed entity) :
    l.DriftCounted addr stream point ↔ l.DriftVisible addr stream point := by
  unfold DriftCounted DriftVisible
  have hbeq := l.intern_beq stream
  obtain ⟨-, -, hpoints, -, -, hanomalies⟩ := l.intern_frame stream
  generalize hr : l.admitMetricPoint addr stream point = r at h ⊢
  have hexit := l.admitMetricPoint_exit addr stream point
  rw [hr] at hexit
  cases hexit with
  | refused outcome gate =>
    rcases refusal_of_gatePoint gate with ⟨error, rfl⟩ | ⟨rejection, rfl⟩
    · exact absurd h (by simp [PointAdmission.bare])
    · exact absurd h (by simp [PointAdmission.bare])
  | collapsed first standing gate stands described same =>
    simp only [stands, hpoints, countMismatch_eq_succ_iff, intern_drifts_iff, Option.some.injEq]
    constructor
    · intro hcounted hdrift
      exact hcounted first standing rfl hdrift
    · rintro hvisible key _ heq hdrift
      obtain ⟨rfl, -⟩ := Prod.mk.inj heq
      exact hvisible hdrift
  | conflict first standing gate stands described differs =>
    exact absurd h (by simp)
  | redescribed first standing gate stands described =>
    exact absurd h (by simp [PointAdmission.bare])
  | entered gate absent =>
    have hkey := PointIdentity.ofInterned_beq hbeq ⟨addr, point⟩
    have hfound : ((l.intern stream).1.enterPoint
        (.ofInterned (l.intern stream).2.1 ⟨addr, point⟩)).points.getPair?
          (identityOf stream addr point) =
        some (.ofInterned (l.intern stream).2.1 ⟨addr, point⟩,
          .assigned (l.intern stream).1.nextAssigned) := by
      refine ContentMap.getPair?_eq_some_iff.mpr ⟨?_, hkey⟩
      have habsent := (l.getPair?_intern stream ⟨addr, point⟩).trans absent
      simp only [enterPoint, ContentMap.entries_insert_of_none habsent, List.mem_append,
        List.mem_singleton]
      exact Or.inr trivial
    simp only [absent, hfound, ← intern_drifts_iff]
    constructor
    · intro hcounted hdrift
      have hcount := hcounted _ _ rfl hdrift
      rw [show ((l.intern stream).1.enterPoint
        (.ofInterned (l.intern stream).2.1 ⟨addr, point⟩)).anomalies = l.anomalies
        from hanomalies] at hcount
      exact absurd hcount (Nat.ne_of_lt (Nat.lt_succ_self _))
    · rintro hequal key _ heq hdrift
      obtain ⟨rfl, -⟩ := Prod.mk.inj (Option.some.inj heq)
      exact absurd hdrift hequal

theorem drift_counted_interned :
    let l := ((new .default).admitMetricPoint 0 (.bare "m" (some "u")) (.bare 0)).1
    l.DriftCounted 1 (.bare "m" none) (.bare 0) :=
  (drift_counted_iff _ 1 (.bare "m" none) (.bare 0) (.assigned ⟨1⟩) (Or.inr rfl)).mpr
    fun _ => ⟨.bare "m" (some "u"), rfl, by decide⟩

/-- Neither path counts every drift: a new point of a stream interned with another schema url is
admitted uncounted, and a point whose stream was released collapses uncounted. -/
theorem not_drift_counted :
    (¬ ∀ limits ops addr stream point entity,
      (((new limits).run ops).1.admitMetricPoint addr stream point).2.outcome = .admitted entity →
      ((new limits).run ops).1.DriftCounted addr stream point) ∧
    ¬ ∀ limits ops addr stream point entity,
      (((new limits).run ops).1.admitMetricPoint addr stream point).2.outcome = .collapsed entity →
      ((new limits).run ops).1.DriftCounted addr stream point := by
  constructor
  · intro h
    have hcount := h .default [.admitMetricPoint 0 (.bare "m" (some "u")) (.bare 0)]
      1 (.bare "m" none) (.bare 5) (.assigned ⟨2⟩) rfl _ _ rfl (by decide)
    exact absurd hcount (by decide)
  · intro h
    have hcount := h .default [.admitMetricPoint 0 (.bare "m" (some "u")) (.bare 0),
      .releaseStream (.bare "m" none)] 1 (.bare "m" none) (.bare 0) (.assigned ⟨1⟩) rfl _ _ rfl
      (by decide)
    exact absurd hcount (by decide)

/-! ## Refusals -/

theorem OnlyAnomalies.streams {l l' : AdmissionLedger} (h : l.OnlyAnomalies l') :
    l'.streams = l.streams := by
  obtain ⟨anomalies, rfl⟩ := h
  rfl

/-- A point every gate passes, standing under an equal stream that is interned no more. -/
def ReinternsOnRefusal (l : AdmissionLedger) : LedgerOp → Prop
  | .admitMetricPoint addr stream point =>
    l.gatePoint stream point = .ok () ∧ l.streams.contains stream = false ∧
      ∃ first standing,
        l.points.getPair? (identityOf stream addr point) = some (first, standing) ∧
        (first.stream == stream) = true
  | _ => False

/-- Interning a stream that is not interned adds an entry. -/
theorem length_intern_of_not_contains {l : AdmissionLedger} {stream : StreamIdentity}
    (h : l.streams.contains stream = false) :
    (l.intern stream).1.streams.length = l.streams.length + 1 := by
  rw [ContentMap.length, entries_intern_of_not_contains h, List.length_append]
  rfl

/-- **What a refused delivery leaves.**  In every ledger, a rejected, invalid or conflicting delivery
changes nothing but the anomalies, unless it is a point in conflict with a standing one of an equal
stream that is interned no more: its intern stays. -/
theorem refused_untouched_iff (l : AdmissionLedger) (op : LedgerOp) (outcome : AdmissionOutcome)
    (h : (l.apply op).2 = some outcome) (hrefused : outcome.isRefused = true) :
    l.OnlyAnomalies (l.apply op).1 ↔ ¬ l.ReinternsOnRefusal op := by
  cases op with
  | admitSpan addr span =>
    refine ⟨fun _ => not_false, fun _ => ?_⟩
    simp only [apply, Option.some.injEq] at h ⊢
    generalize hr : l.admitSpan addr span = r at h ⊢
    have hexit := l.admitSpan_exit addr span
    rw [hr] at hexit
    cases hexit with
    | rejected rejection gate => exact .rfl
    | unnamed gate natural =>
      obtain rfl := h
      exact absurd hrefused (by simp [AdmissionOutcome.isRefused])
    | collapsed key standing first gate natural stands same => exact ⟨_, rfl⟩
    | conflict key standing first gate natural stands differs => exact ⟨_, rfl⟩
    | entered key gate natural absent =>
      obtain rfl := h
      exact absurd hrefused (by simp [AdmissionOutcome.isRefused])
  | admitLogRecord record =>
    refine ⟨fun _ => not_false, fun _ => ?_⟩
    simp only [apply, Option.some.injEq] at h ⊢
    rcases l.admitLogRecord_cases record with ⟨heq, -⟩ | heq
    · rw [heq]
      exact .rfl
    · rw [heq] at h
      obtain rfl := h
      exact absurd hrefused (by simp [AdmissionOutcome.isRefused])
  | admitMetricPoint addr stream point =>
    simp only [apply, Option.some.injEq, ReinternsOnRefusal] at h ⊢
    generalize hr : l.admitMetricPoint addr stream point = r at h ⊢
    have hexit := l.admitMetricPoint_exit addr stream point
    rw [hr] at hexit
    cases hexit with
    | refused outcome' gate =>
      refine ⟨?_, fun _ => .rfl⟩
      rintro - ⟨hgate, -⟩
      rw [hgate] at gate
      exact absurd gate (by simp)
    | collapsed first standing gate stands described same =>
      obtain rfl := h
      exact absurd hrefused (by simp [AdmissionOutcome.isRefused])
    | conflict first standing gate stands described differs =>
      cases hcontains : l.streams.contains stream with
      | true =>
        rw [intern_eq_of_contains hcontains]
        exact ⟨fun _ hstrands => absurd hstrands.2.1 (by simp), fun _ => ⟨_, rfl⟩⟩
      | false =>
        refine ⟨?_, fun hnot => absurd ⟨gate, rfl, first, standing, stands, described⟩ hnot⟩
        rintro honly -
        -- the fresh intern shows in the number of streams
        have hlength := length_intern_of_not_contains hcontains
        rw [show (l.intern stream).1.streams = l.streams from honly.streams] at hlength
        exact absurd hlength (Nat.ne_of_lt (Nat.lt_succ_self _))
    | redescribed first standing gate stands described =>
      refine ⟨?_, fun _ => ⟨_, rfl⟩⟩
      rintro - ⟨-, -, first', standing', stands', described'⟩
      obtain ⟨rfl, -⟩ := Prod.mk.inj (Option.some.inj (stands.symm.trans stands'))
      rw [described] at described'
      exact absurd described' (by simp)
    | entered gate absent =>
      obtain rfl := h
      exact absurd hrefused (by simp [AdmissionOutcome.isRefused])
  | forget entity => exact absurd h (by simp [apply])
  | releaseStream stream => exact absurd h (by simp [apply])

/-- A gauge measurement of one. -/
def pointOfOne (timeUnixNano : Nat) : MetricPoint :=
  .number ⟨Attributes.default, none, timeUnixNano, .int 1, 0, []⟩

theorem refused_untouched_interned :
    let l := ((new .default).admitMetricPoint 0 (.bare "m" none) (.bare 0)).1
    l.OnlyAnomalies (l.apply (.admitMetricPoint 1 (.bare "m" none) (pointOfOne 0))).1 :=
  (refused_untouched_iff _ (.admitMetricPoint 1 (.bare "m" none) (pointOfOne 0))
    (.conflict (.assigned ⟨1⟩)) rfl rfl).mpr fun h => absurd h.2.1 (by decide)

/-- A conflict can leave a stream interned: a point stands, its stream is released, and a delivery
of its identity with another value conflicts. -/
theorem not_refused_untouched :
    ¬ ∀ limits ops op outcome, (((new limits).run ops).1.apply op).2 = some outcome →
      outcome.isRefused = true →
      ((new limits).run ops).1.OnlyAnomalies (((new limits).run ops).1.apply op).1 := by
  intro h
  have honly := h .default
    [.admitMetricPoint 0 (.bare "m" none) (.bare 0), .releaseStream (.bare "m" none)]
    (.admitMetricPoint 1 (.bare "m" none) (pointOfOne 0)) (.conflict (.assigned ⟨1⟩)) rfl rfl
  exact absurd (congrArg ContentMap.length honly.streams) (by decide)

end AdmissionLedger

end RuntimeTrail
