import RuntimeTrail.Memory.Residency

/-!
# The store's derived counts agree with what is resident

Every keep can evict any number of records across three shelves, charging and
releasing stream references on the way.  The invariant that survives all of it
is `Coherent`: index and order map agree on each shelf, and the series table maps
a stream to exactly the number of resident points with an equal stream (`Tallied`),
under a series cap and a window that are the configuration's.

* **one insertion** — `Tallied.enter`, and `Tallied.refuse` for the exits that
  insert nothing;
* **one eviction** — `Tallied.removes`, carried through a pass by
  `Coherent.enforceAgainst`;
* **every run** — `coherent_of_reaches`.

The byte sums are kept by `Shelf.Exact`.  They saturate at the largest 64-bit
count, and a sum that has once saturated stays wrong after the records that drove
it there have left; so exactness is a property of runs that never take a sum past
that count (`bytesExact_of_reaches`), not of the records resident at the moment.
-/

namespace RuntimeTrail

open Library

/-- How many resident points belong to a stream equal to this one. -/
def Shelf.pointCount (points : Shelf PointSlot) (stream : StreamIdentity) : Nat :=
  points.entries.countP fun p => p.2.stream == stream

/-- The series table counts the resident points of every stream, and holds no zero. -/
def SeriesExact (series : ContentMap StreamIdentity Nat) (points : Shelf PointSlot) : Prop :=
  ∀ stream, series.get? stream =
    if points.pointCount stream = 0 then none else some (points.pointCount stream)

namespace InMemoryStore

/-- Index and order map agree on each shelf, and the series table counts the points. -/
structure Tallied (s : InMemoryStore) : Prop where
  spans : s.spans.Indexed
  logs : s.logs.Indexed
  points : s.points.Indexed
  series : SeriesExact s.series s.points

/-- The derived counts agree with what is resident. -/
structure Coherent (s : InMemoryStore) : Prop where
  spans : s.spans.Indexed
  logs : s.logs.Indexed
  points : s.points.Indexed
  series : SeriesExact s.series s.points
  window : s.windowNanos = s.config.windowNanos
  seriesCap : s.series.length ≤ s.config.seriesCap

theorem Coherent.tallied {s : InMemoryStore} (h : s.Coherent) : s.Tallied :=
  ⟨h.spans, h.logs, h.points, h.series⟩

theorem Tallied.coherent {s : InMemoryStore} (h : s.Tallied)
    (hwindow : s.windowNanos = s.config.windowNanos)
    (hcap : s.series.length ≤ s.config.seriesCap) : s.Coherent :=
  ⟨h.spans, h.logs, h.points, h.series, hwindow, hcap⟩

theorem Coherent.new (config : RetentionConfig) (hook : Bool) : (new config hook).Coherent where
  spans := Shelf.Indexed.new
  logs := Shelf.Indexed.new
  points := Shelf.Indexed.new
  series stream := by
    simp [InMemoryStore.new, Shelf.pointCount, Shelf.new, Shelf.entries, SortedMap.empty,
      ContentMap.get?, ContentMap.getPair?, ContentMap.empty]
  window := rfl
  seriesCap := Nat.zero_le _

/-- Counters, ceilings and the anomaly total are no part of it. -/
theorem Tallied.of_eq {s s' : InMemoryStore} (h : s.Tallied) (hspans : s'.spans = s.spans)
    (hlogs : s'.logs = s.logs) (hpoints : s'.points = s.points) (hseries : s'.series = s.series) :
    s'.Tallied where
  spans := hspans ▸ h.spans
  logs := hlogs ▸ h.logs
  points := hpoints ▸ h.points
  series := by rw [hseries, hpoints]; exact h.series

theorem Coherent.of_eq {s s' : InMemoryStore} (h : s.Coherent) (hspans : s'.spans = s.spans)
    (hlogs : s'.logs = s.logs) (hpoints : s'.points = s.points) (hseries : s'.series = s.series)
    (hwindow : s'.windowNanos = s.windowNanos) (hconfig : s'.config = s.config) :
    s'.Coherent :=
  (h.tallied.of_eq hspans hlogs hpoints hseries).coherent (by rw [hwindow, hconfig, h.window])
    (by rw [hseries, hconfig]; exact h.seriesCap)

end InMemoryStore

/-! ## The series table -/

theorem Shelf.pointCount_congr (points : Shelf PointSlot) {a b : StreamIdentity} (h : a == b) :
    points.pointCount a = points.pointCount b := by
  unfold Shelf.pointCount
  congr 1
  funext p
  exact BEq.congr_right h

section Series

variable {series : ContentMap StreamIdentity Nat} {points points' : Shelf PointSlot}

theorem SeriesExact.getD_eq (h : SeriesExact series points) (stream : StreamIdentity) :
    (series.get? stream).getD 0 = points.pointCount stream := by
  rw [h stream]
  by_cases hc : points.pointCount stream = 0 <;> simp [hc]

theorem SeriesExact.contains_iff (h : SeriesExact series points) {stream : StreamIdentity} :
    series.contains stream = true ↔ 0 < points.pointCount stream := by
  rw [ContentMap.contains_eq_isSome_get?, h stream]
  by_cases hc : points.pointCount stream = 0
  · simp [hc]
  · simp [hc]; omega

/-- Charging a stream for a point that has just entered counts that point. -/
theorem SeriesExact.charge (h : SeriesExact series points) {slot : PointSlot}
    {key : AdmissionKey} (hperm : points'.entries.Perm ((key, slot) :: points.entries)) :
    SeriesExact (series.insert slot.stream ((series.get? slot.stream).getD 0 + 1)) points' := by
  intro stream
  have hcount : ∀ t, points'.pointCount t =
      points.pointCount t + if slot.stream == t then 1 else 0 := fun t => by
    rw [Shelf.pointCount, hperm.countP_eq, List.countP_cons, Shelf.pointCount]
  rw [ContentMap.get?_insert, h.getD_eq, hcount]
  by_cases hs : slot.stream == stream
  · rw [if_pos hs, if_pos hs, points.pointCount_congr hs, if_neg (Nat.succ_ne_zero _)]
  · rw [if_neg hs, if_neg hs, Nat.add_zero]
    exact h stream

theorem pointCount_of_entries {slot : PointSlot} {key : AdmissionKey}
    (hentries : points.entries = (key, slot) :: points'.entries) (t : StreamIdentity) :
    points.pointCount t = points'.pointCount t + if slot.stream == t then 1 else 0 := by
  rw [Shelf.pointCount, hentries, List.countP_cons, Shelf.pointCount]

/-- The count a removal finds: the points that stay, and the one that leaves. -/
theorem SeriesExact.get?_of_removed (h : SeriesExact series points) {slot : PointSlot}
    {key : AdmissionKey} (hentries : points.entries = (key, slot) :: points'.entries) :
    series.get? slot.stream = some (points'.pointCount slot.stream + 1) := by
  rw [h slot.stream, pointCount_of_entries hentries, if_pos BEq.rfl, if_neg (Nat.succ_ne_zero _)]

/-- Dropping a stream whose last point has left. -/
theorem SeriesExact.retire (h : SeriesExact series points) {slot : PointSlot}
    {key : AdmissionKey} (hentries : points.entries = (key, slot) :: points'.entries)
    (hlast : points'.pointCount slot.stream = 0) :
    SeriesExact (series.erase slot.stream) points' := by
  intro stream
  rw [ContentMap.get?_erase]
  by_cases hs : slot.stream == stream
  · have hz : points'.pointCount stream = 0 := by rw [← points'.pointCount_congr hs, hlast]
    rw [if_pos hs, if_pos hz]
  · have hsame : points.pointCount stream = points'.pointCount stream := by
      rw [pointCount_of_entries hentries, if_neg hs, Nat.add_zero]
    rw [if_neg hs, h stream, hsame]

/-- Uncounting a point whose stream keeps others. -/
theorem SeriesExact.uncount (h : SeriesExact series points) {slot : PointSlot}
    {key : AdmissionKey} (hentries : points.entries = (key, slot) :: points'.entries)
    (hmore : points'.pointCount slot.stream ≠ 0) :
    SeriesExact (series.insert slot.stream (points'.pointCount slot.stream)) points' := by
  intro stream
  rw [ContentMap.get?_insert]
  by_cases hs : slot.stream == stream
  · have hz : points'.pointCount stream ≠ 0 := by rw [← points'.pointCount_congr hs]; exact hmore
    rw [if_pos hs, if_neg hz, points'.pointCount_congr hs]
  · have hsame : points.pointCount stream = points'.pointCount stream := by
      rw [pointCount_of_entries hentries, if_neg hs, Nat.add_zero]
    rw [if_neg hs, h stream, hsame]

end Series

namespace InMemoryStore

/-- What releasing a removed point's stream does: the last point of a stream retires it and
takes its charge, any other is uncounted. -/
theorem releaseStreamRef_eq {s : InMemoryStore} {points : Shelf PointSlot} {slot : PointSlot}
    {key : AdmissionKey} (h : SeriesExact s.series s.points)
    (hentries : s.points.entries = (key, slot) :: points.entries) :
    releaseStreamRef { s with points := points } slot.stream =
      if points.pointCount slot.stream = 0 then
        ({ s with
          points := points
          series := s.series.erase slot.stream
          identityAccountedBytes := s.identityAccountedBytes - accountedU64 slot.stream }, true)
      else
        ({ s with
          points := points
          series := s.series.insert slot.stream (points.pointCount slot.stream) }, false) := by
  have hget := h.get?_of_removed hentries
  unfold releaseStreamRef
  simp only [hget, Nat.add_sub_cancel]

/-! ## One insertion -/

theorem residentStreams_lt_of_refusal {s : InMemoryStore} {entity : EntityId} {slot : PointSlot}
    (h : s.refusal entity (.point slot) = none) (hnew : s.series.contains slot.stream = false) :
    s.residentStreams < s.config.seriesCap := by
  unfold refusal at h
  split at h
  · exact absurd h (by simp)
  · split at h
    · exact absurd h (by simp)
    · simp only [Resident.stream?] at h
      split at h
      · exact absurd h (by simp)
      · split at h
        · exact absurd h (by simp)
        · rename_i hcap
          exact not_le.mp fun hle => hcap ⟨hnew, hle⟩

theorem not_holds_of_refusal {s : InMemoryStore} {entity : EntityId} {r : Resident}
    (h : s.refusal entity r = none) : s.holds entity r = false := by
  unfold refusal at h
  split at h
  · exact absurd h (by simp)
  · rename_i hd; simpa using hd

/-- A record whose id no shelf of its kind holds enters without disturbing any count. -/
theorem Tallied.enter {s : InMemoryStore} (h : s.Tallied) {key : AdmissionKey} {r : Resident}
    (hfresh : s.holds key.entity r = false) : (s.enter key r).Tallied := by
  cases r with
  | span record => exact ⟨h.spans.insert hfresh, h.logs, h.points, h.series⟩
  | log record => exact ⟨h.spans, h.logs.insert hfresh, h.points, h.series⟩
  | point slot =>
    exact ⟨h.spans, h.logs, h.points.insert hfresh, h.series.charge (h.points.insert_perm hfresh)⟩

theorem Coherent.enter {s : InMemoryStore} (h : s.Coherent) {key : AdmissionKey} {r : Resident}
    (hr : s.refusal key.entity r = none) : (s.enter key r).Coherent := by
  refine (h.tallied.enter (not_holds_of_refusal hr)).coherent ?_ ?_
  · cases r <;> exact h.window
  · cases r with
    | span record => exact h.seriesCap
    | log record => exact h.seriesCap
    | point slot =>
      change (s.series.insert slot.stream _).length ≤ s.config.seriesCap
      rw [ContentMap.length_insert]
      split
      · exact h.seriesCap
      · rename_i hc
        exact residentStreams_lt_of_refusal hr (by simpa using hc)

theorem Tallied.refuse {s : InMemoryStore} (h : s.Tallied) (entity : EntityId) (r : Resident)
    (outcome : KeepOutcome) : (s.refuse entity r outcome).store.Tallied := by
  obtain ⟨hspans, hlogs, hpoints, hseries, -⟩ := s.refuse_frame entity r outcome
  exact h.of_eq hspans hlogs hpoints hseries

theorem Coherent.refuse {s : InMemoryStore} (h : s.Coherent) (entity : EntityId) (r : Resident)
    (outcome : KeepOutcome) : (s.refuse entity r outcome).store.Coherent := by
  obtain ⟨hspans, hlogs, hpoints, hseries, -, hconfig, hwindow, -⟩ := s.refuse_frame entity r outcome
  exact h.of_eq hspans hlogs hpoints hseries hwindow hconfig

/-- The record that enters joins the merged order, and nothing else changes there. -/
theorem Tallied.merged_enter {s : InMemoryStore} (h : s.Tallied) {key : AdmissionKey}
    {r : Resident} (hfresh : s.holds key.entity r = false) :
    (s.enter key r).merged.Perm ((key, r) :: s.merged) := by
  refine (merged_perm _).trans (List.Perm.trans ?_ ((merged_perm s).symm.cons _))
  cases r with
  | span record =>
    have hp := (@Shelf.Indexed.insert_perm _ _ _ h.spans ⟨key.entity, key.admittedAt, record⟩ hfresh).map
      fun p : AdmissionKey × Arc Span => (p.1, Resident.span p.2)
    exact hp.append_right _
  | log record =>
    have hp := (@Shelf.Indexed.insert_perm _ _ _ h.logs ⟨key.entity, key.admittedAt, record⟩ hfresh).map
      fun p : AdmissionKey × Arc LogRecord => (p.1, Resident.log p.2)
    exact ((hp.append_right _).append_left _).trans List.perm_middle
  | point slot =>
    have hp := (@Shelf.Indexed.insert_perm _ _ _ h.points ⟨key.entity, key.admittedAt, slot⟩ hfresh).map
      fun p : AdmissionKey × PointSlot => (p.1, Resident.point p.2)
    refine ((hp.append_left _).append_left _).trans ?_
    exact (List.perm_middle.append_left _).trans List.perm_middle

/-! ## One eviction, and a pass -/

theorem Tallied.removes {s s' : InMemoryStore} (h : s.Tallied) {key : AdmissionKey}
    {released : Option StreamIdentity} {r : Resident} (hr : s.Removes key released s' r) :
    s'.Tallied := by
  cases r with
  | span record =>
    obtain ⟨spans, hpop, rfl, -⟩ := hr
    exact ⟨h.spans.popSmallest hpop, h.logs, h.points, h.series⟩
  | log record =>
    obtain ⟨logs, hpop, rfl, -⟩ := hr
    exact ⟨h.spans, h.logs.popSmallest hpop, h.points, h.series⟩
  | point slot =>
    obtain ⟨points, hpop, rfl, -⟩ := hr
    have hentries := (Shelf.popSmallest_eq_some hpop).1
    rw [releaseStreamRef_eq h.series hentries]
    split
    · rename_i hlast
      exact ⟨h.spans, h.logs, h.points.popSmallest hpop, h.series.retire hentries hlast⟩
    · rename_i hmore
      exact ⟨h.spans, h.logs, h.points.popSmallest hpop, h.series.uncount hentries hmore⟩

/-- A removal leaves the window, and counts no stream it did not count before. -/
theorem Removes.series_frame {s s' : InMemoryStore} (h : s.Tallied) {key : AdmissionKey}
    {released : Option StreamIdentity} {r : Resident} (hr : s.Removes key released s' r) :
    s'.windowNanos = s.windowNanos ∧ s'.series.length ≤ s.series.length := by
  cases r with
  | span record => obtain ⟨spans, -, rfl, -⟩ := hr; exact ⟨rfl, le_refl _⟩
  | log record => obtain ⟨logs, -, rfl, -⟩ := hr; exact ⟨rfl, le_refl _⟩
  | point slot =>
    obtain ⟨points, hpop, rfl, -⟩ := hr
    have hentries := (Shelf.popSmallest_eq_some hpop).1
    rw [releaseStreamRef_eq h.series hentries]
    split
    · exact ⟨rfl, ContentMap.length_erase_le _ _⟩
    · refine ⟨rfl, ?_⟩
      have hc : s.series.contains slot.stream = true := by
        rw [ContentMap.contains_eq_isSome_get?, h.series.get?_of_removed hentries]
        rfl
      change (s.series.insert slot.stream _).length ≤ s.series.length
      rw [ContentMap.length_insert, if_pos hc]

theorem Coherent.removes {s s' : InMemoryStore} (h : s.Coherent) {key : AdmissionKey}
    {released : Option StreamIdentity} {r : Resident} (hr : s.Removes key released s' r) :
    s'.Coherent := by
  obtain ⟨hwindow, hlength⟩ := hr.series_frame h.tallied
  have hconfig := hr.frame.1
  exact (h.tallied.removes hr).coherent (by rw [hwindow, hconfig, h.window])
    (by rw [hconfig]; exact hlength.trans h.seriesCap)

theorem Tallied.evictOne {now : AdmissionTime} {pass pass' : Pass} (h : pass.store.Tallied)
    (hstep : evictOne now pass = some pass') : pass'.store.Tallied := by
  obtain ⟨cause, key, r, released, s', -, -, hremoves, rfl⟩ := evictOne_spec hstep
  exact (h.removes hremoves).of_eq rfl rfl rfl rfl

theorem Tallied.enforceAgainst {s : InMemoryStore} (h : s.Tallied) (now : AdmissionTime) :
    (s.enforceAgainst now).store.Tallied :=
  (passLoop now).run_invariant (I := fun pass => pass.store.Tallied)
    (fun _ _ hp hstep => hp.evictOne hstep) h

theorem Coherent.evictOne {now : AdmissionTime} {pass pass' : Pass} (h : pass.store.Coherent)
    (hstep : evictOne now pass = some pass') : pass'.store.Coherent := by
  obtain ⟨cause, key, r, released, s', -, -, hremoves, rfl⟩ := evictOne_spec hstep
  exact (h.removes hremoves).of_eq rfl rfl rfl rfl rfl rfl

theorem Coherent.enforceAgainst {s : InMemoryStore} (h : s.Coherent) (now : AdmissionTime) :
    (s.enforceAgainst now).store.Coherent :=
  (passLoop now).run_invariant (I := fun pass => pass.store.Coherent)
    (fun _ _ hp hstep => hp.evictOne hstep) h

/-! ## Byte sums -/

/-- The byte sum one kind's shelf keeps. -/
def shelfBytes (s : InMemoryStore) : RecordKind → Nat
  | .span => s.spans.accountedBytes
  | .log => s.logs.accountedBytes
  | .point => s.points.accountedBytes

/-- The accounted sizes of one kind's resident records, added up. -/
def recordSum (s : InMemoryStore) : RecordKind → Nat
  | .span => s.spans.recordSum
  | .log => s.logs.recordSum
  | .point => s.points.recordSum

/-- One kind's byte sum is the sum of what stands on its shelf. -/
def BytesExact (kind : RecordKind) (s : InMemoryStore) : Prop :=
  s.shelfBytes kind = s.recordSum kind

theorem BytesExact.new (kind : RecordKind) (config : RetentionConfig) (hook : Bool) :
    BytesExact kind (new config hook) := by
  cases kind <;> rfl

theorem BytesExact.of_eq {kind : RecordKind} {s s' : InMemoryStore} (h : BytesExact kind s)
    (hspans : s'.spans = s.spans) (hlogs : s'.logs = s.logs) (hpoints : s'.points = s.points) :
    BytesExact kind s' := by
  cases kind with
  | span => exact (congrArg Shelf.Exact hspans).mpr h
  | log => exact (congrArg Shelf.Exact hlogs).mpr h
  | point => exact (congrArg Shelf.Exact hpoints).mpr h

/-- Entering a record changes its own shelf only, and keeps that shelf's sum exact where the sum
does not saturate. -/
theorem BytesExact.enter {kind : RecordKind} {s : InMemoryStore} (h : BytesExact kind s)
    (hc : s.Tallied) {key : AdmissionKey} {r : Resident} (hfresh : s.holds key.entity r = false)
    (hbound : r.kind = kind → s.shelfBytes kind + r.size ≤ u64Max) :
    BytesExact kind (s.enter key r) := by
  cases r with
  | span record =>
    cases kind with
    | span => exact Shelf.Exact.insert h hc.spans hfresh (hbound rfl)
    | log => exact h
    | point => exact h
  | log record =>
    cases kind with
    | span => exact h
    | log => exact Shelf.Exact.insert h hc.logs hfresh (hbound rfl)
    | point => exact h
  | point slot =>
    cases kind with
    | span => exact h
    | log => exact h
    | point => exact Shelf.Exact.insert h hc.points hfresh (hbound rfl)

theorem BytesExact.removes {kind : RecordKind} {s s' : InMemoryStore} (h : BytesExact kind s)
    {key : AdmissionKey} {released : Option StreamIdentity} {r : Resident}
    (hr : s.Removes key released s' r) : BytesExact kind s' := by
  cases r with
  | span record =>
    obtain ⟨spans, hpop, rfl, -⟩ := hr
    cases kind with
    | span => exact Shelf.Exact.popSmallest h hpop
    | log => exact h
    | point => exact h
  | log record =>
    obtain ⟨logs, hpop, rfl, -⟩ := hr
    cases kind with
    | span => exact h
    | log => exact Shelf.Exact.popSmallest h hpop
    | point => exact h
  | point slot =>
    obtain ⟨points, hpop, rfl, -⟩ := hr
    obtain ⟨hspans, hlogs, hpoints⟩ :=
      releaseStreamRef_shelves { s with points := points } slot.stream
    have hpopped : BytesExact kind { s with points := points } := by
      cases kind with
      | span => exact h
      | log => exact h
      | point => exact Shelf.Exact.popSmallest h hpop
    exact hpopped.of_eq hspans hlogs hpoints

theorem BytesExact.enforceAgainst {kind : RecordKind} {s : InMemoryStore} (h : BytesExact kind s)
    (now : AdmissionTime) : BytesExact kind (s.enforceAgainst now).store :=
  (passLoop now).run_invariant (I := fun pass => BytesExact kind pass.store)
    (fun _ _ hp hstep => by
      obtain ⟨cause, key, r, released, s', -, -, hremoves, rfl⟩ := evictOne_spec hstep
      exact (hp.removes hremoves).of_eq rfl rfl rfl)
    h

theorem BytesExact.refuse {kind : RecordKind} {s : InMemoryStore} (h : BytesExact kind s)
    (entity : EntityId) (r : Resident) (outcome : KeepOutcome) :
    BytesExact kind (s.refuse entity r outcome).store := by
  obtain ⟨hspans, hlogs, hpoints, -⟩ := s.refuse_frame entity r outcome
  exact h.of_eq hspans hlogs hpoints

/-- The side condition of an operation that does not take one kind's sum past the largest count:
the record it enters on that shelf, if it enters one, fits. -/
def NoSaturation (kind : RecordKind) (s : InMemoryStore) (op : StoreOp) : Prop :=
  ∀ key r, op.offer = some (key, r) → s.refusal key.entity r = none → r.kind = kind →
    s.shelfBytes kind + r.size ≤ u64Max

theorem BytesExact.apply {kind : RecordKind} {s : InMemoryStore} (h : BytesExact kind s)
    (hc : s.Tallied) {op : StoreOp} (hop : s.NoSaturation kind op) :
    BytesExact kind (s.apply op).1 := by
  rcases apply_cases s op with ⟨key, r, -, outcome, -, heq⟩ | ⟨key, r, hoffer, hr, heq⟩ |
    ⟨now, -, heq⟩ | ⟨-, -, anomalies, reply, -, heq⟩
  · rw [heq]; exact h.refuse _ _ _
  · rw [heq]; exact (h.enter hc (not_holds_of_refusal hr) (hop key r hoffer hr)).enforceAgainst _
  · rw [heq]; exact h.enforceAgainst now
  · rw [heq]; exact h.of_eq rfl rfl rfl

/-! ## Every run -/

/-- Every operation, on every exit, keeps the derived counts exact. -/
theorem Coherent.apply {s : InMemoryStore} (h : s.Coherent) (op : StoreOp) :
    (s.apply op).1.Coherent := by
  rcases apply_cases s op with ⟨key, r, -, outcome, -, heq⟩ | ⟨key, r, -, hr, heq⟩ |
    ⟨now, -, heq⟩ | ⟨-, -, anomalies, reply, -, heq⟩
  · rw [heq]; exact h.refuse _ _ _
  · rw [heq]; exact (h.enter hr).enforceAgainst _
  · rw [heq]; exact h.enforceAgainst now
  · rw [heq]; exact h.of_eq rfl rfl rfl rfl rfl rfl

theorem Tallied.apply {s : InMemoryStore} (h : s.Tallied) (op : StoreOp) :
    (s.apply op).1.Tallied := by
  rcases apply_cases s op with ⟨key, r, -, outcome, -, heq⟩ | ⟨key, r, -, hr, heq⟩ |
    ⟨now, -, heq⟩ | ⟨-, -, anomalies, reply, -, heq⟩
  · rw [heq]; exact h.refuse _ _ _
  · rw [heq]; exact (h.enter (not_holds_of_refusal hr)).enforceAgainst _
  · rw [heq]; exact h.enforceAgainst now
  · rw [heq]; exact h.of_eq rfl rfl rfl rfl

/-- One operation as a step of the store. -/
def Step (s : InMemoryStore) (op : StoreOp) (s' : InMemoryStore) : Prop := s' = (s.apply op).1

/-- Any operation, in any state. -/
def anyOp (_ : InMemoryStore) (_ : StoreOp) : Prop := True

/-- The derived counts are exact in every state any run reaches. -/
theorem coherent_of_reaches {config : RetentionConfig} {hook : Bool}
    {ok : InMemoryStore → StoreOp → Prop} {s : InMemoryStore}
    (h : Reaches Step ok (new config hook) s) : s.Coherent :=
  h.invariant (Coherent.new config hook) fun s op s' hs _ hstep => by
    rw [hstep]
    exact hs.apply op

/-- What is resident, as a reader's scans page over it. -/
def residency (s : InMemoryStore) : Residency where
  spans := s.spans.byKey
  logRecords := s.logs.byKey
  metricPoints := s.points.byKey.mapValues PointSlot.view

/-- **The store serves what is resident.** -/
theorem Coherent.serves {s : InMemoryStore} (h : s.Coherent) : s.driver.Serves s.residency where
  scanSpans := s.spans.scansOver
  scanLogRecords := s.logs.scansOver
  scanMetricPoints := s.points.scansOver.mapValues PointSlot.view
  span _ _ := h.spans.get_eq_some_iff
  logRecord _ _ := h.logs.get_eq_some_iff
  metricPoint entity view := by
    change (s.points.get entity).map PointSlot.view = some view ↔ _
    simp only [Option.map_eq_some_iff, h.points.get_eq_some_iff, residency, SortedMap.mapValues,
      List.mem_map, Prod.mk.injEq]
    constructor
    · rintro ⟨slot, ⟨key, hkey, hmem⟩, rfl⟩
      exact ⟨key, hkey, _, hmem, rfl, rfl⟩
    · rintro ⟨key, hkey, p, hmem, rfl, rfl⟩
      exact ⟨p.2, ⟨p.1, hkey, hmem⟩, rfl⟩

/-- A memory store between two operations, as a reader finds it. -/
def Coherent.fixedStore {s : InMemoryStore} (h : s.Coherent) : FixedStore :=
  ⟨s.driver, s.residency, h.serves⟩

/-- A kind's byte sum is exact in every state reached without saturating it. -/
theorem bytesExact_of_reaches {kind : RecordKind} {config : RetentionConfig} {hook : Bool}
    {s : InMemoryStore} (h : Reaches Step (NoSaturation kind) (new config hook) s) :
    BytesExact kind s := by
  have hboth : s.Coherent ∧ BytesExact kind s :=
    h.invariant (I := fun s => s.Coherent ∧ BytesExact kind s)
      ⟨Coherent.new config hook, BytesExact.new kind config hook⟩ fun s op s' hs hop hstep => by
        rw [hstep]
        exact ⟨hs.1.apply op, hs.2.apply hs.1.tallied hop⟩
  exact hboth.2

theorem reaches_run {ok : InMemoryStore → StoreOp → Prop} (hok : ∀ s op, ok s op) :
    ∀ (ops : List StoreOp) (s : InMemoryStore), Reaches Step ok s (s.run ops).1 := by
  intro ops
  induction ops with
  | nil => intro s; exact Reaches.refl s
  | cons op ops ih => intro s; exact Reaches.head (hok s op) rfl (ih _)

/-- **Derived counts in every reachable state.**  On each shelf the key map and the entity index
are mutually inverse, and the series table maps every stream to exactly the number of resident
points with an equal stream and holds no zero; and where no insertion of the run took a shelf's
sum past the largest 64-bit count, that shelf's accounted bytes are the sum of its records'. -/
theorem derived_counts_exact {config : RetentionConfig} {hook : Bool} {s : InMemoryStore}
    (h : Reaches Step anyOp (new config hook) s) :
    (s.spans.Indexed ∧ s.logs.Indexed ∧ s.points.Indexed) ∧
      ((∀ stream, s.series.get? stream = if s.points.pointCount stream = 0 then none
          else some (s.points.pointCount stream)) ∧
        ∀ e ∈ s.series.entries, e.2 ≠ 0) ∧
      ∀ kind, Reaches Step (NoSaturation kind) (new config hook) s →
        s.shelfBytes kind = s.recordSum kind := by
  have hc := coherent_of_reaches h
  refine ⟨⟨hc.spans, hc.logs, hc.points⟩, ⟨hc.series, ?_⟩,
    fun kind hn => bytesExact_of_reaches hn⟩
  · rintro ⟨stream, count⟩ he
    have hget : s.series.get? stream = some count :=
      ContentMap.get?_eq_some_iff.mpr ⟨stream, he, BEq.rfl⟩
    rw [hc.series stream] at hget
    split at hget
    · exact absurd hget (by simp)
    · rename_i hne
      exact Option.some.inj hget ▸ hne

/-- A configuration whose byte ceiling is the largest count, so no keep is over it. -/
def openConfig : RetentionConfig := ⟨10, u64Max, 10, 5⟩

/-- One log and two points of one stream, within every ceiling. -/
def pointsOps : List StoreOp :=
  [.keepLogRecord ⟨.serial 1, ⟨0⟩, ⟨0, LogRecord.bare none none⟩⟩,
    .keepMetricPoint ⟨.serial 2, ⟨5⟩, ⟨1, MetricPoint.bare 1⟩⟩ (.bare "m" none),
    .keepMetricPoint ⟨.serial 3, ⟨6⟩, ⟨2, MetricPoint.bare 2⟩⟩ (.bare "m" (some "u"))]

theorem derived_counts_exact_pointsOps :
    ((new openConfig true).run pointsOps).1.series.get? (.bare "m" none) = some 2 ∧
      ((new openConfig true).run pointsOps).1.points.accountedBytes =
        ((new openConfig true).run pointsOps).1.points.recordSum := by
  have h := @derived_counts_exact openConfig true _
    (@reaches_run anyOp (fun _ _ => trivial) pointsOps _)
  refine ⟨(h.2.1.1 _).trans (by decide), h.2.2 .point ?_⟩
  refine Reaches.head ?_ rfl (Reaches.head ?_ rfl (Reaches.head ?_ rfl (Reaches.refl _)))
  all_goals
    rintro key r hoffer - -
    obtain ⟨rfl, rfl⟩ := Prod.mk.inj (Option.some.inj hoffer)
    decide

/-! ## A sum that has saturated stays wrong -/

/-- Under the largest ceiling only the record ceiling and the window are ever violated. -/
theorem firstViolation_of_open {s : InMemoryStore} {now : AdmissionTime} {key : AdmissionKey}
    (hconfig : s.config.maxAccountedBytes = u64Max)
    (hrecords : s.residentRecords ≤ s.config.maxRecords) (hold : s.oldestKey = some key) :
    s.firstViolation now = if key.admittedAt.unixNano ≤ now.unixNano ∧
      s.windowNanos ≤ now.unixNano - key.admittedAt.unixNano then some .admissionWindow
      else none := by
  have hbytes : ¬ s.accountedBytes > s.config.maxAccountedBytes := by
    rw [hconfig]
    exact not_lt.mpr (saturatingAdd_le _ _)
  rw [firstViolation, if_neg (not_lt.mpr hrecords), if_neg hbytes, hold]

/-- Two logs at times 0 and 5, the first of which the window expires at 12. -/
def expiringOps (a b : Arc LogRecord) : List StoreOp :=
  [.keepLogRecord ⟨.serial 1, ⟨0⟩, a⟩, .keepLogRecord ⟨.serial 2, ⟨5⟩, b⟩, .enforceRetention ⟨12⟩]

theorem logs_of_expiringOps (a b : Arc LogRecord) :
    ((new openConfig true).run (expiringOps a b)).1.logs.accountedBytes =
        saturatingAdd (saturatingAdd 0 (accountedU64 a)) (accountedU64 b) - accountedU64 a ∧
      ((new openConfig true).run (expiringOps a b)).1.logs.recordSum = accountedU64 b := by
  set s₀ := new openConfig true
  set s₁ := s₀.enter ⟨⟨0⟩, .serial 1⟩ (.log a) with hs₁
  set s₂ := s₁.enter ⟨⟨5⟩, .serial 2⟩ (.log b) with hs₂
  have hkeep : ∀ (s : InMemoryStore) (t n : Nat) (r : Arc LogRecord),
      s.config.maxAccountedBytes = u64Max → s.logs.contains (.serial n) = false →
      (s.enter ⟨⟨t⟩, .serial n⟩ (.log r)).firstViolation ⟨t⟩ = none →
      (s.apply (.keepLogRecord ⟨.serial n, ⟨t⟩, r⟩)).1 = s.enter ⟨⟨t⟩, .serial n⟩ (.log r) := by
    intro s t n r hmax hfresh hfit
    have hr : s.refusal (.serial n) (.log r) = none := by
      have hsize : ¬ u64Max < accountedU64 r := not_lt.mpr (accountedU64_le r)
      simp [refusal, holds, hfresh, hmax, Resident.size, Resident.stream?, hsize]
    rw [@apply_keep _ _ ⟨⟨t⟩, .serial n⟩ (.log r) rfl]
    simp only [keepResident, hr, enforceAgainst_of_none hfit]
  have h₁ : (s₀.apply (.keepLogRecord ⟨.serial 1, ⟨0⟩, a⟩)).1 = s₁ :=
    hkeep s₀ 0 1 a rfl rfl (@firstViolation_of_open _ _ ⟨⟨0⟩, .serial 1⟩ rfl
      (show 1 ≤ 10 by decide) rfl)
  have h₂ : (s₁.apply (.keepLogRecord ⟨.serial 2, ⟨5⟩, b⟩)).1 = s₂ :=
    hkeep s₁ 5 2 b rfl rfl (@firstViolation_of_open _ _ ⟨⟨0⟩, .serial 1⟩ rfl
      (show 2 ≤ 10 by decide) rfl)
  -- the window takes the first log and stops at the second
  have hevict : ∃ pass, evictOne ⟨12⟩ ⟨s₂, 0, []⟩ = some pass ∧
      pass.store.firstViolation ⟨12⟩ = none ∧
      pass.store.logs.accountedBytes = s₂.logs.accountedBytes - accountedU64 a ∧
      pass.store.logs.recordSum = accountedU64 b := by
    have hv : s₂.firstViolation ⟨12⟩ = some .admissionWindow :=
      @firstViolation_of_open _ _ ⟨⟨0⟩, .serial 1⟩ rfl (show 2 ≤ 10 by decide) rfl
    refine ⟨_, by simp only [evictOne, hv]; rfl, ?_, rfl, rfl⟩
    exact @firstViolation_of_open _ _ ⟨⟨5⟩, .serial 2⟩ rfl (show 1 ≤ 10 by decide) rfl
  obtain ⟨pass, hstep, hstop, hbytes, hsum⟩ := hevict
  have h₃ : (s₂.apply (.enforceRetention ⟨12⟩)).1 = pass.store := by
    change (s₂.enforceAgainst ⟨12⟩).store = _
    rw [enforceAgainst_of_some hstep, Loop.run_of_none (evictOne_eq_none_iff.mpr (Or.inl hstop))]
  have hrun : (s₀.run (expiringOps a b)).1 = pass.store := by
    simp only [expiringOps, run, h₁, h₂, h₃]
  rw [hrun, hbytes, hsum]
  exact ⟨rfl, rfl⟩

/-- A log whose body carries `n` bytes. -/
def logOfBytes (n : Nat) : Arc LogRecord :=
  ⟨0, LogRecord.bare none (some (.bytes (List.replicate n 0)))⟩

theorem accountedSize_logOfBytes (n : Nat) : accountedSize (logOfBytes n) = 108 + n := by
  have hresource : accountedSize (Resource.bare none) = 20 := rfl
  have hscope : accountedSize InstrumentationScope.bare = 52 := rfl
  have hattributes : accountedSize Attributes.default = 0 := rfl
  change accountedSize (LogRecord.bare none (some (.bytes (List.replicate n 0)))) = _
  rw [LogRecord.accountedSize_eq]
  simp only [LogRecord.bare, optionalBytes, accountedSize_bytes, List.length_replicate, hresource,
    hscope, hattributes, structureFixedBytes]
  omega

/-- The sum standing now says nothing about the sum the run went through: one log of `2 ^ 63 - 1`
bytes kept twice saturates the shelf's account, and the first one's eviction leaves it short. -/
theorem not_accountedBytes_eq_recordSum :
    ¬ ∀ (config : RetentionConfig) (hook : Bool) (s : InMemoryStore),
      Reaches Step anyOp (new config hook) s → s.logs.recordSum < u64Max →
        s.logs.accountedBytes = s.logs.recordSum := by
  intro hclaim
  have hsize : accountedU64 (logOfBytes (2 ^ 63 - 1)) = 108 + (2 ^ 63 - 1) := by
    rw [accountedU64, accountedSize_logOfBytes, if_pos (by decide)]
  obtain ⟨hbytes, hsum⟩ := logs_of_expiringOps (logOfBytes (2 ^ 63 - 1)) (logOfBytes (2 ^ 63 - 1))
  have heq := hclaim openConfig true _ (reaches_run (fun _ _ => trivial) _ _)
    (by rw [hsum, hsize]; decide)
  rw [hbytes, hsum, hsize] at heq
  exact absurd heq (by decide)

end InMemoryStore

end RuntimeTrail
