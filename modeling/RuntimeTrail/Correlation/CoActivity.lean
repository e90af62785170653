import RuntimeTrail.Correlation.Exact

/-!
# What co-activity relates

The documented time semantics against the comparison the engine makes.  A span's
time is its half-open interval, a point's time an instant; both have to lie in
the window, and to overlap or stand no further apart than the window is long.

* **the documented semantics** — `Span.LiesIn`, `Span.CoActiveWith`;
* **the comparison** — `coActive_iff`: the proximity limit cuts nothing inside
  the window; `coActive_iff_coActiveWith`: the two agree but on `Span.Misread`
  spans;
* **no underflow** — `checkedGap_eq`;
* **the law** — `RuntimeTrail.co_activity_exact_iff`.
-/

namespace RuntimeTrail

open Library

/-! ## The documented semantics -/

namespace Span

/-- Where the span's interval ends: at its start, when it has no end. -/
def stopTime (span : Span) : Nat := span.endTimeUnixNano.getD span.startTimeUnixNano

/-- The half-open interval of the span and the window have an instant in common. -/
def Meets (window : TimeWindow) (span : Span) : Prop :=
  ∃ time, span.startTimeUnixNano ≤ time ∧ time < span.stopTime ∧ window.holds time = true

theorem meets_iff {window : TimeWindow} {span : Span} : span.Meets window ↔
    max span.startTimeUnixNano window.start < min span.stopTime window.stop := by
  unfold Meets TimeWindow.holds
  simp only [Bool.and_eq_true, decide_eq_true_eq]
  constructor
  · rintro ⟨time, hstart, hstop, hfrom, hto⟩
    omega
  · intro h
    exact ⟨max span.startTimeUnixNano window.start, by omega, by omega, by omega, by omega⟩

instance (window : TimeWindow) (span : Span) : Decidable (span.Meets window) :=
  decidable_of_iff _ meets_iff.symm

/-- A span's time lies in the window: its interval meets it, or, where it has no end or no length,
its start instant is in it. -/
def LiesIn (window : TimeWindow) (span : Span) : Prop :=
  span.Meets window ∨
    (span.stopTime = span.startTimeUnixNano ∧ window.holds span.startTimeUnixNano = true)

instance (window : TimeWindow) (span : Span) : Decidable (span.LiesIn window) :=
  inferInstanceAs (Decidable (_ ∨ _))

/-- How far apart two instants are. -/
def apart (a b : Nat) : Nat := max a b - min a b

/-- A span and a point are co-active in a window: both times lie in it, and they overlap, or an edge
of the span's interval is at most the window's length from the point's time. -/
def CoActiveWith (window : TimeWindow) (span : Span) (point : MetricPoint) : Prop :=
  window.holds point.timeUnixNano = true ∧ span.LiesIn window ∧
    ((span.startTimeUnixNano ≤ point.timeUnixNano ∧ point.timeUnixNano < span.stopTime) ∨
      apart span.startTimeUnixNano point.timeUnixNano ≤ window.len ∨
      apart span.stopTime point.timeUnixNano ≤ window.len)

instance (window : TimeWindow) (span : Span) (point : MetricPoint) :
    Decidable (span.CoActiveWith window point) :=
  inferInstanceAs (Decidable (_ ∧ _ ∧ (_ ∨ _ ∨ _)))

/-- The spans the comparison reads another way: an instant at the window's very start, and one whose
end precedes its start, with its end after the window's start and its start before the window's
end. -/
def Misread (window : TimeWindow) (span : Span) : Prop :=
  (span.stopTime = span.startTimeUnixNano ∧ span.startTimeUnixNano = window.start) ∨
    (span.stopTime < span.startTimeUnixNano ∧ window.start < span.stopTime ∧
      span.startTimeUnixNano < window.stop)

end Span

/-! ## The comparison -/

/-- Inside the window the proximity limit cuts nothing: the comparison is that of the span with the
window's two edges. -/
theorem coActive_iff {window : TimeWindow} {span : Span} {point : MetricPoint} :
    coActive window span point = true ↔ window.start < span.stopTime ∧
      span.startTimeUnixNano < window.stop ∧ window.holds point.timeUnixNano = true := by
  unfold coActive coActivityGap TimeWindow.len TimeWindow.holds Span.stopTime
  simp only [Bool.and_eq_true, Bool.not_eq_true', Bool.or_eq_false_iff, decide_eq_false_iff_not,
    decide_eq_true_eq, not_le, not_lt]
  constructor
  · rintro ⟨⟨hstop, hstart⟩, ⟨hfrom, hto⟩, -⟩
    exact ⟨hstop, hstart, hfrom, hto⟩
  · rintro ⟨hstop, hstart, hfrom, hto⟩
    refine ⟨⟨hstop, hstart⟩, ⟨hfrom, hto⟩, ?_⟩
    split
    · omega
    · split <;> omega

/-- And so is the documented semantics, with the span read as its set of instants. -/
theorem coActiveWith_iff {window : TimeWindow} {span : Span} {point : MetricPoint} :
    span.CoActiveWith window point ↔
      span.LiesIn window ∧ window.holds point.timeUnixNano = true := by
  unfold Span.CoActiveWith Span.LiesIn
  rw [Span.meets_iff]
  unfold Span.apart TimeWindow.len TimeWindow.holds
  simp only [Bool.and_eq_true, decide_eq_true_eq]
  constructor
  · rintro ⟨htime, hspan, -⟩
    exact ⟨hspan, htime⟩
  · rintro ⟨hspan, htime⟩
    exact ⟨htime, hspan, by omega⟩

/-- **The comparison agrees with the semantics** on every span but those it misreads. -/
theorem coActive_iff_coActiveWith {window : TimeWindow} (hwindow : window.isEmpty = false)
    {span : Span} {point : MetricPoint} (h : window.holds point.timeUnixNano = true) :
    (coActive window span point = true ↔ span.CoActiveWith window point) ↔
      ¬ span.Misread window := by
  have hopen : window.start < window.stop := by
    simpa [TimeWindow.isEmpty] using hwindow
  rw [coActive_iff, coActiveWith_iff, Span.LiesIn, Span.meets_iff, Span.Misread]
  simp only [h, and_true]
  unfold TimeWindow.holds
  simp only [Bool.and_eq_true, decide_eq_true_eq]
  omega

/-! ## No underflow -/

/-- Subtraction of 64-bit counts, where it does not underflow. -/
def checkedSub (a b : Nat) : Option Nat := if b ≤ a then some (a - b) else none

/-- The gap of a point's time to a span's interval, with each subtraction checked. -/
def checkedGap (start stop time : Nat) : Option Nat :=
  if start ≤ time ∧ time < stop then some 0
  else if time < start then checkedSub start time
  else checkedSub time stop

/-- **No subtraction underflows**, whatever the order of the span's two times. -/
theorem checkedGap_eq (start stop time : Nat) :
    checkedGap start stop time = some (coActivityGap start stop time) := by
  unfold checkedGap coActivityGap checkedSub
  split
  · rfl
  · split
    · rw [if_pos (by omega)]
    · rw [if_pos (by omega)]

/-! ## The law -/

/-- Every resident span of the subject trace with every resident point a test relates it to. -/
def Residency.relatedBy (test : Span → MetricPoint → Bool) (residency : Residency)
    (subject : Option TraceId) (window : TimeWindow) : List Relation :=
  subject.toList.flatMap fun trace => (residency.spansOfTrace trace).flatMap fun span =>
    (residency.residentPoints.filter fun point => test span.2.val point.2.point.val).map
      (coActivityRelation window span)

/-- What the documented semantics relates among the residents. -/
def Residency.coActivity (residency : Residency) (subject : Option TraceId) (window : TimeWindow) :
    List Relation :=
  residency.relatedBy (fun span point => decide (span.CoActiveWith window point)) subject window

/-- The run relates the co-active pairs and no others, once for each listing of the strategy, and no
subtraction on the way underflows. -/
structure CoActivityExact (residency : Residency) (bounds : CorrelationBounds) (window : TimeWindow)
    (relations : List Relation) : Prop where
  related : (relations.filter fun relation =>
      decide (relation.relationType = .temporalCoActivity)).Perm
    ((bounds.strategies.filter (· = .temporalCoActivity)).flatMap fun _ =>
      residency.coActivity bounds.subjectTrace window)
  unwrapped : ∀ span ∈ residency.residentSpans, ∀ point ∈ residency.residentPoints,
    checkedGap span.2.val.startTimeUnixNano span.2.val.stopTime point.2.point.val.timeUnixNano =
      some (coActivityGap span.2.val.startTimeUnixNano span.2.val.stopTime
        point.2.point.val.timeUnixNano)

namespace FixedStore

variable (store : FixedStore)

/-- A pair of residents is related exactly when the test relates it. -/
theorem mem_relatedBy {test : Span → MetricPoint → Bool} {subject : Option TraceId}
    {trace : TraceId} (hsubject : subject = some trace) {window : TimeWindow}
    {span : EntityId × Arc Span} (hspan : span ∈ store.residency.spansOfTrace trace)
    {point : EntityId × PointView} (hpoint : point ∈ store.residency.residentPoints) :
    coActivityRelation window span point ∈ store.residency.relatedBy test subject window ↔
      test span.2.val point.2.point.val = true := by
  rw [Residency.relatedBy, hsubject, Option.toList_some, List.flatMap_singleton]
  constructor
  · intro hmem
    obtain ⟨span', hspan', hrelated⟩ := List.mem_flatMap.mp hmem
    obtain ⟨point', hpoint', heq⟩ := List.mem_map.mp hrelated
    obtain ⟨hresident, htest⟩ := List.mem_filter.mp hpoint'
    -- the relation names both ends, and an entity id stands for one record
    obtain rfl : span' = span := record_unique store.serves.span (List.mem_filter.mp hspan').1
      (List.mem_filter.mp hspan).1 (congrArg (fun r : Relation => r.source.entity) heq)
    obtain rfl : point' = point := record_unique store.serves.metricPoint hresident hpoint
      (congrArg (fun r : Relation => r.target.entity) heq)
    exact htest
  · intro htest
    exact List.mem_flatMap.mpr ⟨span, hspan,
      List.mem_map.mpr ⟨point, List.mem_filter.mpr ⟨hpoint, htest⟩, rfl⟩⟩

/-- What a run over a fixed store returns of temporal relations, when no ceiling is hit. -/
theorem temporal_perm {bounds : CorrelationBounds} {window : TimeWindow}
    (hhops : 1 ≤ bounds.maxHops) (hwindow : bounds.window = some window)
    (hopen : window.isEmpty = false)
    (hstop : (correlate (fun _ => store.driver) bounds).truth.stoppedAt = none) :
    ((correlate (fun _ => store.driver) bounds).relations.filter fun relation =>
        decide (relation.relationType = .temporalCoActivity)).Perm
      ((bounds.strategies.filter (· = .temporalCoActivity)).flatMap fun _ =>
        store.residency.relatedBy (coActive window) bounds.subjectTrace window) := by
  refine ((store.correlate_perm (Nat.one_le_iff_ne_zero.mp hhops) hstop).filter _).trans
    (List.Perm.of_eq ?_)
  have hfamily : ∀ strategy, (familyOf bounds (store.residency.scannedWhole
      (scanned (fun _ => store.driver) bounds.maxScan).tally) strategy).filter
        (fun relation => decide (relation.relationType = .temporalCoActivity)) =
      if strategy = .temporalCoActivity then
        store.residency.relatedBy (coActive window) bounds.subjectTrace window
      else [] := by
    intro strategy
    by_cases htemporal : strategy = .temporalCoActivity
    · rw [if_pos htemporal, List.filter_eq_self.mpr fun relation hrelation => decide_eq_true
        ((formed_of_mem hrelation).relationType.trans (by rw [htemporal]; rfl)), htemporal]
      change temporalCoActivityOf (subjectSpans store.residency.residentSpans bounds.subjectTrace)
        store.residency.residentPoints bounds.window = _
      rw [temporalCoActivityOf, hwindow, Option.toList_some,
        List.filter_cons_of_pos (by simp [hopen]), List.filter_nil, List.flatMap_singleton]
      cases hsubject : bounds.subjectTrace with
      | none => rfl
      | some trace =>
        rw [store.residency.subjectSpans_eq, Residency.relatedBy, Option.toList_some,
          List.flatMap_singleton]
    · rw [if_neg htemporal]
      refine List.filter_eq_nil_iff.mpr fun relation hrelation => ?_
      rw [(formed_of_mem hrelation).relationType]
      revert htemporal
      cases strategy <;> decide
  rw [offered, List.filter_flatMap]
  induction bounds.strategies with
  | nil => rfl
  | cons strategy rest ih =>
    rw [List.flatMap_cons, ih, hfamily]
    by_cases htemporal : strategy = .temporalCoActivity
    · rw [if_pos htemporal, List.filter_cons_of_pos (by simp [htemporal]), List.flatMap_cons]
    · rw [if_neg htemporal, List.filter_cons_of_neg (by simp [htemporal]), List.nil_append]

end FixedStore

/-- **Temporal co-activity is exact** but for a span the comparison misreads with a resident point in
the window: an instant at the window's very start, which it drops, or a span that ends before it
starts, which it keeps. -/
theorem co_activity_exact_iff (store : FixedStore) (bounds : CorrelationBounds)
    (window : TimeWindow) (hhops : 1 ≤ bounds.maxHops) (hwindow : bounds.window = some window)
    (hopen : window.isEmpty = false)
    (hstop : (correlate (fun _ => store.driver) bounds).truth.stoppedAt = none) :
    CoActivityExact store.residency bounds window
        (correlate (fun _ => store.driver) bounds).relations ↔
      (.temporalCoActivity ∈ bounds.strategies → ∀ trace, bounds.subjectTrace = some trace →
        ∀ span ∈ store.residency.spansOfTrace trace, span.2.val.Misread window →
          ∀ point ∈ store.residency.residentPoints,
            window.holds point.2.point.val.timeUnixNano = false) := by
  have hperm := store.temporal_perm hhops hwindow hopen hstop
  constructor
  · intro hexact hlisted trace hsubject span hspan hmisread point hpoint
    by_contra htime
    rw [Bool.not_eq_false] at htime
    refine (coActive_iff_coActiveWith hopen htime).mp ?_ hmisread
    -- the pair is among the run's relations, and among the documented ones, or among neither
    have hmem := (hperm.symm.trans hexact.related).mem_iff
      (a := coActivityRelation window span point)
    have hlistings : Strategy.temporalCoActivity ∈
        bounds.strategies.filter (· = .temporalCoActivity) :=
      List.mem_filter.mpr ⟨hlisted, by simp⟩
    have hrepeat : ∀ relations : List Relation, coActivityRelation window span point ∈
        ((bounds.strategies.filter (· = .temporalCoActivity)).flatMap fun _ => relations) ↔
          coActivityRelation window span point ∈ relations := fun relations =>
      ⟨fun h => (List.mem_flatMap.mp h).elim fun _ h => h.2,
        fun h => List.mem_flatMap.mpr ⟨_, hlistings, h⟩⟩
    rw [hrepeat, hrepeat, Residency.coActivity, store.mem_relatedBy hsubject hspan hpoint,
      store.mem_relatedBy hsubject hspan hpoint, decide_eq_true_eq] at hmem
    exact hmem
  · intro h
    refine ⟨hperm.trans (List.Perm.of_eq (List.flatMap_congr fun strategy hstrategy => ?_)),
      fun span _ point _ => checkedGap_eq _ _ _⟩
    obtain ⟨hlisted, htemporal⟩ := List.mem_filter.mp hstrategy
    rw [of_decide_eq_true htemporal] at hlisted
    rw [Residency.coActivity, Residency.relatedBy, Residency.relatedBy]
    refine List.flatMap_congr fun trace htrace => List.flatMap_congr fun span hspan => ?_
    refine congrArg (List.map _) (List.filter_congr fun point hpoint => ?_)
    rw [Bool.eq_iff_iff, decide_eq_true_eq]
    by_cases htime : window.holds point.2.point.val.timeUnixNano = true
    · refine (coActive_iff_coActiveWith hopen htime).mpr fun hmisread => ?_
      have hout := h hlisted trace (Option.mem_toList.mp htrace) span hspan hmisread point hpoint
      rw [htime] at hout
      exact absurd hout (by decide)
    · rw [coActive_iff, coActiveWith_iff]
      exact ⟨fun h => absurd h.2.2 htime, fun h => absurd h.2 htime⟩

/-- One span of a trace, and one point at time fifteen. -/
def besidePoint (span : Span) : Residency where
  spans := ⟨[(⟨⟨0⟩, .span (.ofByte 1) (.ofByte 1)⟩, ⟨0, span⟩)], List.pairwise_singleton _ _⟩
  logRecords := SortedMap.empty
  metricPoints := ⟨[(⟨⟨1⟩, .serial 1⟩, ⟨⟨1, .bare 15⟩, .bare "m" none⟩)],
    List.pairwise_singleton _ _⟩

def besidePointStore (span : Span) : FixedStore where
  driver := (besidePoint span).driver noStats
  residency := besidePoint span
  serves := Residency.serves
    (fun p hp q hq _ => (List.mem_singleton.mp hp).trans (List.mem_singleton.mp hq).symm)
    (fun _ h => absurd h (by simp [besidePoint, SortedMap.empty]))
    (fun p hp q hq _ => (List.mem_singleton.mp hp).trans (List.mem_singleton.mp hq).symm) noStats

/-- Temporal co-activity of one trace in the window `[10, 20)`. -/
def temporalBounds : CorrelationBounds :=
  ⟨[.temporalCoActivity], some ⟨10, 20⟩, 10, 1, 10, some (.ofByte 1)⟩

/-- The span `[10, 20)` and the point at fifteen are related. -/
theorem co_activity_exact_overlapping :
    CoActivityExact (besidePoint (.bare 1 1)) temporalBounds ⟨10, 20⟩
      (correlate (fun _ => (besidePointStore (.bare 1 1)).driver) temporalBounds).relations :=
  (co_activity_exact_iff (besidePointStore (.bare 1 1)) temporalBounds ⟨10, 20⟩ (by decide) rfl
    (by decide) (by decide +kernel)).mpr fun _ _ _ span hspan hmisread => by
      obtain rfl := List.mem_singleton.mp (List.mem_filter.mp hspan).1
      exact absurd hmisread (by simp [Span.Misread, Span.stopTime, Span.bare])

/-- An instant at the window's start is in the window, and five units from the point: the run does
not relate them. -/
theorem co_activity_drops_instant :
    ¬ CoActivityExact (besidePoint { Span.bare 1 1 with endTimeUnixNano := none }) temporalBounds
      ⟨10, 20⟩ (correlate (fun _ => (besidePointStore
        { Span.bare 1 1 with endTimeUnixNano := none }).driver) temporalBounds).relations := by
  intro hexact
  have hlength := hexact.related.length_eq
  exact absurd hlength (by decide +kernel)

end RuntimeTrail
