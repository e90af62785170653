import RuntimeTrail.Correlation.Formed
import RuntimeTrail.Correlation.Scans

/-!
# The guards of a run

No relation of a record to itself, none to an absent record, none past the
ceiling, and no position past the scan allowance.

* **the re-check** — `mem_retainResident`: what is returned was formed, and both
  its endpoints were resident when the re-check looked;
* **self-loops** — the strategies but one relate records of two kinds or compare
  the two ends; `resourceContext` pairs what the scans met, so that a record met
  twice is paired with itself (`selfLoop_of_met_twice`);
* **meeting once** — `KeepsAdmissions.metOnce`: over a store that admits no
  record again while the scans run, no record is met twice;
* **the guards** — `correlate_guards`.
-/

namespace RuntimeTrail

open Library

/-! ## The re-check -/

theorem endpointsResident_eq (reads : Nat → TelemetryStore) (call : Nat) (relation : Relation) :
    ∃ next, call ≤ next ∧ endpointsResident reads call relation =
      ((reads call).holds relation.source && (reads (call + 1)).holds relation.target, next) := by
  unfold endpointsResident
  cases (reads call).holds relation.source with
  | true => exact ⟨call + 2, by omega, by simp⟩
  | false => exact ⟨call + 1, by omega, by simp⟩

theorem retainResident_cons (reads : Nat → TelemetryStore) (call : Nat) (relation : Relation)
    (rest : List Relation) : ∃ next, call ≤ next ∧
      retainResident reads call (relation :: rest) =
        if (reads call).holds relation.source && (reads (call + 1)).holds relation.target then
          relation :: retainResident reads next rest
        else retainResident reads next rest := by
  obtain ⟨next, hnext, heq⟩ := endpointsResident_eq reads call relation
  refine ⟨next, hnext, ?_⟩
  rw [retainResident, heq]
  cases (reads call).holds relation.source && (reads (call + 1)).holds relation.target <;> rfl

theorem retainResident_sublist (reads : Nat → TelemetryStore) (call : Nat)
    (relations : List Relation) : (retainResident reads call relations).Sublist relations := by
  induction relations generalizing call with
  | nil => exact List.Sublist.refl _
  | cons relation rest ih =>
    obtain ⟨next, -, heq⟩ := retainResident_cons reads call relation rest
    rw [heq]
    split
    · exact (ih next).cons_cons relation
    · exact (ih next).cons relation

/-- **The re-check**: what it keeps has both endpoints resident when it looked. -/
theorem mem_retainResident {reads : Nat → TelemetryStore} {call : Nat} {relations : List Relation}
    {relation : Relation} (h : relation ∈ retainResident reads call relations) :
    ∃ look, call ≤ look ∧ (reads look).holds relation.source = true ∧
      (reads (look + 1)).holds relation.target = true := by
  induction relations generalizing call with
  | nil => exact absurd h (by simp [retainResident])
  | cons first rest ih =>
    obtain ⟨next, hnext, heq⟩ := retainResident_cons reads call first rest
    rw [heq] at h
    have hrest : relation ∈ retainResident reads next rest → ∃ look, call ≤ look ∧
        (reads look).holds relation.source = true ∧
          (reads (look + 1)).holds relation.target = true := by
      intro hmem
      obtain ⟨look, hlook, hends⟩ := ih hmem
      exact ⟨look, hnext.trans hlook, hends⟩
    split at h
    · rename_i hends
      rcases List.mem_cons.mp h with rfl | hmem
      · rw [Bool.and_eq_true] at hends
        exact ⟨call, Nat.le_refl _, hends⟩
      · exact hrest hmem
    · exact hrest h

/-- A relation whose endpoints stay resident is kept. -/
theorem mem_retainResident_of_holds {reads : Nat → TelemetryStore} {call : Nat}
    {relations : List Relation} {relation : Relation} (h : relation ∈ relations)
    (hholds : ∀ look, call ≤ look → (reads look).holds relation.source = true ∧
      (reads look).holds relation.target = true) :
    relation ∈ retainResident reads call relations := by
  induction relations generalizing call with
  | nil => exact absurd h (by simp)
  | cons first rest ih =>
    obtain ⟨next, hnext, heq⟩ := retainResident_cons reads call first rest
    have hlater : relation ∈ rest → relation ∈ retainResident reads next rest := fun hmem =>
      ih hmem fun look hlook => hholds look (hnext.trans hlook)
    rw [heq]
    rcases List.mem_cons.mp h with rfl | hmem
    · rw [if_pos (by simp [(hholds call (Nat.le_refl _)).1, (hholds (call + 1) (by omega)).2])]
      exact List.mem_cons_self ..
    · split
      · exact List.mem_cons_of_mem _ (hlater hmem)
      · exact hlater hmem

/-! ## What is returned -/

/-- The returned relations are the re-checked ones, sorted. -/
theorem correlate_perm {reads : Nat → TelemetryStore} {bounds : CorrelationBounds}
    (h : bounds.maxHops ≠ 0) :
    let s := scanned reads bounds.maxScan
    (correlate reads bounds).relations.Perm
      (retainResident reads s.tally.calls ((offered bounds s).take bounds.maxRelations)) := by
  rw [correlate, if_neg h]
  dsimp only
  rw [form_relations]
  exact List.mergeSort_perm _ _

/-- A run of no hops scans nothing and says so. -/
theorem correlate_of_maxHops {reads : Nat → TelemetryStore} {bounds : CorrelationBounds}
    (h : bounds.maxHops = 0) :
    correlate reads bounds = ⟨[], ⟨[], [], [], 0, some (.maxDepth 0), 0⟩⟩ := if_pos h

/-- Every returned relation was formed, and survived the re-check. -/
theorem mem_correlate {reads : Nat → TelemetryStore} {bounds : CorrelationBounds}
    {relation : Relation} (h : relation ∈ (correlate reads bounds).relations) :
    let s := scanned reads bounds.maxScan
    relation ∈ offered bounds s ∧
      relation ∈ retainResident reads s.tally.calls
        ((offered bounds s).take bounds.maxRelations) := by
  by_cases hhops : bounds.maxHops = 0
  · rw [correlate_of_maxHops hhops] at h
    exact absurd h (by simp)
  · have hmem := (correlate_perm hhops).mem_iff.mp h
    exact ⟨List.mem_of_mem_take ((retainResident_sublist _ _ _).subset hmem), hmem⟩

/-! ## Self-loops -/

/-- No record was met twice under one resource identity. -/
def Scanned.MetOnce (s : Scanned) : Prop :=
  s.signals.Pairwise fun a b => a.1.attributes = b.1.attributes → a.2 ≠ b.2

/-- Where no record is met twice under one resource, nothing is related to itself. -/
theorem noSelfLoops_of_metOnce {bounds : CorrelationBounds} {s : Scanned}
    (h : .resourceContext ∈ bounds.strategies → s.MetOnce) :
    ∀ relation ∈ offered bounds s, relation.source ≠ relation.target := by
  intro relation hrelation
  obtain ⟨strategy, hstrategy, hfamily⟩ := List.mem_flatMap.mp hrelation
  by_cases hresource : strategy = .resourceContext
  · subst hresource
    obtain ⟨p, hp, hid, rfl⟩ := mem_groupRelations.mp hfamily
    exact pairwise_iff_pairs.mp (h hstrategy) p hp hid
  · exact fun hloop => hresource ((formed_of_mem hfamily).loop hloop)

/-- A record met twice under one resource, still resident after the scans, is related to itself,
unless the relation ceiling cuts the answer. -/
theorem selfLoop_of_met_twice {reads : Nat → TelemetryStore} {bounds : CorrelationBounds}
    (hhops : bounds.maxHops ≠ 0) (hstrategy : .resourceContext ∈ bounds.strategies)
    {a b : Resource × SignalRef}
    (htwice : [a, b].Sublist (scanned reads bounds.maxScan).signals)
    (hid : a.1.attributes = b.1.attributes) (hsame : a.2 = b.2)
    (hroom : (offered bounds (scanned reads bounds.maxScan)).length ≤ bounds.maxRelations)
    (hholds : ∀ call, (scanned reads bounds.maxScan).tally.calls ≤ call →
      (reads call).holds a.2 = true) :
    ∃ relation ∈ (correlate reads bounds).relations, relation.source = relation.target := by
  refine ⟨resourceRelation a b, (correlate_perm hhops).mem_iff.mpr ?_, hsame⟩
  refine mem_retainResident_of_holds ?_ fun call hcall => ⟨hholds call hcall, ?_⟩
  · rw [List.take_of_length_le hroom]
    exact List.mem_flatMap.mpr ⟨.resourceContext, hstrategy,
      mem_groupRelations.mpr ⟨(a, b), mem_pairs_iff.mpr htwice, hid, rfl⟩⟩
  · change (reads call).holds b.2 = true
    rw [← hsame]
    exact hholds call hcall

/-! ## Meeting once -/

/-- No resident of a kind stands under two admission keys with one resource: of the records resident
at the calls, none was evicted and admitted again. -/
def NotReadmitted {R : Type} (residents : Nat → SortedMap AdmissionKey R) (resourceOf : R → Resource)
    (calls : Nat) : Prop :=
  ∀ m n, m ≤ n → n < calls → ∀ p ∈ (residents m).entries, ∀ q ∈ (residents n).entries,
    p.1.entity = q.1.entity → (resourceOf p.2).attributes = (resourceOf q.2).attributes → p.1 = q.1

/-- Of the records resident at the calls, none of any kind was evicted and admitted again under an
equal resource. -/
structure KeepsAdmissions (residencies : Nat → Residency) (calls : Nat) : Prop where
  spans : NotReadmitted (fun call => (residencies call).spans) (fun span => span.val.resource) calls
  logRecords :
    NotReadmitted (fun call => (residencies call).logRecords) (fun log => log.val.resource) calls
  metricPoints :
    NotReadmitted (fun call => (residencies call).metricPoints) (fun view => view.stream.resource)
      calls

/-- One scan over such a store meets no record twice. -/
theorem NotReadmitted.pairwise {R : Type} {residents : Nat → SortedMap AdmissionKey R}
    {resourceOf : R → Resource} {calls : Nat} (h : NotReadmitted residents resourceOf calls)
    (kind : SignalKind) {met : List (Nat × AdmissionKey × R)}
    (hsorted : met.Pairwise fun a b => a.1 ≤ b.1 ∧ a.2.1 < b.2.1)
    (hfound : ∀ m ∈ met, m.1 < calls ∧ m.2 ∈ (residents m.1).entries) :
    ((met.map fun m => (m.2.1.entity, m.2.2)).map
      fun p => (resourceOf p.2, (⟨kind, p.1⟩ : SignalRef))).Pairwise
        fun a b => a.1.attributes = b.1.attributes → a.2 ≠ b.2 := by
  rw [List.map_map, List.pairwise_map]
  refine hsorted.imp_of_mem fun {a b} ha hb hlt hid hsame => ?_
  have hkey : a.2.1 = b.2.1 := h a.1 b.1 hlt.1 (hfound b hb).1 a.2 (hfound a ha).2 b.2
    (hfound b hb).2 (SignalRef.mk.inj hsame).2 hid
  exact absurd (hkey ▸ hlt.2) (lt_irrefl _)

/-- **Meeting once.**  Over a store that admits no record again under an equal resource while the
scans run, no record is met twice. -/
theorem KeepsAdmissions.metOnce {residencies : Nat → Residency} {reads : Nat → TelemetryStore}
    (hserves : ∀ call, (reads call).Serves (residencies call)) {maxScan : Nat}
    (h : KeepsAdmissions residencies (scanned reads maxScan).tally.calls) :
    (scanned reads maxScan).MetOnce := by
  have hspent := @scanResident_spent _ (fun call => (reads call).scanSpans) maxScan ⟨0, 0, none⟩
    (Nat.zero_le _)
  have hspent' := @scanResident_spent _ (fun call => (reads call).scanLogRecords) maxScan _
    hspent.2.1
  have hspent'' := @scanResident_spent _ (fun call => (reads call).scanMetricPoints) maxScan _
    hspent'.2.1
  obtain ⟨spans, hspans, hspansSorted, hspansFound⟩ :=
    scanResident_meets (fun call => (hserves call).scanSpans)
      (show (⟨0, 0, none⟩ : Tally).spent ≤ maxScan from Nat.zero_le maxScan)
  obtain ⟨logs, hlogs, hlogsSorted, hlogsFound⟩ :=
    scanResident_meets (fun call => (hserves call).scanLogRecords) hspent.2.1
  obtain ⟨points, hpoints, hpointsSorted, hpointsFound⟩ :=
    scanResident_meets (fun call => (hserves call).scanMetricPoints) hspent'.2.1
  have hlast : ∀ {n : Nat}, n < (scanSpans reads maxScan ⟨0, 0, none⟩).2.calls →
      n < (scanned reads maxScan).tally.calls := fun hn =>
    Nat.lt_of_lt_of_le hn (hspent'.2.2.1.trans hspent''.2.2.1)
  have hlast' : ∀ {n : Nat},
      n < (scanLogs reads maxScan (scanSpans reads maxScan ⟨0, 0, none⟩).2).2.calls →
        n < (scanned reads maxScan).tally.calls := fun hn => Nat.lt_of_lt_of_le hn hspent''.2.2.1
  have hspansOnce := h.spans.pairwise .spans hspansSorted
    fun m hm => ⟨hlast (hspansFound m hm).1, (hspansFound m hm).2⟩
  have hlogsOnce := h.logRecords.pairwise .logRecords hlogsSorted
    fun m hm => ⟨hlast' (hlogsFound m hm).1, (hlogsFound m hm).2⟩
  have hpointsOnce := h.metricPoints.pairwise .metricPoints hpointsSorted hpointsFound
  rw [← hspans] at hspansOnce
  rw [← hlogs] at hlogsOnce
  rw [← hpoints] at hpointsOnce
  -- records of two kinds are two records
  refine List.pairwise_append.mpr ⟨List.pairwise_append.mpr ⟨hspansOnce, hlogsOnce, ?_⟩,
    hpointsOnce, ?_⟩
  · intro a ha b hb _ hsame
    obtain ⟨p, -, rfl⟩ := List.mem_map.mp ha
    obtain ⟨q, -, rfl⟩ := List.mem_map.mp hb
    exact absurd (SignalRef.mk.inj hsame).1 (by decide)
  · intro a ha b hb _ hsame
    obtain ⟨q, -, rfl⟩ := List.mem_map.mp hb
    rcases List.mem_append.mp ha with ha | ha
    · obtain ⟨p, -, rfl⟩ := List.mem_map.mp ha
      exact absurd (SignalRef.mk.inj hsame).1 (by decide)
    · obtain ⟨p, -, rfl⟩ := List.mem_map.mp ha
      exact absurd (SignalRef.mk.inj hsame).1 (by decide)

/-! ## The guards -/

/-- What a run is guarded by, over the stores its calls found. -/
structure Guarded (reads : Nat → TelemetryStore) (bounds : CorrelationBounds) : Prop where
  noSelfLoops : ∀ relation ∈ (correlate reads bounds).relations, relation.source ≠ relation.target
  /-- Both endpoints were resident when the re-check, after the scans, looked at them. -/
  resident : ∀ relation ∈ (correlate reads bounds).relations,
    ∃ look, (scanned reads bounds.maxScan).tally.calls ≤ look ∧
      (reads look).holds relation.source = true ∧ (reads (look + 1)).holds relation.target = true
  ceiling : (correlate reads bounds).relations.length ≤ bounds.maxRelations
  spend : (correlate reads bounds).truth.scanSpent ≤ bounds.maxScan

theorem guarded_iff_noSelfLoops (reads : Nat → TelemetryStore) (bounds : CorrelationBounds) :
    Guarded reads bounds ↔
      ∀ relation ∈ (correlate reads bounds).relations, relation.source ≠ relation.target := by
  refine ⟨Guarded.noSelfLoops, fun h => ⟨h, fun relation hrelation =>
    mem_retainResident (mem_correlate hrelation).2, ?_, ?_⟩⟩
  · by_cases hhops : bounds.maxHops = 0
    · rw [correlate_of_maxHops hhops]
      exact Nat.zero_le _
    · rw [(correlate_perm hhops).length_eq]
      exact (retainResident_sublist _ _ _).length_le.trans (List.length_take_le _ _)
  · by_cases hhops : bounds.maxHops = 0
    · rw [correlate_of_maxHops hhops]
      exact Nat.zero_le _
    · rw [correlate, if_neg hhops]
      exact (scanned_spent reads bounds.maxScan).2

/-- **The guards hold** of every run over a store that admits no record again under an equal resource
while the run scans it, and of every run that is not asked for resource context; they fail of a run
that met a record twice, unless its ceiling cut the answer or the record left. -/
theorem correlate_guards (residencies : Nat → Residency) (reads : Nat → TelemetryStore)
    (hserves : ∀ call, (reads call).Serves (residencies call)) (bounds : CorrelationBounds) :
    ((.resourceContext ∈ bounds.strategies →
        KeepsAdmissions residencies (scanned reads bounds.maxScan).tally.calls) →
      Guarded reads bounds) ∧
    ∀ a b : Resource × SignalRef, [a, b].Sublist (scanned reads bounds.maxScan).signals →
      a.1.attributes = b.1.attributes → a.2 = b.2 → .resourceContext ∈ bounds.strategies →
      bounds.maxHops ≠ 0 →
      (offered bounds (scanned reads bounds.maxScan)).length ≤ bounds.maxRelations →
      (∀ call, (scanned reads bounds.maxScan).tally.calls ≤ call →
        (reads call).holds a.2 = true) → ¬ Guarded reads bounds := by
  refine ⟨fun hkeeps => ?_, fun a b htwice hid hsame hstrategy hhops hroom hholds hguarded => ?_⟩
  · refine (guarded_iff_noSelfLoops reads bounds).mpr fun relation hrelation => ?_
    exact noSelfLoops_of_metOnce (fun hstrategy => (hkeeps hstrategy).metOnce hserves) relation
      (mem_correlate hrelation).1
  · obtain ⟨relation, hmem, hloop⟩ :=
      selfLoop_of_met_twice hhops hstrategy htwice hid hsame hroom hholds
    exact hguarded.noSelfLoops relation hmem hloop

/-! ### A span admitted again while the scan runs -/

/-- A span with an identity and 256 without, under one resource; the first one is evicted after the
first call, and admitted again behind the others. -/
def readmittingSpans (call : Nat) : List (AdmissionKey × Arc Span) :=
  let others := (List.range 256).map fun i =>
    ((⟨⟨i + 1⟩, .serial (i + 1)⟩ : AdmissionKey), (⟨i + 1, .bare 0 0⟩ : Arc Span))
  if call = 0 then (⟨⟨0⟩, .span (.ofByte 1) (.ofByte 1)⟩, ⟨0, .bare 1 1⟩) :: others
  else others ++ [(⟨⟨1000⟩, .span (.ofByte 1) (.ofByte 1)⟩, ⟨0, .bare 1 1⟩)]

theorem readmittingSpans_sorted (call : Nat) :
    (readmittingSpans call).Pairwise fun a b => a.1 < b.1 := by
  have hothers : ((List.range 256).map fun i =>
      ((⟨⟨i + 1⟩, .serial (i + 1)⟩ : AdmissionKey), (⟨i + 1, .bare 0 0⟩ : Arc Span))).Pairwise
        fun a b => a.1 < b.1 :=
    List.pairwise_map.mpr (List.pairwise_lt_range.imp fun hlt =>
      AdmissionKey.lt_of_unixNano_lt (Nat.succ_lt_succ hlt))
  unfold readmittingSpans
  by_cases h : call = 0
  · rw [if_pos h]
    refine List.pairwise_cons.mpr ⟨fun p hp => ?_, hothers⟩
    obtain ⟨i, -, rfl⟩ := List.mem_map.mp hp
    exact AdmissionKey.lt_of_unixNano_lt (Nat.succ_pos i)
  · rw [if_neg h]
    refine List.pairwise_append.mpr ⟨hothers, List.pairwise_singleton _ _, fun p hp q hq => ?_⟩
    obtain ⟨i, hi, rfl⟩ := List.mem_map.mp hp
    obtain rfl := List.mem_singleton.mp hq
    have hlt := List.mem_range.mp hi
    refine AdmissionKey.lt_of_unixNano_lt ?_
    dsimp only
    omega

def readmitting (call : Nat) : Residency :=
  ⟨⟨readmittingSpans call, readmittingSpans_sorted call⟩, SortedMap.empty, SortedMap.empty⟩

theorem mem_readmittingSpans {call : Nat} {p : AdmissionKey × Arc Span}
    (h : p ∈ readmittingSpans call) :
    p.1.entity = .span (.ofByte 1) (.ofByte 1) ∧ p = (⟨⟨if call = 0 then 0 else 1000⟩,
        .span (.ofByte 1) (.ofByte 1)⟩, ⟨0, .bare 1 1⟩) ∨
      ∃ i, p = (⟨⟨i + 1⟩, .serial (i + 1)⟩, ⟨i + 1, .bare 0 0⟩) := by
  unfold readmittingSpans at h
  by_cases hcall : call = 0
  · rw [if_pos hcall] at h
    rw [if_pos hcall]
    rcases List.mem_cons.mp h with rfl | h
    · exact Or.inl ⟨rfl, rfl⟩
    · obtain ⟨i, -, rfl⟩ := List.mem_map.mp h
      exact Or.inr ⟨i, rfl⟩
  · rw [if_neg hcall] at h
    rw [if_neg hcall]
    rcases List.mem_append.mp h with h | h
    · obtain ⟨i, -, rfl⟩ := List.mem_map.mp h
      exact Or.inr ⟨i, rfl⟩
    · obtain rfl := List.mem_singleton.mp h
      exact Or.inl ⟨rfl, rfl⟩

/-- At one call no entity id stands twice. -/
theorem readmitting_distinct (call : Nat) : EntitiesDistinct (readmitting call).spans := by
  intro p hp q hq hentity
  rcases mem_readmittingSpans hp with ⟨hpe, rfl⟩ | ⟨i, rfl⟩ <;>
    rcases mem_readmittingSpans hq with ⟨hqe, rfl⟩ | ⟨j, rfl⟩
  · rfl
  · simp [EntityId.serial] at hentity
  · simp [EntityId.serial] at hentity
  · simp only [EntityId.serial, EntityId.assigned.injEq, AssignedId.mk.injEq] at hentity
    rw [hentity]

/-- The statistics of a store no one asks about. -/
def noStats : StoreStats := ⟨0, 0, 0, 0, 0, 0, 0, 0, 0, 0, 0, 0, 0, 0, 0, 0, 0, 0⟩

def readmittingReads (call : Nat) : TelemetryStore := (readmitting call).driver noStats

theorem readmittingReads_serves (call : Nat) :
    (readmittingReads call).Serves (readmitting call) :=
  Residency.serves (readmitting_distinct call) (fun _ h => absurd h (by simp [readmitting,
    SortedMap.empty])) (fun _ h => absurd h (by simp [readmitting, SortedMap.empty])) noStats

/-- Resource context alone, with room for every pair. -/
def resourceContextBounds : CorrelationBounds := ⟨[.resourceContext], none, 100000, 1, 1000, none⟩

/-- The same store, whose first span is evicted after the first call and stays away. -/
def evicting (call : Nat) : Residency where
  spans :=
    { entries := if call = 0 then readmittingSpans 0 else (readmittingSpans 0).tail
      sorted := by
        split
        · exact readmittingSpans_sorted 0
        · exact (readmittingSpans_sorted 0).tail }
  logRecords := SortedMap.empty
  metricPoints := SortedMap.empty

theorem evicting_subset (call : Nat) : (evicting call).spans.entries ⊆ readmittingSpans 0 := by
  intro p hp
  change p ∈ (if call = 0 then readmittingSpans 0 else (readmittingSpans 0).tail) at hp
  split at hp
  · exact hp
  · exact List.mem_of_mem_tail hp

theorem evicting_serves (call : Nat) : ((evicting call).driver noStats).Serves (evicting call) :=
  Residency.serves (fun p hp q hq hentity =>
      readmitting_distinct 0 p (evicting_subset call hp) q (evicting_subset call hq) hentity)
    (fun _ h => absurd h List.not_mem_nil) (fun _ h => absurd h List.not_mem_nil) noStats

/-- Over a store that only evicts while it is scanned the guards hold. -/
theorem correlate_guards_kept :
    (∃ p ∈ (evicting 0).spans.entries, p ∉ (evicting 1).spans.entries) ∧
      Guarded (fun call => (evicting call).driver noStats) resourceContextBounds := by
  refine ⟨⟨(⟨⟨0⟩, .span (.ofByte 1) (.ofByte 1)⟩, ⟨0, .bare 1 1⟩), List.mem_cons_self, ?_⟩,
    (correlate_guards evicting _ evicting_serves resourceContextBounds).1 fun _ => ⟨?_, ?_, ?_⟩⟩
  · intro hp
    have hsorted := readmittingSpans_sorted 0
    rw [readmittingSpans, if_pos rfl] at hsorted
    exact lt_irrefl _ ((List.pairwise_cons.mp hsorted).1 _ hp)
  · intro m n _ _ p hp q hq hentity _
    rw [readmitting_distinct 0 p (evicting_subset m hp) q (evicting_subset n hq) hentity]
  · exact fun _ _ _ _ p hp => absurd hp List.not_mem_nil
  · exact fun _ _ _ _ p hp => absurd hp List.not_mem_nil

/-- A span scanned, evicted, admitted again and scanned a second time is related to itself. -/
theorem correlate_self_loop :
    (∀ call, (readmittingReads call).Serves (readmitting call)) ∧
      ¬ Guarded readmittingReads resourceContextBounds := by
  refine ⟨readmittingReads_serves, fun hguarded => ?_⟩
  have hfirst : ((scanned readmittingReads 1000).signals.map fun s => (s.1.attributes, s.2)).head? =
      some (Attributes.default, ⟨.spans, .span (.ofByte 1) (.ofByte 1)⟩) := by decide +kernel
  have hlast : ((scanned readmittingReads 1000).signals.tail.map
      fun s => (s.1.attributes, s.2)).getLast? =
        some (Attributes.default, ⟨.spans, .span (.ofByte 1) (.ofByte 1)⟩) := by decide +kernel
  have hlength : (scanned readmittingReads 1000).signals.length = 258 := by decide +kernel
  rw [List.head?_map] at hfirst
  rw [List.getLast?_map] at hlast
  obtain ⟨a, hfirst, ha⟩ := Option.map_eq_some_iff.mp hfirst
  obtain ⟨b, hlast, hb⟩ := Option.map_eq_some_iff.mp hlast
  have hab : (a.1.attributes, a.2) = (b.1.attributes, b.2) := ha.trans hb.symm
  have hroom : (offered resourceContextBounds (scanned readmittingReads 1000)).length ≤ 100000 := by
    have hpairs := length_pairs_le (scanned readmittingReads 1000).signals
    rw [hlength] at hpairs
    have hoffered : offered resourceContextBounds (scanned readmittingReads 1000) =
        groupRelations (groupsOf (scanned readmittingReads 1000).signals) := List.append_nil _
    rw [hoffered, (groupRelations_perm _).length_eq, resourceContextOf, List.length_map]
    refine (List.length_filter_le _ _).trans (hpairs.trans ?_)
    decide
  have hholds : ∀ call, (readmittingReads call).holds a.2 = true := by
    intro call
    rw [(Prod.mk.inj ha).2]
    refine Option.isSome_iff_exists.mpr ⟨⟨0, .bare 1 1⟩,
      (recordOf_eq_some_iff (readmitting_distinct call)).mpr ?_⟩
    by_cases hcall : call = 0
    · subst hcall
      exact ⟨⟨⟨0⟩, .span (.ofByte 1) (.ofByte 1)⟩, rfl, List.mem_cons_self ..⟩
    · refine ⟨⟨⟨1000⟩, .span (.ofByte 1) (.ofByte 1)⟩, rfl, ?_⟩
      change _ ∈ readmittingSpans call
      rw [readmittingSpans, if_neg hcall]
      exact List.mem_append_right _ (List.mem_singleton.mpr rfl)
  obtain ⟨relation, hmem, hloop⟩ := @selfLoop_of_met_twice readmittingReads resourceContextBounds
    (by decide) (by decide) a b (first_last_sublist hfirst hlast) (Prod.mk.inj hab).1
    (Prod.mk.inj hab).2 hroom fun call _ => hholds call
  exact hguarded.noSelfLoops relation hmem hloop

end RuntimeTrail
