import RuntimeTrail.Correlation.Accounting

/-!
# What the relation ceiling cuts

A run under a ceiling against the run no ceiling cuts, over one fixed store: the
sink stops keeping, and nothing else of the run notices.

* **generation** — `generated`: what a run keeps, in the order it was formed;
  `FixedStore.relations_eq`: a run over a fixed store returns it sorted;
* **uncapped** — `Uncapped`: a ceiling that none higher adds to;
  `uncapped_iff`: everything offered fits under it;
* **the law** — `RuntimeTrail.capped_run_refines_uncapped`.
-/

namespace RuntimeTrail

open Library

/-! ## Generation -/

/-- The same bounds under another relation ceiling. -/
def CorrelationBounds.withCeiling (bounds : CorrelationBounds) (ceiling : Nat) :
    CorrelationBounds := { bounds with maxRelations := ceiling }

/-- The relations a run keeps as it forms them, before they are checked and sorted. -/
def generated (reads : Nat → TelemetryStore) (bounds : CorrelationBounds) : List Relation :=
  if bounds.maxHops = 0 then [] else (form bounds (scanned reads bounds.maxScan)).sink.relations

/-- What a run returns of the relations it keeps: all of them, in the relation order. -/
def inRelationOrder (relations : List Relation) : List Relation :=
  relations.mergeSort fun left right => (relationOrder left right).isLE

/-- A ceiling no run reaches: none higher adds a relation. -/
def Uncapped (reads : Nat → TelemetryStore) (bounds : CorrelationBounds) (ceiling : Nat) : Prop :=
  ∀ higher, ceiling ≤ higher →
    generated reads (bounds.withCeiling higher) = generated reads (bounds.withCeiling ceiling)

/-- What is offered does not depend on the ceiling. -/
theorem offered_withCeiling (bounds : CorrelationBounds) (ceiling : Nat) (s : Scanned) :
    offered (bounds.withCeiling ceiling) s = offered bounds s := rfl

/-- What a run keeps is the front of what is offered. -/
theorem generated_withCeiling {reads : Nat → TelemetryStore} {bounds : CorrelationBounds}
    (h : bounds.maxHops ≠ 0) (ceiling : Nat) :
    generated reads (bounds.withCeiling ceiling) =
      (offered bounds (scanned reads bounds.maxScan)).take ceiling := by
  rw [generated, if_neg (show (bounds.withCeiling ceiling).maxHops ≠ 0 from h), form_relations,
    offered_withCeiling]
  rfl

theorem generated_of_no_hops {reads : Nat → TelemetryStore} {bounds : CorrelationBounds}
    (h : bounds.maxHops = 0) : generated reads bounds = [] := if_pos h

/-- A ceiling goes unreached exactly where everything offered fits under it. -/
theorem uncapped_iff {reads : Nat → TelemetryStore} {bounds : CorrelationBounds}
    (h : bounds.maxHops ≠ 0) (ceiling : Nat) : Uncapped reads bounds ceiling ↔
      (offered bounds (scanned reads bounds.maxScan)).length ≤ ceiling := by
  constructor
  · intro huncapped
    have hnext := congrArg List.length (huncapped (ceiling + 1) (Nat.le_succ _))
    rw [generated_withCeiling h, generated_withCeiling h, List.length_take,
      List.length_take] at hnext
    omega
  · intro hfit higher hhigher
    rw [generated_withCeiling h, generated_withCeiling h, List.take_of_length_le hfit,
      List.take_of_length_le (Nat.le_trans hfit hhigher)]

/-! ## A fixed store -/

namespace FixedStore

variable (store : FixedStore)

/-- What the scans of a fixed store met is resident. -/
theorem signals_subset (maxScan : Nat) :
    (scanned (fun _ => store.driver) maxScan).signals ⊆ store.residency.signals := by
  obtain ⟨hspans, hlogs, hpoints, -⟩ := store.scanned_take maxScan
  rw [Scanned.signals, scannedSignals, hspans, hlogs, hpoints]
  refine List.Sublist.subset (List.Sublist.append (List.Sublist.append ?_ ?_) ?_)
  · exact (List.take_sublist ..).map _
  · exact (List.take_sublist ..).map _
  · exact (List.take_sublist ..).map _

/-- No relation leaves residency in a fixed store. -/
theorem retainResident_form (bounds : CorrelationBounds) (call : Nat) :
    retainResident (fun _ => store.driver) call
        (form bounds (scanned (fun _ => store.driver) bounds.maxScan)).sink.relations =
      (form bounds (scanned (fun _ => store.driver) bounds.maxScan)).sink.relations := by
  refine retainResident_of_holds (fun relation hrelation _ => ?_) _
  rw [form_relations] at hrelation
  obtain ⟨strategy, -, hfamily⟩ := List.mem_flatMap.mp (List.mem_of_mem_take hrelation)
  have hformed := formed_of_mem hfamily
  have hresident := List.map_subset Prod.snd (store.signals_subset bounds.maxScan)
  exact ⟨store.holds_of_mem (hresident hformed.source),
    store.holds_of_mem (hresident hformed.target)⟩

/-- A run over a fixed store returns what it kept, sorted, and drops none of it. -/
theorem relations_eq (bounds : CorrelationBounds) :
    (correlate (fun _ => store.driver) bounds).relations =
        inRelationOrder (generated (fun _ => store.driver) bounds) ∧
      (correlate (fun _ => store.driver) bounds).truth.shrunken = 0 := by
  by_cases hhops : bounds.maxHops = 0
  · rw [correlate_of_maxHops hhops, generated_of_no_hops hhops]
    exact ⟨List.mergeSort_nil.symm, rfl⟩
  · rw [correlate, if_neg hhops, generated, if_neg hhops]
    dsimp only
    rw [store.retainResident_form]
    exact ⟨rfl, Nat.sub_self _⟩

end FixedStore

/-! ## The law -/

/-- The accounts of a run do not depend on the ceiling. -/
theorem accounts_withCeiling (reads : Nat → TelemetryStore) (bounds : CorrelationBounds)
    (ceiling : Nat) :
    let capped := (correlate reads bounds).truth
    let uncapped := (correlate reads (bounds.withCeiling ceiling)).truth
    capped.suppressions = uncapped.suppressions ∧ capped.absentTraces = uncapped.absentTraces := by
  by_cases hhops : bounds.maxHops = 0
  · rw [correlate_of_maxHops hhops,
      correlate_of_maxHops (show (bounds.withCeiling ceiling).maxHops = 0 from hhops)]
    exact ⟨rfl, rfl⟩
  · rw [correlate, if_neg hhops, correlate,
      if_neg (show (bounds.withCeiling ceiling).maxHops ≠ 0 from hhops)]
    dsimp only
    rw [(form_accounts _ _).1, (form_accounts _ _).2, (form_accounts _ _).1, (form_accounts _ _).2]
    exact ⟨rfl, rfl⟩

/-- Two runs that return the same relations, drop as many and name the same stop are one: the rest does
not depend on the ceiling. -/
theorem correlate_withCeiling_eq {reads : Nat → TelemetryStore} {bounds : CorrelationBounds}
    {ceiling : Nat} (hhops : bounds.maxHops ≠ 0)
    (hrelations : (correlate reads bounds).relations =
      (correlate reads (bounds.withCeiling ceiling)).relations)
    (hshrunken : (correlate reads bounds).truth.shrunken =
      (correlate reads (bounds.withCeiling ceiling)).truth.shrunken)
    (hstop : (correlate reads bounds).truth.stoppedAt =
      (correlate reads (bounds.withCeiling ceiling)).truth.stoppedAt) :
    correlate reads bounds = correlate reads (bounds.withCeiling ceiling) := by
  obtain ⟨hsuppressions, habsences⟩ := accounts_withCeiling reads bounds ceiling
  have hrest : (correlate reads bounds).truth.strategyVersions =
        (correlate reads (bounds.withCeiling ceiling)).truth.strategyVersions ∧
      (correlate reads bounds).truth.scanSpent =
        (correlate reads (bounds.withCeiling ceiling)).truth.scanSpent := by
    rw [correlate, if_neg hhops, correlate,
      if_neg (show (bounds.withCeiling ceiling).maxHops ≠ 0 from hhops)]
    exact ⟨rfl, rfl⟩
  exact (CorrelationOutcome.mk.injEq ..).mpr ⟨hrelations, (Truth.mk.injEq ..).mpr
    ⟨hrest.1, hsuppressions, habsences, hshrunken, hstop, hrest.2⟩⟩

/-- The scans name an exhausted allowance or nothing, never the ceiling. -/
theorem FixedStore.scans_ne_maxRelations (store : FixedStore) (maxScan count : Nat) :
    (scanned (fun _ => store.driver) maxScan).tally.stoppedAt ≠ some (.maxRelations count) := by
  obtain ⟨-, -, -, hscanned⟩ := store.scanned_take maxScan
  rw [hscanned]
  split <;> simp

/-- The ceiling is the stop exactly where it cut and the scans named none. -/
theorem or_maxRelations_iff {stop : Option StoppedAt} {offers ceiling count : Nat}
    (h : stop ≠ some (.maxRelations count)) :
    stop.or (if offers ≤ ceiling then none else some (.maxRelations ceiling)) =
        some (.maxRelations count) ↔
      count = ceiling ∧ ceiling < offers ∧ stop = none := by
  cases stop with
  | some other =>
    simp only [Option.some_or, reduceCtorEq, and_false, iff_false]
    exact h
  | none =>
    rw [Option.none_or]
    split
    · rename_i hfit
      simp only [reduceCtorEq, false_iff]
      omega
    · rename_i hcut
      simp only [Option.some.injEq, StoppedAt.maxRelations.injEq]
      constructor
      · rintro rfl
        exact ⟨rfl, Nat.lt_of_not_le hcut, trivial⟩
      · rintro ⟨rfl, -, -⟩
        rfl

/-- **The ceiling is a prefix cut.**  Over any fixed store, a run keeps the first relations of the
run no ceiling cuts, as many as its ceiling allows, and returns them sorted; where they all fit the
two runs are one; what is accounted for is the same; and the ceiling is named exactly where it cut
something and the scans had named no stop. -/
theorem capped_run_refines_uncapped (store : FixedStore) (bounds : CorrelationBounds)
    (ceiling : Nat) (h : Uncapped (fun _ => store.driver) bounds ceiling) :
    let reads := fun _ => store.driver
    let capped := correlate reads bounds
    let uncapped := correlate reads (bounds.withCeiling ceiling)
    let generation := generated reads (bounds.withCeiling ceiling)
    uncapped.relations = inRelationOrder generation ∧
      capped.relations = inRelationOrder (generation.take bounds.maxRelations) ∧
      (generation.length ≤ bounds.maxRelations → capped = uncapped) ∧
      capped.truth.suppressions = uncapped.truth.suppressions ∧
      capped.truth.absentTraces = uncapped.truth.absentTraces ∧
      ∀ count, capped.truth.stoppedAt = some (.maxRelations count) ↔
        count = bounds.maxRelations ∧ bounds.maxRelations < generation.length ∧
          (scansOf reads bounds).tally.stoppedAt = none := by
  intro reads capped uncapped generation
  obtain ⟨hsuppressions, habsences⟩ := accounts_withCeiling reads bounds ceiling
  obtain ⟨huncapped, hkept⟩ := store.relations_eq (bounds.withCeiling ceiling)
  obtain ⟨hcapped, hkept'⟩ := store.relations_eq bounds
  by_cases hhops : bounds.maxHops = 0
  · have hnone : generation = [] :=
      generated_of_no_hops (show (bounds.withCeiling ceiling).maxHops = 0 from hhops)
    have hdepth : capped = ⟨[], ⟨[], [], [], 0, some (.maxDepth 0), 0⟩⟩ :=
      correlate_of_maxHops hhops
    have hdepth' : uncapped = ⟨[], ⟨[], [], [], 0, some (.maxDepth 0), 0⟩⟩ :=
      correlate_of_maxHops (show (bounds.withCeiling ceiling).maxHops = 0 from hhops)
    refine ⟨huncapped, ?_, fun _ => hdepth.trans hdepth'.symm, hsuppressions, habsences,
      fun count => ?_⟩
    · rw [hnone, List.take_nil]
      exact hcapped.trans (congrArg inRelationOrder (generated_of_no_hops hhops))
    · rw [hdepth, hnone]
      simp
  · have hall : generation = offered bounds (scanned reads bounds.maxScan) :=
      (generated_withCeiling hhops ceiling).trans
        (List.take_of_length_le ((uncapped_iff hhops ceiling).mp h))
    have hfront : generated reads bounds = generation.take bounds.maxRelations := by
      rw [hall]
      exact generated_withCeiling hhops bounds.maxRelations
    have hstop : capped.truth.stoppedAt = (scansOf reads bounds).tally.stoppedAt.or
        (if generation.length ≤ bounds.maxRelations then none
          else some (.maxRelations bounds.maxRelations)) := by
      rw [hall, scansOf, if_neg hhops]
      exact stoppedAt_correlate hhops
    have hstop' : uncapped.truth.stoppedAt = (scansOf reads bounds).tally.stoppedAt := by
      rw [scansOf, if_neg hhops]
      refine (stoppedAt_correlate
        (show (bounds.withCeiling ceiling).maxHops ≠ 0 from hhops)).trans ?_
      rw [offered_withCeiling, if_pos, Option.or_none]
      · rfl
      · exact (uncapped_iff hhops ceiling).mp h
    refine ⟨huncapped, hcapped.trans (congrArg inRelationOrder hfront), fun hfit => ?_,
      hsuppressions, habsences, fun count => ?_⟩
    · refine correlate_withCeiling_eq hhops ?_ (hkept'.trans hkept.symm) ?_
      · rw [hcapped, hfront, List.take_of_length_le hfit]
        exact huncapped.symm
      · refine hstop.trans (Eq.trans ?_ hstop'.symm)
        rw [if_pos hfit, Option.or_none]
    · rw [hstop, or_maxRelations_iff]
      rw [scansOf, if_neg hhops]
      exact store.scans_ne_maxRelations _ _

/-- Four relations stand behind a ceiling of two: the two formed first come back. -/
theorem capped_run_refines_uncapped_rootAndChild :
    (correlate (fun _ => rootAndChildStore.driver)
        { identityBounds with maxRelations := 2 }).relations =
      inRelationOrder ((generated (fun _ => rootAndChildStore.driver) identityBounds).take 2) :=
  (capped_run_refines_uncapped rootAndChildStore { identityBounds with maxRelations := 2 } 10
    ((uncapped_iff (by decide) 10).mpr (by decide +kernel))).2.1

end RuntimeTrail
