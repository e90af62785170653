import RuntimeTrail.Investigation.Reach

/-!
# Complete reports and complete evidence

An investigation over a fixed store that reports itself complete has walked each
kind up to the end of the batch in which its first page's results or scan ceiling
was spent.  Its evidence is complete exactly when nothing of the trace lies
behind that.

* **naming** — `namedOf_fst`: without a hole every selected record is evidence;
* **the parts** — `PartsReached`, what the three walks come to;
* **the law** — `evidence_complete_iff`, and the trace whose 65th log is behind
  the batch.
-/

namespace RuntimeTrail

open Library

/-! ## Naming -/

namespace Naming

theorem length_examinePage {R : Type} (ceiling : Nat) (selected : List Nat) (addrOf : R → Nat)
    (items : List (ScanItem R)) (n : Naming) :
    (examinePage ceiling selected addrOf n items).names.length = n.names.length := by
  induction items generalizing n with
  | nil => rfl
  | cons item rest ih =>
    rw [examinePage]
    split
    · rfl
    · rw [ih]
      unfold examined
      dsimp only
      split <;> simp

theorem length_recover {R : Type} {ceiling : Nat} {selected : List Nat} {addrOf : R → Nat}
    {scan : Nat → Option AdmissionKey → Nat → ScanPage R} {fuel : Nat} {after : Option AdmissionKey}
    {n n' : Naming} (h : recover ceiling selected addrOf scan fuel after n = some n') :
    n'.names.length = n.names.length := by
  induction fuel generalizing after n with
  | zero => exact absurd h (by simp [recover])
  | succ fuel ih =>
    rw [recover] at h
    split at h
    · rw [Option.some.inj h]
    · dsimp only at h
      split at h
      · rw [ih h, length_examinePage]
      · rw [← Option.some.inj h, length_examinePage]

end Naming

theorem nameIdentities_frame {R : Type} {fuel : Nat}
    {scan : Nat → Option AdmissionKey → Nat → ScanPage R} {addrOf : R → Nat} {selected : List Nat}
    {walk walk' : WalkState} {names : List (Option EntityId)}
    (h : nameIdentities fuel scan addrOf selected walk = some (names, walk')) :
    names.length = selected.length ∧ walk'.budget = walk.budget ∧ walk'.stopped = walk.stopped := by
  unfold nameIdentities at h
  split at h
  · exact absurd h (by simp)
  · rename_i n hrecover
    obtain ⟨rfl, rfl⟩ := Prod.mk.inj (Option.some.inj h)
    refine ⟨?_, rfl, rfl⟩
    rw [Naming.length_recover hrecover, List.length_replicate]

/-- Without a hole every selected record was named. -/
theorem namedOf_fst {α : Type} {selected : List α} {names : List (Option EntityId)}
    (hlength : names.length = selected.length) (hholes : holesOf names = 0) :
    (namedOf selected names).map Prod.fst = selected := by
  unfold namedOf
  induction selected generalizing names with
  | nil => rfl
  | cons record rest ih =>
    cases names with
    | nil => simp at hlength
    | cons name names =>
      cases name with
      | none => simp [holesOf] at hholes
      | some entity =>
        have hrest := ih (by simpa using hlength) (by simpa [holesOf] using hholes)
        simpa using hrest

/-- The related logs, when every one of them was named. -/
theorem relatedLogs_whole {fuel : Nat} {reads : FlowReads} {views : List RecordView}
    {relatesTo : Option TraceId} {walk walk' : WalkState} {logs : List LogEvidence} {holes : Nat}
    (h : relatedLogs fuel reads views relatesTo walk = some (logs, holes, walk')) :
    (holes = 0 → logs.map LogEvidence.log = selectLogs relatesTo (logViewsOf views)) ∧
      walk'.budget = walk.budget ∧ walk'.stopped = walk.stopped := by
  unfold relatedLogs at h
  dsimp only at h
  split at h
  · exact absurd h (by simp)
  · rename_i names walk₁ hnames
    obtain ⟨hlength, hbudget, hstopped⟩ := nameIdentities_frame hnames
    rw [List.length_map] at hlength
    simp only [Option.some.injEq, Prod.mk.injEq] at h
    obtain ⟨rfl, rfl, rfl⟩ := h
    refine ⟨fun hholes => ?_, hbudget, hstopped⟩
    rw [List.map_map]
    exact namedOf_fst hlength hholes

/-- The surrounding points, when every one of them was named. -/
theorem surroundingMetrics_whole {fuel : Nat} {reads : FlowReads} {views : List RecordView}
    {asked resident : TimeWindow} {relatesTo : Option TraceId} {walk walk' : WalkState}
    {points : List PointEvidence} {holes : Nat}
    (h : surroundingMetrics fuel reads views asked relatesTo walk =
      some (points, holes, resident, walk')) :
    (holes = 0 → points.map (fun view => PointView.mk view.point view.stream) =
        selectPoints relatesTo asked (pointViewsOf views)) ∧
      walk'.budget = walk.budget ∧ walk'.stopped = walk.stopped := by
  unfold surroundingMetrics at h
  dsimp only at h
  split at h
  · exact absurd h (by simp)
  · rename_i names walk₁ hnames
    obtain ⟨hlength, hbudget, hstopped⟩ := nameIdentities_frame hnames
    rw [List.length_map, List.length_map] at hlength
    simp only [Option.some.injEq, Prod.mk.injEq] at h
    obtain ⟨rfl, rfl, -, rfl⟩ := h
    refine ⟨fun hholes => ?_, hbudget, hstopped⟩
    rw [List.map_map]
    exact namedOf_fst hlength hholes

/-! ## What the parts come to -/

/-- The residents of each kind, in residency order. -/
def Residency.allSpans (residency : Residency) : List (Arc Span) :=
  residency.spans.entries.map Prod.snd

def Residency.allLogs (residency : Residency) : List (Arc LogRecord) :=
  residency.logRecords.entries.map Prod.snd

def Residency.allPoints (residency : Residency) : List PointView :=
  residency.metricPoints.entries.map Prod.snd

/-- Every key is made of 64-bit words. -/
def Residency.Words (residency : Residency) : Prop :=
  ∀ kind, ∀ y ∈ residency.yields kind, y.key.InRange

instance (residency : Residency) : Decidable residency.Words :=
  decidable_of_iff ((∀ y ∈ residency.yields .spans, y.key.InRange) ∧
      (∀ y ∈ residency.yields .logRecords, y.key.InRange) ∧
      ∀ y ∈ residency.yields .metricPoints, y.key.InRange)
    ⟨fun ⟨hspans, hlogs, hpoints⟩ kind => by cases kind <;> assumption,
      fun h => ⟨h .spans, h .logRecords, h .metricPoints⟩⟩

/-- The views of what a part reached are the residents it reached. -/
theorem viewsOf_reached {R : Type} (budget : InvestigationBudget) (entries : List (AdmissionKey × R))
    (view : R → RecordView) {pick : RecordView → Option R} (hpick : ∀ r, pick (view r) = some r) :
    ((budget.reached (entries.map fun p => (⟨p.1, view p.2⟩ : Yield))).map Yield.record).filterMap
        pick = budget.reached (entries.map Prod.snd) := by
  simp only [InvestigationBudget.reached, ← List.map_take, List.map_map, List.filterMap_map]
  simp [Function.comp_def, hpick]

/-- What the three walks of a finished investigation come to: the waterfall, the selected logs and the
selected points of what each of them reached. -/
structure PartsReached (residency : Residency) (request : TraceInvestigationRequest)
    (root : Arc Span) (parts : FlowParts) : Prop where
  waterfall : parts.waterfall = waterfall (request.budget.reached residency.allSpans)
    (resolveSubject root request.rootSpan (request.budget.reached residency.allSpans)) root
  logs : parts.logs.map LogEvidence.log = selectLogs (root.val.naturalIdentity.map Prod.fst)
    (request.budget.reached residency.allLogs)
  points : parts.points.map (fun view => PointView.mk view.point view.stream) =
    selectPoints (root.val.naturalIdentity.map Prod.fst) parts.asked
      (request.budget.reached residency.allPoints)

/-- Three walks no chain ceiling stopped, each of them finished, that left no record unnamed. -/
structure FlowParts.Complete (parts : FlowParts) : Prop where
  unstopped : parts.walk.stopped = none
  spans : Finished parts.spansGroup.runs
  logs : Finished parts.logsGroup.runs
  points : Finished parts.pointsGroup.runs
  logHoles : parts.logHoles = 0
  pointHoles : parts.pointHoles = 0

instance (parts : FlowParts) : Decidable parts.Complete :=
  decidable_of_iff (parts.walk.stopped = none ∧ Finished parts.spansGroup.runs ∧
      Finished parts.logsGroup.runs ∧ Finished parts.pointsGroup.runs ∧ parts.logHoles = 0 ∧
      parts.pointHoles = 0)
    ⟨fun ⟨h₁, h₂, h₃, h₄, h₅, h₆⟩ => ⟨h₁, h₂, h₃, h₄, h₅, h₆⟩,
      fun ⟨h₁, h₂, h₃, h₄, h₅, h₆⟩ => ⟨h₁, h₂, h₃, h₄, h₅, h₆⟩⟩

theorem walkParts_reached {store : FixedStore} {clocks : Nat → Clock}
    {request : TraceInvestigationRequest} (hpositive : request.budget.perPage.Positive)
    (hlive : ∀ k n, clocks k n - clocks k 0 < request.budget.deadline)
    (hwords : store.residency.Words) {fuel : Nat}
    {chain : ChainBudget} {root : Arc Span} {parts : FlowParts}
    (h : walkParts fuel (store.reads clocks) request chain root = some (.ok parts))
    (hcomplete : parts.Complete) : PartsReached store.residency request root parts := by
  obtain ⟨hstopped, hspans, hlogs, hpoints, hlogHoles, hpointHoles⟩ := hcomplete
  obtain ⟨hrelates, spanViews, logViews, pointViews, walk₁, walk₂, walk₃, walk₄, hspanWalk, heffective,
    hwaterfall, hlogWalk, hrelated, hpointWalk, hsurrounding⟩ := walkParts_eq_ok h
  obtain ⟨hpointsNamed, hbudget₅, hstopped₅⟩ := surroundingMetrics_whole hsurrounding
  obtain ⟨hlogsNamed, hbudget₃, hstopped₃⟩ := relatedLogs_whole hrelated
  -- no walk was stopped, and all three spend the request's budget
  rw [hstopped] at hstopped₅
  obtain ⟨hbudget₄, hnone₃⟩ := walkPages_frame hpointWalk hstopped₅.symm
  rw [hnone₃] at hstopped₃
  obtain ⟨hbudget₂, hnone₁⟩ := walkPages_frame hlogWalk hstopped₃.symm
  obtain ⟨hbudget₁, -⟩ := walkPages_frame hspanWalk hnone₁
  have hfirst : walk₁.budget = request.budget := hbudget₁
  have hsecond : walk₃.budget = request.budget := by
    rw [hbudget₃, hbudget₂]
    exact hfirst
  have hspansReached := walkPages_reached (RecordsQuery.new_matchesView .spans) hpositive hlive
    (hwords .spans) hspanWalk hnone₁ hspans
  have hlogsReached := walkPages_reached (RecordsQuery.new_matchesView .logRecords)
    (by rw [WalkState.count, hfirst]; exact hpositive) (by rw [WalkState.count, hfirst]; exact hlive)
    (hwords .logRecords) hlogWalk hstopped₃.symm hlogs
  have hpointsReached := walkPages_reached (RecordsQuery.new_matchesView .metricPoints)
    (by rw [hsecond]; exact hpositive) (by rw [hsecond]; exact hlive) (hwords .metricPoints)
    hpointWalk hstopped₅.symm hpoints
  have hspanViews : spanViewsOf spanViews = request.budget.reached store.residency.allSpans := by
    rw [hspansReached]
    exact viewsOf_reached request.budget store.residency.spans.entries .span fun _ => rfl
  have hlogViews : logViewsOf logViews = request.budget.reached store.residency.allLogs := by
    rw [hlogsReached, WalkState.count, hfirst]
    exact viewsOf_reached request.budget store.residency.logRecords.entries .logRecord
      fun _ => rfl
  have hpointViews : pointViewsOf pointViews = request.budget.reached store.residency.allPoints := by
    rw [hpointsReached, hsecond]
    exact viewsOf_reached request.budget store.residency.metricPoints.entries
      (fun view => .metricPoint view.point view.stream) fun _ => rfl
  refine ⟨?_, ?_, ?_⟩
  · rw [hwaterfall, heffective, hspanViews]
  · rw [hlogsNamed hlogHoles, hrelates, hlogViews]
  · rw [hpointsNamed hpointHoles, hrelates, hpointViews]

/-! ## The law -/

/-- The resident spans of a trace. -/
def Residency.spansOf (residency : Residency) (trace : TraceId) : List (Arc Span) :=
  residency.allSpans.filter fun span => (span.val.memberOf trace).isSome

theorem Residency.mem_spansOf {residency : Residency} {trace : TraceId} {span : Arc Span} :
    span ∈ residency.spansOf trace ↔
      span ∈ residency.allSpans ∧ ∃ id, span.val.memberOf trace = some id := by
  rw [spansOf, List.mem_filter, Option.isSome_iff_exists]

/-- Whether an entry states a residency hole. -/
def FlowCoverageEntry.isHole : FlowCoverageEntry → Bool
  | residencyHole _ _ => true
  | _ => false

/-- What an envelope reports when it reports itself complete: the chain was not stopped, no run was
cut on bytes, each part ended with a complete run, and no selected record was left unnamed. -/
structure Investigation.ReportsComplete (envelope : Investigation) : Prop where
  unstopped : envelope.limits.chain.stopped = none
  finished : ∀ group ∈ envelope.execution.runGroups, Finished group.runs
  unholed : ∀ entry ∈ envelope.execution.flowCoverage, entry.isHole = false

instance (envelope : Investigation) : Decidable envelope.ReportsComplete :=
  decidable_of_iff (envelope.limits.chain.stopped = none ∧
      (∀ group ∈ envelope.execution.runGroups, Finished group.runs) ∧
      ∀ entry ∈ envelope.execution.flowCoverage, entry.isHole = false)
    ⟨fun h => ⟨h.1, h.2.1, h.2.2⟩, fun h => ⟨h.1, h.2, h.3⟩⟩

/-- Complete evidence: every resident span of the trace, every resident log that carries the trace
id, and every resident point inside the metric window the envelope says it asked for. -/
structure Investigation.HoldsAll (envelope : Investigation) (residency : Residency)
    (trace : TraceId) : Prop where
  spans : ∀ span ∈ residency.spansOf trace, ∃ view ∈ envelope.evidence.spans, view.span = span
  logs : ∀ log ∈ residency.allLogs, log.val.traceId = some trace →
    ∃ view ∈ envelope.evidence.logs, view.log = log
  points : ∀ asked resident, .metricWindow asked resident ∈ envelope.execution.flowCoverage →
    ∀ point ∈ residency.allPoints, asked.holds point.point.val.timeUnixNano = true →
      ∃ view ∈ envelope.evidence.points, view.point = point.point ∧ view.stream = point.stream

/-- Nothing of the trace lies behind what the walks of a budget reach: not its spans, unless the root
is the only one; not its logs; not the points inside the extent of its spans.  No identity of the
trace is resident twice. -/
structure WithinReach (residency : Residency) (budget : InvestigationBudget) (trace : TraceId)
    (root : Arc Span) : Prop where
  spans : (∀ span ∈ residency.spansOf trace, span ∈ budget.reached residency.allSpans) ∨
    ∀ span ∈ residency.spansOf trace, span = root
  distinct : ∀ a ∈ residency.spansOf trace, ∀ b ∈ residency.spansOf trace,
    a.val.memberOf trace = b.val.memberOf trace → a = b
  logs : ∀ log ∈ residency.allLogs, log.val.traceId = some trace →
    log ∈ budget.reached residency.allLogs
  points : ∀ point ∈ residency.allPoints,
    (extentOf (residency.spansOf trace)).holds point.point.val.timeUnixNano = true →
      point ∈ budget.reached residency.allPoints

theorem mem_of_mem_reached {α : Type} {budget : InvestigationBudget} {residents : List α} {x : α}
    (h : x ∈ budget.reached residents) : x ∈ residents := List.mem_of_mem_take h

/-- The waterfall of what was reached holds spans of the trace only, and all of them exactly when
none was out of reach. -/
theorem waterfall_holds_iff {residency : Residency} {budget : InvestigationBudget} {trace : TraceId}
    {root : Arc Span} {id : SpanId} (hroot : root.val.naturalIdentity = some (trace, id))
    (hresident : root ∈ residency.allSpans) (requested : EntityId) :
    let ordered := waterfall (budget.reached residency.allSpans)
      (resolveSubject root requested (budget.reached residency.allSpans)) root
    (∀ span ∈ ordered, span ∈ residency.spansOf trace) ∧
      ((∀ span ∈ residency.spansOf trace, span ∈ ordered) ↔
        ((∀ span ∈ residency.spansOf trace, span ∈ budget.reached residency.allSpans) ∨
          ∀ span ∈ residency.spansOf trace, span = root) ∧
        ∀ a ∈ residency.spansOf trace, ∀ b ∈ residency.spansOf trace,
          a.val.memberOf trace = b.val.memberOf trace → a = b) := by
  intro ordered
  obtain ⟨htrace, hseed⟩ := resolveSubject_root hroot requested (budget.reached residency.allSpans)
  have hrootMember : root ∈ residency.spansOf trace :=
    Residency.mem_spansOf.mpr ⟨hresident, id, Span.memberOf_eq_some_iff.mpr hroot⟩
  have hcases := waterfall_cases (budget.reached residency.allSpans)
    (resolveSubject root requested (budget.reached residency.allSpans)) root
  rw [htrace] at hcases
  change _ ∧ MembersOnce trace (budget.reached residency.allSpans) ordered ∨
    _ ∧ ordered = [root] at hcases
  rcases hcases with ⟨⟨seed, hseedMem, hseedId⟩, hordered⟩ | ⟨hunseeded, hordered⟩
  · have hwithin : ∀ span ∈ ordered, span ∈ residency.spansOf trace := fun span hspan =>
      Residency.mem_spansOf.mpr ⟨mem_of_mem_reached (hordered.within span hspan).1,
        (hordered.within span hspan).2⟩
    have hfirst : ∀ span ∈ budget.reached residency.allSpans, span ∈ residency.spansOf trace →
        ∃ first ∈ ordered, first.val.memberOf trace = span.val.memberOf trace :=
      fun span hspan hmember => by
        obtain ⟨id, hid⟩ := (Residency.mem_spansOf.mp hmember).2
        rw [hid]
        exact hordered.every span hspan id hid
    refine ⟨hwithin, fun hall => ⟨Or.inl fun span hspan =>
      (hordered.within span (hall span hspan)).1, fun a ha b hb hab => ?_⟩, ?_⟩
    · -- two spans of one identity would be in the order twice
      exact List.inj_on_of_nodup_map hordered.once (hall a ha) (hall b hb) hab
    · rintro ⟨hreach, hdistinct⟩ span hspan
      have hreached : span ∈ budget.reached residency.allSpans := by
        rcases hreach with hreach | honly
        · exact hreach span hspan
        · have hseedMember : seed ∈ residency.spansOf trace :=
            Residency.mem_spansOf.mpr ⟨mem_of_mem_reached hseedMem, _, hseedId⟩
          rw [honly span hspan, ← honly seed hseedMember]
          exact hseedMem
      obtain ⟨first, hfirstMem, hfirstId⟩ := hfirst span hreached hspan
      rw [← hdistinct first (hwithin first hfirstMem) span hspan hfirstId]
      exact hfirstMem
  · -- the root itself was not reached, and stands alone
    have hmissed : root ∉ budget.reached residency.allSpans := by
      intro hmem
      have hrootId := Span.memberOf_eq_some_iff.mpr hroot
      rcases hseed with ⟨seed, hseedMem, hseedId⟩ | hspanId
      · exact hunseeded seed hseedMem hseedId
      · exact hunseeded root hmem (by rw [hspanId]; exact hrootId)
    have hmem : ∀ span, span ∈ ordered ↔ span = root := fun span => by
      rw [hordered, List.mem_singleton]
    refine ⟨fun span hspan => ?_, fun hall => ?_, ?_⟩
    · rw [(hmem span).mp hspan]
      exact hrootMember
    · have honly : ∀ span ∈ residency.spansOf trace, span = root := fun span hspan =>
        (hmem span).mp (hall span hspan)
      exact ⟨Or.inr honly, fun a ha b hb _ => (honly a ha).trans (honly b hb).symm⟩
    · rintro ⟨hreach | honly, -⟩ span hspan
      · exact absurd (hreach root hrootMember) hmissed
      · exact (hmem span).mpr (honly span hspan)

/-- The metric window an investigation states: of a metric part that ran, the waterfall's extent. -/
theorem mem_flowCoverage_metricWindow {stats : StoreStats} {request : TraceInvestigationRequest}
    {parts : FlowParts} {truth : Truth} {shrunk : Nat} {asked resident : TimeWindow} :
    .metricWindow asked resident ∈ flowCoverage stats request parts truth shrunk ↔
      parts.pointsGroup.runs ≠ [] ∧ asked = parts.asked ∧ resident = parts.resident := by
  simp [flowCoverage]

/-- The holes an investigation states: those of the logs and of the points, where there are any. -/
theorem mem_flowCoverage_residencyHole {stats : StoreStats} {request : TraceInvestigationRequest}
    {parts : FlowParts} {truth : Truth} {shrunk : Nat} {part : PartName} {count : Nat} :
    .residencyHole part count ∈ flowCoverage stats request parts truth shrunk ↔
      (0 < parts.logHoles ∧ part = .relatedLogs ∧ count = parts.logHoles) ∨
        (0 < parts.pointHoles ∧ part = .surroundingMetrics ∧ count = parts.pointHoles) := by
  simp [flowCoverage]

/-- An investigation states no hole exactly when there is none. -/
theorem flowCoverage_unholed_iff {stats : StoreStats} {request : TraceInvestigationRequest}
    {parts : FlowParts} {truth : Truth} {shrunk : Nat} :
    (∀ entry ∈ flowCoverage stats request parts truth shrunk, entry.isHole = false) ↔
      parts.logHoles = 0 ∧ parts.pointHoles = 0 := by
  constructor
  · intro hall
    constructor
    · by_contra hne
      have hhole := hall _ (mem_flowCoverage_residencyHole.mpr
        (Or.inl ⟨Nat.pos_of_ne_zero hne, rfl, rfl⟩))
      exact absurd hhole (by simp [FlowCoverageEntry.isHole])
    · by_contra hne
      have hhole := hall _ (mem_flowCoverage_residencyHole.mpr
        (Or.inr ⟨Nat.pos_of_ne_zero hne, rfl, rfl⟩))
      exact absurd hhole (by simp [FlowCoverageEntry.isHole])
  · rintro ⟨hlogs, hpoints⟩ entry hentry
    cases entry with
    | residencyHole part count =>
      rcases mem_flowCoverage_residencyHole.mp hentry with ⟨hpos, -⟩ | ⟨hpos, -⟩
      · rw [hlogs] at hpos
        exact absurd hpos (lt_irrefl 0)
      · rw [hpoints] at hpos
        exact absurd hpos (lt_irrefl 0)
    | _ => rfl

/-- An envelope reports itself complete exactly when its parts are. -/
theorem compose_reportsComplete {reads : FlowReads}
    {correlate : CorrelationBounds → CorrelationOutcome} {request : TraceInvestigationRequest}
    {chain : ChainBudget} {parts : FlowParts} :
    (compose reads correlate request chain parts).ReportsComplete ↔ parts.Complete := by
  constructor
  · rintro ⟨hstopped, hfinished, hunholed⟩
    obtain ⟨hlogs, hpoints⟩ := flowCoverage_unholed_iff.mp hunholed
    exact ⟨hstopped, hfinished parts.spansGroup (by simp [compose]),
      hfinished parts.logsGroup (by simp [compose]), hfinished parts.pointsGroup (by simp [compose]),
      hlogs, hpoints⟩
  · rintro ⟨hstopped, hspans, hlogs, hpoints, hlogHoles, hpointHoles⟩
    refine ⟨hstopped, fun group hgroup => ?_,
      flowCoverage_unholed_iff.mpr ⟨hlogHoles, hpointHoles⟩⟩
    rcases List.mem_cons.mp hgroup with rfl | hgroup
    · exact hspans
    · rcases List.mem_cons.mp hgroup with rfl | hgroup
      · exact hlogs
      · rw [List.mem_singleton.mp hgroup]
        exact hpoints

theorem spanEvidence_spans (waterfall : List (Arc Span)) (effective : EffectiveSubject) :
    (spanEvidence waterfall effective).map SpanEvidence.span = waterfall := by
  rw [spanEvidence, List.map_map]
  refine (List.map_congr_left fun s _ => ?_).trans (List.map_id _)
  simp only [Function.comp_apply, id_eq]
  split <;> rfl

theorem mem_spanEvidence {waterfall : List (Arc Span)} {effective : EffectiveSubject}
    {span : Arc Span} :
    (∃ view ∈ spanEvidence waterfall effective, view.span = span) ↔ span ∈ waterfall := by
  conv_rhs => rw [← spanEvidence_spans waterfall effective]
  exact List.mem_map.symm

namespace PartsReached

variable {residency : Residency} {request : TraceInvestigationRequest} {root : Arc Span}
  {parts : FlowParts} {trace : TraceId} {id : SpanId}

theorem mem_logs (h : PartsReached residency request root parts)
    (hidentity : root.val.naturalIdentity = some (trace, id)) {log : Arc LogRecord} :
    (∃ view ∈ parts.logs, view.log = log) ↔
      log ∈ request.budget.reached residency.allLogs ∧ log.val.traceId = some trace := by
  have hmem : log ∈ parts.logs.map LogEvidence.log ↔ ∃ view ∈ parts.logs, view.log = log :=
    List.mem_map
  rw [← hmem, h.logs, hidentity]
  simp [selectLogs]

theorem mem_points (h : PartsReached residency request root parts)
    (hidentity : root.val.naturalIdentity = some (trace, id)) {point : PointView} :
    (∃ view ∈ parts.points, view.point = point.point ∧ view.stream = point.stream) ↔
      point ∈ request.budget.reached residency.allPoints ∧
        parts.asked.holds point.point.val.timeUnixNano = true := by
  have hmem : point ∈ parts.points.map (fun view => PointView.mk view.point view.stream) ↔
      ∃ view ∈ parts.points, view.point = point.point ∧ view.stream = point.stream := by
    cases point
    simp
  rw [← hmem, h.points, hidentity]
  simp [selectPoints]

end PartsReached

/-- **When a complete report is complete evidence.**  Over every fixed store whose keys are 64-bit
words, for every resident root with a valid identity, every positive budget whose deadlines never
expire and every chain budget, whatever the correlation run answers. -/
theorem evidence_complete_iff (store : FixedStore) (clocks : Nat → Clock)
    (correlate : CorrelationBounds → CorrelationOutcome) (fuel : Nat)
    (request : TraceInvestigationRequest) (chain : ChainBudget) (envelope : Investigation)
    (root : Arc Span) (trace : TraceId) (id : SpanId)
    (hwords : store.residency.Words)
    (hroot : store.driver.span request.rootSpan = some root)
    (hidentity : root.val.naturalIdentity = some (trace, id))
    (hpositive : request.budget.perPage.Positive)
    (hlive : ∀ k n, clocks k n - clocks k 0 < request.budget.deadline)
    (h : investigateTraceBounded fuel (store.reads clocks) correlate request chain =
      some (.ok envelope))
    (hcomplete : envelope.ReportsComplete) :
    envelope.HoldsAll store.residency trace ↔
      WithinReach store.residency request.budget trace root := by
  obtain ⟨resident, parts, hfound, hwalked, rfl⟩ := investigateTraceBounded_eq_ok h
  obtain rfl : root = resident := Option.some.inj (hroot.symm.trans hfound)
  have hparts := compose_reportsComplete.mp hcomplete
  have hran : parts.pointsGroup.runs ≠ [] := by
    intro hnil
    have hlast := hparts.points.last
    simp [hnil] at hlast
  have hreached := walkParts_reached hpositive hlive hwords hwalked hparts
  have hresident : root ∈ store.residency.allSpans := by
    obtain ⟨key, -, hmem⟩ := (store.serves.span _ _).mp hroot
    exact List.mem_map_of_mem hmem
  obtain ⟨honly, hspansIff⟩ := @waterfall_holds_iff store.residency request.budget trace root id
    hidentity hresident request.rootSpan
  rw [← hreached.waterfall] at honly hspansIff
  -- while no span is out of reach, the asked window is the extent of the trace's resident spans
  have hasked : (∀ span ∈ store.residency.spansOf trace, span ∈ parts.waterfall) →
      parts.asked = extentOf (store.residency.spansOf trace) := fun hall =>
    extentOf_congr fun span => ⟨honly span, hall span⟩
  constructor
  · rintro ⟨hspans, hlogs, hpoints⟩
    have hall : ∀ span ∈ store.residency.spansOf trace, span ∈ parts.waterfall :=
      fun span hspan => mem_spanEvidence.mp (hspans span hspan)
    obtain ⟨hreach, hdistinct⟩ := hspansIff.mp hall
    refine ⟨hreach, hdistinct, fun log hlog htrace => ?_, fun point hpoint htime => ?_⟩
    · exact ((hreached.mem_logs hidentity).mp (hlogs log hlog htrace)).1
    · rw [← hasked hall] at htime
      have hview := hpoints _ _ (mem_flowCoverage_metricWindow.mpr ⟨hran, rfl, rfl⟩) point hpoint
        htime
      exact ((hreached.mem_points hidentity).mp hview).1
  · rintro ⟨hreach, hdistinct, hlogs, hpoints⟩
    have hall := hspansIff.mpr ⟨hreach, hdistinct⟩
    refine ⟨fun span hspan => mem_spanEvidence.mpr (hall span hspan), fun log hlog htrace => ?_,
      fun asked resident hentry point hpoint htime => ?_⟩
    · exact (hreached.mem_logs hidentity).mpr ⟨hlogs log hlog htrace, htrace⟩
    · obtain ⟨-, rfl, -⟩ := mem_flowCoverage_metricWindow.mp hentry
      refine (hreached.mem_points hidentity).mpr ⟨hpoints point hpoint ?_, htime⟩
      rw [← hasked hall]
      exact htime

/-- A memory store that has kept the root span of a trace, and so many of its log records. -/
def tracedLogs (n : Nat) : FixedStore :=
  (InMemoryStore.coherent_of_reaches (@InMemoryStore.reaches_run InMemoryStore.anyOp
    (fun _ _ => trivial)
    (.keepSpan ⟨.span (.ofByte 1) (.ofByte 1), ⟨0⟩, ⟨1000, .bare 1 1⟩⟩ ::
      (List.range n).map fun i =>
        .keepLogRecord ⟨.serial (i + 1), ⟨i + 1⟩, ⟨i, .bare (some (.ofByte 1)) none⟩⟩)
    (InMemoryStore.new ⟨1000, 1000000, 1000, 5⟩ true))).fixedStore

/-- The trace's root, asked about with so many results a page. -/
def tracedRequest (maxResults : Nat) : TraceInvestigationRequest :=
  ⟨.span (.ofByte 1) (.ofByte 1), ⟨1, maxResults, 1000000, 1000, 1000⟩, none⟩

/-- What the correlation engine answers when the one log and the root share their trace. -/
def traceIdentityOnly : CorrelationOutcome where
  relations :=
    [⟨.traceIdentity, ⟨.logRecords, .serial 1⟩, ⟨.spans, .span (.ofByte 1) (.ofByte 1)⟩,
      [⟨"trace_id", .bytes (TraceId.ofByte 1).bytes⟩], ⟨"trace_identity", "1.0.0"⟩, none⟩]
  truth :=
    ⟨[⟨"span_identity", "1.0.0"⟩, ⟨"trace_identity", "1.0.0"⟩], [], [], 0, none, 2⟩

/-- The root as the store finds it, and what the walks from it come to. -/
def tracedParts (n maxResults : Nat) : Option (Arc Span × FlowParts) :=
  ((tracedLogs n).driver.span (tracedRequest maxResults).rootSpan).bind fun root =>
    match walkParts 2 ((tracedLogs n).reads fun _ => still) (tracedRequest maxResults) .defaults
      root with
    | some (.ok parts) => some (root, parts)
    | _ => none

/-- Whether the root is the trace's, and the parts are complete. -/
def tracedComplete (found : Arc Span × FlowParts) : Bool :=
  decide (found.1.val.naturalIdentity = some (.ofByte 1, .ofByte 1)) && decide found.2.Complete

/-- An investigation whose parts were computed. -/
theorem investigate_of_tracedParts {n maxResults : Nat} {found : Arc Span × FlowParts}
    (h : tracedParts n maxResults = some found)
    (correlate : CorrelationBounds → CorrelationOutcome) :
    (tracedLogs n).driver.span (tracedRequest maxResults).rootSpan = some found.1 ∧
      investigateTraceBounded 2 ((tracedLogs n).reads fun _ => still) correlate
          (tracedRequest maxResults) .defaults =
        some (.ok (compose ((tracedLogs n).reads fun _ => still) correlate
          (tracedRequest maxResults) .defaults found.2)) := by
  obtain ⟨root, hroot, hwalked⟩ := Option.bind_eq_some_iff.mp h
  split at hwalked
  · rename_i parts hparts
    obtain rfl := Option.some.inj hwalked
    refine ⟨hroot, ?_⟩
    unfold investigateTraceBounded
    rw [show ((tracedLogs n).reads fun _ => still).span (tracedRequest maxResults).rootSpan =
      some root from hroot]
    dsimp only
    rw [hparts]
  · exact absurd hwalked (by simp)

/-- One whose root is the trace's, and whose parts are complete, reports itself complete. -/
theorem investigate_tracedLogs {n maxResults : Nat} {found : Arc Span × FlowParts}
    (h : tracedParts n maxResults = some found) (hfound : tracedComplete found = true)
    (correlate : CorrelationBounds → CorrelationOutcome) :
    (tracedLogs n).driver.span (tracedRequest maxResults).rootSpan = some found.1 ∧
      found.1.val.naturalIdentity = some (.ofByte 1, .ofByte 1) ∧
      investigateTraceBounded 2 ((tracedLogs n).reads fun _ => still) correlate
          (tracedRequest maxResults) .defaults =
        some (.ok (compose ((tracedLogs n).reads fun _ => still) correlate
          (tracedRequest maxResults) .defaults found.2)) ∧
      (compose ((tracedLogs n).reads fun _ => still) correlate (tracedRequest maxResults) .defaults
        found.2).ReportsComplete := by
  rw [tracedComplete, Bool.and_eq_true] at hfound
  obtain ⟨hroot, hcomposed⟩ := investigate_of_tracedParts h correlate
  exact ⟨hroot, of_decide_eq_true hfound.1, hcomposed,
    compose_reportsComplete.mpr (of_decide_eq_true hfound.2)⟩

/-- One log of the trace: the report is complete, and so is the evidence. -/
theorem evidence_complete_iff_tracedLogs : ∃ root envelope,
    investigateTraceBounded 2 ((tracedLogs 1).reads fun _ => still) (fun _ => traceIdentityOnly)
        (tracedRequest 2) .defaults = some (.ok envelope) ∧
      (envelope.HoldsAll (tracedLogs 1).residency (.ofByte 1) ↔
        WithinReach (tracedLogs 1).residency (tracedRequest 2).budget (.ofByte 1) root) := by
  obtain ⟨found, hfound, hcomplete⟩ : ∃ found, tracedParts 1 2 = some found ∧
      tracedComplete found = true := (Option.any_eq_true _ _).mp (by decide +kernel)
  obtain ⟨hroot, hidentity, h, hreports⟩ :=
    investigate_tracedLogs hfound hcomplete fun _ => traceIdentityOnly
  exact ⟨found.1, _, h, evidence_complete_iff (tracedLogs 1) (fun _ => still)
    (fun _ => traceIdentityOnly) 2 (tracedRequest 2) .defaults _ found.1 (.ofByte 1) (.ofByte 1)
    (by decide +kernel) hroot hidentity
    ⟨by decide, by decide, by decide⟩ (fun _ _ => Nat.zero_lt_one) h hreports⟩

/-- Sixty-five logs of the trace, sixty-three results a page: the investigation reports itself
complete, and the last log is not in its evidence. -/
theorem not_evidence_complete : ¬ ∃ correlate : CorrelationBounds → CorrelationOutcome,
    ∀ (store : FixedStore) (clocks : Nat → Clock) (fuel : Nat) (request : TraceInvestigationRequest)
      (chain : ChainBudget) (envelope : Investigation) (root : Arc Span) (trace : TraceId)
      (id : SpanId), store.residency.Words →
      store.driver.span request.rootSpan = some root →
      root.val.naturalIdentity = some (trace, id) → request.budget.perPage.Positive →
      (∀ k n, clocks k n - clocks k 0 < request.budget.deadline) → chain.Positive →
      investigateTraceBounded fuel (store.reads clocks) correlate request chain =
        some (.ok envelope) → envelope.ReportsComplete →
      envelope.HoldsAll store.residency trace := by
  rintro ⟨correlate, hclaim⟩
  obtain ⟨found, hfound, hfacts⟩ : ∃ found, tracedParts 65 63 = some found ∧
      (tracedComplete found && found.2.logs.all fun view => view.log.addr != 64) = true :=
    (Option.any_eq_true _ _).mp (by decide +kernel)
  rw [Bool.and_eq_true] at hfacts
  obtain ⟨hcomplete, hlogs⟩ := hfacts
  obtain ⟨hroot, hidentity, h, hreports⟩ := investigate_tracedLogs hfound hcomplete correlate
  have hholds := hclaim (tracedLogs 65) (fun _ => still) 2 (tracedRequest 63) .defaults _ found.1
    (.ofByte 1) (.ofByte 1) (by decide +kernel) hroot hidentity
    ⟨by decide, by decide, by decide⟩ (fun _ _ => Nat.zero_lt_one) ChainBudget.positive_defaults h
    hreports
  obtain ⟨log, hlog, haddr, htrace⟩ : ∃ log ∈ (tracedLogs 65).residency.allLogs,
      log.addr = 64 ∧ log.val.traceId = some (.ofByte 1) := by
    decide +kernel
  obtain ⟨view, hview, rfl⟩ := hholds.logs log hlog htrace
  have hmissing : view.log.addr ≠ 64 := by simpa using List.all_eq_true.mp hlogs view hview
  exact hmissing haddr

end RuntimeTrail
