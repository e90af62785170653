import RuntimeTrail.Investigation.Gathered
import RuntimeTrail.Query.Uncounted

/-!
# Which truncations the honesty checks accept

The engine counts what it leaves out behind a byte wall only, and says so: zero
omitted means uncounted.  The envelope's check takes a truncation that omits zero
for one that is not named.  A returned envelope passes its own checks exactly when
no page the flow runs is cut with nothing counted.

* **one page** — `CountsItsCuts`, and `records_named_iff`: the check of a run
  against the states its page examines records in;
* **a walk** — `RunsPage`, the pages a walk runs, and `walkPagesFrom_named_iff`;
* **the flow** — `FlowPage`, the pages of its three walks, and the law
  `violations_eq_nil_iff_counted`.
-/

namespace RuntimeTrail

open Library

/-! ## One page -/

/-- The payload a presented cursor stands for, when it is one of the query's own. -/
def presentedOf (query : RecordsQuery) (cursor : Option (List UInt8)) : Option CursorPayload :=
  cursor.bind fun bytes => (presentedPayload (fingerprint query.canonicalBytes) bytes none).toOption

/-- What the walk of a page reads. -/
def FlowReads.pageInput (reads : FlowReads) (query : RecordsQuery) (walk : WalkState)
    (cursor : Option (List UInt8)) : WalkInput :=
  walkInput (reads.pages walk.pages) query (reads.clocks walk.pages) (presentedOf query cursor)

/-- The session a page is admitted with. -/
def FlowReads.pageSession (reads : FlowReads) (walk : WalkState) : BudgetSession :=
  walk.budget.perPage.admitSession (reads.clocks walk.pages 0)

/-- A page admitted with no results, or none of whose examinations cuts it off with nothing
counted. -/
def CountsItsCuts (reads : FlowReads) (query : RecordsQuery) (walk : WalkState)
    (cursor : Option (List UInt8)) : Prop :=
  walk.budget.maxResults = 0 ∨ ∀ w yielded tail,
    Walk.Examines (reads.pageInput query walk cursor) (reads.pageSession walk) w yielded tail →
      ¬ w.CutsUncounted (reads.pageInput query walk cursor) yielded

/-- A run that states its stalls is named unless it counts nothing. -/
theorem truncationIsNamed_iff {run : RunFacts}
    (hstall : run.outcome = .stalled → run.coverage.any RunCoverage.isStall = true) :
    Investigation.truncationIsNamed run = true ↔ ¬ run.outcome.Uncounted := by
  unfold Investigation.truncationIsNamed
  cases houtcome : run.outcome with
  | complete => exact iff_of_true rfl id
  | degraded truncation => exact bne_iff_ne
  | refused refusal => exact bne_iff_ne
  | stalled => exact iff_of_true (hstall houtcome) id

/-- An answered page is the page of the payload its cursor stands for. -/
theorem records_eq_answer {stores : Nat → TelemetryStore} {query : RecordsQuery}
    {budget : QueryBudget} {clock : Clock} {cursor : Option (List UInt8)} {page : Page RecordView}
    (h : records stores query budget clock cursor = .ok page) :
    page = answer stores query budget clock (presentedOf query cursor) := by
  unfold records recordsInner at h
  cases cursor with
  | none => exact (Except.ok.inj h).symm
  | some bytes =>
    dsimp only at h
    split at h
    · cases h
    · rename_i payload hpayload
      have hpresented : presentedOf query (some bytes) = some payload := by
        simp only [presentedOf, Option.bind_some, hpayload, Except.toOption]
      rw [hpresented]
      exact (Except.ok.inj h).symm

/-- **One page.**  Its run passes the check exactly when the page counts its cuts. -/
theorem records_named_iff {reads : FlowReads} {query : RecordsQuery} {walk : WalkState}
    {cursor : Option (List UInt8)} {page : Page RecordView} {run : RunFacts}
    (hpage : records (reads.pages walk.pages) query walk.budget.perPage (reads.clocks walk.pages)
      cursor = .ok page) (hrun : mirrorPage page = .ok run) :
    Investigation.truncationIsNamed run = true ↔ CountsItsCuts reads query walk cursor := by
  obtain rfl := records_eq_answer hpage
  unfold answer at hrun
  dsimp only at hrun
  split at hrun
  · -- no results are asked for: the page is empty and complete
    rename_i hzero
    obtain rfl := Except.ok.inj hrun
    exact iff_of_true rfl (Or.inl hzero)
  · rename_i hasked
    have hlast := Walk.lastWalk_stopped (reads.pageInput query walk cursor) (reads.pageSession walk)
    have hstall := Walk.lastWalk_stalled (reads.pageInput query walk cursor) (reads.pageSession walk)
    have huncounted := @Walk.lastWalk_uncounted_iff (reads.pageInput query walk cursor)
      (reads.pageSession walk)
    change mirrorPage ((Walk.lastWalk (reads.pageInput query walk cursor)
      (reads.pageSession walk)).assemble (reads.pageInput query walk cursor)) = .ok run at hrun
    generalize Walk.lastWalk (reads.pageInput query walk cursor) (reads.pageSession walk) = last
      at hlast hstall huncounted hrun
    obtain ⟨outcome, hstopped⟩ := Option.isSome_iff_exists.mp hlast
    obtain rfl := Except.ok.inj hrun
    have houtcome : last.stopped.getD .complete = outcome := by rw [hstopped]; rfl
    rw [Walk.endsUncounted_of_stopped hstopped] at huncounted
    rw [truncationIsNamed_iff]
    · change ¬ (last.stopped.getD .complete).Uncounted ↔ _
      rw [houtcome, huncounted]
      constructor
      · intro hnone
        exact Or.inr fun w yielded tail hexamines hcuts =>
          hnone ⟨w, yielded, tail, hexamines, hcuts⟩
      · rintro (hzero | hall) ⟨w, yielded, tail, hexamines, hcuts⟩
        · exact hasked hzero
        · exact hall w yielded tail hexamines hcuts
    · intro hstalled
      change last.stopped.getD .complete = .stalled at hstalled
      obtain ⟨entity, hnamed⟩ := hstall (by rw [hstopped, ← houtcome, hstalled])
      refine List.any_eq_true.mpr ⟨mirrorCoverage (.driverStall entity), ?_, rfl⟩
      exact List.mem_map_of_mem (Walk.mem_assemble_coverage hnamed _)

/-! ## A walk -/

/-- The walk runs a page from this state, presenting this cursor. -/
inductive RunsPage (reads : FlowReads) (query : RecordsQuery) :
    Nat → WalkState → Option (List UInt8) → WalkState → Option (List UInt8) → Prop
  | here {left : Nat} {walk : WalkState} {cursor : Option (List UInt8)}
      (room : walk.entities < walk.chain.maxTotalEntities) :
      RunsPage reads query (left + 1) walk cursor walk cursor
  | onward {left : Nat} {walk walk' : WalkState} {cursor cursor' : Option (List UInt8)}
      {page : Page RecordView} {next : List UInt8}
      (room : walk.entities < walk.chain.maxTotalEntities)
      (answered : records (reads.pages walk.pages) query walk.budget.perPage
        (reads.clocks walk.pages) cursor = .ok page)
      (continues : page.nextCursor = some next) (advances : cursor ≠ some next)
      (behind : RunsPage reads query left walk.paged (some next) walk' cursor') :
      RunsPage reads query (left + 1) walk cursor walk' cursor'

/-- A page behind the first one is run by the walk from the first one's cursor. -/
theorem RunsPage.behind_of_ne {reads : FlowReads} {query : RecordsQuery} {left : Nat}
    {walk : WalkState} {cursor : Option (List UInt8)} {page : Page RecordView}
    (hpage : records (reads.pages walk.pages) query walk.budget.perPage (reads.clocks walk.pages)
      cursor = .ok page) {walk' : WalkState} {cursor' : Option (List UInt8)}
    (h : RunsPage reads query (left + 1) walk cursor walk' cursor') :
    walk' = walk ∧ cursor' = cursor ∨ ∃ next, page.nextCursor = some next ∧ cursor ≠ some next ∧
      RunsPage reads query left walk.paged (some next) walk' cursor' := by
  cases h with
  | here room => exact Or.inl ⟨rfl, rfl⟩
  | onward room answered continues advances behind =>
    obtain rfl := Except.ok.inj (hpage.symm.trans answered)
    exact Or.inr ⟨_, continues, advances, behind⟩

/-- **A walk.**  Its runs pass the check exactly when every page it runs counts its cuts. -/
theorem walkPagesFrom_named_iff {reads : FlowReads} {query : RecordsQuery} {left : Nat}
    {walk walk' : WalkState} {cursor : Option (List UInt8)} {items : List RecordView}
    {runs : List RunFacts}
    (h : walkPagesFrom reads query left walk cursor = .ok (items, runs, walk')) :
    (∀ run ∈ runs, Investigation.truncationIsNamed run = true) ↔
      ∀ state presented, RunsPage reads query left walk cursor state presented →
        CountsItsCuts reads query state presented := by
  replace h := walksPages_of_ok h
  induction h with
  | @stopped left walk _ _ spent =>
    refine iff_of_true (fun run hrun => absurd hrun (by simp)) fun state presented hruns => ?_
    obtain ⟨hleft, hroom⟩ : left ≠ 0 ∧ walk.entities < walk.chain.maxTotalEntities := by
      cases hruns with
      | here room => exact ⟨Nat.succ_ne_zero _, room⟩
      | onward room => exact ⟨Nat.succ_ne_zero _, room⟩
    rcases spent with hzero | hspent
    · exact absurd hzero hleft
    · exact absurd hroom (not_lt.mpr hspent)
  | @ended left walk cursor page run answered mirrored room ends =>
    have hnamed := records_named_iff answered mirrored
    constructor
    · intro hall state presented hruns
      rcases hruns.behind_of_ne answered with ⟨rfl, rfl⟩ | ⟨next, hnext, hmoves, -⟩
      · exact hnamed.mp (hall run (List.mem_singleton.mpr rfl))
      · -- the page ends the walk: it hands back no cursor, or the one it was presented
        rw [hnext] at ends
        rcases ends with hnone | hsame
        · cases hnone
        · exact absurd hsame.symm hmoves
    · intro hall other hother
      rw [List.mem_singleton.mp hother]
      exact hnamed.mpr (hall walk cursor (.here room))
  | @onward left walk _ cursor page run _ _ _ answered mirrored room continues advances _ ih =>
    have hnamed := records_named_iff answered mirrored
    constructor
    · intro hall state presented hruns
      rcases hruns.behind_of_ne answered with ⟨rfl, rfl⟩ | ⟨other, hother, -, hlater⟩
      · exact hnamed.mp (hall run List.mem_cons_self)
      · obtain rfl := Option.some.inj (continues.symm.trans hother)
        exact ih.mp (fun later hmem => hall later (List.mem_cons_of_mem _ hmem)) _ _ hlater
    · intro hall other hother
      rcases List.mem_cons.mp hother with rfl | hmem
      · exact hnamed.mpr (hall walk cursor (.here room))
      · exact ih.mpr (fun state presented hruns =>
          hall _ _ (.onward room answered continues advances hruns)) _ hmem

/-! ## The flow -/

/-- The flow starts its walk of a kind in this state. -/
inductive FlowWalk (fuel : Nat) (reads : FlowReads) (request : TraceInvestigationRequest)
    (chain : ChainBudget) (root : Arc Span) : SignalKind → WalkState → Prop
  | spans : FlowWalk fuel reads request chain root .spans (.start request.budget chain)
  | logs {views : List RecordView} {group : RunGroup} {walk : WalkState}
      (walked : walkPages reads (.new .spans) .spans (.start request.budget chain) =
        .ok (views, group, walk)) :
      FlowWalk fuel reads request chain root .logRecords
        (walk.count (waterfall (spanViewsOf views)
          (resolveSubject root request.rootSpan (spanViewsOf views)) root).length)
  | points {start walk walk' : WalkState} {views : List RecordView} {group : RunGroup}
      {logs : List LogEvidence} {holes : Nat}
      (started : FlowWalk fuel reads request chain root .logRecords start)
      (walked : walkPages reads (.new .logRecords) .relatedLogs start = .ok (views, group, walk))
      (related : relatedLogs fuel reads views (root.val.naturalIdentity.map Prod.fst) walk =
        some (logs, holes, walk')) :
      FlowWalk fuel reads request chain root .metricPoints walk'

/-- A flow starts one walk of a kind. -/
theorem FlowWalk.unique {fuel : Nat} {reads : FlowReads} {request : TraceInvestigationRequest}
    {chain : ChainBudget} {root : Arc Span} {kind : SignalKind} {start start' : WalkState}
    (h : FlowWalk fuel reads request chain root kind start)
    (h' : FlowWalk fuel reads request chain root kind start') : start = start' := by
  induction h generalizing start' with
  | spans =>
    cases h'
    rfl
  | logs walked =>
    cases h' with
    | logs walked' =>
      obtain ⟨rfl, hrest⟩ := Prod.mk.inj (Except.ok.inj (walked.symm.trans walked'))
      obtain ⟨-, rfl⟩ := Prod.mk.inj hrest
      rfl
  | points started walked related ih =>
    cases h' with
    | points started' walked' related' =>
      obtain rfl := ih started'
      obtain ⟨rfl, hrest⟩ := Prod.mk.inj (Except.ok.inj (walked.symm.trans walked'))
      obtain ⟨-, rfl⟩ := Prod.mk.inj hrest
      obtain ⟨-, hnamed⟩ := Prod.mk.inj (Option.some.inj (related.symm.trans related'))
      exact (Prod.mk.inj hnamed).2

/-- The flow runs a page of a kind in this state, presenting this cursor. -/
def FlowPage (fuel : Nat) (reads : FlowReads) (request : TraceInvestigationRequest)
    (chain : ChainBudget) (root : Arc Span) (kind : SignalKind) (walk : WalkState)
    (cursor : Option (List UInt8)) : Prop :=
  ∃ start, FlowWalk fuel reads request chain root kind start ∧
    RunsPage reads (.new kind) (start.chain.maxTotalPages - start.pages) start none walk cursor

/-- A walked part passes the check exactly when the pages of its walk count their cuts. -/
theorem walkPages_named_iff {reads : FlowReads} {query : RecordsQuery} {part : PartName}
    {start walk' : WalkState} {items : List RecordView} {group : RunGroup}
    (h : walkPages reads query part start = .ok (items, group, walk')) :
    group.runs.all Investigation.truncationIsNamed = true ↔
      ∀ walk cursor, RunsPage reads query (start.chain.maxTotalPages - start.pages) start none walk
        cursor → CountsItsCuts reads query walk cursor := by
  rw [List.all_eq_true]
  exact walkPagesFrom_named_iff (walkPages_eq_ok h).1

/-- **The parts.**  All their runs pass the check exactly when every page of the flow counts its
cuts. -/
theorem walkParts_named_iff {fuel : Nat} {reads : FlowReads} {request : TraceInvestigationRequest}
    {chain : ChainBudget} {root : Arc Span} {parts : FlowParts}
    (h : walkParts fuel reads request chain root = some (.ok parts)) :
    ([parts.spansGroup, parts.logsGroup, parts.pointsGroup].all fun group =>
        group.runs.all Investigation.truncationIsNamed) = true ↔
      ∀ kind walk cursor, FlowPage fuel reads request chain root kind walk cursor →
        CountsItsCuts reads (.new kind) walk cursor := by
  obtain ⟨hrelates, spanViews, logViews, pointViews, walk₁, walk₂, walk₃, walk₄, hspans, heffective,
    hwaterfall, hlogs, hrelated, hpoints, -⟩ := walkParts_eq_ok h
  rw [hwaterfall, heffective] at hlogs
  rw [hrelates] at hrelated
  have hstart := @FlowWalk.spans fuel reads request chain root
  have hlogsStart := @FlowWalk.logs fuel reads request chain root _ _ _ hspans
  have hpointsStart := hlogsStart.points hlogs hrelated
  simp only [List.all_cons, List.all_nil, Bool.and_true, Bool.and_eq_true,
    walkPages_named_iff hspans, walkPages_named_iff hlogs, walkPages_named_iff hpoints]
  constructor
  · rintro ⟨hspansAll, hlogsAll, hpointsAll⟩ kind walk cursor ⟨start, hwalk, hruns⟩
    cases kind with
    | spans =>
      obtain rfl := hwalk.unique hstart
      exact hspansAll _ _ hruns
    | logRecords =>
      obtain rfl := hwalk.unique hlogsStart
      exact hlogsAll _ _ hruns
    | metricPoints =>
      obtain rfl := hwalk.unique hpointsStart
      exact hpointsAll _ _ hruns
  · intro hall
    exact ⟨fun walk cursor hruns => hall _ _ _ ⟨_, hstart, hruns⟩,
      fun walk cursor hruns => hall _ _ _ ⟨_, hlogsStart, hruns⟩,
      fun walk cursor hruns => hall _ _ _ ⟨_, hpointsStart, hruns⟩⟩

/-- **When a returned envelope passes its own checks**: exactly when no page the flow runs is cut off
with nothing counted.  For every store that names its spans by their natural identities, moving or
not, every request, every budget of a page and every chain budget. -/
theorem violations_eq_nil_iff_counted (fuel : Nat) (reads : FlowReads) (run : Residency → Prop)
    (hover : reads.Over run)
    (hnatural : ∀ {entity span trace id}, Stands run .spans entity (.span span) →
      span.val.naturalIdentity = some (trace, id) → entity = .span trace id)
    (stores : Nat → TelemetryStore) (request : TraceInvestigationRequest) (chain : ChainBudget)
    (root : Arc Span) (hroot : reads.span request.rootSpan = some root) (envelope : Investigation)
    (h : investigateTraceBounded fuel reads (correlate stores) request chain =
      some (.ok envelope)) :
    envelope.violations = [] ↔
      ∀ kind walk cursor, FlowPage fuel reads request chain root kind walk cursor →
        CountsItsCuts reads (.new kind) walk cursor := by
  obtain ⟨resident, parts, hresident, hparts, rfl⟩ := investigateTraceBounded_eq_ok h
  obtain rfl : root = resident := Option.some.inj (hroot.symm.trans hresident)
  have hsubjects := @subjectsAreStatedSeparately_compose run reads (correlate stores) request chain
    root parts hover hnatural hroot fuel hparts
  have hrelations := signalRefsResolve_compose reads stores request chain parts
  rw [Investigation.violations_eq_nil_iff, and_iff_right hsubjects, and_iff_left hrelations]
  exact walkParts_named_iff hparts

/-- The trace with one log record, investigated with room for it: the envelope passes, so no page
was cut off uncounted. -/
theorem violations_eq_nil_iff_counted_tracedLogs : ∃ root, ∀ kind walk cursor,
    FlowPage 2 ((tracedLogs 1).reads fun _ => still) (tracedRequest 2) .defaults root kind walk
      cursor → CountsItsCuts ((tracedLogs 1).reads fun _ => still) (.new kind) walk cursor := by
  have hchecked : ((tracedParts 1 2).any fun found =>
      let envelope := compose ((tracedLogs 1).reads fun _ => still)
        (correlate fun _ => (tracedLogs 1).driver) (tracedRequest 2) .defaults found.2
      envelope.subjectsAreStatedSeparately && envelope.truncationsAreNamed) = true := by
    decide +kernel
  obtain ⟨found, hfound, hpasses⟩ := (Option.any_eq_true _ _).mp hchecked
  obtain ⟨hsubjects, hnamed⟩ := Bool.and_eq_true_iff.mp hpasses
  obtain ⟨hroot, h⟩ :=
    investigate_of_tracedParts hfound (correlate fun _ => (tracedLogs 1).driver)
  exact ⟨found.1, (violations_eq_nil_iff_counted 2 _ _ tracedLogs_over tracedLogs_unique.natural _
    (tracedRequest 2) _ found.1 hroot _ h).mp
      (Investigation.violations_eq_nil_iff.mpr
        ⟨hsubjects, hnamed, signalRefsResolve_compose _ _ _ _ _⟩)⟩

/-- Two log records of the trace and one result a page: the first page of logs ends on its spent
results with nothing counted, and the envelope does not pass. -/
theorem violations_uncounted : ¬ ∀ (store : FixedStore) (clocks : Nat → Clock) (fuel : Nat)
    (request : TraceInvestigationRequest) (chain : ChainBudget) (envelope : Investigation),
    chain.Positive →
      investigateTraceBounded fuel (store.reads clocks) (correlate fun _ => store.driver) request
        chain = some (.ok envelope) → envelope.violations = [] := by
  intro hclaim
  obtain ⟨found, hfound, hunnamed⟩ : ∃ found, tracedParts 2 1 = some found ∧
      (found.2.logsGroup.runs.all Investigation.truncationIsNamed) = false := by
    obtain ⟨found, hfound, hcut⟩ := (Option.any_eq_true
      (fun found : Arc Span × FlowParts =>
        !found.2.logsGroup.runs.all Investigation.truncationIsNamed) (tracedParts 2 1)).mp
      (by decide +kernel)
    exact ⟨found, hfound, by simpa using hcut⟩
  have h := (investigate_of_tracedParts hfound (correlate fun _ => (tracedLogs 2).driver)).2
  have hnone := hclaim _ _ _ _ _ _ ChainBudget.positive_defaults h
  obtain ⟨-, hnamed, -⟩ := Investigation.violations_eq_nil_iff.mp hnone
  have hlogs := List.all_eq_true.mp hnamed found.2.logsGroup (by simp [compose])
  rw [hunnamed] at hlogs
  cases hlogs

end RuntimeTrail
