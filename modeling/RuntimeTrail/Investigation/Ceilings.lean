import RuntimeTrail.Investigation.Completeness
import RuntimeTrail.Investigation.Pages

/-!
# The chain's ceilings

The flow tests its ceilings before each page and counts entities behind each
part's whole walk.  What a part selects past the ceiling is therefore reported by
the next page that does not run, and behind the last part there is none: an
overshoot stays unseen where all pages of all three kinds are run and only the
points take the count past the ceiling.

* **one walk** — `walkPages_onward`: pages stay within their ceiling, a stop stays,
  and no entity is counted;
* **the three walks** — `CountedWalks`, past the ceiling unseen exactly where the pages of
  each kind to their end are (`overshoots`, `unseen`);
* **the law** — `chain_reported_iff`, over any sequence of stores, and over a fixed
  store in terms of what is resident.
-/

namespace RuntimeTrail

/-! ## One walk -/

/-- What every stretch of a flow keeps: the budget, the ceilings, the pages within theirs, a stop. -/
structure WalkState.Onward (walk walk' : WalkState) : Prop where
  budget : walk'.budget = walk.budget
  chain : walk'.chain = walk.chain
  pages : walk.pages ≤ walk.chain.maxTotalPages → walk'.pages ≤ walk.chain.maxTotalPages
  stopped : walk.stopped.isSome → walk'.stopped.isSome

namespace WalkState.Onward

theorem trans {walk walk' walk'' : WalkState} (h : walk.Onward walk') (h' : walk'.Onward walk'') :
    walk.Onward walk'' where
  budget := h'.budget.trans h.budget
  chain := h'.chain.trans h.chain
  pages hwithin := h.chain ▸ h'.pages (h.chain.symm ▸ h.pages hwithin)
  stopped hstopped := h'.stopped (h.stopped hstopped)

theorem count (walk : WalkState) (selected : Nat) : walk.Onward (walk.count selected) :=
  ⟨rfl, rfl, id, id⟩

/-- A stretch that ends unstopped began so. -/
theorem unstopped {walk walk' : WalkState} (h : walk.Onward walk') (hnone : walk'.stopped = none) :
    walk.stopped = none := by
  by_contra hsome
  have hstays := h.stopped (Option.isSome_iff_ne_none.mpr hsome)
  rw [hnone] at hstays
  exact absurd hstays (by simp)

end WalkState.Onward

/-- A walk goes onward and selects nothing itself. -/
theorem walkPagesFrom_onward {reads : FlowReads} {query : RecordsQuery} {left : Nat}
    {walk walk' : WalkState} {cursor : Option (List UInt8)} {items : List RecordView}
    {runs : List RunFacts} (h : WalksPages reads query left walk cursor items runs walk')
    (hleft : left ≤ walk.chain.maxTotalPages - walk.pages) :
    walk.Onward walk' ∧ walk'.entities = walk.entities := by
  induction h with
  | stopped spent => exact ⟨⟨rfl, rfl, id, fun _ => rfl⟩, rfl⟩
  | ended answered mirrored room ends =>
    exact ⟨⟨rfl, rfl, fun _ => by simp only [WalkState.paged]; omega, id⟩, rfl⟩
  | @onward left walk _ _ _ _ _ _ _ _ _ _ _ _ behind ih =>
    have hpaged : walk.Onward walk.paged :=
      ⟨rfl, rfl, fun _ => by simp only [WalkState.paged]; omega, id⟩
    obtain ⟨honward, hentities⟩ := ih
      (show left ≤ walk.chain.maxTotalPages - (walk.pages + 1) by omega)
    exact ⟨hpaged.trans honward, hentities⟩

theorem walkPages_onward {reads : FlowReads} {query : RecordsQuery} {part : PartName}
    {walk walk' : WalkState} {items : List RecordView} {group : RunGroup}
    (h : walkPages reads query part walk = .ok (items, group, walk')) :
    walk.Onward walk' ∧ walk'.entities = walk.entities :=
  walkPagesFrom_onward (walksPages_of_ok (walkPages_eq_ok h).1) le_rfl

/-- The recovery of names spends examinations and scans, and nothing else. -/
theorem nameIdentities_spends {R : Type} {fuel : Nat}
    {scan : Nat → Option AdmissionKey → Nat → ScanPage R} {addrOf : R → Nat} {selected : List Nat}
    {walk walk' : WalkState} {names : List (Option EntityId)}
    (h : nameIdentities fuel scan addrOf selected walk = some (names, walk')) :
    walk' = { walk with examinations := walk'.examinations, scans := walk'.scans } := by
  unfold nameIdentities at h
  split at h
  · exact absurd h (by simp)
  · obtain ⟨-, rfl⟩ := Prod.mk.inj (Option.some.inj h)
    rfl

/-- The logs part counts the log records it selected, named or not. -/
theorem relatedLogs_counts {fuel : Nat} {reads : FlowReads} {views : List RecordView}
    {relatesTo : Option TraceId} {walk walk' : WalkState} {logs : List LogEvidence} {holes : Nat}
    (h : relatedLogs fuel reads views relatesTo walk = some (logs, holes, walk')) :
    walk.Onward walk' ∧ walk'.pages = walk.pages ∧ walk'.stopped = walk.stopped ∧
      walk'.entities =
        saturatingAdd walk.entities (selectLogs relatesTo (logViewsOf views)).length := by
  unfold relatedLogs at h
  dsimp only at h
  split at h
  · exact absurd h (by simp)
  · rename_i names walk₁ hnames
    simp only [Option.some.injEq, Prod.mk.injEq] at h
    obtain ⟨-, -, rfl⟩ := h
    rw [nameIdentities_spends hnames]
    exact ⟨⟨rfl, rfl, id, id⟩, rfl, rfl, rfl⟩

/-- The last part counts the points it selected, named or not. -/
theorem surroundingMetrics_counts {fuel : Nat} {reads : FlowReads} {views : List RecordView}
    {asked resident : TimeWindow} {relatesTo : Option TraceId} {walk walk' : WalkState}
    {points : List PointEvidence} {holes : Nat}
    (h : surroundingMetrics fuel reads views asked relatesTo walk =
      some (points, holes, resident, walk')) :
    walk'.pages = walk.pages ∧ walk'.stopped = walk.stopped ∧ walk'.entities =
      saturatingAdd walk.entities (selectPoints relatesTo asked (pointViewsOf views)).length := by
  unfold surroundingMetrics at h
  dsimp only at h
  split at h
  · exact absurd h (by simp)
  · rename_i names walk₁ hnames
    simp only [Option.some.injEq, Prod.mk.injEq] at h
    obtain ⟨-, -, -, rfl⟩ := h
    rw [nameIdentities_spends hnames]
    exact ⟨rfl, rfl, rfl⟩

/-! ## The three walks -/

/-- How many entities the flow counts before its last selection, and in it, of what the walks of the
three kinds deliver. -/
def selectionsOf (request : TraceInvestigationRequest) (root : Arc Span)
    (spanViews logViews pointViews : List RecordView) : Nat × Nat :=
  let spans := spanViewsOf spanViews
  let ordered := waterfall spans (resolveSubject root request.rootSpan spans) root
  let relatesTo := root.val.naturalIdentity.map Prod.fst
  (ordered.length + (selectLogs relatesTo (logViewsOf logViews)).length,
    (selectPoints relatesTo (extentOf ordered) (pointViewsOf pointViews)).length)

/-- So many pages fit, and so do the entities before the last selection, which goes past the ceiling.
At the largest count the ceiling cannot be passed. -/
structure ChainBudget.Unseen (chain : ChainBudget) (pages : Nat) (selections : Nat × Nat) :
    Prop where
  pages : pages ≤ chain.maxTotalPages
  before : selections.1 < chain.maxTotalEntities
  past : chain.maxTotalEntities < selections.1 + selections.2
  counted : chain.maxTotalEntities < u64Max

instance (chain : ChainBudget) (pages : Nat) (selections : Nat × Nat) :
    Decidable (chain.Unseen pages selections) :=
  decidable_of_iff (pages ≤ chain.maxTotalPages ∧ selections.1 < chain.maxTotalEntities ∧
      chain.maxTotalEntities < selections.1 + selections.2 ∧ chain.maxTotalEntities < u64Max)
    ⟨fun ⟨h₁, h₂, h₃, h₄⟩ => ⟨h₁, h₂, h₃, h₄⟩, fun ⟨h₁, h₂, h₃, h₄⟩ => ⟨h₁, h₂, h₃, h₄⟩⟩

/-- The pages of the three kinds, each to its end and one kind behind the other, go past the entities
ceiling unseen. -/
def Overshoots (reads : FlowReads) (request : TraceInvestigationRequest) (chain : ChainBudget)
    (root : Arc Span) : Prop :=
  ∃ s l p spanViews logViews pointViews,
    PagesOut reads (.new .spans) request.budget.perPage 0 none s spanViews ∧
    PagesOut reads (.new .logRecords) request.budget.perPage s none l logViews ∧
    PagesOut reads (.new .metricPoints) request.budget.perPage (s + l) none p pointViews ∧
    chain.Unseen (s + l + p) (selectionsOf request root spanViews logViews pointViews)

/-- Three counts of 64 bits, one on the other, below a ceiling and behind it past it. -/
theorem saturatingAdd_past_iff {a b c ceiling : Nat} :
    (saturatingAdd (saturatingAdd 0 a) b < ceiling ∧
        ceiling < saturatingAdd (saturatingAdd (saturatingAdd 0 a) b) c) ↔
      a + b < ceiling ∧ ceiling < a + b + c ∧ ceiling < u64Max := by
  unfold saturatingAdd
  generalize u64Max = largest
  omega

theorem saturatingAdd_le_add (a b : Nat) :
    saturatingAdd (saturatingAdd 0 a) b ≤ a + b := by
  unfold saturatingAdd
  omega

/-- The three walks of a flow, with what each comes to and what is counted behind it. -/
structure CountedWalks (reads : FlowReads) (request : TraceInvestigationRequest)
    (chain : ChainBudget) (root : Arc Span) (parts : FlowParts)
    (spanViews logViews pointViews : List RecordView) (walk₁ walk₂ walk₃ walk₄ : WalkState) :
    Prop where
  spans : walkPages reads (.new .spans) .spans (.start request.budget chain) =
    .ok (spanViews, parts.spansGroup, walk₁)
  logs : walkPages reads (.new .logRecords) .relatedLogs (walk₁.count parts.waterfall.length) =
    .ok (logViews, parts.logsGroup, walk₂)
  points : walkPages reads (.new .metricPoints) .surroundingMetrics walk₃ =
    .ok (pointViews, parts.pointsGroup, walk₄)
  first : (WalkState.start request.budget chain).Onward (walk₁.count parts.waterfall.length)
  second : (walk₁.count parts.waterfall.length).Onward walk₂
  named : walk₂.Onward walk₃ ∧ walk₃.pages = walk₂.pages ∧ walk₃.stopped = walk₂.stopped
  third : walk₃.Onward walk₄
  last : parts.walk.pages = walk₄.pages ∧ parts.walk.stopped = walk₄.stopped
  selections : ∀ logs points, selectionsOf request root spanViews logs points =
    (parts.waterfall.length + (selectLogs parts.relatesTo (logViewsOf logs)).length,
      (selectPoints parts.relatesTo parts.asked (pointViewsOf points)).length)
  waterfall : (walk₁.count parts.waterfall.length).entities =
    saturatingAdd 0 parts.waterfall.length
  related : walk₃.entities = saturatingAdd (saturatingAdd 0 parts.waterfall.length)
    (selectLogs parts.relatesTo (logViewsOf logViews)).length
  surrounding : parts.walk.entities = saturatingAdd walk₃.entities
    (selectPoints parts.relatesTo parts.asked (pointViewsOf pointViews)).length

theorem walkParts_counted {fuel : Nat} {reads : FlowReads} {request : TraceInvestigationRequest}
    {chain : ChainBudget} {root : Arc Span} {parts : FlowParts}
    (h : walkParts fuel reads request chain root = some (.ok parts)) :
    ∃ spanViews logViews pointViews walk₁ walk₂ walk₃ walk₄,
      CountedWalks reads request chain root parts spanViews logViews pointViews walk₁ walk₂ walk₃
        walk₄ := by
  obtain ⟨hrelates, spanViews, logViews, pointViews, walk₁, walk₂, walk₃, walk₄, hspans, heffective,
    hwaterfall, hlogs, hrelated, hpoints, hsurrounding⟩ := walkParts_eq_ok h
  obtain ⟨hspans₁, hentities₁⟩ := walkPages_onward hspans
  obtain ⟨hlogs₂, hentities₂⟩ := walkPages_onward hlogs
  obtain ⟨hpoints₄, hentities₄⟩ := walkPages_onward hpoints
  obtain ⟨hlogs₃, hpages₃, hstopped₃, hentities₃⟩ := relatedLogs_counts hrelated
  obtain ⟨hpages₅, hstopped₅, hentities₅⟩ := surroundingMetrics_counts hsurrounding
  have hcount₁ : (walk₁.count parts.waterfall.length).entities =
      saturatingAdd 0 parts.waterfall.length := by
    rw [WalkState.count, hentities₁]
    rfl
  refine ⟨spanViews, logViews, pointViews, walk₁, walk₂, walk₃, walk₄, hspans, hlogs, hpoints,
    hspans₁.trans (.count walk₁ _), hlogs₂, ⟨hlogs₃, hpages₃, hstopped₃⟩, hpoints₄,
    ⟨hpages₅, hstopped₅⟩, fun logs points => ?_, hcount₁, ?_, ?_⟩
  · rw [FlowParts.asked, hwaterfall, heffective, hrelates]
    rfl
  · rw [hentities₃, hentities₂, hcount₁]
  · rw [hentities₅, hentities₄]

namespace CountedWalks

variable {reads : FlowReads} {request : TraceInvestigationRequest} {chain : ChainBudget}
  {root : Arc Span} {parts : FlowParts} {spanViews logViews pointViews : List RecordView}
  {walk₁ walk₂ walk₃ walk₄ : WalkState}

/-- The pages run are within their ceiling. -/
theorem pages (h : CountedWalks reads request chain root parts spanViews logViews pointViews walk₁
    walk₂ walk₃ walk₄) : parts.walk.pages ≤ chain.maxTotalPages :=
  h.last.1 ▸ (((h.first.trans h.second).trans h.named.1).trans h.third).pages (Nat.zero_le _)

/-- What the walks count goes past the ceiling with the points alone where their selections do: below
the ceiling no count saturates. -/
theorem past_iff (h : CountedWalks reads request chain root parts spanViews logViews pointViews
    walk₁ walk₂ walk₃ walk₄) :
    let selections := selectionsOf request root spanViews logViews pointViews
    walk₃.entities < chain.maxTotalEntities ∧ chain.maxTotalEntities < parts.walk.entities ↔
      selections.1 < chain.maxTotalEntities ∧
        chain.maxTotalEntities < selections.1 + selections.2 ∧ chain.maxTotalEntities < u64Max := by
  intro selections
  rw [show selections = _ from h.selections logViews pointViews, h.surrounding, h.related]
  exact saturatingAdd_past_iff

/-- Walks that end unstopped and past the ceiling have run the pages of the three kinds to their
end. -/
theorem overshoots (h : CountedWalks reads request chain root parts spanViews logViews pointViews
    walk₁ walk₂ walk₃ walk₄) (hnone : parts.walk.stopped = none)
    (hover : chain.maxTotalEntities < parts.walk.entities) :
    Overshoots reads request chain root := by
  have honward₃ := (h.first.trans h.second).trans h.named.1
  have hnone₄ : walk₄.stopped = none := h.last.2 ▸ hnone
  have hnone₂ := h.named.1.unstopped (h.third.unstopped hnone₄)
  have hnone₁ : walk₁.stopped = none := h.second.unstopped hnone₂
  obtain ⟨s, hspans, hpages₁, -, -⟩ := walkPages_ran h.spans hnone₁
  obtain ⟨l, hlogs, hpages₂, -, -⟩ := walkPages_ran h.logs hnone₂
  obtain ⟨p, hpoints, hpages₄, hfit, hroom⟩ := walkPages_ran h.points hnone₄
  have hsecond : (walk₁.count parts.waterfall.length).pages = s := hpages₁.trans (Nat.zero_add s)
  have hthird : walk₃.pages = s + l := by rw [h.named.2.1, hpages₂, hsecond]
  rw [h.first.budget, hsecond] at hlogs
  rw [honward₃.budget, hthird] at hpoints
  rw [honward₃.chain] at hfit hroom
  rw [hpages₄, hthird] at hfit
  obtain ⟨hbefore, hafter, hcounted⟩ := h.past_iff.mp ⟨hroom, hover⟩
  exact ⟨s, l, p, spanViews, logViews, pointViews, hspans, hlogs, hpoints, hfit, hbefore, hafter,
    hcounted⟩

/-- Where the pages of the three kinds overshoot the ceiling, the walks run them all, and end unstopped
and past it. -/
theorem unseen (h : CountedWalks reads request chain root parts spanViews logViews pointViews walk₁
    walk₂ walk₃ walk₄) (hover : Overshoots reads request chain root) :
    parts.walk.stopped = none ∧ chain.maxTotalEntities < parts.walk.entities := by
  obtain ⟨s, l, p, spanViews', logViews', pointViews', hspans, hlogs, hpoints, hunseen⟩ := hover
  obtain ⟨hfit, hbefore, hafter, hcounted⟩ := hunseen
  have honward₃ := (h.first.trans h.second).trans h.named.1
  obtain ⟨rfl, hpages₁, hnone₁⟩ := walkPages_runs h.spans hspans
    (show 0 + s ≤ chain.maxTotalPages by omega) (Nat.zero_lt_of_lt hbefore)
  have hsecond : (walk₁.count parts.waterfall.length).pages = s := hpages₁.trans (Nat.zero_add s)
  have hbudget₁ : (walk₁.count parts.waterfall.length).budget = request.budget := h.first.budget
  have hbudget₃ : walk₃.budget = request.budget := honward₃.budget
  rw [← hsecond, ← hbudget₁] at hlogs
  have hwaterfall : (walk₁.count parts.waterfall.length).entities < chain.maxTotalEntities := by
    rw [h.selections] at hbefore
    rw [h.waterfall]
    exact (min_le_left _ _).trans_lt (by omega)
  obtain ⟨rfl, hpages₂, hnone₂⟩ := walkPages_runs h.logs hlogs
    (by rw [h.first.chain, hsecond]; exact le_trans (Nat.le_add_right _ p) hfit)
    (by rw [h.first.chain]; exact hwaterfall)
  have hthird : walk₃.pages = s + l := by rw [h.named.2.1, hpages₂, hsecond]
  rw [← hthird, ← hbudget₃] at hpoints
  have hrelated : walk₃.entities < chain.maxTotalEntities := by
    rw [h.selections] at hbefore
    rw [h.related]
    exact (saturatingAdd_le_add _ _).trans_lt hbefore
  obtain ⟨rfl, -, hnone₄⟩ := walkPages_runs h.points hpoints
    (by rw [honward₃.chain, hthird]; exact hfit) (by rw [honward₃.chain]; exact hrelated)
  refine ⟨?_, (h.past_iff.mpr ⟨hbefore, hafter, hcounted⟩).2⟩
  rw [h.last.2, hnone₄, h.named.2.2, hnone₂]
  exact hnone₁

end CountedWalks

/-! ## The law -/

/-- No chain ceiling is exceeded silently: entities past theirs are reported as a stop, and pages are
never past theirs. -/
structure ChainLimits.Reported (limits : ChainLimits) : Prop where
  entities : limits.maxTotalEntities < limits.totalEntities →
    limits.stopped = some .totalEntities ∨ limits.stopped = some .totalPages
  pages : limits.totalPages ≤ limits.maxTotalPages

instance (limits : ChainLimits) : Decidable limits.Reported :=
  decidable_of_iff ((limits.maxTotalEntities < limits.totalEntities →
      limits.stopped = some .totalEntities ∨ limits.stopped = some .totalPages) ∧
    limits.totalPages ≤ limits.maxTotalPages) ⟨fun h => ⟨h.1, h.2⟩, fun h => ⟨h.1, h.2⟩⟩

/-- An envelope's count of entities is silent where it is past the ceiling with no stop. -/
theorem ChainLimits.reported_iff {limits : ChainLimits}
    (hpages : limits.totalPages ≤ limits.maxTotalPages) : limits.Reported ↔
      ¬ (limits.stopped = none ∧ limits.maxTotalEntities < limits.totalEntities) := by
  constructor
  · rintro ⟨hentities, -⟩ ⟨hnone, hpast⟩
    rcases hentities hpast with hsome | hsome <;> rw [hnone] at hsome <;> cases hsome
  · intro hsilent
    refine ⟨fun hpast => ?_, hpages⟩
    rcases hstopped : limits.stopped with _ | (_ | _)
    · exact absurd ⟨hstopped, hpast⟩ hsilent
    · simp
    · simp

/-- The pages a budget makes of the residents of the three kinds go past the entities ceiling
unseen. -/
def Residency.Overshoots (residency : Residency) (request : TraceInvestigationRequest)
    (chain : ChainBudget) (root : Arc Span) : Prop :=
  let pages := fun kind => request.budget.perPage.pagesOf (residency.yields kind)
  let views := fun kind => (pages kind).2.map Yield.record
  chain.Unseen ((pages .spans).1 + (pages .logRecords).1 + (pages .metricPoints).1)
    (selectionsOf request root (views .spans) (views .logRecords) (views .metricPoints))

instance (residency : Residency) (request : TraceInvestigationRequest) (chain : ChainBudget)
    (root : Arc Span) : Decidable (residency.Overshoots request chain root) :=
  inferInstanceAs (Decidable (chain.Unseen _ _))

/-- Over a fixed store the pages to their end are those of its residents. -/
theorem FixedStore.overshoots_iff (store : FixedStore) {clocks : Nat → Clock}
    {request : TraceInvestigationRequest} {chain : ChainBudget} {root : Arc Span}
    (hwords : store.residency.Words) (hpositive : request.budget.perPage.Positive)
    (hlive : ∀ k n, clocks k n - clocks k 0 < request.budget.deadline) :
    Overshoots (store.reads clocks) request chain root ↔
      store.residency.Overshoots request chain root := by
  have hpages : ∀ kind k, PagesOut (store.reads clocks) (.new kind) request.budget.perPage k none
      (request.budget.perPage.pagesOf (store.residency.yields kind)).1
      ((request.budget.perPage.pagesOf (store.residency.yields kind)).2.map Yield.record) := by
    intro kind k
    have hown : (RecordsQuery.new kind).kind = kind := by cases kind <;> rfl
    have hout := @FixedStore.pagesOut store clocks (.new kind) request.budget.perPage
      (RecordsQuery.new_matchesView kind) hpositive hlive (by rw [hown]; exact hwords kind) k
    rwa [hown] at hout
  constructor
  · rintro ⟨s, l, p, spanViews, logViews, pointViews, hspans, hlogs, hpoints, hunseen⟩
    obtain ⟨rfl, rfl⟩ := hspans.unique (hpages .spans _)
    obtain ⟨rfl, rfl⟩ := hlogs.unique (hpages .logRecords _)
    obtain ⟨rfl, rfl⟩ := hpoints.unique (hpages .metricPoints _)
    exact hunseen
  · intro hunseen
    exact ⟨_, _, _, _, _, _, hpages .spans 0, hpages .logRecords _, hpages .metricPoints _, hunseen⟩

/-- **When a chain ceiling is not exceeded silently.**  For every sequence of stores, every clock,
request and chain budget: unless the pages of the three kinds, each to its end, fit the pages ceiling
and take the entities past theirs with the points alone.  Over a fixed store those are the pages that
the budget of a page makes of the residents. -/
theorem chain_reported_iff {fuel : Nat} {reads : FlowReads}
    {correlate : CorrelationBounds → CorrelationOutcome} {request : TraceInvestigationRequest}
    {chain : ChainBudget} {root : Arc Span} {envelope : Investigation}
    (hroot : reads.span request.rootSpan = some root)
    (h : investigateTraceBounded fuel reads correlate request chain = some (.ok envelope)) :
    (envelope.limits.chain.Reported ↔ ¬ Overshoots reads request chain root) ∧
      ∀ (store : FixedStore) (clocks : Nat → Clock), reads = store.reads clocks →
        store.residency.Words → request.budget.perPage.Positive →
        (∀ k n, clocks k n - clocks k 0 < request.budget.deadline) →
        (envelope.limits.chain.Reported ↔ ¬ store.residency.Overshoots request chain root) := by
  obtain ⟨resident, parts, hresident, hwalked, rfl⟩ := investigateTraceBounded_eq_ok h
  obtain rfl := Option.some.inj (hroot.symm.trans hresident)
  obtain ⟨spanViews, logViews, pointViews, walk₁, walk₂, walk₃, walk₄, hcounted⟩ :=
    walkParts_counted hwalked
  have hreported : (compose reads correlate request chain parts).limits.chain.Reported ↔
      ¬ Overshoots reads request chain root :=
    (ChainLimits.reported_iff hcounted.pages).trans
      (not_congr ⟨fun hsilent => hcounted.overshoots hsilent.1 hsilent.2, hcounted.unseen⟩)
  refine ⟨hreported, ?_⟩
  rintro store clocks rfl hwords hpositive hlive
  exact hreported.trans (not_congr (store.overshoots_iff hwords hpositive hlive))

/-- A memory store that has kept the root span of a trace, and so many points inside its extent. -/
def surroundedRoot (n : Nat) : FixedStore :=
  (InMemoryStore.coherent_of_reaches (@InMemoryStore.reaches_run InMemoryStore.anyOp
    (fun _ _ => trivial)
    (.keepSpan ⟨.span (.ofByte 1) (.ofByte 1), ⟨0⟩, ⟨1000, .bare 1 1⟩⟩ ::
      (List.range n).map fun i =>
        .keepMetricPoint ⟨.serial (i + 1), ⟨i + 1⟩, ⟨i, MetricPoint.bare 15⟩⟩ (.bare "m" none))
    (InMemoryStore.new ⟨1000, 1000000, 1000, 5⟩ true))).fixedStore

/-- The envelope of an investigation of the root under a ceiling of so many entities. -/
def surroundedEnvelope (n maxTotalEntities : Nat) : Option Investigation :=
  match investigateTraceBounded 2 ((surroundedRoot n).reads fun _ => still)
      (fun _ => traceIdentityOnly) (tracedRequest 100) ⟨16, maxTotalEntities, 100⟩ with
  | some (.ok envelope) => some envelope
  | _ => none

theorem investigate_surrounded {n maxTotalEntities : Nat} {envelope : Investigation}
    (h : surroundedEnvelope n maxTotalEntities = some envelope) :
    investigateTraceBounded 2 ((surroundedRoot n).reads fun _ => still)
      (fun _ => traceIdentityOnly) (tracedRequest 100) ⟨16, maxTotalEntities, 100⟩ =
        some (.ok envelope) := by
  unfold surroundedEnvelope at h
  split at h
  · rename_i hrun
    rw [hrun, Option.some.inj h]
  · exact absurd h (by simp)

/-- One point under a ceiling of two entities: the pages of the kinds do not overshoot it, so nothing
is exceeded silently. -/
theorem chain_reported_iff_fitting : ∃ envelope,
    surroundedEnvelope 1 2 = some envelope ∧ envelope.limits.chain.Reported := by
  obtain ⟨root, hroot, hfits⟩ : ∃ root, ((surroundedRoot 1).reads fun _ => still).span
      (tracedRequest 100).rootSpan = some root ∧
        decide (¬ (surroundedRoot 1).residency.Overshoots (tracedRequest 100) ⟨16, 2, 100⟩ root) =
          true :=
    (Option.any_eq_true _ _).mp (by decide +kernel)
  obtain ⟨envelope, h⟩ : ∃ envelope, surroundedEnvelope 1 2 = some envelope :=
    Option.isSome_iff_exists.mp (by decide +kernel)
  have hiff := (@chain_reported_iff 2 ((surroundedRoot 1).reads fun _ => still)
    (fun _ => traceIdentityOnly) (tracedRequest 100) ⟨16, 2, 100⟩ root envelope hroot
    (investigate_surrounded h)).2 (surroundedRoot 1) (fun _ => still) rfl (by decide +kernel)
      ⟨by decide, by decide, by decide⟩ fun _ _ => Nat.zero_lt_one
  exact ⟨envelope, h, hiff.mpr (of_decide_eq_true hfits)⟩

/-- Three points under a ceiling of two entities: four entities, and no stop reported. -/
theorem not_chain_reported : ¬ ∀ (fuel : Nat) (reads : FlowReads)
    (correlate : CorrelationBounds → CorrelationOutcome) (request : TraceInvestigationRequest)
    (chain : ChainBudget) (envelope : Investigation), chain.Positive →
    investigateTraceBounded fuel reads correlate request chain = some (.ok envelope) →
      envelope.limits.chain.Reported := by
  intro hclaim
  obtain ⟨envelope, h, hsilent⟩ : ∃ envelope, surroundedEnvelope 3 2 = some envelope ∧
      decide (¬ envelope.limits.chain.Reported) = true :=
    (Option.any_eq_true _ _).mp (by decide +kernel)
  exact of_decide_eq_true hsilent (hclaim 2 _ _ _ _ envelope ⟨by decide, by decide, by decide⟩
    (investigate_surrounded h))

end RuntimeTrail
