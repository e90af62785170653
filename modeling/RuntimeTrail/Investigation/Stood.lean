import RuntimeTrail.Investigation.Gathered

/-!
# Where the views of an envelope stood

An envelope's views are gathered from many residencies, and their names from others
again.  Where an address is one record's throughout, each view is still a record
that stood in the run, under the very id the view carries.

* **the addresses** — `AddressesApart`: what an address means over a run;
* **the names** — `stands_of_named`: a recovered name is the id its record stood under;
* **the views** — `evidence_stands`.
-/

namespace RuntimeTrail

/-- Records at one address are one record, and stand under one entity id. -/
def AddressesApart (run : Residency → Prop) : Prop :=
  ∀ {kind kind' entity entity' record record'}, Stands run kind entity record →
    Stands run kind' entity' record' → record.addr = record'.addr →
      entity = entity' ∧ record = record'

/-- Some record at the address stood under the entity id. -/
def StoodAt (run : Residency → Prop) (kind : SignalKind) (addr : Nat) (entity : EntityId) : Prop :=
  ∃ record, Stands run kind entity record ∧ record.addr = addr

section Stood

variable {run : Residency → Prop} {reads : FlowReads}

/-! ## The names -/

theorem mem_namedOf {α : Type} {selected : List α} {names : List (Option EntityId)}
    {p : α × EntityId} (h : p ∈ namedOf selected names) :
    ∃ i : Nat, selected[i]? = some p.1 ∧ names[i]? = some (some p.2) := by
  obtain ⟨⟨a, name⟩, hzip, hname⟩ := List.mem_filterMap.mp h
  obtain ⟨entity, rfl, rfl⟩ := Option.map_eq_some_iff.mp hname
  obtain ⟨i, hi⟩ := List.mem_iff_getElem?.mp hzip
  obtain ⟨hselected, hnames⟩ := List.getElem?_zip_eq_some.mp hi
  exact ⟨i, hselected, hnames⟩

/-- **A recovered name is the id its record stood under.**  The scan that named it met a record at
the address it was selected at, which is the selected record itself. -/
theorem stands_of_named (hapart : AddressesApart run) {kind kind' : SignalKind} {α : Type}
    {view : α → RecordView} {selected : List α} {names : List (Option EntityId)}
    (hselected : ∀ a ∈ selected, ∃ entity, Stands run kind' entity (view a))
    (hscanned : Naming.Scanned (StoodAt run kind) (selected.map fun a => (view a).addr) names)
    (hlength : names.length = selected.length) :
    ∀ p ∈ namedOf selected names, Stands run kind p.2 (view p.1) := by
  intro p hp
  obtain ⟨i, hrecord, hname⟩ := mem_namedOf hp
  obtain ⟨addr, ⟨record, hstands, rfl⟩, hi⟩ := hscanned i p.2 hname
  have hlt : i < (selected.map fun a => (view a).addr).length := by
    rw [List.length_map, ← hlength]
    exact (List.getElem?_eq_some_iff.mp hname).1
  have haddr : (selected.map fun a => (view a).addr)[i]? = some record.addr := by
    subst hi
    rw [List.getElem?_eq_getElem hlt, List.getElem_idxOf]
  rw [List.getElem?_map, hrecord, Option.map_some] at haddr
  obtain ⟨entity, hwalked⟩ := hselected p.1 (List.mem_of_getElem? hrecord)
  obtain ⟨-, rfl⟩ := hapart hstands hwalked (Option.some.inj haddr).symm
  exact hstands

/-- The selected log records of the trace stood. -/
theorem relatedLogs_stand (hover : reads.Over run) (hapart : AddressesApart run) {fuel : Nat}
    {views : List RecordView}
    (hviews : ∀ record ∈ views, ∃ entity, Stands run .logRecords entity record)
    {relatesTo : Option TraceId} {walk walk' : WalkState} {logs : List LogEvidence} {holes : Nat}
    (h : relatedLogs fuel reads views relatesTo walk = some (logs, holes, walk')) :
    ∀ view ∈ logs, ∃ entity, view.entity = some entity ∧
      Stands run .logRecords entity (.logRecord view.log) := by
  unfold relatedLogs at h
  dsimp only at h
  split at h
  · cases h
  · rename_i names walk₁ hnames
    simp only [Option.some.injEq, Prod.mk.injEq] at h
    obtain ⟨rfl, -, -⟩ := h
    have hlength := (nameIdentities_frame hnames).1
    rw [List.length_map] at hlength
    have hscan : ∀ call after limit,
        ∀ item ∈ ((reads.naming call).scanLogRecords after limit).items,
          StoodAt run .logRecords item.record.addr item.key.entity := by
      intro call after limit item hitem
      obtain ⟨residency, hrun, hserves⟩ := hover.naming call
      have hmem := hserves.scanLogRecords.mem_items hitem
      exact ⟨.logRecord item.record, ⟨residency, hrun, _, List.mem_map_of_mem hmem, rfl, rfl⟩, rfl⟩
    obtain ⟨hscanned, -⟩ := nameIdentities_scanned hscan hnames
    have hselected : ∀ log ∈ selectLogs relatesTo (logViewsOf views),
        ∃ entity, Stands run .logRecords entity (.logRecord log) := by
      intro log hlog
      cases relatesTo with
      | none => cases hlog
      | some trace =>
        obtain ⟨view, hview, hpick⟩ := List.mem_filterMap.mp (List.mem_filter.mp hlog).1
        cases view with
        | logRecord record => exact Option.some.inj hpick ▸ hviews _ hview
        | _ => cases hpick
    intro view hview
    obtain ⟨p, hp, rfl⟩ := List.mem_map.mp hview
    exact ⟨p.2, rfl, @stands_of_named run hapart .logRecords .logRecords (Arc LogRecord) .logRecord
      _ _ hselected hscanned hlength p hp⟩

/-- The selected points of the window stood. -/
theorem surroundingMetrics_stand (hover : reads.Over run) (hapart : AddressesApart run) {fuel : Nat}
    {views : List RecordView}
    (hviews : ∀ record ∈ views, ∃ entity, Stands run .metricPoints entity record)
    {asked resident : TimeWindow} {relatesTo : Option TraceId} {walk walk' : WalkState}
    {points : List PointEvidence} {holes : Nat}
    (h : surroundingMetrics fuel reads views asked relatesTo walk =
      some (points, holes, resident, walk')) :
    ∀ view ∈ points, ∃ entity, view.entity = some entity ∧
      Stands run .metricPoints entity (.metricPoint view.point view.stream) := by
  unfold surroundingMetrics at h
  dsimp only at h
  split at h
  · cases h
  · rename_i names walk₁ hnames
    simp only [Option.some.injEq, Prod.mk.injEq] at h
    obtain ⟨rfl, -, -, -⟩ := h
    have hlength := (nameIdentities_frame hnames).1
    rw [List.length_map, List.length_map] at hlength
    have hscan : ∀ call after limit,
        ∀ item ∈ ((reads.naming call).scanMetricPoints after limit).items,
          StoodAt run .metricPoints item.record.point.addr item.key.entity := by
      intro call after limit item hitem
      obtain ⟨residency, hrun, hserves⟩ := hover.naming call
      have hmem := hserves.scanMetricPoints.mem_items hitem
      exact ⟨.metricPoint item.record.point item.record.stream,
        ⟨residency, hrun, _, List.mem_map_of_mem hmem, rfl, rfl⟩, rfl⟩
    obtain ⟨hscanned, -⟩ := nameIdentities_scanned hscan hnames
    rw [List.map_map] at hscanned
    have hselected : ∀ point ∈ selectPoints relatesTo asked (pointViewsOf views),
        ∃ entity, Stands run .metricPoints entity (.metricPoint point.point point.stream) := by
      intro point hpoint
      cases relatesTo with
      | none => cases hpoint
      | some trace =>
        obtain ⟨view, hview, hpick⟩ := List.mem_filterMap.mp (List.mem_filter.mp hpoint).1
        cases view with
        | metricPoint record stream => exact Option.some.inj hpick ▸ hviews _ hview
        | _ => cases hpick
    intro view hview
    obtain ⟨p, hp, rfl⟩ := List.mem_map.mp hview
    exact ⟨p.2, rfl, @stands_of_named run hapart .metricPoints .metricPoints PointView
      (fun view => .metricPoint view.point view.stream) _ _ hselected hscanned hlength p hp⟩

/-! ## The views -/

/-- The spans of the waterfall stood, each under the id its view carries: its natural identity, or
for a subject that has none the id it was asked for by. -/
theorem spanEvidence_stand (hunique : UniqueIdentities run) {root : Arc Span} {requested : EntityId}
    {spans : List (Arc Span)} (hroot : Stands run .spans requested (.span root))
    (hspans : ∀ span ∈ spans, ∃ entity, Stands run .spans entity (.span span)) :
    let effective := resolveSubject root requested spans
    ∀ view ∈ spanEvidence (waterfall spans effective root) effective, ∃ entity,
      view.entity = some entity ∧ Stands run .spans entity (.span view.span) := by
  intro effective view hview
  obtain ⟨span, hspan, rfl⟩ := List.mem_map.mp hview
  have hnamed : ∀ entity identity, Stands run .spans entity (.span span) →
      span.val.naturalIdentity = some identity →
        Stands run .spans (.span identity.1 identity.2) (.span span) := by
    intro entity identity hstands hidentity
    exact hunique.natural hstands hidentity ▸ hstands
  cases hidentity : span.val.naturalIdentity with
  | some identity =>
    obtain ⟨trace, id⟩ := identity
    refine ⟨.span trace id, rfl, ?_⟩
    rcases waterfall_cases spans effective root with ⟨-, hmembers⟩ | ⟨-, halone⟩
    · obtain ⟨entity, hstands⟩ := hspans span (hmembers.within span hspan).1
      exact hnamed entity _ hstands hidentity
    · obtain rfl := List.mem_singleton.mp (halone ▸ hspan)
      exact hnamed requested _ hroot hidentity
  | none =>
    refine ⟨effective.root.entity, rfl, ?_⟩
    rcases waterfall_cases spans effective root with ⟨-, hmembers⟩ | ⟨-, halone⟩
    · -- a member of the trace has an identity
      obtain ⟨-, id, hid⟩ := hmembers.within span hspan
      rw [Span.memberOf_eq_some_iff.mp hid] at hidentity
      cases hidentity
    · obtain rfl := List.mem_singleton.mp (halone ▸ hspan)
      have heffective : effective.root.entity = requested := by
        show (resolveSubject span requested spans).root.entity = requested
        unfold resolveSubject
        rw [hidentity]
      rw [heffective]
      exact hroot

/-- Each view carries an id its record stood under. -/
structure EvidenceStands (run : Residency → Prop) (evidence : Evidence) : Prop where
  spans : ∀ view ∈ evidence.spans, ∃ entity, view.entity = some entity ∧
    Stands run .spans entity (.span view.span)
  logs : ∀ view ∈ evidence.logs, ∃ entity, view.entity = some entity ∧
    Stands run .logRecords entity (.logRecord view.log)
  points : ∀ view ∈ evidence.points, ∃ entity, view.entity = some entity ∧
    Stands run .metricPoints entity (.metricPoint view.point view.stream)

/-- **The evidence stood**, each view under its own id, whatever happened to the store between the
calls that gathered it. -/
theorem evidence_stands (hover : reads.Over run) (hunique : UniqueIdentities run)
    (hapart : AddressesApart run) {fuel : Nat} {request : TraceInvestigationRequest}
    {chain : ChainBudget} {root : Arc Span} (hroot : reads.span request.rootSpan = some root)
    {parts : FlowParts} (h : walkParts fuel reads request chain root = some (.ok parts)) :
    EvidenceStands run parts.evidence := by
  obtain ⟨-, spanViews, logViews, pointViews, walk₁, walk₂, walk₃, walk₄, hspanWalk, heffective,
    hwaterfall, hlogWalk, hrelated, hpointWalk, hsurrounding⟩ := walkParts_eq_ok h
  obtain ⟨-, hspans⟩ := walkPages_gathered hover hspanWalk
  obtain ⟨-, hlogs⟩ := walkPages_gathered hover hlogWalk
  obtain ⟨-, hpoints⟩ := walkPages_gathered hover hpointWalk
  have hwalked : ∀ span ∈ spanViewsOf spanViews, ∃ entity,
      Stands run .spans entity (.span span) := by
    intro span hspan
    obtain ⟨view, hview, hpick⟩ := List.mem_filterMap.mp hspan
    cases view with
    | span record => exact Option.some.inj hpick ▸ hspans.stand _ hview
    | _ => cases hpick
  refine ⟨?_, relatedLogs_stand hover hapart hlogs.stand hrelated,
    surroundingMetrics_stand hover hapart hpoints.stand hsurrounding⟩
  have hviews := spanEvidence_stand hunique (hover.span _ _ hroot) hwalked
  dsimp only at hviews
  rwa [← heffective, ← hwaterfall] at hviews

end Stood

end RuntimeTrail
