import RuntimeTrail.Correlation.Guards
import RuntimeTrail.Investigation.Completeness
import RuntimeTrail.Investigation.Honesty
import RuntimeTrail.Query.Sources

/-!
# An envelope gathered from a store that moves

The parts of an envelope are read at different moments: the subject, three paged
walks, the recovery of names, the correlation run.  Keeps and evictions may fall
between any two of these calls, so each of them is answered from a residency of
its own.

* **the run** — `FlowReads.Over` and `UniqueIdentities`: the residencies a flow is
  answered from, and what an entity id means across them;
* **the walks** — `walkPagesFrom_gathered`: every walked record stood at a call,
  and every page is a recorded run;
* **the names** — `Naming.Scanned`: a name is the id its record was scanned under,
  so no two selected records are named alike;
* **the envelope** — `investigation_honest`.
-/

namespace RuntimeTrail

open Library

/-! ## The run -/

/-- A record of the kind stood under the entity id in some residency of the run. -/
def Stands (run : Residency → Prop) (kind : SignalKind) (entity : EntityId) (record : RecordView) :
    Prop :=
  ∃ residency, run residency ∧ ∃ y ∈ residency.yields kind, y.key.entity = entity ∧
    y.record = record

/-- Each call of the flow is answered from a residency of the run; what the flow looked up it holds,
so that its address is no other record's. -/
structure FlowReads.Over (reads : FlowReads) (run : Residency → Prop) : Prop where
  span : ∀ entity root, reads.span entity = some root → Stands run .spans entity (.span root)
  held : ∀ entity root, reads.span entity = some root → ∀ other span,
    Stands run .spans other (.span span) → span.ptrEq root = true → span = root
  pages : ∀ page call, ∃ residency, run residency ∧ (reads.pages page call).Serves residency
  naming : ∀ scan, ∃ residency, run residency ∧ (reads.naming scan).Serves residency

/-- What an entity id means over a run: a record of one kind, for a span with a natural identity that
identity, for a log record or a point the one record it was assigned to. -/
structure UniqueIdentities (run : Residency → Prop) : Prop where
  kinds : ∀ {kind kind' entity record record'}, Stands run kind entity record →
    Stands run kind' entity record' → kind = kind'
  natural : ∀ {entity span trace id}, Stands run .spans entity (.span span) →
    span.val.naturalIdentity = some (trace, id) → entity = .span trace id
  logs : ∀ {entity a b}, Stands run .logRecords entity (.logRecord a) →
    Stands run .logRecords entity (.logRecord b) → a.addr = b.addr
  points : ∀ {entity a b s t}, Stands run .metricPoints entity (.metricPoint a s) →
    Stands run .metricPoints entity (.metricPoint b t) → a.addr = b.addr

section Run

variable {run : Residency → Prop} {reads : FlowReads}

/-! ## The walks -/

/-- Every record of a page stood in the residency of one of its calls. -/
theorem records_stand {stores : Nat → TelemetryStore}
    (hserves : ∀ call, ∃ residency, run residency ∧ (stores call).Serves residency)
    {query : RecordsQuery} {budget : QueryBudget} {clock : Clock} {cursor : Option (List UInt8)}
    {page : Page RecordView} (h : records stores query budget clock cursor = .ok page) :
    ∀ record ∈ page.items, ∃ entity, Stands run query.kind entity record := by
  obtain ⟨presented, -, rfl⟩ := recordsInner_eq_ok h
  intro record hrecord
  unfold answer at hrecord
  dsimp only at hrecord
  split at hrecord
  · exact absurd hrecord (by simp [emptyPage])
  · choose residency hrun hserve using hserves
    have hscans : (walkInput stores query clock presented).ScansEach
        fun call => (residency call).yields query.kind :=
      fun call after limit => (hserve call).pull query.kind after limit
    obtain ⟨call, y, hy, hrecord, -⟩ := items_drawn hscans _ record hrecord
    exact ⟨y.key.entity, residency call, hrun call, y, hy, rfl, hrecord⟩

/-- **What a walk gathers**: records that stood at its calls, a recorded run for each page, and at
least one page while no ceiling was reached. -/
theorem walkPagesFrom_gathered (hover : reads.Over run) {query : RecordsQuery} {left : Nat}
    {walk walk' : WalkState} {cursor : Option (List UInt8)} {items : List RecordView}
    {runs : List RunFacts}
    (h : walkPagesFrom reads query left walk cursor = .ok (items, runs, walk')) :
    (∀ record ∈ items, ∃ entity, Stands run query.kind entity record) ∧
      walk'.pages = walk.pages + runs.length ∧ walk'.entities = walk.entities ∧
      walk'.chain = walk.chain ∧
      (left ≠ 0 → walk.entities < walk.chain.maxTotalEntities → runs ≠ []) := by
  replace h := walksPages_of_ok h
  induction h with
  | stopped spent =>
    refine ⟨fun record hrecord => absurd hrecord (by simp), rfl, rfl, rfl, fun hleft hroom => ?_⟩
    rcases spent with hzero | hspent
    · exact absurd hzero hleft
    · exact absurd hroom (Nat.not_lt.mpr hspent)
  | ended answered =>
    exact ⟨records_stand (hover.pages _) answered, rfl, rfl, rfl, fun _ _ => List.cons_ne_nil _ _⟩
  | onward answered mirrored room continues advances behind ih =>
    obtain ⟨hitems, hpages, hentities, hchain, -⟩ := ih
    refine ⟨fun record hrecord => ?_, ?_, hentities, hchain, fun _ _ => List.cons_ne_nil _ _⟩
    · rcases List.mem_append.mp hrecord with hrecord | hrecord
      · exact records_stand (hover.pages _) answered record hrecord
      · exact hitems record hrecord
    · rw [hpages]
      simp only [WalkState.paged, List.length_cons]
      omega

/-- What a part gathers. -/
structure Gathered (run : Residency → Prop) (kind : SignalKind) (walk walk' : WalkState)
    (items : List RecordView) (group : RunGroup) : Prop where
  stand : ∀ record ∈ items, ∃ entity, Stands run kind entity record
  pages : walk'.pages = walk.pages + group.runs.length
  entities : walk'.entities = walk.entities
  chain : walk'.chain = walk.chain
  ran : walk.pages < walk.chain.maxTotalPages → walk.entities < walk.chain.maxTotalEntities →
    group.runs ≠ []

theorem walkPages_gathered (hover : reads.Over run) {query : RecordsQuery} {part : PartName}
    {walk walk' : WalkState} {items : List RecordView} {group : RunGroup}
    (h : walkPages reads query part walk = .ok (items, group, walk')) :
    group.part = part ∧ Gathered run query.kind walk walk' items group := by
  obtain ⟨hfrom, hpart⟩ := walkPages_eq_ok h
  obtain ⟨hstand, hpages, hentities, hchain, hran⟩ := walkPagesFrom_gathered hover hfrom
  exact ⟨hpart, hstand, hpages, hentities, hchain, fun hroom => hran (by omega)⟩

/-! ## The names -/

namespace Naming

variable {R : Type} {stood : Nat → EntityId → Prop} {selected : List Nat} {addrOf : R → Nat}

/-- Every name found is an id its record's address was scanned under, at the record's first place in
the selection. -/
def Scanned (stood : Nat → EntityId → Prop) (selected : List Nat)
    (names : List (Option EntityId)) : Prop :=
  ∀ (i : Nat) (entity : EntityId), names[i]? = some (some entity) →
    ∃ addr, stood addr entity ∧ i = selected.idxOf addr

theorem Scanned.examined {n : Naming} (h : Scanned stood selected n.names) {addr : Nat}
    {entity : EntityId} (hstood : stood addr entity) :
    Scanned stood selected (n.examined selected addr entity).names := by
  unfold Naming.examined
  dsimp only
  split
  · intro i found hfound
    by_cases hi : selected.idxOf addr = i
    · rw [hi] at hfound
      obtain ⟨hlt, -⟩ := List.getElem?_eq_some_iff.mp hfound
      rw [List.length_set] at hlt
      rw [List.getElem?_set_self hlt] at hfound
      obtain rfl : entity = found := by simpa using hfound
      exact ⟨addr, hstood, hi.symm⟩
    · rw [List.getElem?_set_ne hi] at hfound
      exact h i found hfound
  · exact h

theorem Scanned.examinePage {ceiling : Nat} {items : List (ScanItem R)}
    (hitems : ∀ item ∈ items, stood (addrOf item.record) item.key.entity) {n : Naming}
    (h : Scanned stood selected n.names) :
    Scanned stood selected (Naming.examinePage ceiling selected addrOf n items).names := by
  induction items generalizing n with
  | nil => exact h
  | cons item rest ih =>
    rw [Naming.examinePage]
    split
    · exact h
    · exact ih (fun later hlater => hitems later (List.mem_cons_of_mem _ hlater))
        (h.examined (hitems item (List.mem_cons_self ..)))

theorem Scanned.recover {ceiling : Nat} {scan : Nat → Option AdmissionKey → Nat → ScanPage R}
    (hscan : ∀ call after limit, ∀ item ∈ (scan call after limit).items,
      stood (addrOf item.record) item.key.entity)
    {fuel : Nat} {after : Option AdmissionKey} {n n' : Naming}
    (h : Scanned stood selected n.names)
    (hrecover : Naming.recover ceiling selected addrOf scan fuel after n = some n') :
    Scanned stood selected n'.names := by
  induction fuel generalizing after n with
  | zero => exact absurd hrecover (by simp [Naming.recover])
  | succ fuel ih =>
    rw [Naming.recover] at hrecover
    split at hrecover
    · obtain rfl := Option.some.inj hrecover
      exact h
    · have hpage := @Scanned.examinePage R stood selected addrOf ceiling
        (scan n.scans after recoveryScanSlice).items (hscan _ _ _)
        { n with scans := n.scans + 1 } h
      dsimp only at hrecover
      split at hrecover
      · exact ih hpage hrecover
      · obtain rfl := Option.some.inj hrecover
        exact hpage

end Naming

/-- A recovery names records by the ids they were scanned under, and spends none of the walk's pages
or entities. -/
theorem nameIdentities_scanned {R : Type} {stood : Nat → EntityId → Prop} {fuel : Nat}
    {scan : Nat → Option AdmissionKey → Nat → ScanPage R} {addrOf : R → Nat} {selected : List Nat}
    (hscan : ∀ call after limit, ∀ item ∈ (scan call after limit).items,
      stood (addrOf item.record) item.key.entity)
    {walk walk' : WalkState} {names : List (Option EntityId)}
    (h : nameIdentities fuel scan addrOf selected walk = some (names, walk')) :
    Naming.Scanned stood selected names ∧ walk'.pages = walk.pages ∧
      walk'.entities = walk.entities ∧ walk'.chain = walk.chain := by
  unfold nameIdentities at h
  split at h
  · exact absurd h (by simp)
  · rename_i n hrecover
    obtain ⟨rfl, rfl⟩ := Prod.mk.inj (Option.some.inj h)
    refine ⟨Naming.Scanned.recover hscan ?_ hrecover, rfl, rfl, rfl⟩
    intro i entity hfound
    have hmem := List.mem_of_getElem? hfound
    exact absurd (List.eq_of_mem_replicate hmem) (by simp)

/-- A position's name is its own, when one id is scanned for one address only. -/
theorem Naming.Scanned.own {stood : Nat → EntityId → Prop} {selected : List Nat}
    {names : List (Option EntityId)} (h : Naming.Scanned stood selected names)
    (honce : ∀ {a b entity}, stood a entity → stood b entity → a = b) {i j : Nat}
    {entity : EntityId} (hi : names[i]? = some (some entity))
    (hj : names[j]? = some (some entity)) : i = j := by
  obtain ⟨a, ha, rfl⟩ := h i entity hi
  obtain ⟨b, hb, rfl⟩ := h j entity hj
  rw [honce ha hb]

/-- Names that no two positions share are named once. -/
theorem nodup_of_own {names : List (Option EntityId)}
    (h : ∀ {i j : Nat} {entity : EntityId}, names[i]? = some (some entity) →
      names[j]? = some (some entity) → i = j) : (names.filterMap id).Nodup := by
  induction names with
  | nil => exact List.nodup_nil
  | cons name rest ih =>
    have hrest : (rest.filterMap id).Nodup := by
      refine ih fun {i j entity} hi hj => ?_
      have hij : i + 1 = j + 1 := h (by simpa using hi) (by simpa using hj)
      exact Nat.succ.inj hij
    cases name with
    | none => exact hrest
    | some entity =>
      refine List.nodup_cons.mpr ⟨fun hmem => ?_, hrest⟩
      obtain ⟨name, hname, hid⟩ := List.mem_filterMap.mp hmem
      obtain rfl : name = some entity := hid
      obtain ⟨j, hj⟩ := List.mem_iff_getElem?.mp hname
      have hzero : 0 = j + 1 := @h 0 (j + 1) entity rfl (by simpa using hj)
      exact absurd hzero (by simp)

/-- The names of the named records are those of the selection. -/
theorem namedOf_names {α : Type} (selected : List α) (names : List (Option EntityId)) :
    ((namedOf selected names).map Prod.snd).Sublist (names.filterMap id) := by
  unfold namedOf
  induction selected generalizing names with
  | nil => exact List.nil_sublist _
  | cons record rest ih =>
    cases names with
    | nil => exact List.Sublist.refl _
    | cons name names =>
      cases name with
      | none => exact ih names
      | some entity => exact (ih names).cons_cons entity

/-- Every selected record is named, or counted as a hole. -/
theorem length_namedOf {α : Type} {selected : List α} {names : List (Option EntityId)}
    (h : names.length = selected.length) :
    (namedOf selected names).length + holesOf names = selected.length := by
  unfold namedOf
  induction selected generalizing names with
  | nil =>
    obtain rfl := List.eq_nil_of_length_eq_zero h
    rfl
  | cons record rest ih =>
    cases names with
    | nil => exact absurd h (by simp)
    | cons name names =>
      have hrest := ih (show names.length = rest.length by simpa using h)
      cases name with
      | none =>
        simp only [holesOf, List.zip_cons_cons, List.filterMap_cons, Option.map_none,
          List.countP_cons, Option.isNone_none, if_true, List.length_cons] at hrest ⊢
        omega
      | some entity =>
        simp only [holesOf, List.zip_cons_cons, List.filterMap_cons, Option.map_some,
          List.countP_cons, Option.isNone_some, Bool.false_eq_true, if_false,
          List.length_cons] at hrest ⊢
        omega

/-- **What a recovery comes to**: the selected records named, each by an id of its kind that no other
carries, the rest counted. -/
theorem named_once {stood : Nat → EntityId → Prop} {α : Type} {selected : List α}
    {addresses : List Nat} {names : List (Option EntityId)}
    (hlength : names.length = selected.length) (h : Naming.Scanned stood addresses names)
    (honce : ∀ {a b entity}, stood a entity → stood b entity → a = b) :
    ((namedOf selected names).map Prod.snd).Nodup ∧
      (∀ p ∈ namedOf selected names, ∃ addr, stood addr p.2) ∧
      (namedOf selected names).length + holesOf names = selected.length := by
  refine ⟨(namedOf_names selected names).nodup (nodup_of_own fun hi hj => h.own honce hi hj),
    fun p hp => ?_, length_namedOf hlength⟩
  have hmem := (namedOf_names selected names).subset (List.mem_map_of_mem hp)
  obtain ⟨name, hname, hid⟩ := List.mem_filterMap.mp hmem
  obtain rfl : name = some p.2 := hid
  obtain ⟨i, hi⟩ := List.mem_iff_getElem?.mp hname
  obtain ⟨addr, haddr, -⟩ := h i p.2 hi
  exact ⟨addr, haddr⟩

/-! ## The parts -/

theorem ScansOver.mem_items {R : Type} {scan : Option AdmissionKey → Nat → ScanPage R}
    {residents : SortedMap AdmissionKey R} (h : ScansOver scan residents)
    {after : Option AdmissionKey} {limit : Nat} {item : ScanItem R}
    (hitem : item ∈ (scan after limit).items) : (item.key, item.record) ∈ residents.entries := by
  rw [h] at hitem
  obtain ⟨p, hp, rfl⟩ := List.mem_map.mp hitem
  exact (List.mem_filter.mp (List.mem_of_mem_take hp)).1

/-- A part's views: their ids stand as records of the kind, no two alike, and with the holes they are
what was selected. -/
structure PartNamed (run : Residency → Prop) (kind : SignalKind) (ids : List EntityId)
    (holes : Nat) (walk walk' : WalkState) : Prop where
  once : ids.Nodup
  stand : ∀ entity ∈ ids, ∃ record, Stands run kind entity record
  pages : walk'.pages = walk.pages
  entities : walk'.entities = saturatingAdd walk.entities (ids.length + holes)
  chain : walk'.chain = walk.chain

/-- The address of a log record that stood under the entity id. -/
def LogStands (run : Residency → Prop) (addr : Nat) (entity : EntityId) : Prop :=
  ∃ log : Arc LogRecord, Stands run .logRecords entity (.logRecord log) ∧ log.addr = addr

/-- The address of a point that stood under the entity id. -/
def PointStands (run : Residency → Prop) (addr : Nat) (entity : EntityId) : Prop :=
  ∃ view : PointView, Stands run .metricPoints entity (.metricPoint view.point view.stream) ∧
    view.point.addr = addr

theorem relatedLogs_named (hover : reads.Over run) (hunique : UniqueIdentities run) {fuel : Nat}
    {views : List RecordView} {relatesTo : Option TraceId} {walk walk' : WalkState}
    {logs : List LogEvidence} {holes : Nat}
    (h : relatedLogs fuel reads views relatesTo walk = some (logs, holes, walk')) :
    ∃ ids : List EntityId, logs.map LogEvidence.entity = ids.map some ∧
      PartNamed run .logRecords ids holes walk walk' ∧ (relatesTo = none → ids = []) := by
  unfold relatedLogs at h
  dsimp only at h
  cases hnames : nameLogIdentities fuel reads (selectLogs relatesTo (logViewsOf views)) walk with
  | none =>
    rw [hnames] at h
    cases h
  | some named =>
    obtain ⟨names, walk₁⟩ := named
    rw [hnames] at h
    simp only [Option.some.injEq, Prod.mk.injEq] at h
    obtain ⟨rfl, rfl, rfl⟩ := h
    obtain ⟨hlength, -⟩ := nameIdentities_frame hnames
    rw [List.length_map] at hlength
    have hscan : ∀ call after limit, ∀ item ∈ ((reads.naming call).scanLogRecords after limit).items,
        LogStands run item.record.addr item.key.entity := fun call after limit item hitem => by
      obtain ⟨residency, hrun, hserves⟩ := hover.naming call
      have hmem := hserves.scanLogRecords.mem_items hitem
      exact ⟨item.record, ⟨residency, hrun, _, List.mem_map_of_mem hmem, rfl, rfl⟩, rfl⟩
    obtain ⟨hscanned, hpages, hentities, hchain⟩ :=
      @nameIdentities_scanned _ (LogStands run) _ _ _ _ hscan _ _ _ hnames
    have hsame : ∀ {a b entity}, LogStands run a entity → LogStands run b entity → a = b := by
      rintro a b entity ⟨log, hlog, rfl⟩ ⟨log', hlog', rfl⟩
      exact hunique.logs hlog hlog'
    obtain ⟨honce, hstand, hcount⟩ := named_once hlength hscanned hsame
    refine ⟨(namedOf (selectLogs relatesTo (logViewsOf views)) names).map Prod.snd, ?_,
      ⟨honce, fun entity hentity => ?_, hpages, ?_, hchain⟩, ?_⟩
    · rw [List.map_map, List.map_map]
      rfl
    · obtain ⟨p, hp, rfl⟩ := List.mem_map.mp hentity
      obtain ⟨-, log, hlog, -⟩ := hstand p hp
      exact ⟨_, hlog⟩
    · rw [List.length_map, hcount, WalkState.count, hentities]
    · rintro rfl
      rfl

theorem surroundingMetrics_named (hover : reads.Over run) (hunique : UniqueIdentities run)
    {fuel : Nat} {views : List RecordView} {asked resident : TimeWindow}
    {relatesTo : Option TraceId} {walk walk' : WalkState} {points : List PointEvidence}
    {holes : Nat}
    (h : surroundingMetrics fuel reads views asked relatesTo walk =
      some (points, holes, resident, walk')) :
    ∃ ids : List EntityId, points.map PointEvidence.entity = ids.map some ∧
      PartNamed run .metricPoints ids holes walk walk' ∧ (relatesTo = none → ids = []) := by
  unfold surroundingMetrics at h
  dsimp only at h
  cases hnames : namePointIdentities fuel reads
      ((selectPoints relatesTo asked (pointViewsOf views)).map PointView.point) walk with
  | none =>
    rw [hnames] at h
    cases h
  | some named =>
    obtain ⟨names, walk₁⟩ := named
    rw [hnames] at h
    simp only [Option.some.injEq, Prod.mk.injEq] at h
    obtain ⟨rfl, rfl, -, rfl⟩ := h
    obtain ⟨hlength, -⟩ := nameIdentities_frame hnames
    rw [List.length_map, List.length_map] at hlength
    have hscan : ∀ call after limit,
        ∀ item ∈ ((reads.naming call).scanMetricPoints after limit).items,
          PointStands run item.record.point.addr item.key.entity :=
      fun call after limit item hitem => by
        obtain ⟨residency, hrun, hserves⟩ := hover.naming call
        have hmem := hserves.scanMetricPoints.mem_items hitem
        exact ⟨item.record, ⟨residency, hrun, _, List.mem_map_of_mem hmem, rfl, rfl⟩, rfl⟩
    obtain ⟨hscanned, hpages, hentities, hchain⟩ :=
      @nameIdentities_scanned _ (PointStands run) _ _ _ _ hscan _ _ _ hnames
    have hsame : ∀ {a b entity}, PointStands run a entity → PointStands run b entity → a = b := by
      rintro a b entity ⟨view, hview, rfl⟩ ⟨view', hview', rfl⟩
      exact hunique.points hview hview'
    obtain ⟨honce, hstand, hcount⟩ := named_once hlength hscanned hsame
    refine ⟨(namedOf (selectPoints relatesTo asked (pointViewsOf views)) names).map Prod.snd, ?_,
      ⟨honce, fun entity hentity => ?_, hpages, ?_, hchain⟩, ?_⟩
    · rw [List.map_map, List.map_map]
      rfl
    · obtain ⟨p, hp, rfl⟩ := List.mem_map.mp hentity
      obtain ⟨-, view, hview, -⟩ := hstand p hp
      exact ⟨_, hview⟩
    · rw [List.length_map, hcount, WalkState.count, hentities]
    · rintro rfl
      rfl

/-! ## The subject and its spans -/

/-- **The subject is stated separately**: a root at another entity than the requested one is named by
the one note there is. -/
theorem resolveSubject_stated {root : Arc Span} {requested : EntityId} {spans : List (Arc Span)}
    (hnatural : ∀ trace id, root.val.naturalIdentity = some (trace, id) →
      requested = .span trace id)
    (hheld : ∀ span ∈ spans, span.ptrEq root = true → span = root) :
    let effective := resolveSubject root requested spans
    (effective.root.entity = requested ∧ ∀ note ∈ effective.notes, note.rootedAt = none) ∨
      effective.notes.map ResolutionNote.rootedAt = [some effective.root.entity] := by
  intro effective
  have heffective : effective = resolveSubject root requested spans := rfl
  unfold resolveSubject at heffective
  cases hidentity : root.val.naturalIdentity with
  | none =>
    rw [hidentity] at heffective
    rw [heffective]
    exact Or.inl ⟨rfl, fun note hnote => by rw [List.mem_singleton.mp hnote]; rfl⟩
  | some identity =>
    obtain ⟨trace, id⟩ := identity
    rw [hidentity] at heffective
    dsimp only at heffective
    have hrequested := hnatural trace id hidentity
    cases hhead : ((membersOf trace spans).filter fun m => m.1.val.parentSpanId.isNone).head? with
    | none =>
      rw [hhead] at heffective
      have hspanId : root.val.context.spanId = id := by
        unfold Span.naturalIdentity at hidentity
        split at hidentity
        · exact congrArg Prod.snd (Option.some.inj hidentity)
        · exact absurd hidentity (by simp)
      rw [heffective, hrequested]
      exact Or.inl ⟨congrArg (EntityId.span trace) hspanId,
        fun note hnote => by rw [List.mem_singleton.mp hnote]; rfl⟩
    | some member =>
      obtain ⟨candidate, candidateId⟩ := member
      rw [hhead] at heffective
      dsimp only at heffective
      have hmem := (List.mem_filter.mp (List.mem_of_mem_head? hhead)).1
      obtain ⟨span, hspan, hmember⟩ := List.mem_filterMap.mp hmem
      obtain ⟨_, hid, heq⟩ := Option.map_eq_some_iff.mp hmember
      obtain ⟨rfl, rfl⟩ := Prod.mk.inj heq
      by_cases hsame : span.ptrEq root = true
      · -- the candidate is the requested span itself
        obtain rfl := hheld span hspan hsame
        rw [if_pos hsame] at heffective
        have hown := (Span.memberOf_eq_some_iff.mp hid).symm.trans hidentity
        obtain ⟨-, rfl⟩ := Prod.mk.inj (Option.some.inj hown)
        rw [heffective, hrequested]
        exact Or.inl ⟨rfl, fun note hnote => by rw [List.mem_singleton.mp hnote]; rfl⟩
      · rw [if_neg hsame] at heffective
        rw [heffective]
        exact Or.inr rfl

/-- The ids of the span evidence: those of the waterfall's members, no two alike, or the one the
caller asked for. -/
theorem spanEvidence_ids (hunique : UniqueIdentities run) {root : Arc Span} {requested : EntityId}
    {spans : List (Arc Span)} (hroot : Stands run .spans requested (.span root))
    (hspans : ∀ span ∈ spans, ∃ entity, Stands run .spans entity (.span span)) :
    let effective := resolveSubject root requested spans
    ∃ ids : List EntityId,
      (spanEvidence (waterfall spans effective root) effective).map SpanEvidence.entity =
        ids.map some ∧ ids.Nodup ∧
      (∀ trace, root.val.naturalIdentity.map Prod.fst = some trace →
        ∀ entity ∈ ids, ∃ record, Stands run .spans entity record) := by
  intro effective
  rcases waterfall_cases spans effective root with ⟨-, hmembers⟩ | ⟨-, halone⟩
  · refine ⟨(waterfall spans effective root).map fun span =>
      span.val.naturalIdentity.elim effective.root.entity fun identity =>
        .span identity.1 identity.2, ?_, ?_, fun trace _ entity hentity => ?_⟩
    · rw [spanEvidence, List.map_map, List.map_map]
      refine List.map_congr_left fun span _ => ?_
      simp only [Function.comp_apply]
      cases span.val.naturalIdentity <;> rfl
    · refine List.Nodup.map_on ?_ (List.Nodup.of_map _ hmembers.once)
      intro a ha b hb hab
      obtain ⟨-, ida, hida⟩ := hmembers.within a ha
      obtain ⟨-, idb, hidb⟩ := hmembers.within b hb
      refine List.inj_on_of_nodup_map hmembers.once ha hb ?_
      rw [hida, hidb]
      rw [Span.memberOf_eq_some_iff.mp hida, Span.memberOf_eq_some_iff.mp hidb] at hab
      exact congrArg some (EntityId.span.inj hab).2
    · obtain ⟨span, hspan, rfl⟩ := List.mem_map.mp hentity
      obtain ⟨hwalked, id, hid⟩ := hmembers.within span hspan
      obtain ⟨entity, hstands⟩ := hspans span hwalked
      have hidentity := Span.memberOf_eq_some_iff.mp hid
      rw [hidentity, Option.elim_some, ← hunique.natural hstands hidentity]
      exact ⟨_, hstands⟩
  · rw [halone]
    cases hidentity : root.val.naturalIdentity with
    | none =>
      refine ⟨[effective.root.entity], ?_, List.nodup_singleton _,
        fun trace htrace => absurd htrace (by simp)⟩
      simp [spanEvidence, hidentity]
    | some identity =>
      obtain ⟨trace, id⟩ := identity
      refine ⟨[.span trace id], ?_, List.nodup_singleton _, fun _ _ entity hentity => ?_⟩
      · simp [spanEvidence, hidentity]
      · rw [List.mem_singleton.mp hentity, ← hunique.natural hroot hidentity]
        exact ⟨_, hroot⟩

/-- The waterfall is never empty. -/
theorem waterfall_ne_nil (spans : List (Arc Span)) (effective : EffectiveSubject)
    (root : Arc Span) : waterfall spans effective root ≠ [] := by
  rcases waterfall_cases spans effective root with ⟨⟨seed, hseed, hid⟩, hmembers⟩ | ⟨-, halone⟩
  · obtain ⟨first, hfirst, -⟩ := hmembers.every seed hseed _ hid
    exact List.ne_nil_of_mem hfirst
  · rw [halone]
    exact List.cons_ne_nil _ _

/-! ## The envelope -/

/-- What the three parts of a flow gather. -/
structure PartsGathered (run : Residency → Prop) (request : TraceInvestigationRequest)
    (root : Arc Span) (parts : FlowParts) : Prop where
  subject : ∃ spans : List (Arc Span),
    (∀ span ∈ spans, ∃ entity, Stands run .spans entity (.span span)) ∧
      parts.effective = resolveSubject root request.rootSpan spans ∧
      parts.waterfall = waterfall spans parts.effective root
  keyed : ∃ ids logs points : List EntityId,
    parts.evidence.spans.map SpanEvidence.entity = ids.map some ∧
      parts.evidence.logs.map LogEvidence.entity = logs.map some ∧
      parts.evidence.points.map PointEvidence.entity = points.map some ∧
      (ids ++ logs ++ points).Nodup
  groups : parts.spansGroup.part = .spans ∧ parts.logsGroup.part = .relatedLogs ∧
    parts.pointsGroup.part = .surroundingMetrics
  pages : parts.walk.pages = parts.spansGroup.runs.length + parts.logsGroup.runs.length +
    parts.pointsGroup.runs.length
  ran : parts.spansGroup.runs ≠ []
  entities : parts.walk.entities = min (parts.waterfall.length +
    (parts.logs.length + parts.logHoles) + (parts.points.length + parts.pointHoles)) u64Max

/-- The ids of the three kinds of views differ when each kind's do. -/
theorem nodup_kinds (hunique : UniqueIdentities run) {root : Option TraceId}
    {ids logs points : List EntityId} (hids : ids.Nodup) (hlogs : logs.Nodup)
    (hpoints : points.Nodup)
    (hspans : ∀ trace, root = some trace → ∀ entity ∈ ids, ∃ record, Stands run .spans entity record)
    (hlogsStand : ∀ entity ∈ logs, ∃ record, Stands run .logRecords entity record)
    (hpointsStand : ∀ entity ∈ points, ∃ record, Stands run .metricPoints entity record)
    (hnologs : root = none → logs = []) (hnopoints : root = none → points = []) :
    (ids ++ logs ++ points).Nodup := by
  cases root with
  | none =>
    rw [hnologs rfl, hnopoints rfl, List.append_nil, List.append_nil]
    exact hids
  | some trace =>
    have hstand := hspans trace rfl
    refine List.nodup_append'.mpr ⟨List.nodup_append'.mpr ⟨hids, hlogs, ?_⟩, hpoints, ?_⟩
    · intro entity hspan hlog
      obtain ⟨_, hspan⟩ := hstand entity hspan
      obtain ⟨_, hlog⟩ := hlogsStand entity hlog
      exact absurd (hunique.kinds hspan hlog) (by decide)
    · intro entity hother hpoint
      obtain ⟨_, hpoint⟩ := hpointsStand entity hpoint
      rcases List.mem_append.mp hother with hspan | hlog
      · obtain ⟨_, hspan⟩ := hstand entity hspan
        exact absurd (hunique.kinds hspan hpoint) (by decide)
      · obtain ⟨_, hlog⟩ := hlogsStand entity hlog
        exact absurd (hunique.kinds hlog hpoint) (by decide)

/-- The subject a flow resolves: over spans that stood in the run. -/
theorem walkParts_subject (hover : reads.Over run) {fuel : Nat}
    {request : TraceInvestigationRequest} {chain : ChainBudget} {root : Arc Span}
    {parts : FlowParts} (h : walkParts fuel reads request chain root = some (.ok parts)) :
    ∃ spans : List (Arc Span),
      (∀ span ∈ spans, ∃ entity, Stands run .spans entity (.span span)) ∧
        parts.effective = resolveSubject root request.rootSpan spans ∧
        parts.waterfall = waterfall spans parts.effective root := by
  obtain ⟨-, spanViews, _, _, _, _, _, _, hspanWalk, heffective, hwaterfall, -⟩ :=
    walkParts_eq_ok h
  obtain ⟨-, hspans⟩ := walkPages_gathered hover hspanWalk
  refine ⟨_, fun span hspan => ?_, heffective, hwaterfall⟩
  obtain ⟨view, hview, hpick⟩ := List.mem_filterMap.mp hspan
  cases view with
  | span record =>
    obtain rfl : record = span := Option.some.inj hpick
    exact hspans.stand _ hview
  | logRecord record => exact absurd hpick (by simp)
  | metricPoint point stream => exact absurd hpick (by simp)

/-- **The parts of a flow**, whatever happened to the store between its calls. -/
theorem walkParts_gathered (hover : reads.Over run) (hunique : UniqueIdentities run) {fuel : Nat}
    {request : TraceInvestigationRequest} {chain : ChainBudget} (hpositive : chain.Positive)
    {root : Arc Span} (hroot : reads.span request.rootSpan = some root) {parts : FlowParts}
    (h : walkParts fuel reads request chain root = some (.ok parts)) :
    PartsGathered run request root parts := by
  have hsubject := walkParts_subject hover h
  obtain ⟨hrelates, spanViews, logViews, pointViews, walk₁, walk₂, walk₃, walk₄, hspanWalk,
    -, -, hlogWalk, hrelated, hpointWalk, hsurrounding⟩ := walkParts_eq_ok h
  obtain ⟨hspansPart, hspans⟩ := walkPages_gathered hover hspanWalk
  obtain ⟨hlogsPart, hlogs⟩ := walkPages_gathered hover hlogWalk
  obtain ⟨hpointsPart, hpoints⟩ := walkPages_gathered hover hpointWalk
  obtain ⟨logIds, hlogIds, hlogsNamed, hnologs⟩ := relatedLogs_named hover hunique hrelated
  obtain ⟨pointIds, hpointIds, hpointsNamed, hnopoints⟩ :=
    surroundingMetrics_named hover hunique hsurrounding
  obtain ⟨spans, hstand, heffective, hwaterfall⟩ := hsubject
  have hspanIds := spanEvidence_ids hunique (hover.span _ _ hroot) hstand
  dsimp only at hspanIds
  rw [← heffective, ← hwaterfall] at hspanIds
  obtain ⟨spanIds, hspanIds, hspanOnce, hspanStand⟩ := hspanIds
  rw [← hrelates] at hspanStand
  refine ⟨⟨_, hstand, heffective, hwaterfall⟩, ⟨spanIds, logIds, pointIds, hspanIds, hlogIds,
    hpointIds, nodup_kinds hunique hspanOnce hlogsNamed.once hpointsNamed.once hspanStand
      hlogsNamed.stand hpointsNamed.stand hnologs hnopoints⟩,
    ⟨hspansPart, hlogsPart, hpointsPart⟩, ?_, hspans.ran hpositive.pages hpositive.entities, ?_⟩
  · rw [hpointsNamed.pages, hpoints.pages, hlogsNamed.pages, hlogs.pages]
    simp only [WalkState.count]
    rw [hspans.pages]
    simp only [WalkState.start]
    omega
  · have hlogCount : logIds.length = parts.logs.length := by
      have hlength := congrArg List.length hlogIds
      simpa using hlength.symm
    have hpointCount : pointIds.length = parts.points.length := by
      have hlength := congrArg List.length hpointIds
      simpa using hlength.symm
    rw [hpointsNamed.entities, hpoints.entities, hlogsNamed.entities, hlogs.entities, hlogCount,
      hpointCount]
    simp only [WalkState.count]
    rw [hspans.entities]
    simp only [WalkState.start, saturatingAdd]
    omega

end Run

/-- A conditional entry's hole is counted when it is there. -/
theorem holeCounts_entry {p : Prop} [Decidable p] (entry : FlowCoverageEntry) :
    ((if p then [entry] else []).filterMap FlowCoverageEntry.holeCount).sum =
      if p then entry.holeCount.getD 0 else 0 := by
  by_cases h : p
  · rw [if_pos h, if_pos h, List.filterMap_cons]
    cases entry.holeCount <;> simp
  · rw [if_neg h, if_neg h]
    rfl

/-- Entries of other kinds count no hole. -/
theorem holeCounts_map {α : Type} (entry : α → FlowCoverageEntry) (l : List α)
    (h : ∀ a, (entry a).holeCount = none) :
    ((l.map entry).filterMap FlowCoverageEntry.holeCount).sum = 0 := by
  have hnone : (l.map entry).filterMap FlowCoverageEntry.holeCount = [] := by
    rw [List.filterMap_map, List.filterMap_eq_nil_iff]
    exact fun a _ => h a
  rw [hnone]
  rfl

/-- The holes a flow states are those of its two recoveries. -/
theorem holeCounts_flowCoverage (stats : StoreStats) (request : TraceInvestigationRequest)
    (parts : FlowParts) (truth : Truth) (shrunk : Nat) :
    ((flowCoverage stats request parts truth shrunk).filterMap FlowCoverageEntry.holeCount).sum =
      parts.logHoles + parts.pointHoles := by
  have hsuppressed := holeCounts_map (fun s : Suppression =>
    FlowCoverageEntry.suppressedEvidence s.log s.span s.suppressed) truth.suppressions fun _ => rfl
  have habsent := holeCounts_map (fun a : AbsentTrace =>
    FlowCoverageEntry.absentTraceSpans a.log) truth.absentTraces fun _ => rfl
  have hstop := holeCounts_map FlowCoverageEntry.correlationDegradation truth.stoppedAt.toList
    fun _ => rfl
  have hwindow : ((if parts.pointsGroup.runs.isEmpty then [] else
      [FlowCoverageEntry.metricWindow parts.asked parts.resident]).filterMap
        FlowCoverageEntry.holeCount).sum = 0 := by
    split <;> rfl
  have hanomalies : ([FlowCoverageEntry.admissionAnomalies stats.admissionAnomalies].filterMap
      FlowCoverageEntry.holeCount).sum = 0 := rfl
  unfold flowCoverage
  simp only [List.filterMap_append, List.sum_append, hsuppressed, habsent, hstop, hwindow,
    hanomalies, holeCounts_entry]
  have hlogs : (if 0 < parts.logHoles then parts.logHoles else 0) = parts.logHoles := by
    split <;> omega
  have hpoints : (if 0 < parts.pointHoles then parts.pointHoles else 0) = parts.pointHoles := by
    split <;> omega
  simp [FlowCoverageEntry.holeCount, hlogs, hpoints]

/-- The relations of an envelope were formed by the engine, and both ends are in its evidence. -/
theorem signalRefsResolve_compose (reads : FlowReads) (stores : Nat → TelemetryStore)
    (request : TraceInvestigationRequest) (chain : ChainBudget) (parts : FlowParts) :
    (compose reads (correlate stores) request chain parts).signalRefsResolve = true := by
  unfold Investigation.signalRefsResolve
  rw [List.all_eq_true]
  intro relation hrelation
  obtain ⟨hreturned, hends⟩ := List.mem_filter.mp hrelation
  obtain ⟨hoffered, -⟩ := mem_correlate hreturned
  obtain ⟨strategy, -, hfamily⟩ := List.mem_flatMap.mp hoffered
  have hformed := formed_of_mem hfamily
  have htype : relation.relationType ≠ .inferred := by
    rw [hformed.relationType]
    cases strategy <;> decide
  have hfacts : relation.facts.isEmpty = false := by
    cases hlist : relation.facts with
    | nil => exact absurd hlist hformed.facts
    | cons fact rest => rfl
  rw [if_neg (by simp [htype, hfacts])]
  exact hends

section Composed

variable {run : Residency → Prop} {reads : FlowReads}
  {outcome : CorrelationBounds → CorrelationOutcome} {request : TraceInvestigationRequest}
  {chain : ChainBudget} {root : Arc Span} {parts : FlowParts}

theorem PartsGathered.recordedPages (h : PartsGathered run request root parts) :
    (compose reads outcome request chain parts).recordedPages = parts.walk.pages := by
  rw [h.pages]
  simp only [Investigation.recordedPages, compose, List.map_cons, List.map_nil, List.sum_cons,
    List.sum_nil]
  omega

/-- A flow over positive ceilings has run a page. -/
theorem PartsGathered.noPartialContentAsComplete (h : PartsGathered run request root parts) :
    (compose reads outcome request chain parts).noPartialContentAsComplete = true := by
  have hpages : parts.walk.pages ≠ 0 := by
    have hran := List.length_pos_iff.mpr h.ran
    have hcount := h.pages
    omega
  have hrecorded := @PartsGathered.recordedPages run reads outcome request chain root parts h
  unfold Investigation.noPartialContentAsComplete
  rw [hrecorded]
  change (if parts.walk.pages ≠ parts.walk.pages then false
    else if parts.walk.stopped.isSome = true ∧ parts.walk.pages = 0 then false else true) = true
  rw [if_neg (not_not_intro rfl), if_neg fun hstopped => hpages hstopped.2]

/-- The entity total is that of the views and the holes. -/
theorem PartsGathered.totalEntities (h : PartsGathered run request root parts) :
    (compose reads outcome request chain parts).limits.chain.totalEntities =
      min ((compose reads outcome request chain parts).views +
        (compose reads outcome request chain parts).holeCounts) u64Max := by
  have hspans : parts.evidence.spans.length = parts.waterfall.length := by
    conv_rhs => rw [← spanEvidence_spans parts.waterfall parts.effective, List.length_map]
    rfl
  have hviews : (compose reads outcome request chain parts).views =
      parts.waterfall.length + parts.logs.length + parts.points.length := by
    rw [← hspans]
    rfl
  have hholes : (compose reads outcome request chain parts).holeCounts =
      parts.logHoles + parts.pointHoles := holeCounts_flowCoverage _ _ _ _ _
  rw [hviews, hholes]
  change parts.walk.entities = _
  rw [h.entities]
  congr 1
  omega

/-- The asked window is the extent of the evidence spans. -/
theorem PartsGathered.metricWindowIsStated (h : PartsGathered run request root parts) :
    (compose reads outcome request chain parts).metricWindowIsStated = true := by
  obtain ⟨spans, -, -, hwaterfall⟩ := h.subject
  have hextent : (compose reads outcome request chain parts).waterfallExtent =
      some parts.asked := by
    have hviews : parts.evidence.spans ≠ [] := by
      intro hnil
      have hspans := spanEvidence_spans parts.waterfall parts.effective
      rw [show spanEvidence parts.waterfall parts.effective = [] from hnil, List.map_nil] at hspans
      exact waterfall_ne_nil _ _ _ (hwaterfall.symm.trans hspans.symm)
    unfold Investigation.waterfallExtent
    rw [show (compose reads outcome request chain parts).evidence = parts.evidence from rfl,
      if_neg (by simpa using hviews), FlowParts.asked]
    conv_rhs => rw [← spanEvidence_spans parts.waterfall parts.effective]
    rw [extentOf, List.foldl_map]
    rfl
  unfold Investigation.metricWindowIsStated
  split
  · rename_i hran
    obtain ⟨hspansPart, hlogsPart, hpointsPart⟩ := h.groups
    have hpoints : parts.pointsGroup.runs.isEmpty = false := by
      simpa [compose, hspansPart, hlogsPart, hpointsPart] using hran
    have hasked : (compose reads outcome request chain parts).askedWindow = some parts.asked := by
      unfold Investigation.askedWindow compose flowCoverage
      dsimp only
      rw [hpoints]
      rfl
    rw [hasked, hextent]
    exact beq_self_eq_true _
  · rfl

/-- The effective subject is the requested one, or its notes say where it was moved. -/
theorem subjectsAreStatedSeparately_compose (hover : reads.Over run)
    (hnatural : ∀ {entity span trace id}, Stands run .spans entity (.span span) →
      span.val.naturalIdentity = some (trace, id) → entity = .span trace id)
    (hroot : reads.span request.rootSpan = some root) {fuel : Nat}
    (h : walkParts fuel reads request chain root = some (.ok parts)) :
    (compose reads outcome request chain parts).subjectsAreStatedSeparately = true := by
  obtain ⟨spans, hspans, heffective, -⟩ := walkParts_subject hover h
  have hstated := @resolveSubject_stated root request.rootSpan spans
    (fun trace id hidentity => hnatural (hover.span _ _ hroot) hidentity)
    (fun span hspan hsame => by
      obtain ⟨entity, hstands⟩ := hspans span hspan
      exact hover.held _ _ hroot entity span hstands hsame)
  dsimp only at hstated
  rw [← heffective] at hstated
  exact Investigation.subjectsAreStatedSeparately_of_notes hstated

theorem PartsGathered.viewsCarryEntityIds (h : PartsGathered run request root parts) :
    (compose reads outcome request chain parts).viewsCarryEntityIds = true := by
  obtain ⟨ids, logs, points, hids, hlogs, hpoints, honce⟩ := h.keyed
  refine (Investigation.keyedOnce_iff List.nodup_nil).mpr ⟨ids ++ logs ++ points, ?_, honce⟩
  change Investigation.viewIds parts.evidence = _
  rw [Investigation.viewIds, hids, hlogs, hpoints, List.map_append, List.map_append]

/-- What a flow composes of its parts is honest. -/
theorem honest_compose (hover : reads.Over run) (hunique : UniqueIdentities run)
    (stores : Nat → TelemetryStore) (hpositive : chain.Positive)
    (hroot : reads.span request.rootSpan = some root) {fuel : Nat}
    (h : walkParts fuel reads request chain root = some (.ok parts)) :
    (compose reads (correlate stores) request chain parts).Honest := by
  have hgathered := walkParts_gathered hover hunique hpositive hroot h
  exact
    { subjects := subjectsAreStatedSeparately_compose hover hunique.natural hroot h
      relations := signalRefsResolve_compose reads stores request chain parts
      keyed := hgathered.viewsCarryEntityIds
      pages := hgathered.noPartialContentAsComplete
      entities := hgathered.totalEntities
      window := hgathered.metricWindowIsStated }

end Composed

/-- **An envelope gathered from a moving store is honest.**  Whatever residencies its calls are
answered from and wherever a chain ceiling stops it, a returned envelope states its subjects with
their notes, relates signals of its evidence on facts, keys every view by an id of its own, records
its runs and its entities, and asks the metric window of its own spans. -/
theorem investigation_honest (fuel : Nat) (reads : FlowReads) (run : Residency → Prop)
    (hover : reads.Over run) (hunique : UniqueIdentities run) (stores : Nat → TelemetryStore)
    (request : TraceInvestigationRequest) (chain : ChainBudget) (hpositive : chain.Positive)
    (envelope : Investigation)
    (h : investigateTraceBounded fuel reads (correlate stores) request chain =
      some (.ok envelope)) : envelope.Honest := by
  obtain ⟨root, parts, hroot, hparts, rfl⟩ := investigateTraceBounded_eq_ok h
  exact honest_compose hover hunique stores hpositive hroot hparts

/-- The traced store that never moves: each call is answered from its one residency. -/
theorem tracedLogs_over : ((tracedLogs 1).reads fun _ => still).Over (· = (tracedLogs 1).residency) where
  span entity root h := by
    obtain ⟨key, hkey, hmem⟩ := ((tracedLogs 1).serves.span entity root).mp h
    exact ⟨_, rfl, _, List.mem_map_of_mem hmem, hkey, rfl⟩
  held entity root h other span hstands _ := by
    obtain ⟨key, -, hroot⟩ := ((tracedLogs 1).serves.span entity root).mp h
    obtain ⟨_, rfl, y, hy, -, hrecord⟩ := hstands
    obtain ⟨p, hp, rfl⟩ := List.mem_map.mp hy
    obtain rfl := RecordView.span.inj hrecord
    have hone : (tracedLogs 1).residency.spans.entries.length = 1 := by decide +kernel
    obtain ⟨only, honly⟩ := List.length_eq_one_iff.mp hone
    rw [honly] at hp hroot
    rw [List.mem_singleton.mp hp, ← List.mem_singleton.mp hroot]
  pages _ _ := ⟨_, rfl, (tracedLogs 1).serves⟩
  naming _ := ⟨_, rfl, (tracedLogs 1).serves⟩

theorem tracedLogs_unique : UniqueIdentities (· = (tracedLogs 1).residency) := by
  have hspans : ∀ p ∈ (tracedLogs 1).residency.spans.entries,
      p.1.entity = .span (.ofByte 1) (.ofByte 1) ∧
        p.2.val.naturalIdentity = some (.ofByte 1, .ofByte 1) := by decide +kernel
  have hlogs : ∀ p ∈ (tracedLogs 1).residency.logRecords.entries,
      p.1.entity = .serial 1 ∧ p.2.addr = 0 := by decide +kernel
  have hpoints : (tracedLogs 1).residency.metricPoints.entries.length = 0 := by decide +kernel
  have hnone := List.eq_nil_of_length_eq_zero hpoints
  have hkind : ∀ {kind entity record}, Stands (· = (tracedLogs 1).residency) kind entity record →
      (kind = .spans ∧ entity = .span (.ofByte 1) (.ofByte 1)) ∨
        (kind = .logRecords ∧ entity = .serial 1) := by
    rintro kind entity record ⟨_, rfl, y, hy, rfl, -⟩
    cases kind with
    | spans =>
      obtain ⟨p, hp, rfl⟩ := List.mem_map.mp hy
      exact Or.inl ⟨rfl, (hspans p hp).1⟩
    | logRecords =>
      obtain ⟨p, hp, rfl⟩ := List.mem_map.mp hy
      exact Or.inr ⟨rfl, (hlogs p hp).1⟩
    | metricPoints =>
      obtain ⟨p, hp, rfl⟩ := List.mem_map.mp hy
      rw [hnone] at hp
      exact absurd hp (by simp)
  have hlog : ∀ {entity log},
      Stands (· = (tracedLogs 1).residency) .logRecords entity (.logRecord log) → log.addr = 0 := by
    rintro entity log ⟨_, rfl, y, hy, -, hrecord⟩
    obtain ⟨p, hp, rfl⟩ := List.mem_map.mp hy
    obtain rfl := RecordView.logRecord.inj hrecord
    exact (hlogs p hp).2
  refine ⟨fun {kind kind' entity record record'} h h' => ?_, fun {entity span trace id} h hid => ?_,
    fun h h' => (hlog h).trans (hlog h').symm, fun h => ?_⟩
  · rcases hkind h with ⟨rfl, rfl⟩ | ⟨rfl, rfl⟩ <;> rcases hkind h' with ⟨rfl, he⟩ | ⟨rfl, he⟩
    · rfl
    · cases he
    · cases he
    · rfl
  · rcases hkind h with ⟨-, rfl⟩ | ⟨hkind, -⟩
    · obtain ⟨_, rfl, y, hy, -, hrecord⟩ := h
      obtain ⟨p, hp, rfl⟩ := List.mem_map.mp hy
      obtain rfl := RecordView.span.inj hrecord
      obtain ⟨rfl, rfl⟩ := Prod.mk.inj (Option.some.inj ((hspans p hp).2.symm.trans hid))
      rfl
    · cases hkind
  · rcases hkind h with ⟨hkind, -⟩ | ⟨hkind, -⟩ <;> cases hkind

/-- The trace with one log record, investigated while nothing moves. -/
theorem investigation_honest_tracedLogs : ∃ envelope : Investigation,
    investigateTraceBounded 2 ((tracedLogs 1).reads fun _ => still)
        (correlate fun _ => (tracedLogs 1).driver) (tracedRequest 2) .defaults =
      some (.ok envelope) ∧ envelope.Honest := by
  obtain ⟨found, hfound, hcomplete⟩ : ∃ found, tracedParts 1 2 = some found ∧
      tracedComplete found = true := (Option.any_eq_true _ _).mp (by decide +kernel)
  obtain ⟨-, -, h, -⟩ :=
    investigate_tracedLogs hfound hcomplete (correlate fun _ => (tracedLogs 1).driver)
  exact ⟨_, h, investigation_honest 2 _ _ tracedLogs_over tracedLogs_unique _ _ _
    ChainBudget.positive_defaults _ h⟩

end RuntimeTrail
