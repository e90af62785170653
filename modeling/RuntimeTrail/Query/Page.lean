import RuntimeTrail.Query.Walk

/-!
# One page over a fixed store

The page of a records query over a store that does not change, before its
deadline: the records ahead of the resume point are examined up to some point,
and the page's items, outcome, cursor and coverage are read off the account of
what was examined.

* **the residents** — `Residency.yields`, in the order a walk examines them;
  every scan pages over them (`TelemetryStore.Serves.pull`);
* **the page** — `PageOf`, and `walkRecords_page` which shows that every page is
  one;
* **a continuation** — `recordsInner_own`: an accepted one answers the page of the
  payload it stands for, one of the query's own.
-/

namespace RuntimeTrail

open Library

/-! ## The residents of a kind -/

/-- The residents of a kind, as a walk examines them. -/
def Residency.yields (residency : Residency) : SignalKind → List Yield
  | .spans => residency.spans.entries.map fun p => ⟨p.1, .span p.2⟩
  | .logRecords => residency.logRecords.entries.map fun p => ⟨p.1, .logRecord p.2⟩
  | .metricPoints =>
    residency.metricPoints.entries.map fun p => ⟨p.1, .metricPoint p.2.point p.2.stream⟩

theorem Residency.keyed_yields (residency : Residency) (kind : SignalKind) :
    Keyed Yield.key (residency.yields kind) := by
  cases kind with
  | spans => exact List.pairwise_map.mpr residency.spans.sorted
  | logRecords => exact List.pairwise_map.mpr residency.logRecords.sorted
  | metricPoints => exact List.pairwise_map.mpr residency.metricPoints.sorted

/-- A scan over a sequence of residents, as a walk normalizes it. -/
theorem ScansOver.yields {R : Type} {scan : Option AdmissionKey → Nat → ScanPage R}
    {residents : SortedMap AdmissionKey R} (h : ScansOver scan residents) (view : R → RecordView)
    (after : Option AdmissionKey) (limit : Nat) :
    ((scan after limit).items.map fun item => (⟨item.key, view item.record⟩ : Yield)) =
        (Walk.aheadOf (residents.entries.map fun p => ⟨p.1, view p.2⟩) after).take limit ∧
      (scan after limit).cursor =
        (if limit < (Walk.aheadOf (residents.entries.map fun p => ⟨p.1, view p.2⟩) after).length
          then ((Walk.aheadOf (residents.entries.map fun p => ⟨p.1, view p.2⟩) after).take
            limit).getLast?.map Yield.key
          else none) := by
  have hahead : Walk.aheadOf (residents.entries.map fun p => (⟨p.1, view p.2⟩ : Yield)) after =
      (residents.entries.filter fun p => p.1.follows after).map fun p => ⟨p.1, view p.2⟩ := by
    rw [Walk.aheadOf, List.filter_map]
    rfl
  rw [h after limit, hahead]
  simp only [ScanPage.ofAhead, List.length_map, ← List.map_take, List.map_map, List.getLast?_map,
    Option.map_map]
  exact ⟨rfl, rfl⟩

/-- **Every scan of a kind pages over its residents.** -/
theorem TelemetryStore.Serves.pull {store : TelemetryStore} {residency : Residency}
    (h : store.Serves residency) (kind : SignalKind) (after : Option AdmissionKey) (limit : Nat) :
    store.pull kind after limit = ((Walk.aheadOf (residency.yields kind) after).take limit,
      if limit < (Walk.aheadOf (residency.yields kind) after).length then
        ((Walk.aheadOf (residency.yields kind) after).take limit).getLast?.map Yield.key
      else none) := by
  cases kind with
  | spans =>
    obtain ⟨hitems, hcursor⟩ := h.scanSpans.yields .span after limit
    exact Prod.ext hitems hcursor
  | logRecords =>
    obtain ⟨hitems, hcursor⟩ := h.scanLogRecords.yields .logRecord after limit
    exact Prod.ext hitems hcursor
  | metricPoints =>
    obtain ⟨hitems, hcursor⟩ := h.scanMetricPoints.yields
      (fun view => .metricPoint view.point view.stream) after limit
    exact Prod.ext hitems hcursor

/-- A lookup by entity answers whatever key the entity is resident under. -/
theorem isSome_lookup_iff {R : Type} {lookup : EntityId → Option R}
    {residents : SortedMap AdmissionKey R} (h : ∀ entity record, lookup entity = some record ↔
      ∃ key, key.entity = entity ∧ (key, record) ∈ residents.entries) (view : R → RecordView)
    (entity : EntityId) : (lookup entity).isSome = true ↔
      ∃ y ∈ residents.entries.map (fun p => (⟨p.1, view p.2⟩ : Yield)), y.key.entity = entity := by
  simp only [Option.isSome_iff_exists, h, List.mem_map]
  constructor
  · rintro ⟨record, key, rfl, hmem⟩
    exact ⟨_, ⟨_, hmem, rfl⟩, rfl⟩
  · rintro ⟨-, ⟨p, hmem, rfl⟩, rfl⟩
    exact ⟨p.2, p.1, rfl, hmem⟩

theorem TelemetryStore.Serves.anchorIsResident {store : TelemetryStore} {residency : Residency}
    (h : store.Serves residency) (kind : SignalKind) (entity : EntityId) :
    store.anchorIsResident kind entity = true ↔
      ∃ y ∈ residency.yields kind, y.key.entity = entity := by
  cases kind with
  | spans => exact isSome_lookup_iff h.span .span entity
  | logRecords => exact isSome_lookup_iff h.logRecord .logRecord entity
  | metricPoints =>
    exact isSome_lookup_iff h.metricPoint (fun view => .metricPoint view.point view.stream) entity

theorem FixedStore.fixedOver (store : FixedStore) {input : WalkInput}
    (hstores : input.stores = fun _ => store.driver) :
    Walk.FixedOver input (store.residency.yields input.kind) := by
  intro n after limit
  rw [hstores]
  exact store.serves.pull input.kind after limit

/-! ## The page -/

/-- The payload of a cursor minted at `anchor` by a walk that has pulled up to `frontier`. -/
def WalkInput.mint (input : WalkInput) (frontier : Option AdmissionKey) (anchor : AdmissionKey) :
    CursorPayload where
  position := anchor.admittedAt.unixNano
  lastEntity := anchor.entity
  fingerprint := input.fingerprint
  snapshot := (input.snapshotBound.or frontier).getD anchor

/-- The cursor an outcome continues with. -/
def PartOutcome.nextCursor : PartOutcome → Option (List UInt8)
  | degraded ⟨_, .cursor bytes, _⟩ => some bytes
  | _ => none

/-- What a page is, in terms of the records ahead of its resume point: those examined, of the
matching ones those delivered and those counted, and the rest. -/
structure PageOf (input : WalkInput) (session : BudgetSession)
    (whole examined delivered counted rest : List Yield) (page : Page RecordView) : Prop where
  split : whole = examined ++ rest
  within : ∀ y ∈ examined, input.pastBound y.key = false
  scanned : examined.length ≤ session.ledger.scan.remaining
  matched : Walk.matching input examined = delivered ++ counted
  fits : delivered.length ≤ session.ledger.results.remaining ∧
    Walk.evidenceSum delivered ≤ session.ledger.bytes.remaining
  wall : counted = [] ∨ delivered.length < session.ledger.results.remaining ∧
    ∃ first, counted.head? = some first ∧ session.ledger.bytes.remaining <
      Walk.evidenceSum delivered + evidenceOf first.record
  items : page.items = delivered.map Yield.record
  answered : ∃ outcome tails, page.execution.parts = [outcome] ∧
    page.nextCursor = outcome.nextCursor ∧ Walk.Tails page.execution.coverage tails ∧
    Walk.Verdict input session
      (fun anchor => (input.mint (Walk.frontierAt whole examined.length) anchor).encode)
      examined delivered counted rest outcome tails

namespace Walk

variable {input : WalkInput} {session : BudgetSession} {w : Walk}
  {examined delivered counted : List Yield}

/-- The account does not depend on where the batches are pulled from. -/
theorem Accounts.frame (h : w.Accounts input session examined delivered counted)
    (frontier after : Option AdmissionKey) (calls : Nat) :
    Accounts input session { w with frontier := frontier, after := after, calls := calls }
      examined delivered counted :=
  ⟨h.going, h.uncut, h.within, h.budget, h.admittedAt, h.scan, h.matched, h.items, h.lastExamined,
    h.lastIncluded, h.fits, h.including, h.wall⟩

/-- What was counted starts at a record the bytes did not fit. -/
theorem Accounts.walled (h : w.Accounts input session examined delivered counted) :
    counted = [] ∨ delivered.length < session.ledger.results.remaining ∧
      ∃ first, counted.head? = some first ∧ session.ledger.bytes.remaining <
        evidenceSum delivered + evidenceOf first.record := by
  cases hcounting : w.counting with
  | none => exact Or.inl (h.including hcounting).1
  | some counting =>
    obtain ⟨-, -, hroom, hfirst⟩ := h.wall counting hcounting
    exact Or.inr ⟨hroom, hfirst⟩

theorem assemble_nextCursor (w : Walk) (input : WalkInput) :
    (w.assemble input).nextCursor = (w.stopped.getD .complete).nextCursor := rfl

theorem tails_assemble {listed : List CoverageEntry} (h : Tails w.coverage listed)
    (input : WalkInput) : Tails (w.assemble input).execution.coverage listed := by
  intro after dimension
  rw [← h after dimension]
  cases hgap : w.pendingGap <;> simp [assemble, hgap]

/-- The page of a walk that ended with a verdict on what it had accounted for. -/
theorem EndsWith.page {w' : Walk} {whole rest : List Yield}
    (hends : w.EndsWith w' (Verdict input session (w.cursorBytes input) examined delivered counted
      rest)) (h : w.Accounts input session examined delivered counted)
    (hsplit : whole = examined ++ rest) (hfrontier : w.frontier = frontierAt whole examined.length) :
    PageOf input session whole examined delivered counted rest (w'.assemble input) := by
  obtain ⟨outcome, tails, hstopped, hitems, htails, hverdict⟩ := hends
  have hmint : w.cursorBytes input =
      fun anchor => (input.mint (frontierAt whole examined.length) anchor).encode := by
    rw [← hfrontier]
    rfl
  rw [hmint] at hverdict
  refine ⟨hsplit, h.within, ?_, h.matched, h.fits, h.walled, hitems.trans h.items,
    outcome, tails, ?_, ?_, tails_assemble htails input, hverdict⟩
  · have := h.scan
    omega
  · simp [assemble, hstopped]
  · rw [assemble_nextCursor, hstopped]
    rfl

end Walk

/-- **Every page of a fixed store, before its deadline**, is the page of what it examined. -/
theorem walkRecords_page (store : FixedStore) {input : WalkInput} {session : BudgetSession}
    (hstores : input.stores = fun _ => store.driver) (hlive : Walk.NeverExpires input session)
    (hscan : 0 < session.ledger.scan.remaining) (hresults : 0 < session.ledger.results.remaining) :
    ∃ examined delivered counted rest, PageOf input session
      (Walk.aheadOf (store.residency.yields input.kind) (input.presented.map CursorPayload.anchor))
      examined delivered counted rest (walkRecords input session) := by
  have hstart : (walkStart input session).Accounts input session [] [] [] :=
    { going := rfl
      uncut := fun after dimension => by
        cases hbound : input.snapshotBound <;> simp [walkStart, hbound]
      within := fun y hy => absurd hy (by simp)
      budget := rfl
      admittedAt := rfl
      scan := rfl
      matched := rfl
      items := rfl
      lastExamined := rfl
      lastIncluded := rfl
      fits := ⟨Nat.zero_le _, Nat.zero_le _⟩
      including := fun _ => ⟨rfl, rfl, rfl⟩
      wall := fun counting h => absurd h (by simp [walkStart]) }
  let account : Walk → List Yield → Prop := fun w examined =>
    ∃ delivered counted, w.Accounts input session examined delivered counted
  have keeps : Walk.Keeps input account := by
    rintro w examined yielded tail ⟨delivered, counted, h⟩ hgoing
    rcases h.examine hlive hscan hresults yielded [] tail with hon | ⟨outcome, -, hstopped, -⟩
    · exact hon
    · rw [hgoing] at hstopped
      exact absurd hstopped (by simp)
  have frame : ∀ {w : Walk} {examined : List Yield} (frontier after : Option AdmissionKey)
      (calls : Nat), account w examined →
        account { w with frontier := frontier, after := after, calls := calls } examined := by
    rintro w examined frontier after calls ⟨delivered, counted, h⟩
    exact ⟨delivered, counted, h.frame frontier after calls⟩
  have hends := Walk.run_feeds (store.fixedOver hstores) (store.residency.keyed_yields input.kind)
    (I := account) keeps frame (w := walkStart input session) rfl ⟨[], [], hstart⟩
  rw [walkRecords, Walk.run]
  generalize ((Walk.pages input).run (walkStart input session, 0)).1 = last at hends ⊢
  cases hends with
  | exhausted holds tail =>
    obtain ⟨delivered, counted, h⟩ := holds
    have hpage := (h.finish (show input.drained [] = true from rfl)).page h
      (List.append_nil _).symm tail
    exact ⟨_, _, _, _, hpage⟩
  | @stopped w examined rest yielded behind split holds tail stops =>
    obtain ⟨delivered, counted, h⟩ := holds
    rcases h.examine hlive hscan hresults yielded rest behind with ⟨_, _, hon⟩ | hstop
    · rw [hon.going] at stops
      exact absurd stops (by simp)
    · exact ⟨_, _, _, _, hstop.page h split tail⟩

/-- The answer to a query over a fixed store is such a page. -/
theorem FixedStore.answer_page (store : FixedStore) (query : RecordsQuery) {budget : QueryBudget}
    {clock : Clock} (hpositive : budget.Positive)
    (hlive : ∀ n, clock n - clock 0 < budget.deadline) (presented : Option CursorPayload) :
    ∃ examined delivered counted rest,
      PageOf (walkInput (fun _ => store.driver) query clock presented)
        (budget.admitSession (clock 0))
        (Walk.aheadOf (store.residency.yields query.kind) (presented.map CursorPayload.anchor))
        examined delivered counted rest
        (answer (fun _ => store.driver) query budget clock presented) := by
  have hanswer : answer (fun _ => store.driver) query budget clock presented =
      walkRecords (walkInput (fun _ => store.driver) query clock presented)
        (budget.admitSession (clock 0)) :=
    if_neg (Nat.ne_of_gt hpositive.results)
  rw [hanswer]
  exact @walkRecords_page store (walkInput (fun _ => store.driver) query clock presented)
    (budget.admitSession (clock 0)) rfl hlive hpositive.scan hpositive.results

namespace PageOf

variable {input : WalkInput} {session : BudgetSession}
  {whole examined delivered counted rest : List Yield} {page : Page RecordView}

/-- What the walk left is past the bound from the first record past it on. -/
theorem rest_within (h : PageOf input session whole examined delivered counted rest page)
    (hkeyed : Keyed Yield.key whole) (hdrained : input.drained rest = true) :
    rest.filter (fun y => !input.pastBound y.key) = [] := by
  rw [h.split] at hkeyed
  cases rest with
  | nil => rfl
  | cons first behind =>
    have hpast : input.pastBound first.key = true := hdrained
    refine List.filter_eq_nil_iff.mpr fun y hy => ?_
    rcases List.mem_cons.mp hy with rfl | hy
    · simp [hpast]
    · have hlt := hkeyed.lt_of_mem_back hy
      revert hpast
      unfold WalkInput.pastBound
      cases input.snapshotBound with
      | none => simp
      | some bound =>
        intro hpast
        simp [(of_decide_eq_true hpast).trans hlt]

theorem upTo_eq (h : PageOf input session whole examined delivered counted rest page) :
    whole.filter (fun y => !input.pastBound y.key) =
      examined ++ rest.filter fun y => !input.pastBound y.key := by
  have hwithin : examined.filter (fun y => !input.pastBound y.key) = examined :=
    List.filter_eq_self.mpr fun y hy => by simp [h.within y hy]
  rw [h.split, List.filter_append, hwithin]

end PageOf

/-! ## The page of a continuation -/

/-- The payload a continuation stands for. -/
def Resumes : Option (List UInt8) → Option CursorPayload → Prop
  | none, presented => presented = none
  | some bytes, presented => ∃ payload, CursorPayload.decode bytes = .ok payload ∧
      presented = some payload

/-- An accepted continuation decodes, to a payload that carries the query's fingerprint. -/
theorem presentedPayload_eq_ok {expected : UInt64} {bytes : List UInt8}
    {lease : Option SnapshotLease} {payload : CursorPayload}
    (h : presentedPayload expected bytes lease = .ok payload) :
    CursorPayload.decode bytes = .ok payload ∧ payload.fingerprint = expected := by
  obtain ⟨decoded, hdecode, hchecked⟩ := bind_eq_ok_iff.mp h
  obtain ⟨_, hverified, hleased⟩ := bind_eq_ok_iff.mp hchecked
  have hown : decoded.fingerprint = expected := by
    by_contra hother
    rw [CursorPayload.verify, if_neg hother] at hverified
    cases hverified
  have hsame : decoded = payload := by
    cases lease with
    | none => exact Except.ok.inj hleased
    | some lease =>
      obtain ⟨_, -, hdone⟩ := bind_eq_ok_iff.mp hleased
      exact Except.ok.inj hdone
  exact ⟨hsame ▸ hdecode, hsame ▸ hown⟩

/-- An accepted query answers the page of the payload its continuation stands for, one of its own. -/
theorem recordsInner_own {stores : Nat → TelemetryStore} {query : RecordsQuery}
    {budget : QueryBudget} {clock : Clock} {continuation : Option (List UInt8)}
    {lease : Option SnapshotLease} {page : Page RecordView}
    (h : recordsInner stores query budget clock continuation lease = .ok page) :
    ∃ presented, Resumes continuation presented ∧
      (∀ payload ∈ presented, payload.fingerprint = fingerprint query.canonicalBytes) ∧
      page = answer stores query budget clock presented := by
  cases continuation with
  | none => exact ⟨none, rfl, fun _ hnone => absurd hnone (by simp), (Except.ok.inj h).symm⟩
  | some bytes =>
    unfold recordsInner at h
    cases hpayload : presentedPayload (fingerprint query.canonicalBytes) bytes lease with
    | error error => simp [hpayload] at h
    | ok payload =>
      simp only [hpayload] at h
      obtain ⟨hdecode, hown⟩ := presentedPayload_eq_ok hpayload
      exact ⟨some payload, ⟨payload, hdecode, rfl⟩, fun _ hsome => Option.some.inj hsome ▸ hown,
        (Except.ok.inj h).symm⟩

theorem recordsInner_eq_ok {stores : Nat → TelemetryStore} {query : RecordsQuery}
    {budget : QueryBudget} {clock : Clock} {continuation : Option (List UInt8)}
    {lease : Option SnapshotLease} {page : Page RecordView}
    (h : recordsInner stores query budget clock continuation lease = .ok page) :
    ∃ presented, Resumes continuation presented ∧
      page = answer stores query budget clock presented := by
  obtain ⟨presented, hresumes, -, hpage⟩ := recordsInner_own h
  exact ⟨presented, hresumes, hpage⟩

end RuntimeTrail
