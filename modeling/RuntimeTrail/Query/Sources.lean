import RuntimeTrail.Query.Page

/-!
# A page over a store that changes

Keeps and evictions may fall between any two of a page's store calls, so each
call reads a residency of its own.

* **turns** — `Walk.TurnInvariant`: what survives everything a turn of the page
  loop does survives the page;
* **where items come from** — `items_drawn`: a returned record stood in the
  residency of one of the page's calls, past the resume point and within the
  bound, and matched the filters;
* **the gap** — `gap_iff`: an eviction gap is named exactly when the anchor's
  entity was not resident at the page's first call, on every exit of the walk.
-/

namespace RuntimeTrail

open Library

namespace Walk

/-- What survives everything a turn of the page loop does. -/
structure TurnInvariant (input : WalkInput) (I : Walk → Prop) : Prop where
  pulled : ∀ {w : Walk} (frontier : Option AdmissionKey) (calls : Nat), I w →
    I { w with frontier := frontier, calls := calls }
  examined : ∀ {w : Walk} {yielded : Yield} (n tail : Nat),
    yielded ∈ ((input.stores n).pull input.kind w.after scanBatch).1 → I w →
      I (w.examine input yielded tail)
  resumed : ∀ {w : Walk} {cursor : AdmissionKey} (n : Nat),
    ((input.stores n).pull input.kind w.after scanBatch).2 = some cursor → I w →
      I { w with after := some cursor }
  finished : ∀ {w : Walk}, I w → I (w.finishCountingOrComplete input)
  stalled : ∀ {w : Walk} (entity : EntityId), I w →
    I { w with coverage := w.coverage ++ [.driverStall entity], stopped := some .stalled }

namespace TurnInvariant

variable {input : WalkInput} {I : Walk → Prop}

/-- A batch is examined from one resume point. -/
theorem batch (h : TurnInvariant input I) (n : Nat) (batch : List Yield) {w : Walk}
    (hbatch : ∀ y ∈ batch, y ∈ ((input.stores n).pull input.kind w.after scanBatch).1) (hw : I w) :
    I (examineBatch input w batch) ∧ (examineBatch input w batch).after = w.after := by
  induction batch generalizing w with
  | nil => exact ⟨hw, rfl⟩
  | cons yielded rest ih =>
    have hafter := (w.examine_frame input yielded rest.length).2.1
    have hon := h.examined n rest.length (hbatch yielded (by simp)) hw
    rw [examineBatch]
    split
    · exact ⟨hon, hafter⟩
    · obtain ⟨hrest, hrestAfter⟩ := ih (w := w.examine input yielded rest.length)
        (fun y hy => by rw [hafter]; exact hbatch y (List.mem_cons_of_mem _ hy)) hon
      exact ⟨hrest, hrestAfter.trans hafter⟩

/-- **One turn keeps it.** -/
theorem turn (h : TurnInvariant input I) {w : Walk} (hw : I w) (emptyPages : Nat) :
    I (w.turn input emptyPages).1 := by
  unfold Walk.turn
  generalize hpull : (input.stores w.calls).pull input.kind w.after scanBatch = pulled
  obtain ⟨batch, batchCursor⟩ := pulled
  dsimp only
  have hpulled := h.pulled (batchCursor.or (batch.getLast?.map Yield.key)) (w.calls + 1) hw
  split
  · cases batchCursor with
    | none => exact h.finished hpulled
    | some cursor =>
      dsimp only
      split
      · exact h.stalled _ hpulled
      · exact h.resumed (w := { w with
          frontier := (some cursor).or (batch.getLast?.map Yield.key)
          calls := w.calls + 1 }) w.calls (congrArg Prod.snd hpull) hpulled
  · obtain ⟨hexamined, hsame⟩ := h.batch w.calls batch (w := { w with
      frontier := batchCursor.or (batch.getLast?.map Yield.key)
      calls := w.calls + 1 }) (fun y hy => by rw [hpull]; exact hy) hpulled
    split
    · exact hexamined
    · cases batchCursor with
      | none => exact h.finished hexamined
      | some next =>
        exact h.resumed w.calls (by rw [hsame]; exact congrArg Prod.snd hpull) hexamined

/-- **What every turn keeps holds at the end of the page loop.** -/
theorem run (h : TurnInvariant input I) {w : Walk} (hw : I w) :
    I ((pages input).run (w, 0)).1 := by
  refine (pages input).run_invariant (I := fun s => I s.1) ?_ hw
  rintro ⟨w, emptyPages⟩ s' hs hstep
  change (if w.stopped.isSome then none else some (w.turn input emptyPages)) = some s' at hstep
  split at hstep
  · exact absurd hstep (by simp)
  · obtain rfl := Option.some.inj hstep
    exact h.turn hs emptyPages

end TurnInvariant

/-! ## Where items come from -/

theorem finishCountingOrComplete_items (w : Walk) (input : WalkInput) :
    (w.finishCountingOrComplete input).items = w.items := by
  unfold finishCountingOrComplete
  cases w.counting <;> rfl

theorem stopBeforeExamining_items (w : Walk) (input : WalkInput) (refusal : BudgetRefusal) :
    (w.stopBeforeExamining input refusal).items = w.items := by
  unfold stopBeforeExamining
  cases w.counting with
  | some counting => rfl
  | none => cases w.lastExamined <;> rfl

/-- An examination adds the record it examines, within the bound and matching, or nothing. -/
theorem examine_items (w : Walk) (input : WalkInput) (yielded : Yield) (tail : Nat) :
    (w.examine input yielded tail).items = w.items ∨
      input.pastBound yielded.key = false ∧ input.filters.matchesView yielded.record = true ∧
        (w.examine input yielded tail).items = w.items ++ [yielded.record] := by
  have hscanned : ∀ session, (w.scanned session yielded.key).items = w.items := fun session =>
    (w.scanned_frame session yielded.key).2.2.2.1
  have hall := w.examination input yielded tail
  generalize w.examine input yielded tail = w' at hall ⊢
  cases hall with
  | pastBound past => exact Or.inl (finishCountingOrComplete_items _ _)
  | unscanned within scan => exact Or.inl (stopBeforeExamining_items _ _ _)
  | skipped within scan filtered => exact Or.inl (hscanned _)
  | counted within scan matching phase => exact Or.inl (hscanned _)
  | resultsSpent within scan matching phase spent => exact Or.inl (hscanned _)
  | resultsRefused within scan matching phase unspent results => exact Or.inl (hscanned _)
  | unfit within scan matching phase unspent results wall => exact Or.inl (hscanned _)
  | bytesRefused within scan matching phase unspent results fits bytes =>
    exact Or.inl (hscanned _)
  | included within scan matching phase unspent results fits bytes =>
    exact Or.inr ⟨within, matching, rfl⟩

end Walk

/-- Each call of the page scans over a residency of its own. -/
def WalkInput.ScansEach (input : WalkInput) (residents : Nat → List Yield) : Prop :=
  ∀ n after limit, (input.stores n).pull input.kind after limit =
    ((Walk.aheadOf (residents n) after).take limit,
      if limit < (Walk.aheadOf (residents n) after).length then
        ((Walk.aheadOf (residents n) after).take limit).getLast?.map Yield.key
      else none)

/-- A record came from the residency of one of the page's calls, past the resume point, within the
bound, and matching. -/
def WalkInput.Draws (input : WalkInput) (residents : Nat → List Yield) (record : RecordView) :
    Prop :=
  ∃ n, ∃ y ∈ residents n, y.record = record ∧
    y.key.follows (input.presented.map CursorPayload.anchor) = true ∧
    input.pastBound y.key = false ∧ input.filters.matchesView record = true

/-- The walk's resume point is where it started, or past it. -/
def Walk.Resumed (input : WalkInput) (w : Walk) : Prop :=
  ∀ key : AdmissionKey, key.follows w.after = true →
    key.follows (input.presented.map CursorPayload.anchor) = true

section Resumed

variable {input : WalkInput} {residents : Nat → List Yield} {w : Walk}

/-- What a scan yields is resident at its call, and past where the walk started. -/
theorem Walk.Resumed.yielded (h : w.Resumed input) (hscans : input.ScansEach residents) {n : Nat}
    {yielded : Yield} (hmem : yielded ∈ ((input.stores n).pull input.kind w.after scanBatch).1) :
    yielded ∈ residents n ∧ yielded.key.follows w.after = true ∧
      yielded.key.follows (input.presented.map CursorPayload.anchor) = true := by
  rw [hscans] at hmem
  obtain ⟨hstands, hfollows⟩ := List.mem_filter.mp (List.mem_of_mem_take hmem)
  exact ⟨hstands, hfollows, h _ hfollows⟩

/-- The cursor of a scan is the key of a record it had ahead. -/
theorem Walk.Resumed.resume (h : w.Resumed input) (hscans : input.ScansEach residents) {n : Nat}
    {cursor : AdmissionKey}
    (hcursor : ((input.stores n).pull input.kind w.after scanBatch).2 = some cursor) :
    Walk.Resumed input { w with after := some cursor } := by
  intro key hkey
  rw [hscans] at hcursor
  dsimp only at hcursor
  split at hcursor
  · obtain ⟨last, hlast, rfl⟩ := Option.map_eq_some_iff.mp hcursor
    have hmem := List.mem_of_mem_take (List.mem_of_getLast? hlast)
    exact AdmissionKey.follows_of_lt (h _ (List.mem_filter.mp hmem).2) (of_decide_eq_true hkey)
  · exact absurd hcursor (by simp)

end Resumed

/-- **Where the items of a page come from.** -/
theorem items_drawn {input : WalkInput} {residents : Nat → List Yield}
    (hscans : input.ScansEach residents) (session : BudgetSession) :
    ∀ record ∈ (walkRecords input session).items, input.Draws residents record := by
  have hinvariant : Walk.TurnInvariant input fun w =>
      w.Resumed input ∧ ∀ record ∈ w.items, input.Draws residents record :=
    { pulled := fun _ _ h => h
      examined := by
        rintro w yielded n tail hmem ⟨hresumed, hitems⟩
        have hafter := (w.examine_frame input yielded tail).2.1
        refine ⟨by rw [Walk.Resumed, hafter]; exact hresumed, ?_⟩
        rcases w.examine_items input yielded tail with hsame | ⟨within, matched, hadded⟩
        · rw [hsame]
          exact hitems
        · rw [hadded]
          intro record hrecord
          rcases List.mem_append.mp hrecord with hrecord | hrecord
          · exact hitems record hrecord
          · obtain rfl := List.mem_singleton.mp hrecord
            obtain ⟨hstands, -, hpast⟩ := hresumed.yielded hscans hmem
            exact ⟨n, yielded, hstands, rfl, hpast, within, matched⟩
      resumed := by
        rintro w cursor n hcursor ⟨hresumed, hitems⟩
        exact ⟨hresumed.resume hscans hcursor, hitems⟩
      finished := fun {w} h => by
        obtain ⟨-, hafter, -⟩ := w.finishCountingOrComplete_frame input
        rw [Walk.Resumed, hafter, w.finishCountingOrComplete_items]
        exact h
      stalled := fun _ h => h }
  exact (hinvariant.run (w := walkStart input session)
    ⟨fun _ h => h, fun record h => absurd h (by simp [walkStart])⟩).2

/-! ## The gap -/

/-- Whether a coverage names an eviction gap. -/
def CoverageEntry.isGap : CoverageEntry → Bool
  | evictionGap _ _ => true
  | _ => false

/-- Whether a walk has named its eviction gap, or still has it to name. -/
def Walk.gap (w : Walk) : Bool := w.coverage.any CoverageEntry.isGap || w.pendingGap.isSome

theorem Walk.gap_scanned (w : Walk) (session : BudgetSession) (key : AdmissionKey) :
    (w.scanned session key).gap = w.gap := by
  unfold gap scanned
  cases hgap : w.pendingGap <;> simp [Walk.asked, hgap, CoverageEntry.isGap]

theorem Walk.gap_finish (w : Walk) (input : WalkInput) :
    (w.finishCountingOrComplete input).gap = w.gap := by
  unfold finishCountingOrComplete
  cases w.counting <;> rfl

theorem Walk.gap_stopBefore (w : Walk) (input : WalkInput) (refusal : BudgetRefusal) :
    (w.stopBeforeExamining input refusal).gap = w.gap := by
  unfold stopBeforeExamining gap
  cases w.counting with
  | some counting => simp [CoverageEntry.isGap]
  | none => cases w.lastExamined <;> rfl

/-- An examination moves a pending gap into the coverage, and changes nothing else about it. -/
theorem Walk.gap_examine (w : Walk) (input : WalkInput) (yielded : Yield) (tail : Nat) :
    (w.examine input yielded tail).gap = w.gap := by
  have hscanned := fun session => w.gap_scanned session yielded.key
  have hall := w.examination input yielded tail
  generalize w.examine input yielded tail = w' at hall ⊢
  cases hall with
  | pastBound past => exact gap_finish _ _
  | unscanned within scan => exact gap_stopBefore _ _ _
  | skipped within scan filtered => exact hscanned _
  | counted within scan matching phase => exact hscanned _
  | resultsSpent within scan matching phase spent => exact hscanned _
  | resultsRefused within scan matching phase unspent results => exact hscanned _
  | unfit within scan matching phase unspent results wall => exact hscanned _
  | bytesRefused within scan matching phase unspent results fits bytes => exact hscanned _
  | included within scan matching phase unspent results fits bytes => exact hscanned _

/-- **A continuation page names a gap exactly when its anchor's entity is not resident** at the
lookup the page makes, whatever the budget, the clock and the store's later changes. -/
theorem gap_iff (stores : Nat → TelemetryStore) (query : RecordsQuery) (budget : QueryBudget)
    (clock : Clock) (payload : CursorPayload) :
    (answer stores query budget clock (some payload)).execution.coverage.any CoverageEntry.isGap =
      !(stores 0).anchorIsResident query.kind payload.lastEntity := by
  unfold answer
  dsimp only
  split
  · -- the empty page of a zero results ceiling
    unfold emptyPage
    change (CoverageEntry.snapshotBoundary payload.snapshot ::
      if (stores 0).anchorIsResident query.kind payload.lastEntity then []
      else [.evictionGap payload.lastEntity payload.snapshot.entity]).any _ = _
    cases (stores 0).anchorIsResident query.kind payload.lastEntity <;> rfl
  · generalize hinput : walkInput stores query clock (some payload) = input
    generalize budget.admitSession (clock 0) = session
    have hstart : (walkStart input session).gap =
        !(stores 0).anchorIsResident query.kind payload.lastEntity := by
      subst hinput
      change ([CoverageEntry.snapshotBoundary payload.snapshot].any CoverageEntry.isGap ||
        (if (stores 0).anchorIsResident query.kind payload.lastEntity then none
          else some payload.lastEntity).isSome) = _
      cases (stores 0).anchorIsResident query.kind payload.lastEntity <;> rfl
    have hinvariant : Walk.TurnInvariant input fun w => w.gap =
        !(stores 0).anchorIsResident query.kind payload.lastEntity :=
      { pulled := fun _ _ h => h
        examined := fun _ _ _ h => (Walk.gap_examine _ _ _ _).trans h
        resumed := fun _ _ h => h
        finished := fun h => (Walk.gap_finish _ _).trans h
        stalled := fun {w} _ h => by
          rw [← h, Walk.gap, Walk.gap]
          simp [CoverageEntry.isGap] }
    rw [← hinvariant.run hstart, walkRecords, Walk.run]
    generalize ((Walk.pages input).run (walkStart input session, 0)).1 = last
    cases hpending : last.pendingGap <;>
      simp [Walk.assemble, Walk.gap, hpending, CoverageEntry.isGap]

end RuntimeTrail
