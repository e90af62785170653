import RuntimeTrail.Query.Advance

/-!
# The snapshot of a first page

A first page's cursor carries its pulled frontier, the last key of the batch it
was pulling when it stopped.  The frontier is there, and it is the largest key
pulled, unless the walk was counting behind a byte wall when the kind ran out
under it: every record behind the batch was evicted before the next pull.

* **the keys pulled** — `Walk.Pulled`, and `Walk.pulled_le` which bounds them by the
  last record of a page's last batch;
* **the counted end** — `CountsOut`;
* **the law** — `snapshot_kept_iff`.
-/

namespace RuntimeTrail

open Library

namespace Walk

variable {input : WalkInput} {session : BudgetSession} {residents : Nat → List Yield} {w : Walk}

/-! ## The keys pulled -/

/-- A record of this key was in one of the page's batches. -/
def Pulled (input : WalkInput) (session : BudgetSession) (key : AdmissionKey) : Prop :=
  ∃ w emptyPages, TakesTurn input session w emptyPages ∧ ∃ y ∈ w.batch input, y.key = key

/-- A scan over residents in key order answers a batch in key order, and claims its last key. -/
theorem batch_keyed (hscans : input.ScansEach residents)
    (hkeyed : ∀ n, Keyed Yield.key (residents n)) : Keyed Yield.key (w.batch input) := by
  rw [batch, hscans]
  exact ((hkeyed w.calls).filter _).take

/-- What a scan claims is the last key it answered. -/
theorem batchCursor_eq (hscans : input.ScansEach residents) {cursor : AdmissionKey}
    (h : w.batchCursor input = some cursor) :
    ∃ last, (w.batch input).getLast? = some last ∧ last.key = cursor := by
  rw [batchCursor, hscans] at h
  rw [batch, hscans]
  dsimp only at h ⊢
  split at h
  · exact Option.map_eq_some_iff.mp h
  · cases h

/-- The frontier behind a batch is its last key. -/
theorem frontier_pulled (hscans : input.ScansEach residents) :
    (w.pulled input).frontier = (w.batch input).getLast?.map Yield.key := by
  rw [pulled]
  dsimp only
  cases hcursor : w.batchCursor input with
  | none => rfl
  | some cursor =>
    obtain ⟨last, hlast, rfl⟩ := batchCursor_eq hscans hcursor
    rw [hlast]
    rfl

/-- A batch lies past the resume point it was pulled from. -/
theorem lt_of_mem_batch (hscans : input.ScansEach residents) {y : Yield} (hy : y ∈ w.batch input)
    {anchor : AdmissionKey} (hafter : w.after = some anchor) : anchor < y.key := by
  rw [batch, hscans] at hy
  have hfollows := (List.mem_filter.mp (List.mem_of_mem_take hy)).2
  rw [hafter] at hfollows
  exact of_decide_eq_true hfollows

/-- The walk resumes from a key on, or past it. -/
def ResumesPast (key : AdmissionKey) (w : Walk) : Prop :=
  ∃ anchor, w.after = some anchor ∧ key ≤ anchor

/-- No turn takes the resume point back. -/
theorem ResumesPast.turnInvariant (hscans : input.ScansEach residents) (key : AdmissionKey) :
    TurnInvariant input (ResumesPast key) where
  pulled _ _ h := h
  examined _ _ _ h := by
    rw [ResumesPast, (examine_frame _ input _ _).2.1]
    exact h
  resumed := by
    rintro w cursor n hcursor ⟨anchor, hafter, hle⟩
    refine ⟨cursor, rfl, hle.trans ?_⟩
    rw [hscans] at hcursor
    dsimp only at hcursor
    split at hcursor
    · obtain ⟨last, hlast, rfl⟩ := Option.map_eq_some_iff.mp hcursor
      have hfollows := (List.mem_filter.mp (List.mem_of_mem_take (List.mem_of_getLast? hlast))).2
      rw [hafter] at hfollows
      exact (of_decide_eq_true hfollows).le
    · cases hcursor
  finished := by
    intro w h
    rw [ResumesPast, (finishCountingOrComplete_frame w input).2.1]
    exact h
  stalled _ h := h

/-- A turn that goes on behind a batch resumes past every key of it. -/
theorem turn_resumesPast (hscans : input.ScansEach residents)
    (hkeyed : ∀ n, Keyed Yield.key (residents n)) {emptyPages : Nat}
    (hgoes : (w.turn input emptyPages).1.stopped = none) {y : Yield} (hy : y ∈ w.batch input) :
    (w.turn input emptyPages).1.ResumesPast y.key := by
  have hall := w.turning input emptyPages
  generalize w.turn input emptyPages = s at hall hgoes ⊢
  cases hall with
  | exhausted nothing last => exact absurd hy (by rw [nothing]; simp)
  | stalled nothing claimed limit => exact absurd hy (by rw [nothing]; simp)
  | waits nothing claimed room => exact absurd hy (by rw [nothing]; simp)
  | stops yielded stop =>
    dsimp only at hgoes
    rw [hgoes] at stop
    cases stop
  | resumes yielded goes claimed =>
    obtain ⟨last, hlast, rfl⟩ := batchCursor_eq hscans claimed
    exact ⟨last.key, rfl, (batch_keyed hscans hkeyed).le_getLast hlast hy⟩
  | ends yielded goes last =>
    have hstopped := finishCountingOrComplete_stopped
      (examineBatch input (w.pulled input) (w.batch input)) input
    dsimp only at hgoes
    rw [hgoes] at hstopped
    cases hstopped

/-- **The last record of a page's last batch is the largest it pulled.** -/
theorem pulled_le (hscans : input.ScansEach residents)
    (hkeyed : ∀ n, Keyed Yield.key (residents n)) {emptyPages : Nat}
    (hturn : TakesTurn input session w emptyPages)
    (hstop : (w.turn input emptyPages).1.stopped.isSome) {last : Yield}
    (hlast : (w.batch input).getLast? = some last) {key : AdmissionKey}
    (hpulled : Pulled input session key) : key ≤ last.key := by
  obtain ⟨w', emptyPages', hturn', y, hy, rfl⟩ := hpulled
  have hwithin : y ∈ w.batch input → y.key ≤ last.key :=
    (batch_keyed hscans hkeyed).le_getLast hlast
  rcases hturn.1.linear hturn'.1 with hlater | hearlier
  · -- behind the last turn there is no other
    rcases hlater.cases_first with hsame | ⟨s, turn, rest⟩
    · obtain ⟨rfl, -⟩ := Prod.mk.inj hsame
      exact hwithin hy
    · obtain rfl := Option.some.inj (hturn.step_eq.symm.trans turn)
      rw [going_of_visits rest hturn'.2] at hstop
      cases hstop
  · rcases hearlier.cases_first with hsame | ⟨s, turn, rest⟩
    · obtain ⟨rfl, -⟩ := Prod.mk.inj hsame
      exact hwithin hy
    · obtain rfl := Option.some.inj (hturn'.step_eq.symm.trans turn)
      have hpast : w.ResumesPast y.key :=
        visits_invariant rest (ResumesPast.turnInvariant hscans y.key)
          (turn_resumesPast hscans hkeyed (going_of_visits rest hturn.2) hy)
      obtain ⟨anchor, hafter, hle⟩ := hpast
      exact hle.trans (lt_of_mem_batch hscans (List.mem_of_getLast? hlast) hafter).le

/-- A page that hands a cursor back, and was not counting when it was answered an empty batch, was
answered a last batch with a record in it, and its frontier is that batch's last key. -/
theorem lastBatch_of_cursor (hscans : input.ScansEach residents)
    (hcounts : ∀ w emptyPages, TakesTurn input session w emptyPages → w.counting.isSome →
      w.batch input ≠ []) {outcome : PartOutcome} {next : List UInt8}
    (hstop : (lastWalk input session).stopped = some outcome)
    (hcursor : outcome.nextCursor = some next) :
    ∃ w emptyPages last, TakesTurn input session w emptyPages ∧
      (w.turn input emptyPages).1.stopped.isSome ∧ (w.batch input).getLast? = some last ∧
      (lastWalk input session).frontier = some last.key := by
  obtain ⟨w, emptyPages, hturn, hlast⟩ := exists_lastTurn input session
  have hstopped : (w.turn input emptyPages).1.stopped.isSome := by
    rw [← hlast, hstop]
    rfl
  have hframe := examineBatch_frame input (w.batch input) (w.pulled input)
  have hyielded : w.batch input ≠ [] → ∃ last, (w.batch input).getLast? = some last ∧
      (w.pulled input).frontier = some last.key := fun hne => by
    refine ⟨_, List.getLast?_eq_some_getLast hne, ?_⟩
    rw [frontier_pulled hscans, List.getLast?_eq_some_getLast hne]
    rfl
  obtain ⟨last, hget, hfrontier⟩ : ∃ last, (w.batch input).getLast? = some last ∧
      (w.turn input emptyPages).1.frontier = some last.key := by
    rw [hlast] at hstop
    have hall := w.turning input emptyPages
    generalize w.turn input emptyPages = s at hall hstop ⊢
    cases hall with
    | exhausted nothing hover =>
      have hphase : (w.pulled input).counting = none := by
        cases hphase : w.counting with
        | none => exact hphase
        | some counting =>
          exact absurd nothing (hcounts w emptyPages hturn (by rw [hphase]; rfl))
      simp only [finishCountingOrComplete, hphase, Option.some.injEq] at hstop
      subst hstop
      cases hcursor
    | stalled nothing claimed limit =>
      obtain rfl := Option.some.inj hstop
      cases hcursor
    | waits nothing claimed room =>
      change w.stopped = _ at hstop
      rw [hturn.2] at hstop
      cases hstop
    | stops yielded stop =>
      obtain ⟨last, hget, hkey⟩ := hyielded yielded
      exact ⟨last, hget, hframe.1.trans hkey⟩
    | resumes yielded goes claimed =>
      change (examineBatch input (w.pulled input) (w.batch input)).stopped = _ at hstop
      rw [goes] at hstop
      cases hstop
    | ends yielded goes hover =>
      obtain ⟨last, hget, hkey⟩ := hyielded yielded
      exact ⟨last, hget, (finishCountingOrComplete_frame _ input).1.trans (hframe.1.trans hkey)⟩
  exact ⟨w, emptyPages, last, hturn, hstopped, hget, by rw [hlast, hfrontier]⟩

end Walk

/-! ## The law -/

/-- The kind ran out under a first page that was counting: an empty batch with nothing behind it. -/
def CountsOut (input : WalkInput) (session : BudgetSession) : Prop :=
  input.presented = none ∧ 0 < session.ledger.results.remaining ∧ ∃ w emptyPages,
    Walk.TakesTurn input session w emptyPages ∧ w.counting.isSome ∧ w.batch input = []

/-- What is relied on where a cursor is minted: the chain's boundary or a pulled frontier is there, and
the snapshot of a first page covers every record the page pulled. -/
structure SnapshotKept (input : WalkInput) (session : BudgetSession) (next : List UInt8) : Prop where
  asserted : (input.snapshotBound.or (Walk.lastWalk input session).frontier).isSome
  covers : input.presented = none → ∃ payload, CursorPayload.decode next = .ok payload ∧
    ∀ key, Walk.Pulled input session key → key ≤ payload.snapshot

section Law

variable {stores : Nat → TelemetryStore} {residency : Nat → Residency} {query : RecordsQuery}
  {clock : Clock} {session : BudgetSession} {next : List UInt8}

/-- The cursor of a walked page is that of the outcome its walk stopped on. -/
theorem walkRecords_nextCursor {input : WalkInput}
    (h : (walkRecords input session).nextCursor = some next) :
    ∃ outcome, (Walk.lastWalk input session).stopped = some outcome ∧
      outcome.nextCursor = some next := by
  obtain ⟨outcome, hstop⟩ := Option.isSome_iff_exists.mp (Walk.lastWalk_stopped input session)
  refine ⟨outcome, hstop, ?_⟩
  rw [← h, walkRecords, Walk.run, Walk.assemble_nextCursor]
  change _ = ((Walk.lastWalk input session).stopped.getD .complete).nextCursor
  rw [hstop]
  rfl

/-- A page that is counted out mints a cursor with no frontier. -/
theorem not_asserted_of_countsOut
    (hserves : ∀ n, (stores n).Serves (residency n))
    (h : CountsOut (walkInput stores query clock none) session) :
    ∃ next, (walkRecords (walkInput stores query clock none) session).nextCursor = some next ∧
      ¬ SnapshotKept (walkInput stores query clock none) session next := by
  obtain ⟨-, -, w, emptyPages, hturn, hcounting, hempty⟩ := h
  generalize hinput : walkInput stores query clock none = input at *
  have hbound : input.snapshotBound = none := by subst hinput; rfl
  have hscans : input.ScansEach fun n => (residency n).yields query.kind := by
    subst hinput
    exact fun n after limit => (hserves n).pull query.kind after limit
  obtain ⟨counting, hcounting⟩ := Option.isSome_iff_exists.mp hcounting
  have hcursor : w.batchCursor input = none := by
    cases hclaimed : w.batchCursor input with
    | none => rfl
    | some cursor =>
      obtain ⟨last, hlast, -⟩ := Walk.batchCursor_eq hscans hclaimed
      rw [hempty] at hlast
      cases hlast
  have hresult : w.turn input emptyPages =
      ((w.pulled input).finishCountingOrComplete input, emptyPages) := by
    have hall := w.turning input emptyPages
    generalize w.turn input emptyPages = s at hall ⊢
    cases hall with
    | exhausted nothing last => rfl
    | stalled nothing claimed limit =>
      rw [hcursor] at claimed
      cases claimed
    | waits nothing claimed room =>
      rw [hcursor] at claimed
      cases claimed
    | stops yielded stop => exact absurd hempty yielded
    | resumes yielded goes claimed => exact absurd hempty yielded
    | ends yielded goes last => exact absurd hempty yielded
  have hlast : Walk.lastWalk input session = (w.pulled input).finishCountingOrComplete input := by
    rw [hturn.last (by rw [hresult]; exact Walk.finishCountingOrComplete_stopped _ _), hresult]
  have hfrontier : (Walk.lastWalk input session).frontier = none := by
    rw [hlast, (Walk.finishCountingOrComplete_frame _ input).1, Walk.frontier_pulled hscans, hempty]
    rfl
  refine ⟨(w.pulled input).cursorBytes input counting.last, ?_, fun hkept => ?_⟩
  · change ((Walk.lastWalk input session).assemble input).nextCursor = _
    rw [Walk.assemble_nextCursor, hlast]
    simp only [Walk.finishCountingOrComplete, show (w.pulled input).counting = some counting from
      hcounting]
    rfl
  · have hasserted := hkept.asserted
    rw [hbound, hfrontier] at hasserted
    cases hasserted

/-- A first page that is not counted out mints its cursor over everything it pulled. -/
theorem snapshotKept_of_not_countsOut (hserves : ∀ n, (stores n).Serves (residency n))
    (hwords : ∀ n, ∀ y ∈ (residency n).yields query.kind, y.key.InRange)
    (hresults : 0 < session.ledger.results.remaining)
    (hnot : ¬ CountsOut (walkInput stores query clock none) session)
    (hnext : (walkRecords (walkInput stores query clock none) session).nextCursor = some next) :
    SnapshotKept (walkInput stores query clock none) session next := by
  generalize hinput : walkInput stores query clock none = input at *
  have hbound : input.snapshotBound = none := by subst hinput; rfl
  have hpresented : input.presented = none := by subst hinput; rfl
  have hscans : input.ScansEach fun n => (residency n).yields query.kind := by
    subst hinput
    exact fun n after limit => (hserves n).pull query.kind after limit
  have hkeyed : ∀ n, Keyed Yield.key ((residency n).yields query.kind) := fun n =>
    (residency n).keyed_yields query.kind
  obtain ⟨outcome, hstop, hcursor⟩ := walkRecords_nextCursor hnext
  obtain ⟨w, emptyPages, last, hturn, hstopped, hlastOf, hfrontier⟩ :=
    Walk.lastBatch_of_cursor hscans (fun w emptyPages hturn hcounting hempty =>
      hnot ⟨hpresented, hresults, w, emptyPages, hturn, hcounting, hempty⟩) hstop hcursor
  refine ⟨by rw [hbound, hfrontier]; rfl, fun _ => ?_⟩
  rcases Walk.lastWalk_cursor (Q := AdmissionKey.InRange) hscans (fun n y hy _ => hwords n y hy)
    hresults hstop with hmints | ⟨-, hecho⟩
  · obtain ⟨key, hword, rfl⟩ := hmints next hcursor
    have hsnapshot : (input.mint (Walk.lastWalk input session).frontier key).snapshot = last.key := by
      rw [WalkInput.mint, hbound, hfrontier]
      rfl
    have hlastWord : last.key.InRange := by
      have hmem := List.mem_of_getLast? hlastOf
      rw [Walk.batch, hscans] at hmem
      exact hwords _ last (List.mem_filter.mp (List.mem_of_mem_take hmem)).1
    refine ⟨_, CursorPayload.decode_encode ⟨hword.time, hword.entity, ?_⟩, fun pulled hpulled => ?_⟩
    · rw [hsnapshot]
      exact hlastWord
    · rw [hsnapshot]
      exact Walk.pulled_le hscans hkeyed hturn hstopped hlastOf hpulled
  · rw [hcursor, hpresented] at hecho
    cases hecho

/-- **When a cursor keeps its snapshot.**  For every sequence of stores between whose calls records
are kept and evicted, every query, budget, clock and continuation: the page's cursor is minted with
the chain's boundary or a pulled frontier, and on a first page over every record it pulled, exactly
when the kind did not run out under a first page that was counting. -/
theorem snapshot_kept_iff {budget : QueryBudget} {presented : Option CursorPayload}
    (hserves : ∀ n, (stores n).Serves (residency n))
    (hwords : ∀ n, ∀ y ∈ (residency n).yields query.kind, y.key.InRange) :
    (∀ next, (answer stores query budget clock presented).nextCursor = some next →
        SnapshotKept (walkInput stores query clock presented) (budget.admitSession (clock 0)) next) ↔
      ¬ CountsOut (walkInput stores query clock presented) (budget.admitSession (clock 0)) := by
  by_cases hresults : (budget.admitSession (clock 0)).ledger.remainingResults = 0
  · refine iff_of_true (fun next hnext => ?_) fun hout => ?_
    · rw [answer, if_pos hresults] at hnext
      exact absurd hnext (by simp [emptyPage])
    · exact absurd hresults (Nat.ne_of_gt hout.2.1)
  · have hanswer : answer stores query budget clock presented =
        walkRecords (walkInput stores query clock presented) (budget.admitSession (clock 0)) :=
      if_neg hresults
    rw [hanswer]
    cases presented with
    | none =>
      constructor
      · intro hkept hout
        obtain ⟨next, hnext, hnot⟩ := not_asserted_of_countsOut hserves hout
        exact hnot (hkept next hnext)
      · exact fun hnot next => snapshotKept_of_not_countsOut hserves hwords
          (Nat.pos_of_ne_zero hresults) hnot
    | some payload =>
      -- a continuation passes its boundary through
      exact iff_of_true (fun next _ => ⟨rfl, fun hnone => absurd hnone (by simp [walkInput])⟩)
        fun hout => absurd hout.1 (by simp [walkInput])

end Law

/-- Three logs kept, and a page for one of them. -/
theorem snapshot_kept_iff_keptLogs :
    (∀ next, (answer (fun _ => (keptLogs 3).driver) (.new .logRecords) budgetOfOne still
        none).nextCursor = some next →
          SnapshotKept (walkInput (fun _ => (keptLogs 3).driver) (.new .logRecords) still none)
            (budgetOfOne.admitSession (still 0)) next) ↔
      ¬ CountsOut (walkInput (fun _ => (keptLogs 3).driver) (.new .logRecords) still none)
        (budgetOfOne.admitSession (still 0)) :=
  @snapshot_kept_iff (fun _ => (keptLogs 3).driver) (fun _ => (keptLogs 3).residency)
    (.new .logRecords) still budgetOfOne none (fun _ => (keptLogs 3).serves)
    (fun _ => by decide +kernel)

/-- One log more than a batch holds, and a retention pass that evicts them all. -/
def emptied : Timeline where
  config := ⟨1000, 1000000, 50, 5⟩
  hook := true
  ops t :=
    if t ≤ 64 then .keepLogRecord ⟨.serial (t + 1), ⟨0⟩, ⟨t, .bare none none⟩⟩
    else .enforceRetention ⟨1000⟩

/-- A page for one byte, pulling once before that pass and then behind it. -/
def PageCall.counting : PageCall where
  budget := ⟨1, 1000, 1, 1000, 0⟩
  clock := still
  moments n := min (65 + n) 66
  answered := 66
  inOrder n := by omega
  before n := by omega

/-- The first batch fills the page, the second one is empty: the cursor behind it is minted with no
frontier. -/
theorem not_snapshot_kept : ¬ ∀ (T : Timeline) (query : RecordsQuery) (call : PageCall)
    (presented : Option CursorPayload) (next : List UInt8),
    (∀ m n, m ≤ n → call.clock m ≤ call.clock n) →
    (answer (fun n => T.history (call.moments n)) query call.budget call.clock
      presented).nextCursor = some next →
        SnapshotKept (walkInput (fun n => T.history (call.moments n)) query call.clock presented)
          (call.budget.admitSession (call.clock 0)) next := by
  intro hclaim
  obtain ⟨next, hnext⟩ : ∃ next, (answer (fun n => emptied.history (PageCall.counting.moments n))
      (.new .logRecords) PageCall.counting.budget PageCall.counting.clock none).nextCursor =
        some next :=
    Option.isSome_iff_exists.mp (by decide +kernel)
  have hkept := hclaim emptied (.new .logRecords) .counting none next (fun _ _ _ => le_rfl) hnext
  have hfrontier : ((walkInput (fun n => emptied.history (PageCall.counting.moments n))
      (.new .logRecords) PageCall.counting.clock none).snapshotBound.or
        (Walk.lastWalk (walkInput (fun n => emptied.history (PageCall.counting.moments n))
          (.new .logRecords) PageCall.counting.clock none)
          (PageCall.counting.budget.admitSession (PageCall.counting.clock 0))).frontier).isSome =
            false := by
    decide +kernel
  rw [hkept.asserted] at hfrontier
  cases hfrontier

end RuntimeTrail
