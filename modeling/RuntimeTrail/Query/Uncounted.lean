import RuntimeTrail.Query.Spending

/-!
# Where a page is cut with nothing counted

A page that ends on a spent ceiling or on its deadline names the dimension and
where it stopped.  What it leaves out is counted behind a byte wall only: every
other stop omits zero records, or is a refusal that may state its limit as its
spend.

* **the cut** — `Walk.CutsUncounted`, read off the walk, its clock and the record
  before the examination;
* **one examination** — `Walk.examine_uncounted_iff`;
* **the page** — `Walk.lastWalk_uncounted_iff`, whatever the driver answers, and
  `Walk.lastWalk_stalled`.
-/

namespace RuntimeTrail

/-- An outcome that leaves something out and states no count of it: a degrade that omits zero, a
refusal whose limit is the observed spend. -/
def PartOutcome.Uncounted : PartOutcome → Prop
  | degraded truncation => truncation.omitted = 0
  | refused refusal => refusal.limit = refusal.observed
  | _ => False

namespace BudgetSession

variable {s s' : BudgetSession} {now : Instant} {granted : Nat} {refusal : BudgetRefusal}

/-- A refused scan charge: no reading before the deadline, or nothing left to scan.  The refusal
states its limit as its spend unless the deadline has been passed. -/
theorem allowScan_refused (h : s.allowScan now 1 = (.short granted refusal, s')) :
    ¬ (s.Alive now ∧ 0 < s.ledger.scan.remaining) ∧
      (refusal.limit = refusal.observed ↔ ¬ s.budget.deadline < now - s.admittedAt) := by
  by_cases hlive : s.Alive now
  · have hcharge := (allow_short h).resolve_left (not_not_intro hlive)
    obtain ⟨hspent, rfl⟩ := Allowance.degrade_short (Prod.ext hcharge rfl)
    exact ⟨fun hroom => absurd hspent (not_lt.mpr hroom.2), iff_of_true rfl (lt_asymm hlive)⟩
  · have hdead : s.budget.deadline ≤ now - s.admittedAt := not_lt.mp hlive
    unfold allowScan allow at h
    rw [if_pos (deadlineExhausted_iff.mpr hlive)] at h
    have hrefusal := (Prod.mk.inj h).1
    simp only [TraversalAllowance.short.injEq] at hrefusal
    obtain ⟨-, rfl⟩ := hrefusal
    refine ⟨fun hroom => hlive hroom.1, ?_⟩
    simp only [deadlineRefusal, Magnitude.duration.injEq]
    omega

end BudgetSession

namespace Walk

/-! ## One examination -/

/-- Examining the record cuts the page off with nothing counted: no byte wall stands and the record
is within the bound.  When its scan charge is paid, the record matches and the results are spent, or
the deadline passes before its results charge, or before the charge of bytes that fit.  When it is
refused, a record was examined before, or the deadline is not past. -/
def CutsUncounted (w : Walk) (input : WalkInput) (yielded : Yield) : Prop :=
  w.counting = none ∧ input.pastBound yielded.key = false ∧
    ((w.session.Alive (input.clock w.readings) ∧ 0 < w.scanLeft) ∧
        input.filters.matchesView yielded.record = true ∧
        (w.session.ledger.remainingResults = 0 ∨
          ¬ w.session.Alive (input.clock (w.readings + 1)) ∨
          evidenceOf yielded.record ≤ w.session.ledger.remainingBytes ∧
            ¬ w.session.Alive (input.clock (w.readings + 2))) ∨
      ¬ (w.session.Alive (input.clock w.readings) ∧ 0 < w.scanLeft) ∧
        (w.lastExamined = none →
          ¬ w.session.budget.deadline < input.clock w.readings - w.session.admittedAt))

/-- A byte wall stands on at least one record. -/
def WallCounts (w : Walk) : Prop := ∀ counting, w.counting = some counting → 0 < counting.omitted

/-- The walk has ended on an outcome that counts nothing. -/
def EndsUncounted (w : Walk) : Prop := ∃ outcome, w.stopped = some outcome ∧ outcome.Uncounted

section Ends

variable {w : Walk} {input : WalkInput} {outcome : PartOutcome}

theorem endsUncounted_of_stopped (h : w.stopped = some outcome) :
    w.EndsUncounted ↔ outcome.Uncounted := by
  constructor
  · rintro ⟨other, hother, huncounted⟩
    obtain rfl := Option.some.inj (h.symm.trans hother)
    exact huncounted
  · exact fun huncounted => ⟨outcome, h, huncounted⟩

theorem not_endsUncounted_of_going (h : w.stopped = none) : ¬ w.EndsUncounted := by
  rintro ⟨outcome, hstopped, -⟩
  rw [h] at hstopped
  cases hstopped

/-- The bound and the kind's end count what is behind a wall, or complete the part. -/
theorem finishCountingOrComplete_counts (h : w.WallCounts) :
    ¬ (w.finishCountingOrComplete input).EndsUncounted := by
  unfold finishCountingOrComplete
  cases hcounting : w.counting with
  | none =>
    rw [endsUncounted_of_stopped rfl]
    exact id
  | some counting =>
    rw [endsUncounted_of_stopped rfl]
    exact (h counting hcounting).ne'

/-- A refused scan charge counts what is behind a wall. -/
theorem stopBeforeExamining_uncounted_iff (h : w.WallCounts) (refusal : BudgetRefusal) :
    (w.stopBeforeExamining input refusal).EndsUncounted ↔
      w.counting = none ∧ (w.lastExamined = none → refusal.limit = refusal.observed) := by
  unfold stopBeforeExamining
  cases hcounting : w.counting with
  | some counting =>
    rw [endsUncounted_of_stopped rfl]
    exact iff_of_false (h counting hcounting).ne' (by simp)
  | none =>
    cases hlast : w.lastExamined with
    | some anchor =>
      rw [endsUncounted_of_stopped rfl]
      exact iff_of_true rfl ⟨rfl, fun hnone => absurd hnone (by simp)⟩
    | none =>
      rw [endsUncounted_of_stopped rfl]
      exact ⟨fun hsame => ⟨rfl, fun _ => hsame⟩, fun hall => hall.2 rfl⟩

/-- Where a walk stops on a record it was about to include, nothing is counted. -/
theorem stopIncluding_uncounted (w : Walk) (input : WalkInput) (dimension : Dimension)
    (key : AdmissionKey) (tail : Nat) :
    (w.stopIncluding input dimension key tail).EndsUncounted :=
  ⟨_, rfl, rfl⟩

end Ends

section Examine

variable {w : Walk} {input : WalkInput} {yielded : Yield} {tail : Nat}

/-- **One examination.**  It ends the page with nothing counted exactly when it cuts it so. -/
theorem examine_uncounted_iff (hgoing : w.stopped = none) (hwall : w.WallCounts) :
    (w.examine input yielded tail).EndsUncounted ↔ w.CutsUncounted input yielded := by
  have hscanned : ∀ session, (w.scanned session yielded.key).stopped = none := fun session =>
    (w.scanned_frame session yielded.key).2.2.2.2.2.2.2.2.1.trans hgoing
  -- a paid scan charge was made before the deadline, with something left to scan
  have paid : ∀ {granted : Nat} {session : BudgetSession},
      w.session.allowScan (input.clock w.readings) 1 = (.exact granted, session) →
        w.session.Alive (input.clock w.readings) ∧ 0 < w.scanLeft := fun h =>
    ⟨BudgetSession.alive_of_allow h, (BudgetSession.allowScan_exact h).1⟩
  have hall := w.examination input yielded tail
  generalize w.examine input yielded tail = w' at hall ⊢
  cases hall with
  | pastBound past =>
    refine iff_of_false (finishCountingOrComplete_counts hwall) ?_
    rintro ⟨-, within, -⟩
    rw [past] at within
    cases within
  | unscanned within scan =>
    obtain ⟨hroom, hlimit⟩ := BudgetSession.allowScan_refused scan
    refine (stopBeforeExamining_uncounted_iff (w := (w.asked _).settle (tail + 1)) hwall _).trans ?_
    simp only [hlimit]
    constructor
    · rintro ⟨hcounting, hlast⟩
      exact ⟨hcounting, within, Or.inr ⟨hroom, hlast⟩⟩
    · rintro ⟨hcounting, -, ⟨hpaid, -⟩ | ⟨-, hlast⟩⟩
      · exact absurd hpaid hroom
      · exact ⟨hcounting, hlast⟩
  | skipped within scan filtered =>
    refine iff_of_false (not_endsUncounted_of_going (hscanned _)) ?_
    rintro ⟨-, -, ⟨-, matching, -⟩ | ⟨hroom, -⟩⟩
    · rw [filtered] at matching
      cases matching
    · exact hroom (paid scan)
  | counted within scan matching phase =>
    refine iff_of_false (not_endsUncounted_of_going (hscanned _)) ?_
    rintro ⟨hcounting, -⟩
    rw [phase] at hcounting
    cases hcounting
  | resultsSpent within scan matching phase spent =>
    have hpaid := paid scan
    obtain ⟨-, rfl⟩ := BudgetSession.allowScan_exact scan
    exact iff_of_true (stopIncluding_uncounted _ _ _ _ _)
      ⟨phase, within, Or.inl ⟨hpaid, matching, Or.inl spent⟩⟩
  | @resultsRefused _ _ after _ _ within scan matching phase unspent results =>
    have hpaid := paid scan
    have hdead : ¬ after.Alive (input.clock (w.readings + 1)) := fun hlive =>
      BudgetSession.allowResults_ne_short hlive (Nat.one_le_iff_ne_zero.mpr unspent) results
    obtain ⟨-, rfl⟩ := BudgetSession.allowScan_exact scan
    exact iff_of_true (stopIncluding_uncounted _ _ _ _ _)
      ⟨phase, within, Or.inl ⟨hpaid, matching, Or.inr (Or.inl hdead)⟩⟩
  | unfit within scan matching phase unspent results wall =>
    have hpaid := paid scan
    have hlive := BudgetSession.alive_of_allow results
    obtain ⟨-, rfl⟩ := BudgetSession.allowScan_exact scan
    obtain ⟨-, rfl⟩ := BudgetSession.allowResults_exact results
    refine iff_of_false (not_endsUncounted_of_going (hscanned _)) ?_
    rintro ⟨-, -, ⟨-, -, hspent | hdead | ⟨hfits, -⟩⟩ | ⟨hroom, -⟩⟩
    · exact unspent hspent
    · exact hdead hlive
    · exact absurd hfits (not_le.mpr wall)
    · exact hroom hpaid
  | @bytesRefused _ _ _ _ after' _ _ within scan matching phase unspent results fits bytes =>
    have hpaid := paid scan
    have hdead : ¬ after'.Alive (input.clock (w.readings + 2)) := fun hlive =>
      BudgetSession.allowBytes_ne_short hlive fits bytes
    obtain ⟨-, rfl⟩ := BudgetSession.allowScan_exact scan
    obtain ⟨-, rfl⟩ := BudgetSession.allowResults_exact results
    exact iff_of_true (stopIncluding_uncounted _ _ _ _ _)
      ⟨phase, within, Or.inl ⟨hpaid, matching, Or.inr (Or.inr ⟨fits, hdead⟩)⟩⟩
  | included within scan matching phase unspent results fits bytes =>
    have hpaid := paid scan
    have hlive := BudgetSession.alive_of_allow results
    have hlater := BudgetSession.alive_of_allow bytes
    obtain ⟨-, rfl⟩ := BudgetSession.allowScan_exact scan
    obtain ⟨-, rfl⟩ := BudgetSession.allowResults_exact results
    refine iff_of_false (not_endsUncounted_of_going (hscanned _)) ?_
    rintro ⟨-, -, ⟨-, -, hspent | hdead | ⟨-, hdead⟩⟩ | ⟨hroom, -⟩⟩
    · exact unspent hspent
    · exact hdead hlive
    · exact hdead hlater
    · exact hroom hpaid

end Examine

/-! ## The page -/

namespace WallCounts

variable {w : Walk} {input : WalkInput}

/-- A walk without a wall. -/
theorem of_none (h : w.counting = none) : w.WallCounts := fun counting hcounting => by
  rw [h] at hcounting
  cases hcounting

theorem finishCountingOrComplete : (w.finishCountingOrComplete input).WallCounts := by
  unfold Walk.finishCountingOrComplete
  cases w.counting with
  | none => exact of_none rfl
  | some counting => exact of_none rfl

theorem stopBeforeExamining (h : w.WallCounts) (refusal : BudgetRefusal) :
    (w.stopBeforeExamining input refusal).WallCounts := by
  unfold Walk.stopBeforeExamining
  split
  · exact of_none rfl
  · split
    · exact h
    · exact h

/-- A wall is raised on one record, and every record counted behind it is one more. -/
theorem examine (h : w.WallCounts) (yielded : Yield) (tail : Nat) :
    (w.examine input yielded tail).WallCounts := by
  have hscanned : ∀ session, (w.scanned session yielded.key).WallCounts := fun session counting => by
    rw [(w.scanned_frame session yielded.key).2.2.2.2.1]
    exact h counting
  have hall := w.examination input yielded tail
  generalize w.examine input yielded tail = w' at hall ⊢
  cases hall with
  | pastBound past => exact finishCountingOrComplete
  | unscanned within scan => exact stopBeforeExamining (w := (w.asked _).settle (tail + 1)) h _
  | skipped within scan filtered => exact hscanned _
  | counted within scan matching phase =>
    intro counting hcounting
    obtain rfl := Option.some.inj hcounting
    exact Nat.succ_pos _
  | resultsSpent within scan matching phase spent => exact hscanned _
  | resultsRefused within scan matching phase unspent results => exact hscanned _
  | unfit within scan matching phase unspent results wall =>
    intro counting hcounting
    obtain rfl := Option.some.inj hcounting
    exact Nat.one_pos
  | bytesRefused within scan matching phase unspent results fits bytes => exact hscanned _
  | included within scan matching phase unspent results fits bytes => exact hscanned _

/-- Every turn keeps it. -/
theorem turnInvariant (input : WalkInput) : TurnInvariant input WallCounts where
  pulled _ _ h := h
  examined _ tail _ h := h.examine _ tail
  resumed _ _ h := h
  finished _ := finishCountingOrComplete
  stalled _ h := h

end WallCounts

section Page

variable {input : WalkInput} {session : BudgetSession}

theorem wallCounts_walkStart : (walkStart input session).WallCounts := WallCounts.of_none rfl

/-- **The page.**  Whatever the driver answers, it ends with nothing counted exactly when one of the
examinations it makes cuts it so. -/
theorem lastWalk_uncounted_iff : (lastWalk input session).EndsUncounted ↔
    ∃ w yielded tail, Examines input session w yielded tail ∧ w.CutsUncounted input yielded := by
  have hI := WallCounts.turnInvariant input
  constructor
  · intro hends
    have hpage := pageEnd input session
    generalize lastWalk input session = last at hends hpage
    cases hpage with
    | @exhausted w _ turn nothing _ =>
      have hwall : (w.pulled input).WallCounts := turn.invariant hI wallCounts_walkStart
      exact absurd hends (finishCountingOrComplete_counts hwall)
    | @ended w _ turn yielded goes _ =>
      have hwall := (hI.batch w.calls (w.batch input) (w := w.pulled input) (fun y hy => hy)
        (turn.invariant hI wallCounts_walkStart)).1
      exact absurd hends (finishCountingOrComplete_counts hwall)
    | stalled turn nothing =>
      obtain ⟨outcome, hstalled, huncounted⟩ := hends
      obtain rfl := Option.some.inj hstalled
      exact huncounted.elim
    | examined examines stop =>
      obtain ⟨hwall, hgoing, -⟩ := examines.invariant hI wallCounts_walkStart
      exact ⟨_, _, _, examines, (examine_uncounted_iff hgoing hwall).mp hends⟩
  · rintro ⟨w, yielded, tail, examines, hcuts⟩
    obtain ⟨hwall, hgoing, -⟩ := examines.invariant hI wallCounts_walkStart
    have hends := (@examine_uncounted_iff w input yielded tail hgoing hwall).mpr hcuts
    obtain ⟨outcome, hstopped, -⟩ := hends
    rw [examines.last (by rw [hstopped]; rfl)]
    exact (examine_uncounted_iff hgoing hwall).mpr hcuts

end Page

/-- A walk that stalled names the stall. -/
def StallNamed (w : Walk) : Prop :=
  w.stopped = some .stalled → ∃ entity, .driverStall entity ∈ w.coverage

namespace StallNamed

variable {w : Walk} {input : WalkInput}

theorem of_stopped {outcome : PartOutcome} (h : w.stopped = some outcome)
    (hother : outcome ≠ .stalled) : w.StallNamed := fun hstalled =>
  absurd (Option.some.inj (h.symm.trans hstalled)) hother

theorem finishCountingOrComplete : (w.finishCountingOrComplete input).StallNamed := by
  unfold Walk.finishCountingOrComplete
  cases w.counting with
  | none => exact of_stopped rfl (by simp)
  | some counting => exact of_stopped rfl (by simp [countingDegrade])

theorem stopBeforeExamining (refusal : BudgetRefusal) :
    (w.stopBeforeExamining input refusal).StallNamed := by
  unfold Walk.stopBeforeExamining
  split
  · exact of_stopped rfl (by simp [countingDegrade])
  · split
    · exact of_stopped rfl (by simp)
    · exact of_stopped rfl (by simp)

theorem stopIncluding (w : Walk) (dimension : Dimension) (key : AdmissionKey) (tail : Nat) :
    (w.stopIncluding input dimension key tail).StallNamed :=
  of_stopped rfl (by simp [includeAnchoredDegrade])

theorem scanned (h : w.StallNamed) (session : BudgetSession) (key : AdmissionKey) :
    (w.scanned session key).StallNamed := by
  intro hstalled
  rw [(w.scanned_frame session key).2.2.2.2.2.2.2.2.1] at hstalled
  obtain ⟨entity, hnamed⟩ := h hstalled
  refine ⟨entity, ?_⟩
  unfold Walk.scanned asked
  cases w.pendingGap with
  | none => exact hnamed
  | some anchor => exact List.mem_append_left _ hnamed

theorem examine (h : w.StallNamed) (yielded : Yield) (tail : Nat) :
    (w.examine input yielded tail).StallNamed := by
  have hall := w.examination input yielded tail
  generalize w.examine input yielded tail = w' at hall ⊢
  cases hall with
  | pastBound past => exact finishCountingOrComplete
  | unscanned within scan => exact stopBeforeExamining _
  | skipped within scan filtered => exact h.scanned _ _
  | counted within scan matching phase => exact h.scanned _ _
  | resultsSpent within scan matching phase spent => exact stopIncluding _ _ _ _
  | resultsRefused within scan matching phase unspent results => exact stopIncluding _ _ _ _
  | unfit within scan matching phase unspent results wall => exact h.scanned _ _
  | bytesRefused within scan matching phase unspent results fits bytes =>
    exact stopIncluding _ _ _ _
  | included within scan matching phase unspent results fits bytes => exact h.scanned _ _

/-- Every turn keeps it. -/
theorem turnInvariant (input : WalkInput) : TurnInvariant input StallNamed where
  pulled _ _ h := h
  examined _ tail _ h := h.examine _ tail
  resumed _ _ h := h
  finished _ := finishCountingOrComplete
  stalled entity _ _ := ⟨entity, List.mem_append_right _ (List.mem_singleton.mpr rfl)⟩

end StallNamed

/-- A page that stalled names the stall. -/
theorem lastWalk_stalled (input : WalkInput) (session : BudgetSession) :
    (lastWalk input session).StallNamed :=
  (StallNamed.turnInvariant input).run (w := walkStart input session)
    (fun hstalled => absurd hstalled (by simp [walkStart]))

/-- The page keeps what the walk's coverage names. -/
theorem mem_assemble_coverage {w : Walk} {entry : CoverageEntry} (h : entry ∈ w.coverage)
    (input : WalkInput) : entry ∈ (w.assemble input).execution.coverage := by
  unfold assemble
  dsimp only
  split
  · exact List.mem_append_left _ h
  · exact h

end Walk

end RuntimeTrail
