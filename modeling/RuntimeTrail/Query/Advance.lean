import RuntimeTrail.Query.Chain
import RuntimeTrail.Query.Turns

/-!
# Whether a continuation advances

A page's cursor is minted at a record the page examined, which lies past the
cursor it was presented, or it is that cursor again: the echo of a page that was
cut between a record's scan charge and its results or bytes charge, with nothing
included before it.

* **the keys** — `Walk.Holds`: what every yielded key satisfies, every key the
  walk keeps satisfies;
* **the stop** — `Walk.examine_stop`: where an examination's cursor comes from;
* **the echo** — `Walk.Expires`, and `Walk.examine_of_expires`;
* **the law** — `advances_iff`.
-/

namespace RuntimeTrail

open Library

namespace Walk

variable {input : WalkInput} {w : Walk} {Q : AdmissionKey → Prop} {yielded : Yield} {tail : Nat}

/-! ## The keys -/

/-- Every key a walk keeps for its cursors satisfies what the yielded keys do. -/
structure Holds (Q : AdmissionKey → Prop) (w : Walk) : Prop where
  included : ∀ key ∈ w.lastIncluded, Q key
  examined : ∀ key ∈ w.lastExamined, Q key
  counted : ∀ counting ∈ w.counting, Q counting.last

namespace Holds

theorem scanned (h : w.Holds Q) (session : BudgetSession) {key : AdmissionKey} (hkey : Q key) :
    (w.scanned session key).Holds Q := by
  obtain ⟨-, -, hlast, -, hcounting, hincluded, -⟩ := w.scanned_frame session key
  constructor
  · rw [hincluded]
    exact h.included
  · rw [hlast]
    exact fun _ hsome => Option.some.inj hsome ▸ hkey
  · rw [hcounting]
    exact h.counted

theorem finishCountingOrComplete (h : w.Holds Q) : (w.finishCountingOrComplete input).Holds Q := by
  unfold Walk.finishCountingOrComplete
  split
  · exact ⟨h.included, h.examined, fun _ hnone => absurd hnone (by simp)⟩
  · exact ⟨h.included, h.examined, h.counted⟩

theorem stopBeforeExamining (h : w.Holds Q) (refusal : BudgetRefusal) :
    (w.stopBeforeExamining input refusal).Holds Q := by
  unfold Walk.stopBeforeExamining
  split
  · exact ⟨h.included, h.examined, fun _ hnone => absurd hnone (by simp)⟩
  · split <;> exact ⟨h.included, h.examined, h.counted⟩

/-- An examination keeps the key of its record, or none. -/
theorem examine (h : w.Holds Q) (hkey : Q yielded.key) :
    (w.examine input yielded tail).Holds Q := by
  have hscanned : ∀ session, (w.scanned session yielded.key).Holds Q := fun session =>
    h.scanned session hkey
  have hsettled : ∀ session units, ((w.asked session).settle units).Holds Q := fun _ _ =>
    ⟨h.included, h.examined, h.counted⟩
  have hall := w.examination input yielded tail
  generalize w.examine input yielded tail = w' at hall ⊢
  cases hall with
  | pastBound past => exact finishCountingOrComplete ⟨h.included, h.examined, h.counted⟩
  | unscanned within scan => exact (hsettled _ _).stopBeforeExamining _
  | skipped within scan filtered => exact hscanned _
  | counted within scan matching phase =>
    exact ⟨(hscanned _).included, (hscanned _).examined, fun _ hsome => Option.some.inj hsome ▸ hkey⟩
  | resultsSpent within scan matching phase spent =>
    exact ⟨(hscanned _).included, (hscanned _).examined, (hscanned _).counted⟩
  | resultsRefused within scan matching phase unspent results =>
    exact ⟨(hscanned _).included, (hscanned _).examined, (hscanned _).counted⟩
  | unfit within scan matching phase unspent results wall =>
    exact ⟨(hscanned _).included, (hscanned _).examined, fun _ hsome => Option.some.inj hsome ▸ hkey⟩
  | bytesRefused within scan matching phase unspent results fits bytes =>
    exact ⟨(hscanned _).included, (hscanned _).examined, (hscanned _).counted⟩
  | included within scan matching phase unspent results fits bytes =>
    exact ⟨fun _ hsome => Option.some.inj hsome ▸ hkey, (hscanned _).examined, (hscanned _).counted⟩

end Holds

/-! ## The stop -/

/-- The outcome offers no cursor, or one minted at a key of that kind. -/
def MintsAt (Q : AdmissionKey → Prop) (input : WalkInput) (frontier : Option AdmissionKey)
    (outcome : PartOutcome) : Prop :=
  ∀ bytes ∈ outcome.nextCursor, ∃ key, Q key ∧ bytes = (input.mint frontier key).encode

theorem finish_mintsAt (h : w.Holds Q) {outcome : PartOutcome}
    (hstop : (w.finishCountingOrComplete input).stopped = some outcome) :
    MintsAt Q input w.frontier outcome := by
  unfold finishCountingOrComplete at hstop
  intro bytes hbytes
  split at hstop
  · rename_i counting hcounting
    obtain rfl := Option.some.inj hstop
    exact ⟨counting.last, h.counted counting hcounting, (Option.some.inj hbytes).symm⟩
  · obtain rfl := Option.some.inj hstop
    cases hbytes

theorem stopBefore_mintsAt (h : w.Holds Q) {refusal : BudgetRefusal} {outcome : PartOutcome}
    (hstop : (w.stopBeforeExamining input refusal).stopped = some outcome) :
    MintsAt Q input w.frontier outcome := by
  unfold stopBeforeExamining at hstop
  intro bytes hbytes
  split at hstop
  · rename_i counting hcounting
    obtain rfl := Option.some.inj hstop
    exact ⟨counting.last, h.counted counting hcounting, (Option.some.inj hbytes).symm⟩
  · split at hstop
    · rename_i anchor hanchor
      obtain rfl := Option.some.inj hstop
      exact ⟨anchor, h.examined anchor hanchor, (Option.some.inj hbytes).symm⟩
    · obtain rfl := Option.some.inj hstop
      cases hbytes

/-- A stop that includes nothing more is minted at the last included record, or echoes. -/
theorem stopIncluding_mintsAt (h : w.Holds Q) {dimension : Dimension} {key : AdmissionKey}
    {outcome : PartOutcome}
    (hstop : (w.stopIncluding input dimension key tail).stopped = some outcome) :
    MintsAt Q input w.frontier outcome ∨
      w.lastIncluded = none ∧ outcome.nextCursor = input.presented.map CursorPayload.encode := by
  obtain rfl : w.includeAnchoredDegrade input dimension 0 key.entity = outcome :=
    Option.some.inj hstop
  unfold includeAnchoredDegrade
  cases hincluded : w.lastIncluded with
  | some anchor =>
    refine Or.inl fun bytes hbytes => ⟨anchor, h.included anchor hincluded, ?_⟩
    exact (Option.some.inj hbytes).symm
  | none =>
    refine Or.inr ⟨rfl, ?_⟩
    cases hpresented : input.presented <;> simp [presentedEcho, hpresented, PartOutcome.nextCursor]

/-! ## The echo -/

/-- The deadline passes between the scan charge of a matching record and its results or bytes
charge. -/
structure Expires (input : WalkInput) (w : Walk) (yielded : Yield) : Prop where
  within : input.pastBound yielded.key = false
  matching : input.filters.matchesView yielded.record = true
  including : w.counting = none
  scanned : w.session.Alive (input.clock w.readings) ∧ 0 < w.scanLeft
  expired : ¬ w.session.Alive (input.clock (w.readings + 1)) ∨
    evidenceOf yielded.record ≤ w.session.ledger.bytes.remaining ∧
      ¬ w.session.Alive (input.clock (w.readings + 2))

/-- While a walk has neither included nor counted, it has results to spend. -/
def Unspent (w : Walk) : Prop :=
  w.lastIncluded = none → w.counting = none → 0 < w.session.ledger.results.remaining

/-- A scan charge granted: the deadline was not over, and only the scan ceiling was spent. -/
theorem scan_granted {now : Instant} {granted : Nat} {session : BudgetSession}
    (h : w.session.allowScan now 1 = (.exact granted, session)) :
    w.session.Alive now ∧ 0 < w.scanLeft ∧ (∀ later, session.Alive later ↔ w.session.Alive later) ∧
      session.ledger.results = w.session.ledger.results ∧
      session.ledger.bytes = w.session.ledger.bytes := by
  have halive := BudgetSession.alive_of_allow h
  obtain ⟨hfit, rfl⟩ := BudgetSession.allowScan_exact h
  exact ⟨halive, hfit, fun _ => Iff.rfl, rfl, rfl⟩

/-- A results charge granted, in the same way. -/
theorem results_granted {session session' : BudgetSession} {now : Instant} {granted : Nat}
    (h : session.allowResults now 1 = (.exact granted, session')) :
    session.Alive now ∧ (∀ later, session'.Alive later ↔ session.Alive later) ∧
      session'.ledger.bytes = session.ledger.bytes := by
  have halive := BudgetSession.alive_of_allow h
  obtain ⟨-, rfl⟩ := BudgetSession.allowResults_exact h
  exact ⟨halive, fun _ => Iff.rfl, rfl⟩

/-- **Where the cursor of a stopping examination comes from**: minted at a key the walk keeps, or the
echo of a charge that expired before anything was included. -/
theorem examine_stop (h : w.Holds Q) (hkey : Q yielded.key) (hunspent : w.Unspent)
    (hgoing : w.stopped = none) {outcome : PartOutcome}
    (hstop : (w.examine input yielded tail).stopped = some outcome) :
    MintsAt Q input w.frontier outcome ∨ w.lastIncluded = none ∧ Expires input w yielded ∧
      outcome.nextCursor = input.presented.map CursorPayload.encode := by
  have hfrontier : ∀ session, (w.scanned session yielded.key).frontier = w.frontier := fun session =>
    (w.scanned_frame session yielded.key).2.2.2.2.2.2.1
  have hincluded : ∀ session, (w.scanned session yielded.key).lastIncluded = w.lastIncluded :=
    fun session => (w.scanned_frame session yielded.key).2.2.2.2.2.1
  have hstopped : ∀ session, (w.scanned session yielded.key).stopped = none := fun session =>
    (w.scanned_frame session yielded.key).2.2.2.2.2.2.2.2.1.trans hgoing
  have hall := w.examination input yielded tail
  generalize w.examine input yielded tail = w' at hall hstop
  cases hall with
  | pastBound past =>
    have hsettled : (w.settle (tail + 1)).Holds Q := ⟨h.included, h.examined, h.counted⟩
    exact Or.inl (finish_mintsAt hsettled hstop)
  | @unscanned _ _ session within scan =>
    have hsettled : ((w.asked session).settle (tail + 1)).Holds Q :=
      ⟨h.included, h.examined, h.counted⟩
    exact Or.inl (stopBefore_mintsAt hsettled hstop)
  | skipped within scan filtered =>
    rw [hstopped] at hstop
    cases hstop
  | counted within scan matching phase =>
    change (w.scanned _ yielded.key).stopped = _ at hstop
    rw [hstopped] at hstop
    cases hstop
  | @resultsSpent _ session within scan matching phase spent =>
    rcases stopIncluding_mintsAt (h.scanned session hkey) hstop with hmints | ⟨hnone, -⟩
    · rw [hfrontier] at hmints
      exact Or.inl hmints
    · -- nothing included, so the results are not spent
      obtain ⟨-, -, -, hresults, -⟩ := scan_granted scan
      have hleft := hunspent (hincluded session ▸ hnone) phase
      rw [SpendLedger.remainingResults, hresults] at spent
      omega
  | @resultsRefused _ _ session session' refusal within scan matching phase unspent results =>
    have hkeeps := h.scanned session hkey
    have hsettled : ((w.scanned session yielded.key).asked session').Holds Q :=
      ⟨hkeeps.included, hkeeps.examined, hkeeps.counted⟩
    rcases stopIncluding_mintsAt hsettled hstop with hmints | ⟨hnone, hecho⟩
    · rw [show ((w.scanned session yielded.key).asked session').frontier = w.frontier from
        hfrontier session] at hmints
      exact Or.inl hmints
    · obtain ⟨halive, hscan, hsame, -, -⟩ := scan_granted scan
      have hdead : ¬ session.Alive (input.clock (w.readings + 1)) := fun hlive =>
        BudgetSession.allowResults_ne_short hlive (Nat.pos_of_ne_zero unspent) results
      exact Or.inr ⟨(hincluded session).symm.trans hnone,
        ⟨within, matching, phase, ⟨halive, hscan⟩, Or.inl ((hsame _).not.mp hdead)⟩, hecho⟩
  | unfit within scan matching phase unspent results wall =>
    change (w.scanned _ yielded.key).stopped = _ at hstop
    rw [hstopped] at hstop
    cases hstop
  | @bytesRefused _ _ _ session session' session'' refusal within scan matching phase unspent results
      fits bytes =>
    have hkeeps := h.scanned session hkey
    have hsettled : (((w.scanned session yielded.key).asked session').asked session'').Holds Q :=
      ⟨hkeeps.included, hkeeps.examined, hkeeps.counted⟩
    rcases stopIncluding_mintsAt hsettled hstop with hmints | ⟨hnone, hecho⟩
    · rw [show (((w.scanned session yielded.key).asked session').asked session'').frontier =
        w.frontier from hfrontier session] at hmints
      exact Or.inl hmints
    · obtain ⟨halive, hscan, hsame, -, hbytes⟩ := scan_granted scan
      obtain ⟨-, hsame', hbytes'⟩ := results_granted results
      have hdead : ¬ session'.Alive (input.clock (w.readings + 2)) := fun hlive =>
        BudgetSession.allowBytes_ne_short hlive fits bytes
      have hfits : evidenceOf yielded.record ≤ w.session.ledger.bytes.remaining := by
        rw [← hbytes, ← hbytes']
        exact fits
      exact Or.inr ⟨(hincluded session).symm.trans hnone, ⟨within, matching, phase, ⟨halive, hscan⟩,
        Or.inr ⟨hfits, ((hsame' _).trans (hsame _)).not.mp hdead⟩⟩, hecho⟩
  | included within scan matching phase unspent results fits bytes =>
    change (w.scanned _ yielded.key).stopped = _ at hstop
    rw [hstopped] at hstop
    cases hstop

/-- **A charge that expires before anything is included stops the walk on an echo.** -/
theorem examine_of_expires (hunspent : w.Unspent) (hnone : w.lastIncluded = none)
    (h : Expires input w yielded) :
    ∃ outcome, (w.examine input yielded tail).stopped = some outcome ∧
      outcome.nextCursor = input.presented.map CursorPayload.encode := by
  have hechoes : ∀ {w' : Walk} (dimension : Dimension), w'.lastIncluded = none →
      ∃ outcome, (w'.stopIncluding input dimension yielded.key tail).stopped = some outcome ∧
        outcome.nextCursor = input.presented.map CursorPayload.encode := by
    intro w' dimension hnone'
    refine ⟨_, rfl, ?_⟩
    change (w'.includeAnchoredDegrade input dimension 0 yielded.key.entity).nextCursor = _
    unfold includeAnchoredDegrade
    rw [hnone']
    cases hpresented : input.presented <;> simp [presentedEcho, hpresented, PartOutcome.nextCursor]
  have hincluded : ∀ session, (w.scanned session yielded.key).lastIncluded = none := fun session =>
    (w.scanned_frame session yielded.key).2.2.2.2.2.1.trans hnone
  obtain ⟨hwithin, hmatching, hincluding, ⟨halive, hscan⟩, hexpired⟩ := h
  have hall := w.examination input yielded tail
  generalize w.examine input yielded tail = w' at hall ⊢
  cases hall with
  | pastBound past =>
    rw [hwithin] at past
    cases past
  | unscanned within scan =>
    have hspent := (BudgetSession.allowScan_short halive scan).1
    exact absurd hscan (by rw [scanLeft]; omega)
  | skipped within scan filtered =>
    rw [hmatching] at filtered
    cases filtered
  | counted within scan matching phase =>
    rw [hincluding] at phase
    cases phase
  | @resultsSpent _ session within scan matching phase spent =>
    obtain ⟨-, -, -, hresults, -⟩ := scan_granted scan
    have hleft := hunspent hnone hincluding
    rw [SpendLedger.remainingResults, hresults] at spent
    omega
  | resultsRefused within scan matching phase unspent results => exact hechoes _ (hincluded _)
  | @unfit _ _ session session' within scan matching phase unspent results wall =>
    obtain ⟨-, -, hsame, -, hbytes⟩ := scan_granted scan
    obtain ⟨hlive, -, hbytes'⟩ := results_granted results
    rcases hexpired with hdead | ⟨hfits, -⟩
    · exact absurd ((hsame _).mp hlive) hdead
    · rw [SpendLedger.remainingBytes, hbytes', hbytes] at wall
      omega
  | bytesRefused within scan matching phase unspent results fits bytes =>
    exact hechoes _ (hincluded _)
  | @included _ _ _ session session' session'' within scan matching phase unspent results fits
      bytes =>
    obtain ⟨-, -, hsame, -, -⟩ := scan_granted scan
    obtain ⟨hlive, hsame', -⟩ := results_granted results
    rcases hexpired with hdead | ⟨-, hdead⟩
    · exact absurd ((hsame _).mp hlive) hdead
    · have hlater := BudgetSession.alive_of_allow bytes
      exact absurd ((hsame _).mp ((hsame' _).mp hlater)) hdead

/-! ## Along the run -/

/-- A walk that goes on after an examination was going before it. -/
theorem going_of_examine (h : (w.examine input yielded tail).stopped = none) : w.stopped = none := by
  have hscanned : ∀ session, (w.scanned session yielded.key).stopped = w.stopped := fun session =>
    (w.scanned_frame session yielded.key).2.2.2.2.2.2.2.2.1
  have hall := w.examination input yielded tail
  generalize w.examine input yielded tail = w' at hall h
  cases hall with
  | pastBound past =>
    have hstopped := finishCountingOrComplete_stopped (w.settle (tail + 1)) input
    rw [h] at hstopped
    cases hstopped
  | @unscanned _ refusal session within scan =>
    have hstopped := stopBeforeExamining_stopped ((w.asked session).settle (tail + 1)) input refusal
    rw [h] at hstopped
    cases hstopped
  | skipped within scan filtered => exact (hscanned _).symm.trans h
  | counted within scan matching phase => exact (hscanned _).symm.trans h
  | resultsSpent within scan matching phase spent => cases h
  | resultsRefused within scan matching phase unspent results => cases h
  | unfit within scan matching phase unspent results wall => exact (hscanned _).symm.trans h
  | bytesRefused within scan matching phase unspent results fits bytes => cases h
  | included within scan matching phase unspent results fits bytes =>
    exact (hscanned _).symm.trans h

/-- Results are spent by including or by opening the count. -/
theorem Unspent.examine (h : w.Unspent) (hgoes : (w.examine input yielded tail).stopped = none) :
    (w.examine input yielded tail).Unspent := by
  have hall := w.examination input yielded tail
  generalize w.examine input yielded tail = w' at hall hgoes ⊢
  cases hall with
  | pastBound past =>
    have hstopped := finishCountingOrComplete_stopped (w.settle (tail + 1)) input
    rw [hgoes] at hstopped
    cases hstopped
  | @unscanned _ refusal session within scan =>
    have hstopped := stopBeforeExamining_stopped ((w.asked session).settle (tail + 1)) input refusal
    rw [hgoes] at hstopped
    cases hstopped
  | @skipped _ session within scan filtered =>
    obtain ⟨hsession, -, -, -, hcounting, hincluded, -⟩ := w.scanned_frame session yielded.key
    obtain ⟨-, -, -, hresults, -⟩ := scan_granted scan
    intro hnone hphase
    rw [hsession, hresults]
    exact h (hincluded ▸ hnone) (hcounting ▸ hphase)
  | counted within scan matching phase => exact fun _ hphase => absurd hphase (by simp)
  | resultsSpent within scan matching phase spent => cases hgoes
  | resultsRefused within scan matching phase unspent results => cases hgoes
  | unfit within scan matching phase unspent results wall =>
    exact fun _ hphase => absurd hphase (by simp)
  | bytesRefused within scan matching phase unspent results fits bytes => cases hgoes
  | included within scan matching phase unspent results fits bytes =>
    exact fun hnone => absurd hnone (by simp)

/-- What a walk still going keeps over a store whose every call scans a residency. -/
structure Going (Q : AdmissionKey → Prop) (input : WalkInput) (w : Walk) : Prop where
  resumed : w.Resumed input
  holds : w.stopped = none → w.Holds Q
  unspent : w.stopped = none → w.Unspent

/-- Every turn keeps it, for what every yielded key satisfies. -/
theorem Going.turnInvariant {residents : Nat → List Yield} (hscans : input.ScansEach residents)
    (hkeys : ∀ n, ∀ y ∈ residents n,
      y.key.follows (input.presented.map CursorPayload.anchor) = true → Q y.key) :
    TurnInvariant input (Going Q input) where
  pulled _ _ h := ⟨h.resumed, fun hgoes =>
    ⟨(h.holds hgoes).included, (h.holds hgoes).examined, (h.holds hgoes).counted⟩, h.unspent⟩
  examined := by
    intro w yielded n tail hmem h
    obtain ⟨hstands, -, hpast⟩ := h.resumed.yielded hscans hmem
    have hafter := (w.examine_frame input yielded tail).2.1
    refine ⟨by rw [Resumed, hafter]; exact h.resumed, fun hgoes => ?_, fun hgoes => ?_⟩
    · exact (h.holds (going_of_examine hgoes)).examine (hkeys n yielded hstands hpast)
    · exact (h.unspent (going_of_examine hgoes)).examine hgoes
  resumed _ hcursor h := ⟨h.resumed.resume hscans hcursor, fun hgoes =>
    ⟨(h.holds hgoes).included, (h.holds hgoes).examined, (h.holds hgoes).counted⟩, h.unspent⟩
  finished := by
    intro w h
    have hstopped := w.finishCountingOrComplete_stopped input
    refine ⟨?_, fun hnone => ?_, fun hnone => ?_⟩
    · rw [Resumed, (w.finishCountingOrComplete_frame input).2.1]
      exact h.resumed
    · rw [hnone] at hstopped
      cases hstopped
    · rw [hnone] at hstopped
      cases hstopped
  stalled _ h := ⟨h.resumed, fun hnone => absurd hnone (by simp), fun hnone => absurd hnone (by simp)⟩

theorem Going.start (input : WalkInput) {session : BudgetSession}
    (hresults : 0 < session.ledger.results.remaining) : (walkStart input session).Going Q input :=
  ⟨fun _ h => h, fun _ => ⟨fun _ hnone => absurd hnone (by simp [walkStart]),
    fun _ hnone => absurd hnone (by simp [walkStart]),
    fun _ hnone => absurd hnone (by simp [walkStart])⟩, fun _ _ _ => hresults⟩

/-- The cursor a page's walk stops on: minted at a key past the presented one, or the echo of a charge
that expired before anything was included. -/
theorem lastWalk_cursor {residents : Nat → List Yield} (hscans : input.ScansEach residents)
    (hkeys : ∀ n, ∀ y ∈ residents n,
      y.key.follows (input.presented.map CursorPayload.anchor) = true → Q y.key)
    {session : BudgetSession} (hresults : 0 < session.ledger.results.remaining)
    {outcome : PartOutcome} (hstop : (lastWalk input session).stopped = some outcome) :
    MintsAt Q input (lastWalk input session).frontier outcome ∨
      (∃ w yielded tail, Examines input session w yielded tail ∧ w.lastIncluded = none ∧
        Expires input w yielded) ∧
        outcome.nextCursor = input.presented.map CursorPayload.encode := by
  have hinvariant := Going.turnInvariant (Q := Q) hscans hkeys
  have hstart := Going.start (Q := Q) input hresults
  have hend := pageEnd input session
  generalize lastWalk input session = last at hend hstop ⊢
  cases hend with
  | @exhausted w emptyPages turn nothing none =>
    have hgoing := hinvariant.pulled ((w.batchCursor input).or ((w.batch input).getLast?.map Yield.key))
      (w.calls + 1) (turn.invariant hinvariant hstart)
    rw [(finishCountingOrComplete_frame _ input).1]
    exact Or.inl (finish_mintsAt (hgoing.holds turn.2) hstop)
  | @ended w emptyPages turn yielded goes none =>
    have hgoing := (hinvariant.batch w.calls (w.batch input) (w := w.pulled input) (fun _ hy => hy)
      (hinvariant.pulled _ _ (turn.invariant hinvariant hstart))).1
    rw [(finishCountingOrComplete_frame _ input).1]
    exact Or.inl (finish_mintsAt (hgoing.holds goes) hstop)
  | stalled turn nothing =>
    obtain rfl := Option.some.inj hstop
    exact Or.inl fun bytes hbytes => absurd hbytes (by simp [PartOutcome.nextCursor])
  | @examined w yielded tail examines stop =>
    obtain ⟨hgoing, hnone, n, hmem⟩ := examines.invariant hinvariant hstart
    obtain ⟨hstands, -, hpast⟩ := hgoing.resumed.yielded hscans hmem
    rcases examine_stop (hgoing.holds hnone) (hkeys n yielded hstands hpast) (hgoing.unspent hnone)
      hnone hstop with hmints | ⟨hincluded, hexpires, hecho⟩
    · rw [(w.examine_frame input yielded tail).1]
      exact Or.inl hmints
    · exact Or.inr ⟨⟨w, yielded, tail, examines, hincluded, hexpires⟩, hecho⟩

end Walk

/-! ## The law -/

/-- The page's walk charges a record after the deadline, its scan charge made before, with nothing
included. -/
def ExpiresFirst (input : WalkInput) (session : BudgetSession) : Prop :=
  ∃ w yielded tail, Walk.Examines input session w yielded tail ∧ w.lastIncluded = none ∧
    Walk.Expires input w yielded

/-- **When a continuation advances.**  For every sequence of stores that each answer from a residency
of their own, every query, budget, clock and presented cursor: a page that hands a cursor back hands
back one whose position is past the presented one exactly when the deadline did not pass between the
scan charge and the results or bytes charge of a record before the first included one. -/
theorem advances_iff {stores : Nat → TelemetryStore} {query : RecordsQuery} {budget : QueryBudget}
    {clock : Clock} {payload : CursorPayload} {residents : Nat → List Yield} {next : List UInt8}
    (hscans : (walkInput stores query clock (some payload)).ScansEach residents)
    (hwords : ∀ n, ∀ y ∈ residents n, y.key.InRange) (hrange : payload.InRange)
    (hnext : (answer stores query budget clock (some payload)).nextCursor = some next) :
    (∃ position, CursorPayload.decode next = .ok position ∧ payload.anchor < position.anchor) ↔
      ¬ ExpiresFirst (walkInput stores query clock (some payload))
        (budget.admitSession (clock 0)) := by
  unfold answer at hnext
  dsimp only at hnext
  split at hnext
  · exact absurd hnext (by simp [emptyPage])
  rename_i hroom
  have hresults : 0 < (budget.admitSession (clock 0)).ledger.results.remaining :=
    Nat.pos_of_ne_zero hroom
  generalize hinput : walkInput stores query clock (some payload) = input at *
  generalize budget.admitSession (clock 0) = session at *
  have hpresented : input.presented = some payload := by subst hinput; rfl
  have hbound : input.snapshotBound = some payload.snapshot := by subst hinput; rfl
  have hkeys : ∀ n, ∀ y ∈ residents n,
      y.key.follows (input.presented.map CursorPayload.anchor) = true →
        payload.anchor < y.key ∧ y.key.InRange := fun n y hy hfollows => by
    rw [hpresented] at hfollows
    exact ⟨of_decide_eq_true hfollows, hwords n y hy⟩
  obtain ⟨outcome, hstop⟩ := Option.isSome_iff_exists.mp (Walk.lastWalk_stopped input session)
  have hcursor : outcome.nextCursor = some next := by
    rw [← hnext, walkRecords, Walk.run, Walk.assemble_nextCursor]
    change _ = ((Walk.lastWalk input session).stopped.getD .complete).nextCursor
    rw [hstop]
    rfl
  constructor
  · -- an expired charge ends the page, and its echo is the presented position itself
    rintro ⟨position, hdecode, hpast⟩ ⟨w, yielded, tail, hexamines, hnone, hexpires⟩
    obtain ⟨hgoing, hunstopped, -⟩ := hexamines.invariant
      (Walk.Going.turnInvariant (Q := fun key => payload.anchor < key ∧ key.InRange) hscans hkeys)
      (Walk.Going.start input hresults)
    obtain ⟨echoed, hechoed, hecho⟩ := @Walk.examine_of_expires input w yielded tail
      (hgoing.unspent hunstopped) hnone hexpires
    rw [hexamines.last (by rw [hechoed]; rfl), hechoed] at hstop
    obtain rfl := Option.some.inj hstop
    rw [hcursor, hpresented] at hecho
    obtain rfl := Option.some.inj hecho
    rw [CursorPayload.decode_encode hrange] at hdecode
    obtain rfl := Except.ok.inj hdecode
    exact lt_irrefl _ hpast
  · intro hnever
    rcases Walk.lastWalk_cursor (Q := fun key => payload.anchor < key ∧ key.InRange) hscans hkeys
      hresults hstop with hmints | ⟨hexpires, -⟩
    · obtain ⟨key, ⟨hpast, hword⟩, rfl⟩ := hmints next hcursor
      refine ⟨_, CursorPayload.decode_encode ⟨hword.time, hword.entity, ?_⟩, hpast⟩
      rw [WalkInput.mint, hbound]
      exact hrange.snapshot
    · exact absurd hexpires hnever

/-- The continuation behind the first of three logs. -/
def behindFirst : CursorPayload :=
  ⟨0, .serial 1, fingerprint (RecordsQuery.new .logRecords).canonicalBytes, ⟨⟨2⟩, .serial 3⟩⟩

/-- A page for the second of the three, before its deadline. -/
theorem advances_iff_keptLogs : ∃ next,
    (answer (fun _ => (keptLogs 3).driver) (.new .logRecords) budgetOfOne still
      (some behindFirst)).nextCursor = some next ∧
    ((∃ position, CursorPayload.decode next = .ok position ∧
        behindFirst.anchor < position.anchor) ↔
      ¬ ExpiresFirst (walkInput (fun _ => (keptLogs 3).driver) (.new .logRecords) still
        (some behindFirst)) (budgetOfOne.admitSession (still 0))) := by
  obtain ⟨next, hnext⟩ : ∃ next, (answer (fun _ => (keptLogs 3).driver) (.new .logRecords)
      budgetOfOne still (some behindFirst)).nextCursor = some next :=
    Option.isSome_iff_exists.mp (by decide +kernel)
  refine ⟨next, hnext, @advances_iff (fun _ => (keptLogs 3).driver) (.new .logRecords) budgetOfOne
    still behindFirst (fun _ => (keptLogs 3).residency.yields .logRecords) next
    ((keptLogs 3).fixedOver rfl) (fun _ => by decide +kernel) ⟨by decide, by decide, by decide⟩ hnext⟩

/-- A page for one record whose deadline passes behind its first charge. -/
def PageCall.expiring (t : Nat) : PageCall where
  budget := budgetOfOne
  clock n := min (n - 1) 1
  moments _ := t
  answered := t
  inOrder _ := Nat.le_refl t
  before _ := Nat.le_refl t

/-- Two logs, one page for the first of them, and one whose deadline passes between the scan charge and
the results charge of the second: it hands back the cursor it was presented. -/
theorem not_advances : ¬ ∀ (T : Timeline) (query : RecordsQuery) (calls : List PageCall),
    (∀ call ∈ calls, ∀ m n, m ≤ n → call.clock m ≤ call.clock n) →
    ∀ p ∈ follow T.history query none calls, ∀ payload next, p.presents payload →
      p.page.nextCursor = some next →
        ∃ position, CursorPayload.decode next = .ok position ∧ payload.anchor < position.anchor := by
  intro hclaim
  have hadvances := hclaim (lateLog 7) (.new .logRecords) [.single 2, .expiring 2] (by
    intro call hcall m n hmn
    rcases List.mem_cons.mp hcall with rfl | hcall
    · exact le_rfl
    · obtain rfl := List.mem_singleton.mp hcall
      exact min_le_min (Nat.sub_le_sub_right hmn 1) le_rfl)
  obtain ⟨p, hp, hechoes⟩ : ∃ p ∈ follow (lateLog 7).history (.new .logRecords) none
      [.single 2, .expiring 2], decide (p.continuation.isSome ∧
        (p.continuation.map CursorPayload.decode).any (fun d => d.toOption.isSome) ∧
        p.page.nextCursor = p.continuation) = true :=
    List.any_eq_true.mp (by decide +kernel)
  obtain ⟨hsome, hdecodes, hecho⟩ := of_decide_eq_true hechoes
  obtain ⟨bytes, hbytes⟩ := Option.isSome_iff_exists.mp hsome
  rw [hbytes] at hdecodes hecho
  obtain ⟨payload, hdecode⟩ : ∃ payload, CursorPayload.decode bytes = .ok payload := by
    cases hresult : CursorPayload.decode bytes with
    | ok payload => exact ⟨payload, rfl⟩
    | error error =>
      rw [Option.map_some, hresult] at hdecodes
      cases hdecodes
  obtain ⟨position, hposition, hpast⟩ := hadvances p hp payload bytes ⟨bytes, hbytes, hdecode⟩ hecho
  rw [hdecode] at hposition
  obtain rfl := Except.ok.inj hposition
  exact lt_irrefl _ hpast

end RuntimeTrail
