import RuntimeTrail.Query.Turns

/-!
# A page ends within its budget, whatever the driver does

Nothing is assumed of the driver: it may repeat keys, claim successors it never
yields, or never run out.  A turn that goes on has examined a record, which spends
the scan ceiling, or was answered an empty batch, which the walk tolerates so many
times in a row.

* **the scans** — `Walk.turnsLeft`, what every turn shrinks, and
  `lastWalk_calls_le`;
* **the items** — `Walk.Within`: what was returned and what is left of the
  ceilings stay within the budget;
* **the law** — `walk_ends_within_budget`.
-/

namespace RuntimeTrail

open Library

namespace Walk

/-! ## The scans -/

/-- The turns a walk has left: so many empty batches before each record of the scan ceiling, and so
many behind the last. -/
def turnsLeft (s : Walk × Nat) : Nat :=
  if s.1.stopped.isSome then 0
  else emptyPageStallLimit * s.1.scanLeft + (emptyPageStallLimit - s.2)

theorem turnsLeft_of_stopped {s : Walk × Nat} (h : s.1.stopped.isSome) : turnsLeft s = 0 := if_pos h

theorem turnsLeft_of_going {s : Walk × Nat} (h : s.1.stopped = none) :
    turnsLeft s = emptyPageStallLimit * s.1.scanLeft + (emptyPageStallLimit - s.2) :=
  if_neg (by rw [h]; simp)

/-- A turn scans once, and takes one of the turns left; a walk that goes on has not been answered
its limit of empty batches. -/
theorem turn_scans {w : Walk} {input : WalkInput} {emptyPages : Nat} (hgoing : w.stopped = none)
    (hroom : emptyPages < emptyPageStallLimit) :
    (w.turn input emptyPages).1.calls = w.calls + 1 ∧
      turnsLeft (w.turn input emptyPages) + 1 ≤ turnsLeft (w, emptyPages) ∧
      ((w.turn input emptyPages).1.stopped = none →
        (w.turn input emptyPages).2 < emptyPageStallLimit) := by
  have hleft := turnsLeft_of_going (s := (w, emptyPages)) hgoing
  have hframe := examineBatch_frame input (w.batch input) (w.pulled input)
  have hspent := examineBatch_spends input (w.batch input) (w.pulled input)
  have hall := w.turning input emptyPages
  generalize w.turn input emptyPages = s at hall ⊢
  cases hall with
  | exhausted nothing last =>
    have hstopped := finishCountingOrComplete_stopped (w.pulled input) input
    refine ⟨(finishCountingOrComplete_frame (w.pulled input) input).2.2, ?_, fun hnone => ?_⟩
    · rw [turnsLeft_of_stopped hstopped, hleft]
      dsimp only
      omega
    · rw [hnone] at hstopped
      cases hstopped
  | stalled nothing claimed limit =>
    refine ⟨rfl, ?_, fun hnone => absurd hnone (by simp [stallAt])⟩
    rw [turnsLeft_of_stopped rfl, hleft]
    dsimp only
    omega
  | waits nothing claimed room =>
    refine ⟨rfl, ?_, fun _ => room⟩
    rw [hleft, turnsLeft_of_going (show w.stopped = none from hgoing)]
    change emptyPageStallLimit * w.scanLeft + _ + 1 ≤ _
    dsimp only
    omega
  | stops yielded stop =>
    refine ⟨hframe.2.2, ?_, fun hnone => ?_⟩
    · rw [turnsLeft_of_stopped stop, hleft]
      dsimp only
      omega
    · rw [hnone] at stop
      cases stop
  | resumes yielded goes claimed =>
    refine ⟨hframe.2.2, ?_, fun _ => Nat.succ_pos _⟩
    rw [hleft, turnsLeft_of_going (show _ = none from goes)]
    have hlength := List.length_pos_of_ne_nil yielded
    rw [goes] at hspent
    rcases hspent with hstop | hspent
    · cases hstop
    · have hscan : (w.pulled input).scanLeft = w.scanLeft := rfl
      change emptyPageStallLimit *
        (examineBatch input (w.pulled input) (w.batch input)).scanLeft + _ + 1 ≤ _
      rw [emptyPageStallLimit] at hroom ⊢
      dsimp only
      omega
  | ends yielded goes last =>
    have hstopped := finishCountingOrComplete_stopped
      (examineBatch input (w.pulled input) (w.batch input)) input
    refine ⟨(finishCountingOrComplete_frame _ input).2.2.trans hframe.2.2, ?_, fun hnone => ?_⟩
    · rw [turnsLeft_of_stopped hstopped, hleft]
      dsimp only
      omega
    · rw [hnone] at hstopped
      cases hstopped

/-- **How often a page scans its store**, whatever the store answers. -/
theorem lastWalk_calls_le (input : WalkInput) (session : BudgetSession) :
    (lastWalk input session).calls ≤ (walkStart input session).calls +
      emptyPageStallLimit * (session.ledger.scan.remaining + 1) := by
  have hbound : ∀ s : Walk × Nat, (s.1.calls + turnsLeft s ≤ (walkStart input session).calls +
        emptyPageStallLimit * (session.ledger.scan.remaining + 1) ∧
      (s.1.stopped = none → s.2 < emptyPageStallLimit)) → ∀ s', (pages input).step s = some s' →
      s'.1.calls + turnsLeft s' ≤ (walkStart input session).calls +
        emptyPageStallLimit * (session.ledger.scan.remaining + 1) ∧
      (s'.1.stopped = none → s'.2 < emptyPageStallLimit) := by
    rintro ⟨w, emptyPages⟩ ⟨hcalls, hroom⟩ s' hstep
    change (if w.stopped.isSome then none else some (w.turn input emptyPages)) = some s' at hstep
    split at hstep
    · cases hstep
    · rename_i hgoes
      obtain rfl := Option.some.inj hstep
      have hgoing := Option.not_isSome_iff_eq_none.mp hgoes
      obtain ⟨hscan, hleft, hroom'⟩ := @turn_scans w input emptyPages hgoing (hroom hgoing)
      refine ⟨?_, hroom'⟩
      dsimp only at hcalls
      omega
  have hstart : (walkStart input session).calls + turnsLeft (walkStart input session, 0) ≤
      (walkStart input session).calls +
        emptyPageStallLimit * (session.ledger.scan.remaining + 1) := by
    rw [turnsLeft_of_going (s := (walkStart input session, 0)) rfl]
    exact le_rfl
  have hend := (pages input).run_invariant (fun s s' h hstep => hbound s h s' hstep)
    (s := (walkStart input session, 0)) ⟨hstart, fun _ => Nat.succ_pos _⟩
  exact (Nat.le_add_right _ _).trans hend.1

/-! ## The items -/

/-- What a walk returns and what is left of its ceilings are within the session's. -/
structure Within (session : BudgetSession) (w : Walk) : Prop where
  items : w.items.length + w.session.ledger.results.remaining ≤ session.ledger.results.remaining
  bytes : (w.items.map evidenceOf).sum + w.session.ledger.bytes.remaining ≤
    session.ledger.bytes.remaining

namespace Within

variable {session : BudgetSession} {w w' : Walk}

/-- Returning nothing more and getting nothing back. -/
theorem of_le (h : w.Within session) (hitems : w'.items = w.items)
    (hresults : w'.session.ledger.results.remaining ≤ w.session.ledger.results.remaining)
    (hbytes : w'.session.ledger.bytes.remaining ≤ w.session.ledger.bytes.remaining) :
    w'.Within session where
  items := by
    rw [hitems]
    exact (Nat.add_le_add_left hresults _).trans h.items
  bytes := by
    rw [hitems]
    exact (Nat.add_le_add_left hbytes _).trans h.bytes

theorem finishCountingOrComplete (h : w.Within session) (input : WalkInput) :
    (w.finishCountingOrComplete input).Within session := by
  have hsession : (w.finishCountingOrComplete input).session = w.session := by
    unfold Walk.finishCountingOrComplete
    cases w.counting <;> rfl
  exact h.of_le (w.finishCountingOrComplete_items input) (by rw [hsession]) (by rw [hsession])

theorem stopBeforeExamining (h : w.Within session) (input : WalkInput) (refusal : BudgetRefusal) :
    (w.stopBeforeExamining input refusal).Within session := by
  have hsession : (w.stopBeforeExamining input refusal).session = w.session := by
    unfold Walk.stopBeforeExamining
    cases w.counting with
    | some counting => rfl
    | none => cases w.lastExamined <;> rfl
  exact h.of_le (w.stopBeforeExamining_items input refusal) (by rw [hsession]) (by rw [hsession])

theorem settle (h : w.Within session) (units : Nat) : (w.settle units).Within session :=
  h.of_le rfl le_rfl le_rfl

/-- An examination returns what its results and bytes charges paid for. -/
theorem examine {session' : BudgetSession} (h : w.Within session') (input : WalkInput) (yielded : Yield) (tail : Nat) :
    (w.examine input yielded tail).Within session' := by
  have hasked : ∀ {allowance : TraversalAllowance} {after : BudgetSession},
      w.session.allowScan (input.clock w.readings) 1 = (allowance, after) →
        (w.asked after).Within session' := fun hcharge => by
    obtain ⟨hresults, hbytes⟩ := BudgetSession.allowScan_le hcharge
    exact h.of_le rfl (le_of_eq (congrArg Allowance.remaining hresults))
      (le_of_eq (congrArg Allowance.remaining hbytes))
  have hscanned : ∀ {allowance : TraversalAllowance} {after : BudgetSession},
      w.session.allowScan (input.clock w.readings) 1 = (allowance, after) →
        (w.scanned after yielded.key).Within session' := fun {_ after} hcharge => by
    obtain ⟨hsession, -, -, hitems, -⟩ := w.scanned_frame after yielded.key
    have hpaid := hasked hcharge
    exact hpaid.of_le hitems (by rw [hsession]; rfl) (by rw [hsession]; rfl)
  have hcharged : ∀ {session after : BudgetSession} {allowance : TraversalAllowance} {now : Instant},
      (w.scanned session yielded.key).Within session' →
        session.allowResults now 1 = (allowance, after) →
          ((w.scanned session yielded.key).asked after).Within session' :=
    fun {before after} _ _ hpaid hcharge => by
      obtain ⟨hsession, -⟩ := w.scanned_frame before yielded.key
      obtain ⟨hresults, hbytes⟩ := BudgetSession.allowResults_le hcharge
      exact hpaid.of_le rfl (by rw [hsession]; exact hresults)
        (by rw [hsession]; exact le_of_eq (congrArg Allowance.remaining hbytes))
  have hall := w.examination input yielded tail
  generalize w.examine input yielded tail = w' at hall ⊢
  cases hall with
  | pastBound past => exact (h.settle _).finishCountingOrComplete input
  | unscanned within scan => exact ((hasked scan).settle _).stopBeforeExamining input _
  | skipped within scan filtered => exact hscanned scan
  | counted within scan matching phase => exact (hscanned scan).of_le rfl le_rfl le_rfl
  | resultsSpent within scan matching phase spent => exact (hscanned scan).of_le rfl le_rfl le_rfl
  | resultsRefused within scan matching phase unspent results =>
    exact (hcharged (hscanned scan) results).of_le rfl le_rfl le_rfl
  | unfit within scan matching phase unspent results wall =>
    exact (hcharged (hscanned scan) results).of_le rfl le_rfl le_rfl
  | bytesRefused within scan matching phase unspent results fits bytes =>
    obtain ⟨hresults, hbytes⟩ := BudgetSession.allowBytes_le bytes
    exact (hcharged (hscanned scan) results).of_le rfl
      (le_of_eq (congrArg Allowance.remaining hresults)) hbytes
  | @included _ _ _ after after' after'' within scan matching phase unspent results fits bytes =>
    -- the one record more is what the two charges took
    have hpaid := hscanned scan
    obtain ⟨hsession, -, -, hitems, -⟩ := w.scanned_frame after yielded.key
    have hroom := hpaid.items
    have hsum := hpaid.bytes
    rw [hsession, hitems] at hroom hsum
    obtain ⟨hone, rfl⟩ := BudgetSession.allowResults_exact results
    obtain ⟨hfits, rfl⟩ := BudgetSession.allowBytes_exact bytes
    constructor
    · simp only [asked, List.length_append, List.length_singleton]
      omega
    · simp only [asked, List.map_append, List.sum_append, List.map_singleton, List.sum_singleton]
      dsimp only at hfits
      omega

/-- Every turn keeps it. -/
theorem turnInvariant (session : BudgetSession) (input : WalkInput) :
    TurnInvariant input (Walk.Within session) where
  pulled _ _ h := h.of_le rfl le_rfl le_rfl
  examined _ tail _ h := h.examine input _ tail
  resumed _ _ h := h.of_le rfl le_rfl le_rfl
  finished h := h.finishCountingOrComplete input
  stalled _ h := h.of_le rfl le_rfl le_rfl

end Within

/-- What a page returns is within its ceilings. -/
theorem lastWalk_within (input : WalkInput) (session : BudgetSession) :
    (lastWalk input session).Within session := by
  refine (Within.turnInvariant session input).run (w := walkStart input session) ⟨?_, ?_⟩
  · simp [walkStart]
  · simp [walkStart]

end Walk

/-! ## The law -/

/-- **A page ends within its budget, whatever the driver does.**  For every sequence of stores, of
which nothing is assumed, every query, budget, clock and continuation: the walk comes to an outcome,
it has scanned the store at most so often as the scan ceiling and the limit of empty batches allow,
and the page it answers returns no more items and evidence bytes than the budget's ceilings. -/
theorem walk_ends_within_budget (stores : Nat → TelemetryStore) (query : RecordsQuery)
    (budget : QueryBudget) (clock : Clock) (presented : Option CursorPayload) :
    ((Walk.lastWalk (walkInput stores query clock presented)
        (budget.admitSession (clock 0))).stopped.isSome ∧
      (Walk.lastWalk (walkInput stores query clock presented)
          (budget.admitSession (clock 0))).calls ≤
        (walkStart (walkInput stores query clock presented) (budget.admitSession (clock 0))).calls +
          emptyPageStallLimit * (budget.maxScan + 1)) ∧
      (answer stores query budget clock presented).items.length ≤ budget.maxResults ∧
      ((answer stores query budget clock presented).items.map evidenceOf).sum ≤ budget.maxBytes := by
  have hwithin := Walk.lastWalk_within (walkInput stores query clock presented)
    (budget.admitSession (clock 0))
  refine ⟨⟨Walk.lastWalk_stopped _ _, Walk.lastWalk_calls_le _ _⟩, ?_⟩
  unfold answer
  dsimp only
  split
  · exact ⟨Nat.zero_le _, Nat.zero_le _⟩
  · exact ⟨(Nat.le_add_right _ _).trans hwithin.items, (Nat.le_add_right _ _).trans hwithin.bytes⟩

end RuntimeTrail
