import RuntimeTrail.Correlation.Exact

/-!
# How far the allowance of a run reaches

Over a fixed store the three scans take the residents in order, as far as the
allowance goes.  What is left of it at the start of one scan is what the scans
before did not spend.

* **one scan** — `ResidentScan.Fronts` through a run, `scanResident_take`: the
  residents the allowance has room for, and a stop where it met a scan with none
  left or did not last;
* **the three scans** — `FixedStore.scanned_take`;
* **what is left out** — `RuntimeTrail.scan_exhausted_iff`: the run names an
  exhausted allowance where a resident was left out, but for a store of no points
  whose spans and log records take the allowance exactly.
-/

namespace RuntimeTrail

open Library

/-! ## One scan -/

namespace ResidentScan

variable {R : Type} {residents : SortedMap AdmissionKey R}
  {read : Nat → Option AdmissionKey → Nat → ScanPage R}

/-- The residents as a scan takes them. -/
def all (residents : SortedMap AdmissionKey R) : List (EntityId × R) :=
  residents.entries.map fun p => (p.1.entity, p.2)

/-- The residents a scan has still ahead. -/
def rest (residents : SortedMap AdmissionKey R) (scan : ResidentScan R) : List (EntityId × R) :=
  (residents.entries.filter fun p => p.1.follows scan.after).map fun p => (p.1.entity, p.2)

/-- How a scan stands to the residents it takes: what it has and what is ahead are all of them, with
something ahead after the first page.  It ended with all of them, or with the allowance spent. -/
structure Fronts (residents : SortedMap AdmissionKey R) (maxScan : Nat) (tally : Tally)
    (scan : ResidentScan R) : Prop where
  running : scan.ended = false → scan.resident ++ scan.rest residents = all residents ∧
    (scan.resident = [] ∨ scan.rest residents ≠ []) ∧ scan.tally.stoppedAt = tally.stoppedAt
  done : scan.ended = true →
    (scan.resident = all residents ∧ tally.spent < maxScan ∧
        scan.tally.stoppedAt = tally.stoppedAt) ∨
      ∃ back, scan.resident ++ back = all residents ∧ scan.tally.spent = maxScan ∧
        (maxScan ≤ tally.spent ∨ back ≠ []) ∧
        scan.tally.stoppedAt = some (.scanExhausted maxScan)

/-- A scan at its allowance ends with the next turn. -/
theorem turn_of_spent {maxScan : Nat} {scan : ResidentScan R} (hended : scan.ended = false)
    (h : maxScan ≤ scan.tally.spent) : turn maxScan read scan = some scan.exhaust := by
  rw [turn, hended, if_neg Bool.false_ne_true, if_pos h]

theorem Fronts.turn (hserves : ∀ call, ScansOver (read call) residents) {maxScan : Nat}
    {tally : Tally} {scan scan' : ResidentScan R} (h : scan.Fronts residents maxScan tally)
    (hspent : scan.Spent maxScan tally) (hturn : turn maxScan read scan = some scan') :
    scan'.Fronts residents maxScan tally := by
  obtain ⟨hended, hcases⟩ := turn_cases hspent.within hturn
  obtain ⟨hall, hahead, hstop⟩ := h.running hended
  by_cases hfull : maxScan ≤ scan.tally.spent
  · obtain rfl := Option.some.inj ((turn_of_spent hended hfull).symm.trans hturn)
    have heq : scan.tally.spent = maxScan := Nat.le_antisymm hspent.within hfull
    refine ⟨fun hrun => absurd hrun (by simp [exhaust]), fun _ => Or.inr ⟨_, hall, heq, ?_, ?_⟩⟩
    · -- a scan that has taken nothing found the allowance spent
      refine hahead.imp_left fun hnone => ?_
      have := hspent.spent
      rw [hnone, List.length_nil] at this
      omega
    · rw [← heq]
      rfl
  · have hroom : tally.spent < maxScan := by
      have := hspent.spent
      omega
    rw [hserves] at hcases
    rcases hcases with ⟨hspent', -⟩ | ⟨hempty, rfl⟩ | ⟨hcut, rfl⟩ | ⟨-, rfl⟩
    · exact absurd hspent' hfull
    · refine ⟨fun hrun => absurd hrun (by simp), fun _ => Or.inl ⟨?_, hroom, hstop⟩⟩
      rw [rest, ScanPage.ahead_eq_nil (show 0 < scanPage by decide) hempty, List.map_nil,
        List.append_nil] at hall
      exact hall
    · -- the page is cut: what is examined of it is a front of what lay ahead
      generalize hleft : maxScan - scan.tally.spent = left at hcut ⊢
      refine ⟨fun hrun => absurd hrun (by simp [exhaust]), fun _ => Or.inr
        ⟨(scan.rest residents).drop (min left scanPage), ?_, ?_, Or.inr ?_, ?_⟩⟩
      · rw [← hall]
        conv_rhs => rw [← List.take_append_drop (min left scanPage) (scan.rest residents)]
        rw [← List.append_assoc]
        congr 1
        simp only [exhaust, examineAll, called, ScanPage.ofAhead, rest, ← List.map_take,
          List.map_map, List.take_take]
        rfl
      · have hlen := List.length_take_of_le hcut.le
        simp only [exhaust, Tally.exhausted, examineAll, called, hlen]
        omega
      · rw [ScanPage.ofAhead, List.length_map, List.length_take] at hcut
        rw [Ne, List.drop_eq_nil_iff, rest, List.length_map]
        omega
      · have hlen := List.length_take_of_le hcut.le
        simp only [exhaust, Tally.exhausted, examineAll, called, hlen]
        congr 2
        omega
    · rcases ScanPage.ofAhead_cases (show 0 < scanPage by decide)
        (residents.entries.filter fun p => p.1.follows scan.after) with
        ⟨hcursor, hitems⟩ | ⟨front, last, back, hsplit, hback, hitems, hcursor⟩
      · rw [hcursor, hitems]
        refine ⟨fun hrun => absurd hrun (by simp [resume]),
          fun _ => Or.inl ⟨?_, hroom, hstop⟩⟩
        rw [← hall]
        simp only [resume, examineAll, called, List.map_map]
        rfl
      · have hrest := aheadEntries_of_cut hsplit
        rw [hcursor, hitems]
        refine ⟨fun _ => ⟨?_, Or.inr ?_, hstop⟩,
          fun hrun => absurd hrun (by simp [resume, examineAll, called, hended])⟩
        · rw [← hall, rest, rest, hsplit]
          change (scan.resident ++ _) ++ (residents.entries.filter fun p =>
            p.1.follows (some last.1)).map _ = _
          rw [hrest, List.append_assoc, List.map_map,
            show front ++ last :: back = (front ++ [last]) ++ back by simp]
          exact congrArg (scan.resident ++ ·) List.map_append.symm
        · change (residents.entries.filter fun p => p.1.follows (some last.1)).map _ ≠ []
          rw [hrest]
          exact fun hnil => hback (List.map_eq_nil_iff.mp hnil)

end ResidentScan

/-- **One scan of a fixed store** takes the residents the allowance has room for; it names the stop
where the allowance was spent before it began, or did not last. -/
theorem scanResident_take {R : Type} {residents : SortedMap AdmissionKey R}
    {read : Nat → Option AdmissionKey → Nat → ScanPage R}
    (hserves : ∀ call, ScansOver (read call) residents) {maxScan : Nat} {tally : Tally}
    (h : tally.spent ≤ maxScan) :
    (scanResident read maxScan tally).1 =
        (ResidentScan.all residents).take (maxScan - tally.spent) ∧
      (scanResident read maxScan tally).2.stoppedAt =
        if tally.spent = maxScan ∨ maxScan - tally.spent < residents.entries.length then
          some (.scanExhausted maxScan)
        else tally.stoppedAt := by
  have hrun := (residentLoop maxScan read).run_invariant
    (I := fun scan => scan.Spent maxScan tally ∧ scan.Fronts residents maxScan tally)
    (fun _ _ hs hturn => ⟨hs.1.turn hturn, hs.2.turn hserves hs.1 hturn⟩)
    (s := ⟨tally, none, [], false⟩)
    ⟨⟨rfl, h, Nat.le_refl _, id⟩,
      fun _ => ⟨congrArg (List.map _) (List.filter_eq_self.mpr fun _ _ => rfl), Or.inl rfl, rfl⟩,
      fun hrun => absurd hrun (by simp)⟩
  have hended := (residentLoop maxScan read).step_run ⟨tally, none, [], false⟩
  rw [scanResident]
  generalize (residentLoop maxScan read).run ⟨tally, none, [], false⟩ = scan at hrun hended
  obtain ⟨hspent, hfronts⟩ := hrun
  have hdone : scan.ended = true := by
    by_contra hnot
    exact ResidentScan.turn_ne_none hnot hended
  have hlen : (ResidentScan.all residents).length = residents.entries.length := List.length_map _
  have hcount := hspent.spent
  have hwithin := hspent.within
  rcases hfronts.done hdone with ⟨hall, hroom, hstop⟩ | ⟨back, hall, hfull, hback, hstop⟩
  · rw [hall, hlen] at hcount
    refine ⟨?_, ?_⟩
    · rw [List.take_of_length_le (by rw [hlen]; omega)]
      exact hall
    · rw [if_neg (by omega)]
      exact hstop
  · have hlength : scan.resident.length = maxScan - tally.spent := by omega
    refine ⟨?_, ?_⟩
    · rw [← hall, ← hlength, List.take_left]
    · rw [if_pos ?_]
      · exact hstop
      · refine hback.imp (fun hle => Nat.le_antisymm h hle) fun hne => ?_
        have hpos := List.length_pos_of_ne_nil hne
        rw [← hlen, ← hall, List.length_append]
        omega

/-! ## The three scans -/

/-- What every scan has of a fixed store is its residents' front the allowance reaches. -/
theorem FixedStore.scanned_take (store : FixedStore) (maxScan : Nat) :
    let s := scanned (fun _ => store.driver) maxScan
    let spans := store.residency.residentSpans
    let logs := store.residency.residentLogs
    let points := store.residency.residentPoints
    s.spans = spans.take maxScan ∧ s.logs = logs.take (maxScan - spans.length) ∧
      s.points = points.take (maxScan - spans.length - logs.length) ∧
      s.tally.stoppedAt =
        if maxScan ≤ spans.length + logs.length ∨
            maxScan < spans.length + logs.length + points.length then
          some (.scanExhausted maxScan)
        else none := by
  have hspent := @scanResident_spent _ (fun _ => store.driver.scanSpans) maxScan ⟨0, 0, none⟩
    (Nat.zero_le _)
  have hspent' := @scanResident_spent _ (fun _ => store.driver.scanLogRecords) maxScan _
    hspent.2.1
  have hspans := scanResident_take (fun _ => store.serves.scanSpans)
    (show (⟨0, 0, none⟩ : Tally).spent ≤ maxScan from Nat.zero_le _)
  have hlogs := scanResident_take (fun _ => store.serves.scanLogRecords) hspent.2.1
  have hpoints := scanResident_take (fun _ => store.serves.scanMetricPoints) hspent'.2.1
  have hspansLength : store.residency.residentSpans.length =
      store.residency.spans.entries.length := List.length_map _
  have hlogsLength : store.residency.residentLogs.length =
      store.residency.logRecords.entries.length := List.length_map _
  have hpointsLength : store.residency.residentPoints.length =
      store.residency.metricPoints.entries.length := List.length_map _
  have hafterSpans : (scanResident (fun _ => store.driver.scanSpans) maxScan ⟨0, 0, none⟩).2.spent =
      min maxScan store.residency.residentSpans.length := by
    rw [hspent.1, hspans.1]
    change 0 + ((store.residency.residentSpans).take (maxScan - 0)).length = _
    rw [List.length_take]
    omega
  have hafterLogs : (scanResident (fun _ => store.driver.scanLogRecords) maxScan
      (scanResident (fun _ => store.driver.scanSpans) maxScan ⟨0, 0, none⟩).2).2.spent =
      min maxScan (store.residency.residentSpans.length + store.residency.residentLogs.length) := by
    rw [hspent'.1, hlogs.1, hafterSpans]
    change _ + ((store.residency.residentLogs).take _).length = _
    rw [List.length_take]
    omega
  rw [hafterSpans] at hlogs
  rw [hafterLogs] at hpoints
  refine ⟨hspans.1, hlogs.1.trans ?_, hpoints.1.trans ?_, hpoints.2.trans ?_⟩
  · change store.residency.residentLogs.take _ = _
    congr 1
    omega
  · change store.residency.residentPoints.take _ = _
    congr 1
    omega
  · rw [hlogs.2, hspans.2]
    dsimp only
    rw [← hspansLength, ← hlogsLength, ← hpointsLength]
    split
    · rw [if_pos (by omega)]
    · split
      · rw [if_pos (by omega)]
      · split
        · rw [if_pos (by omega)]
        · rw [if_neg (by omega)]

/-! ## What is left out -/

/-- What the scans of a run met; a run of no hops makes none. -/
def scansOf (reads : Nat → TelemetryStore) (bounds : CorrelationBounds) : Scanned :=
  if bounds.maxHops = 0 then ⟨[], [], [], ⟨0, 0, none⟩⟩ else scanned reads bounds.maxScan

namespace Residency

/-- Some resident span, log record or point was left unexamined. -/
def LeftUnexamined (residency : Residency) (s : Scanned) : Prop :=
  s.spans ≠ residency.residentSpans ∨ s.logs ≠ residency.residentLogs ∨
    s.points ≠ residency.residentPoints

/-- The run names an exhausted allowance exactly where a resident was left unexamined, and then the
allowance is what was examined and what was spent. -/
def NamesExhaustion (residency : Residency) (maxScan : Nat) (s : Scanned) (truth : Truth) : Prop :=
  ((∃ examined, truth.stoppedAt = some (.scanExhausted examined)) ↔ residency.LeftUnexamined s) ∧
    ∀ examined, truth.stoppedAt = some (.scanExhausted examined) →
      examined = truth.scanSpent ∧ truth.scanSpent = maxScan

/-- The spans and the log records take the allowance exactly, and no point is resident. -/
def FitsExactly (residency : Residency) (maxScan : Nat) : Prop :=
  residency.residentSpans.length + residency.residentLogs.length = maxScan ∧
    residency.residentPoints = []

end Residency

/-- **The stop of a run**: that of its scans, else the ceiling, where more was formed. -/
theorem stoppedAt_correlate {reads : Nat → TelemetryStore} {bounds : CorrelationBounds}
    (h : bounds.maxHops ≠ 0) : (correlate reads bounds).truth.stoppedAt =
      (scanned reads bounds.maxScan).tally.stoppedAt.or
        (if (offered bounds (scanned reads bounds.maxScan)).length ≤ bounds.maxRelations then none
          else some (.maxRelations bounds.maxRelations)) := by
  rw [correlate, if_neg h]
  dsimp only
  rw [form_sink, RelationSink.stoppedAt_pushAll (.new _ _)]
  simp [RelationSink.new]

/-- A run that scans leaves a resident unexamined exactly when there are more than it may
examine. -/
theorem FixedStore.leftUnexamined_iff (store : FixedStore) (maxScan : Nat) :
    store.residency.LeftUnexamined (scanned (fun _ => store.driver) maxScan) ↔
      maxScan < store.residency.residentSpans.length + store.residency.residentLogs.length +
        store.residency.residentPoints.length := by
  obtain ⟨hspans, hlogs, hpoints, -⟩ := store.scanned_take maxScan
  rw [Residency.LeftUnexamined, hspans, hlogs, hpoints, Ne, Ne, Ne, List.take_eq_self_iff,
    List.take_eq_self_iff, List.take_eq_self_iff]
  omega

/-- **An exhausted allowance is named where a resident was left out**, but for one kind of run: the
resident spans and log records take the allowance exactly, and there is no point left to examine.
(A run of no hops makes no scan, and names its depth.) -/
theorem scan_exhausted_iff (store : FixedStore) (bounds : CorrelationBounds) :
    store.residency.NamesExhaustion bounds.maxScan (scansOf (fun _ => store.driver) bounds)
        (correlate (fun _ => store.driver) bounds).truth ↔
      if bounds.maxHops = 0 then
        store.residency.residentSpans = [] ∧ store.residency.residentLogs = [] ∧
          store.residency.residentPoints = []
      else ¬ store.residency.FitsExactly bounds.maxScan := by
  unfold Residency.NamesExhaustion scansOf
  by_cases hhops : bounds.maxHops = 0
  · have hstop : (correlate (fun _ => store.driver) bounds).truth.stoppedAt =
        some (.maxDepth 0) := by rw [correlate_of_maxHops hhops]
    have hleft : store.residency.LeftUnexamined ⟨[], [], [], ⟨0, 0, none⟩⟩ ↔
        ¬ (store.residency.residentSpans = [] ∧ store.residency.residentLogs = [] ∧
          store.residency.residentPoints = []) := by
      rw [Residency.LeftUnexamined, not_and_or, not_and_or, ne_comm, ne_comm (a := []),
        ne_comm (a := [])]
    rw [if_pos hhops, if_pos hhops, hstop, hleft]
    simp
  · obtain ⟨hspans, hlogs, hpoints, hstopped⟩ := store.scanned_take bounds.maxScan
    have hspent := (scanned_spent (fun _ => store.driver) bounds.maxScan).1
    rw [hspans, hlogs, hpoints, List.length_take, List.length_take, List.length_take] at hspent
    have htruth : (correlate (fun _ => store.driver) bounds).truth.scanSpent =
        (scanned (fun _ => store.driver) bounds.maxScan).tally.spent := by
      rw [correlate, if_neg hhops]
    rw [if_neg hhops, if_neg hhops, stoppedAt_correlate hhops, hstopped, htruth,
      store.leftUnexamined_iff, Residency.FitsExactly, ← List.length_eq_zero_iff]
    by_cases hout : bounds.maxScan ≤
        store.residency.residentSpans.length + store.residency.residentLogs.length ∨
          bounds.maxScan < store.residency.residentSpans.length +
            store.residency.residentLogs.length + store.residency.residentPoints.length
    · rw [if_pos hout, Option.some_or]
      constructor
      · rintro ⟨hiff, -⟩ ⟨hexact, hempty⟩
        have := hiff.mp ⟨_, rfl⟩
        omega
      · intro hnot
        refine ⟨⟨fun _ => by omega, fun _ => ⟨_, rfl⟩⟩, fun examined hexamined => ?_⟩
        obtain rfl := StoppedAt.scanExhausted.inj (Option.some.inj hexamined)
        omega
    · rw [if_neg hout, Option.none_or]
      have hnever : ¬ ∃ examined, (if (offered bounds (scanned (fun _ => store.driver)
          bounds.maxScan)).length ≤ bounds.maxRelations then none
            else some (StoppedAt.maxRelations bounds.maxRelations)) =
              some (.scanExhausted examined) := by
        rintro ⟨examined, hexamined⟩
        split at hexamined
        · exact absurd hexamined (by simp)
        · exact absurd (Option.some.inj hexamined) (by simp)
      refine ⟨fun _ => by omega, fun _ => ⟨⟨fun hsome => absurd hsome hnever, fun _ => ?_⟩,
        fun examined hexamined => absurd ⟨examined, hexamined⟩ hnever⟩⟩
      omega

/-- Two spans and two log records under an allowance of four positions: everything resident is
examined, and the run names an exhausted allowance all the same. -/
theorem scan_exhausted_nothing_left :
    ¬ rootAndChildStore.residency.NamesExhaustion 4
      (scansOf (fun _ => rootAndChildStore.driver) ⟨[.parentChild], none, 10, 1, 4, none⟩)
      (correlate (fun _ => rootAndChildStore.driver)
        ⟨[.parentChild], none, 10, 1, 4, none⟩).truth := by
  rintro ⟨hnamed, -⟩
  have hleft := hnamed.mp ⟨4, by decide +kernel⟩
  have hmore := (rootAndChildStore.leftUnexamined_iff 4).mp hleft
  exact absurd hmore (by decide +kernel)

end RuntimeTrail
