import RuntimeTrail.Correlation.Engine
import RuntimeTrail.Storage.Paging

/-!
# What a run scans

A scan pages over a store that keeps and evicts between its calls, under an
allowance of positions.

* **one turn** — `ResidentScan.turn_cases`: the allowance is spent, the page is
  empty, the page is cut by the allowance, or it is examined whole;
* **the spend** — `scanned_spent`: one position for each record, never past the
  allowance;
* **a store that changes** — `ResidentScan.Meets`: what is met was resident at its
  call, and the keys only increase;
* **a fixed store** — `scanResident_fixed`: a scan that names no stop has met
  every resident, in residency order.
-/

namespace RuntimeTrail

open Library

namespace ResidentScan

variable {R : Type}

/-! ## One turn -/

/-- So many items examined, none of them refused. -/
def examineAll (scan : ResidentScan R) (items : List (ScanItem R)) : ResidentScan R :=
  { scan with
    tally := { scan.tally with spent := scan.tally.spent + items.length }
    resident := scan.resident ++ items.map fun item => (item.key.entity, item.record) }

/-- One store call was made. -/
def called (scan : ResidentScan R) : ResidentScan R :=
  { scan with tally := { scan.tally with calls := scan.tally.calls + 1 } }

/-- A page is examined whole, or up to the allowance. -/
theorem examineItems_eq {maxScan : Nat} (items : List (ScanItem R)) {scan : ResidentScan R}
    (h : scan.tally.spent ≤ maxScan) : examineItems maxScan scan items =
      if items.length ≤ maxScan - scan.tally.spent then scan.examineAll items
      else (scan.examineAll (items.take (maxScan - scan.tally.spent))).exhaust := by
  induction items generalizing scan with
  | nil => simp [examineItems, examineAll]
  | cons item rest ih =>
    rw [examineItems]
    by_cases hfull : maxScan ≤ scan.tally.spent
    · have hroom : maxScan - scan.tally.spent = 0 := by omega
      rw [if_pos hfull, hroom, if_neg (by simp)]
      simp [examineAll]
    · obtain ⟨room, hroom⟩ : ∃ room, maxScan - scan.tally.spent = room + 1 :=
        ⟨maxScan - scan.tally.spent - 1, by omega⟩
      have hspent : (scan.examine item).tally.spent = scan.tally.spent + 1 := rfl
      have hrest : maxScan - (scan.examine item).tally.spent = room := by omega
      have hall : ∀ items, (scan.examine item).examineAll items = scan.examineAll (item :: items) := by
        intro items
        simp only [examineAll, examine, List.length_cons, List.map_cons, List.append_assoc,
          List.cons_append, List.nil_append, Nat.add_assoc, Nat.add_comm 1]
      rw [if_neg hfull, ih (by omega), hrest, hroom, hall, hall, List.length_cons,
        List.take_succ_cons]
      by_cases hfit : rest.length ≤ room
      · rw [if_pos hfit, if_pos (by omega)]
      · rw [if_neg hfit, if_neg (by omega)]

/-- **One turn.**  The allowance is spent; or the page is empty, is cut by the allowance, or is
examined whole. -/
theorem turn_cases {maxScan : Nat} {read : Nat → Option AdmissionKey → Nat → ScanPage R}
    {scan scan' : ResidentScan R} (hspent : scan.tally.spent ≤ maxScan)
    (h : turn maxScan read scan = some scan') :
    let page := read scan.tally.calls scan.after scanPage
    scan.ended = false ∧
      ((maxScan ≤ scan.tally.spent ∧ scan' = scan.exhaust) ∨
        (page.items = [] ∧ scan' = { scan.called with ended := true }) ∨
        (maxScan - scan.tally.spent < page.items.length ∧
          scan' = (scan.called.examineAll
            (page.items.take (maxScan - scan.tally.spent))).exhaust) ∨
        (page.items.length ≤ maxScan - scan.tally.spent ∧
          scan' = (scan.called.examineAll page.items).resume page.cursor)) := by
  unfold turn at h
  cases hended : scan.ended with
  | true => simp [hended] at h
  | false =>
    refine ⟨rfl, ?_⟩
    rw [if_neg (by rw [hended]; decide)] at h
    by_cases hfull : maxScan ≤ scan.tally.spent
    · rw [if_pos hfull] at h
      exact Or.inl ⟨hfull, (Option.some.inj h).symm⟩
    · rw [if_neg hfull] at h
      dsimp only at h
      generalize read scan.tally.calls scan.after scanPage = page at h ⊢
      refine Or.inr ?_
      by_cases hempty : page.items.isEmpty = true
      · rw [if_pos hempty] at h
        exact Or.inl ⟨List.isEmpty_iff.mp hempty, (Option.some.inj h).symm⟩
      · rw [if_neg hempty] at h
        refine Or.inr ?_
        have heq := @examineItems_eq R maxScan page.items scan.called hspent
        rw [show scan.called.tally.spent = scan.tally.spent from rfl] at heq
        change (if (examineItems maxScan scan.called page.items).ended then
          some (examineItems maxScan scan.called page.items)
          else some ((examineItems maxScan scan.called page.items).resume page.cursor)) = _ at h
        by_cases hfit : page.items.length ≤ maxScan - scan.tally.spent
        · rw [if_pos hfit] at heq
          refine Or.inr ⟨hfit, ?_⟩
          rw [heq] at h
          split at h
          · rename_i hdone
            exact absurd (show scan.ended = true from hdone) (by simp [hended])
          · exact (Option.some.inj h).symm
        · rw [if_neg hfit] at heq
          refine Or.inl ⟨Nat.lt_of_not_le hfit, ?_⟩
          rw [heq] at h
          split at h
          · exact (Option.some.inj h).symm
          · rename_i hdone
            exact absurd rfl hdone

/-- A scan that has not ended takes a turn. -/
theorem turn_ne_none {maxScan : Nat} {read : Nat → Option AdmissionKey → Nat → ScanPage R}
    {scan : ResidentScan R} (h : ¬ scan.ended = true) : turn maxScan read scan ≠ none := by
  unfold turn
  rw [if_neg h]
  dsimp only
  repeat' split
  all_goals exact Option.some_ne_none _

theorem resume_tally (scan : ResidentScan R) (cursor : Option AdmissionKey) :
    (scan.resume cursor).tally = scan.tally ∧ (scan.resume cursor).resident = scan.resident := by
  cases cursor <;> exact ⟨rfl, rfl⟩

/-! ## The spend -/

/-- One position spent for each record met since `tally`, within the allowance; a stop that stood
still stands. -/
structure Spent (maxScan : Nat) (tally : Tally) (scan : ResidentScan R) : Prop where
  spent : scan.tally.spent = tally.spent + scan.resident.length
  within : scan.tally.spent ≤ maxScan
  calls : tally.calls ≤ scan.tally.calls
  stopped : scan.tally.stoppedAt = none → tally.stoppedAt = none

theorem Spent.examineAll {maxScan : Nat} {tally : Tally} {scan : ResidentScan R}
    (h : scan.Spent maxScan tally) {items : List (ScanItem R)}
    (hfit : items.length ≤ maxScan - scan.tally.spent) :
    (scan.called.examineAll items).Spent maxScan tally where
  spent := by
    have := h.spent
    simp only [ResidentScan.examineAll, called, List.length_append, List.length_map]
    omega
  within := by
    have := h.within
    simp only [ResidentScan.examineAll, called]
    omega
  calls := Nat.le_succ_of_le h.calls
  stopped := h.stopped

theorem Spent.turn {maxScan : Nat} {tally : Tally}
    {read : Nat → Option AdmissionKey → Nat → ScanPage R} {scan scan' : ResidentScan R}
    (h : scan.Spent maxScan tally) (hturn : turn maxScan read scan = some scan') :
    scan'.Spent maxScan tally := by
  obtain ⟨-, ⟨-, rfl⟩ | ⟨-, rfl⟩ | ⟨hcut, rfl⟩ | ⟨hfit, rfl⟩⟩ := turn_cases h.within hturn
  · exact ⟨h.spent, h.within, h.calls, fun hstop => by simp [exhaust, Tally.exhausted] at hstop⟩
  · exact ⟨h.spent, h.within, Nat.le_succ_of_le h.calls, h.stopped⟩
  · have htake : ((read scan.tally.calls scan.after scanPage).items.take
        (maxScan - scan.tally.spent)).length ≤ maxScan - scan.tally.spent := by
      rw [List.length_take]
      omega
    have hall := h.examineAll htake
    exact ⟨hall.spent, hall.within, hall.calls,
      fun hstop => by simp [exhaust, Tally.exhausted] at hstop⟩
  · have hall := h.examineAll hfit
    obtain ⟨htally, hresident⟩ := resume_tally
      (scan.called.examineAll (read scan.tally.calls scan.after scanPage).items)
      (read scan.tally.calls scan.after scanPage).cursor
    exact ⟨by rw [htally, hresident]; exact hall.spent, by rw [htally]; exact hall.within,
      by rw [htally]; exact hall.calls, by rw [htally]; exact hall.stopped⟩

end ResidentScan

/-- A scan spends one position for each record it met, within the allowance. -/
theorem scanResident_spent {R : Type} (read : Nat → Option AdmissionKey → Nat → ScanPage R)
    {maxScan : Nat} {tally : Tally} (h : tally.spent ≤ maxScan) :
    let scan := scanResident read maxScan tally
    scan.2.spent = tally.spent + scan.1.length ∧ scan.2.spent ≤ maxScan ∧
      tally.calls ≤ scan.2.calls ∧ (scan.2.stoppedAt = none → tally.stoppedAt = none) := by
  have hrun := (residentLoop maxScan read).run_invariant
    (I := ResidentScan.Spent maxScan tally) (fun _ _ hs hturn => hs.turn hturn)
    (s := ⟨tally, none, [], false⟩) ⟨rfl, h, Nat.le_refl _, id⟩
  exact ⟨hrun.spent, hrun.within, hrun.calls, hrun.stopped⟩

/-- **The spend of a run**: one position for each record its scans met, never past the
allowance. -/
theorem scanned_spent (reads : Nat → TelemetryStore) (maxScan : Nat) :
    let s := scanned reads maxScan
    s.tally.spent = s.spans.length + s.logs.length + s.points.length ∧
      s.tally.spent ≤ maxScan := by
  have hspans := @scanResident_spent _ (fun call => (reads call).scanSpans) maxScan ⟨0, 0, none⟩
    (Nat.zero_le _)
  have hlogs := @scanResident_spent _ (fun call => (reads call).scanLogRecords) maxScan _ hspans.2.1
  have hpoints := @scanResident_spent _ (fun call => (reads call).scanMetricPoints) maxScan _
    hlogs.2.1
  refine ⟨hpoints.1.trans (congrArg (· + _) (hlogs.1.trans (congrArg (· + _) ?_))), hpoints.2.1⟩
  exact hspans.1.trans (Nat.zero_add _)

/-! ## A store that changes -/

namespace ResidentScan

variable {R : Type} {residents : Nat → SortedMap AdmissionKey R}
  {read : Nat → Option AdmissionKey → Nat → ScanPage R}

/-- What a scan has met, each with the call it was met at: resident then, under a key past every key
met before; and what the scan still has ahead is past them all. -/
structure Meets (residents : Nat → SortedMap AdmissionKey R) (scan : ResidentScan R)
    (met : List (Nat × AdmissionKey × R)) : Prop where
  resident : scan.resident = met.map fun m => (m.2.1.entity, m.2.2)
  sorted : met.Pairwise fun a b => a.1 ≤ b.1 ∧ a.2.1 < b.2.1
  found : ∀ m ∈ met, m.1 < scan.tally.calls ∧ m.2 ∈ (residents m.1).entries
  ahead : scan.ended = false →
    ∀ m ∈ met, ∀ key : AdmissionKey, key.follows scan.after = true → m.2.1 < key

/-- What lies ahead at one call, up to any point of it, is met in order. -/
theorem Meets.examineAll {scan : ResidentScan R} {met : List (Nat × AdmissionKey × R)}
    (h : scan.Meets residents met) (hended : scan.ended = false) {taken back : List (AdmissionKey × R)}
    (hsplit : ((residents scan.tally.calls).entries.filter
      fun p => p.1.follows scan.after) = taken ++ back) :
    let scan' := scan.called.examineAll (taken.map ScanItem.ofEntry)
    let met' := met ++ taken.map fun p => (scan.tally.calls, p)
    scan'.resident = met'.map (fun m => (m.2.1.entity, m.2.2)) ∧
      met'.Pairwise (fun a b => a.1 ≤ b.1 ∧ a.2.1 < b.2.1) ∧
      ∀ m ∈ met', m.1 < scan'.tally.calls ∧ m.2 ∈ (residents m.1).entries := by
  have hmem : ∀ p ∈ taken, p ∈ (residents scan.tally.calls).entries ∧
      p.1.follows scan.after = true := fun p hp =>
    List.mem_filter.mp (hsplit ▸ List.mem_append_left _ hp)
  have hkeyed : Keyed Prod.fst (taken ++ back) :=
    hsplit ▸ Keyed.filter (residents scan.tally.calls).sorted _
  refine ⟨?_, ?_, ?_⟩
  · simp only [ResidentScan.examineAll, called, h.resident, List.map_append, List.map_map]
    rfl
  · refine List.pairwise_append.mpr ⟨h.sorted, ?_, ?_⟩
    · refine List.pairwise_map.mpr (hkeyed.left.imp fun hlt => ⟨Nat.le_refl _, hlt⟩)
    · intro m hm n hn
      obtain ⟨p, hp, rfl⟩ := List.mem_map.mp hn
      exact ⟨(h.found m hm).1.le, h.ahead hended m hm p.1 (hmem p hp).2⟩
  · intro m hm
    rcases List.mem_append.mp hm with hm | hm
    · exact ⟨Nat.lt_succ_of_lt (h.found m hm).1, (h.found m hm).2⟩
    · obtain ⟨p, hp, rfl⟩ := List.mem_map.mp hm
      exact ⟨Nat.lt_succ_self _, (hmem p hp).1⟩

/-- One turn over a store that serves its residents meets more of them, or none. -/
theorem Meets.turn (hserves : ∀ call, ScansOver (read call) (residents call)) {maxScan : Nat}
    {scan scan' : ResidentScan R} {met : List (Nat × AdmissionKey × R)}
    (h : scan.Meets residents met) (hspent : scan.tally.spent ≤ maxScan)
    (hturn : turn maxScan read scan = some scan') :
    ∃ more, scan'.Meets residents (met ++ more) := by
  obtain ⟨hended, hcases⟩ := turn_cases hspent hturn
  rw [hserves] at hcases
  rcases hcases with ⟨-, rfl⟩ | ⟨-, rfl⟩ | ⟨-, rfl⟩ | ⟨-, rfl⟩
  · refine ⟨[], ?_⟩
    rw [List.append_nil]
    exact ⟨h.resident, h.sorted, h.found, fun hrun => absurd hrun (by simp [exhaust])⟩
  · refine ⟨[], ?_⟩
    rw [List.append_nil]
    exact ⟨h.resident, h.sorted, fun m hm => ⟨Nat.lt_succ_of_lt (h.found m hm).1, (h.found m hm).2⟩,
      fun hrun => absurd hrun (by simp)⟩
  · -- the page is cut: what was examined of it is still a front of what lay ahead
    generalize hroom : maxScan - scan.tally.spent = room
    have htake := h.examineAll hended (List.take_append_drop (min room scanPage)
      ((residents scan.tally.calls).entries.filter fun p => p.1.follows scan.after)).symm
    rw [← List.take_take, List.map_take] at htake
    exact ⟨_, htake.1, htake.2.1, htake.2.2, fun hrun => absurd hrun (by simp [exhaust])⟩
  · rcases ScanPage.ofAhead_cases (show 0 < scanPage by decide)
      ((residents scan.tally.calls).entries.filter fun p => p.1.follows scan.after) with
      ⟨hcursor, hitems⟩ | ⟨front, last, back, hsplit, -, hitems, hcursor⟩
    · rw [hcursor, hitems]
      have hall := h.examineAll hended (List.append_nil _).symm
      exact ⟨_, hall.1, hall.2.1, hall.2.2, fun hrun => absurd hrun (by simp [resume])⟩
    · rw [hcursor, hitems]
      have hupto := h.examineAll hended
        (show _ = (front ++ [last]) ++ back by rw [hsplit, List.append_assoc]; rfl)
      refine ⟨_, hupto.1, hupto.2.1, hupto.2.2, fun _ m hm key hkey => ?_⟩
      -- the cursor is the last key met at this call
      have hlast : last.1 < key := of_decide_eq_true hkey
      refine lt_of_le_of_lt ?_ hlast
      rw [List.map_append, ← List.append_assoc] at hm
      have hsorted := hupto.2.1
      rw [List.map_append, ← List.append_assoc] at hsorted
      rcases List.mem_append.mp hm with hm | hm
      · exact ((List.pairwise_append.mp hsorted).2.2 m hm (scan.tally.calls, last)
          (by simp)).2.le
      · obtain rfl := List.mem_singleton.mp hm
        exact le_refl _

end ResidentScan

/-- **What a scan meets** over a store that changes: records resident at their calls, under keys that
only increase. -/
theorem scanResident_meets {R : Type} {residents : Nat → SortedMap AdmissionKey R}
    {read : Nat → Option AdmissionKey → Nat → ScanPage R}
    (hserves : ∀ call, ScansOver (read call) (residents call)) {maxScan : Nat} {tally : Tally}
    (h : tally.spent ≤ maxScan) :
    ∃ met : List (Nat × AdmissionKey × R),
      (scanResident read maxScan tally).1 = met.map (fun m => (m.2.1.entity, m.2.2)) ∧
      met.Pairwise (fun a b => a.1 ≤ b.1 ∧ a.2.1 < b.2.1) ∧
      ∀ m ∈ met, m.1 < (scanResident read maxScan tally).2.calls ∧
        m.2 ∈ (residents m.1).entries := by
  have hrun := (residentLoop maxScan read).run_invariant
    (I := fun scan => scan.Spent maxScan tally ∧ ∃ met, scan.Meets residents met)
    (fun _ _ hs hturn => by
      obtain ⟨hspent, met, hmet⟩ := hs
      obtain ⟨more, hmore⟩ := hmet.turn hserves hspent.within hturn
      exact ⟨hspent.turn hturn, _, hmore⟩)
    (s := ⟨tally, none, [], false⟩)
    ⟨⟨rfl, h, Nat.le_refl _, id⟩, [], rfl, List.Pairwise.nil, fun _ hm => absurd hm (by simp),
      fun _ _ hm => absurd hm (by simp)⟩
  obtain ⟨-, met, hmet⟩ := hrun
  exact ⟨met, hmet.resident, hmet.sorted, hmet.found⟩

/-! ## A fixed store -/

/-- The scan has met everything not ahead of it, and all of it once it ended without a stop. -/
structure ResidentScan.Covers {R : Type} (residents : SortedMap AdmissionKey R)
    (scan : ResidentScan R) : Prop where
  running : scan.ended = false →
    scan.resident ++ (residents.entries.filter fun p => p.1.follows scan.after).map
      (fun p => (p.1.entity, p.2)) = residents.entries.map fun p => (p.1.entity, p.2)
  whole : scan.ended = true → scan.tally.stoppedAt = none →
    scan.resident = residents.entries.map fun p => (p.1.entity, p.2)

theorem ResidentScan.Covers.turn {R : Type} {residents : SortedMap AdmissionKey R}
    {read : Nat → Option AdmissionKey → Nat → ScanPage R}
    (hserves : ∀ call, ScansOver (read call) residents) {maxScan : Nat}
    {scan scan' : ResidentScan R} (h : scan.Covers residents)
    (hspent : scan.tally.spent ≤ maxScan) (hturn : turn maxScan read scan = some scan') :
    scan'.Covers residents := by
  obtain ⟨hended, hcases⟩ := turn_cases hspent hturn
  rw [hserves] at hcases
  have hahead := h.running hended
  rcases hcases with ⟨-, rfl⟩ | ⟨hempty, rfl⟩ | ⟨-, rfl⟩ | ⟨-, rfl⟩
  · exact ⟨fun hrun => absurd hrun (by simp [exhaust]),
      fun _ hstop => absurd hstop (by simp [exhaust, Tally.exhausted])⟩
  · refine ⟨fun hrun => absurd hrun (by simp), fun _ _ => ?_⟩
    rw [ScanPage.ahead_eq_nil (show 0 < scanPage by decide) hempty, List.map_nil,
      List.append_nil] at hahead
    exact hahead
  · exact ⟨fun hrun => absurd hrun (by simp [exhaust]),
      fun _ hstop => absurd hstop (by simp [exhaust, Tally.exhausted])⟩
  · rcases ScanPage.ofAhead_cases (show 0 < scanPage by decide)
      (residents.entries.filter fun p => p.1.follows scan.after) with
      ⟨hcursor, hitems⟩ | ⟨front, last, back, hsplit, -, hitems, hcursor⟩
    · rw [hcursor, hitems]
      refine ⟨fun hrun => absurd hrun (by simp [resume]), fun _ _ => ?_⟩
      rw [← hahead]
      simp only [resume, examineAll, called, List.map_map]
      rfl
    · have hrest := aheadEntries_of_cut hsplit
      rw [hcursor, hitems]
      refine ⟨fun _ => ?_, fun hrun => absurd hrun (by simp [resume, examineAll, called, hended])⟩
      change scan.resident ++ _ ++ (residents.entries.filter fun p =>
        p.1.follows (some last.1)).map _ = _
      rw [hrest, ← hahead, hsplit, List.append_assoc, List.map_map,
        show front ++ last :: back = (front ++ [last]) ++ back by simp]
      exact congrArg (scan.resident ++ ·) List.map_append.symm

/-- **A fixed store is scanned whole**: a scan that names no stop has met every resident, in
residency order. -/
theorem scanResident_fixed {R : Type} {residents : SortedMap AdmissionKey R}
    {read : Nat → Option AdmissionKey → Nat → ScanPage R}
    (hserves : ∀ call, ScansOver (read call) residents) {maxScan : Nat} {tally : Tally}
    (h : tally.spent ≤ maxScan) (hstop : (scanResident read maxScan tally).2.stoppedAt = none) :
    (scanResident read maxScan tally).1 = residents.entries.map fun p => (p.1.entity, p.2) := by
  have hrun := (residentLoop maxScan read).run_invariant
    (I := fun scan => scan.Spent maxScan tally ∧ scan.Covers residents)
    (fun _ _ hs hturn => ⟨hs.1.turn hturn, hs.2.turn hserves hs.1.within hturn⟩)
    (s := ⟨tally, none, [], false⟩)
    ⟨⟨rfl, h, Nat.le_refl _, id⟩,
      fun _ => congrArg (List.map _) (List.filter_eq_self.mpr fun _ _ => rfl),
      fun hrun => absurd hrun (by simp)⟩
  -- the loop stops only where the scan has ended
  have hended := (residentLoop maxScan read).step_run ⟨tally, none, [], false⟩
  by_cases hdone : ((residentLoop maxScan read).run ⟨tally, none, [], false⟩).ended = true
  · exact hrun.2.whole hdone hstop
  · exact absurd hended (ResidentScan.turn_ne_none hdone)

end RuntimeTrail
