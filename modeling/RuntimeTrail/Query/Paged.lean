import RuntimeTrail.Query.Paging

/-!
# How many pages a kind takes

Over a fixed store, before every deadline, the pages that walk a whole kind are told
by its residents and the budget of a page: how far the results and the bytes reach,
where a page counts on behind a record the bytes do not cover, and the batch that
bounds the pages behind the first.

* **one page** — `QueryBudget.afforded`, what it delivers, and `QueryBudget.accounted`,
  what it leaves behind itself; `PageOf.afforded_unfiltered` finds both in every page;
* **the pages** — `QueryBudget.pagesOf`, how many there are and what they deliver.
-/

namespace RuntimeTrail

open Library

/-! ## One page -/

namespace QueryBudget

/-- How many of these records so many results and bytes cover, from the front. -/
def affordedWithin : Nat → Nat → List Yield → Nat
  | _, _, [] => 0
  | 0, _, _ :: _ => 0
  | results + 1, bytes, y :: rest =>
    if evidenceOf y.record ≤ bytes then
      affordedWithin results (bytes - evidenceOf y.record) rest + 1
    else 0

/-- How many records of a window a page delivers. -/
def afforded (budget : QueryBudget) (window : List Yield) : Nat :=
  affordedWithin budget.maxResults budget.maxBytes (window.take budget.maxScan)

/-- How many a page leaves behind itself: a record the bytes do not cover is counted, and what is
behind it, up to the scan ceiling. -/
def accounted (budget : QueryBudget) (window : List Yield) : Nat :=
  if budget.afforded window < budget.maxResults then min budget.maxScan window.length
  else budget.afforded window

/-- A front is covered where it is no longer than what is. -/
theorem le_affordedWithin_iff {results bytes k : Nat} {records : List Yield}
    (hlength : k ≤ records.length) : k ≤ affordedWithin results bytes records ↔
      k ≤ results ∧ Walk.evidenceSum (records.take k) ≤ bytes := by
  induction records generalizing results bytes k with
  | nil =>
    obtain rfl : k = 0 := Nat.le_zero.mp hlength
    simp [Walk.evidenceSum]
  | cons y rest ih =>
    cases k with
    | zero => simp [Walk.evidenceSum]
    | succ k =>
      cases results with
      | zero => simp [affordedWithin]
      | succ results =>
        have hsum : Walk.evidenceSum ((y :: rest).take (k + 1)) =
            evidenceOf y.record + Walk.evidenceSum (rest.take k) := by
          simp [Walk.evidenceSum]
        rw [affordedWithin, hsum]
        split
        · rw [Nat.succ_le_succ_iff, ih (Nat.succ_le_succ_iff.mp hlength), Nat.succ_le_succ_iff]
          exact and_congr_right fun _ => by omega
        · constructor <;> intro h <;> omega

theorem affordedWithin_le_length (results bytes : Nat) (records : List Yield) :
    affordedWithin results bytes records ≤ records.length := by
  induction records generalizing results bytes with
  | nil => simp [affordedWithin]
  | cons y rest ih =>
    cases results with
    | zero => simp [affordedWithin]
    | succ results =>
      rw [affordedWithin]
      split
      · exact Nat.succ_le_succ (ih _ _)
      · exact Nat.zero_le _

/-- The longest run that is afforded is what is covered. -/
theorem Longest.length_eq {budget : QueryBudget} {run records : List Yield}
    (h : budget.Longest run records) :
    run.length = affordedWithin budget.maxResults budget.maxBytes records := by
  have hrun : run = records.take run.length := List.prefix_iff_eq_take.mp h.begins
  have hcovered := affordedWithin_le_length budget.maxResults budget.maxBytes records
  refine le_antisymm ((le_affordedWithin_iff h.begins.length_le).mpr ?_) ?_
  · rw [← hrun]
    exact h.affords
  · have hlonger := h.longest (records.take _) (List.take_prefix _ _)
      ⟨?_, ((le_affordedWithin_iff hcovered).mp le_rfl).2⟩
    · rwa [List.length_take, min_eq_left hcovered] at hlonger
    · rw [List.length_take, min_eq_left hcovered]
      exact ((le_affordedWithin_iff hcovered).mp le_rfl).1

theorem afforded_le_length (budget : QueryBudget) (window : List Yield) :
    budget.afforded window ≤ window.length :=
  (affordedWithin_le_length _ _ _).trans (List.length_take_le' _ _)

theorem accounted_le_length (budget : QueryBudget) (window : List Yield) :
    budget.accounted window ≤ window.length := by
  unfold accounted
  split
  · exact min_le_right _ _
  · exact budget.afforded_le_length window

/-- A page that leaves some of its window leaves less of it. -/
theorem accounted_pos {budget : QueryBudget} (hpositive : budget.Positive) {window : List Yield}
    (hrest : budget.afforded window < window.length) : 0 < budget.accounted window := by
  have hresults := hpositive.results
  have hscan := hpositive.scan
  unfold accounted
  split <;> omega

end QueryBudget

namespace PageOf

variable {input : WalkInput} {budget : QueryBudget} {now : Instant}
  {whole examined delivered counted rest : List Yield} {page : Page RecordView}

/-- Where the walk did not drain its window, some of it is left. -/
theorem within_pos (hgoing : input.drained rest = false) :
    0 < (rest.filter fun y => !input.pastBound y.key).length := by
  cases rest with
  | nil => exact absurd hgoing (by simp [WalkInput.drained])
  | cons first behind =>
    have hwithin : input.pastBound first.key = false := hgoing
    rw [List.filter_cons_of_pos (by simp [hwithin])]
    exact Nat.zero_lt_succ _

section Unfiltered

variable {window : List Yield}

/-- Without a filter, all a page walked is what it delivered and counted. -/
theorem examined_unfiltered (h : PageOf input (budget.admitSession now) whole examined delivered
    counted rest page) (hall : ∀ view, input.filters.matchesView view = true) :
    examined = delivered ++ counted :=
  (List.filter_eq_self.mpr fun y _ => hall y.record).symm.trans h.matched

/-- A page without a filter delivers as many as are afforded of its window. -/
theorem delivered_unfiltered (h : PageOf input (budget.admitSession now) whole examined delivered
    counted rest page) (hkeyed : Keyed Yield.key whole)
    (hall : ∀ view, input.filters.matchesView view = true)
    (hwindow : window = whole.filter fun y => !input.pastBound y.key) :
    delivered.length = budget.afforded window := by
  obtain ⟨outcome, hreference⟩ := h.reference hkeyed
  have hafforded := hreference.longest.length_eq
  rw [Walk.matching, List.filter_eq_self.mpr fun y _ => hall y.record, ← hwindow] at hafforded
  exact hafforded

/-- A page without a filter walks as many as are accounted of its window, and is the last where it
delivered the whole of it. -/
theorem accounted_unfiltered (h : PageOf input (budget.admitSession now) whole examined delivered
    counted rest page) (hkeyed : Keyed Yield.key whole)
    (hall : ∀ view, input.filters.matchesView view = true)
    (hwindow : window = whole.filter fun y => !input.pastBound y.key) :
    examined.length = budget.accounted window ∧
      (page.nextCursor = none ↔ budget.afforded window = window.length) := by
  have hafforded := h.delivered_unfiltered hkeyed hall hwindow
  have hupTo := h.upTo_eq
  rw [← hwindow] at hupTo
  have hscanned : examined.length ≤ budget.maxScan := h.scanned
  have hwall : counted = [] ∨ delivered.length < budget.maxResults := h.wall.imp_right And.left
  have hmore : input.drained rest = false → 0 < _ := within_pos
  have hnone : input.drained rest = true → _ = [] := h.rest_within hkeyed
  generalize rest.filter (fun y => !input.pastBound y.key) = more at hupTo hmore hnone
  have hexamined : examined.length = delivered.length + counted.length := by
    rw [h.examined_unfiltered hall, List.length_append]
  have hlength : window.length = delivered.length + counted.length + more.length := by
    rw [hupTo, List.length_append, hexamined]
  have hcounting : ∀ {last : Yield}, counted.getLast? = some last →
      0 < counted.length ∧ delivered.length < budget.maxResults := fun hlast => by
    have hne : counted ≠ [] := by
      rintro rfl
      exact absurd hlast (by simp)
    exact ⟨List.length_pos_iff.mpr hne, hwall.resolve_left hne⟩
  obtain ⟨answered, tails, -, hnext, -, hverdict⟩ := h.answered
  rw [hnext]
  unfold QueryBudget.accounted
  rw [← hafforded]
  -- by the verdict: what is behind the delivered records is counted, left to the scan, or nothing
  cases hverdict with
  | complete drained uncounted =>
    rw [hnone drained, uncounted] at hlength
    rw [uncounted] at hexamined
    simp only [List.length_nil] at hlength hexamined
    refine ⟨?_, iff_of_true rfl (by omega)⟩
    split <;> omega
  | counted drained counting =>
    obtain ⟨hpos, hroom⟩ := hcounting counting
    rw [hnone drained, List.length_nil] at hlength
    refine ⟨?_, iff_of_false (by simp [PartOutcome.nextCursor]) (by omega)⟩
    rw [if_pos hroom]
    omega
  | cut going ceiling counting =>
    obtain ⟨hpos, hroom⟩ := hcounting counting
    replace ceiling : examined.length = budget.maxScan := ceiling
    refine ⟨?_, iff_of_false (by simp [PartOutcome.nextCursor]) (by omega)⟩
    rw [if_pos hroom]
    omega
  | scan going ceiling uncounted spent =>
    have hpos := hmore going
    replace ceiling : examined.length = budget.maxScan := ceiling
    rw [uncounted, List.length_nil] at hlength hexamined
    refine ⟨?_, iff_of_false (by simp [PartOutcome.nextCursor]) (by omega)⟩
    split <;> omega
  | results next within matched room ceiling uncounted spent =>
    have hpos : 0 < more.length := hmore (by rw [next]; exact within)
    replace ceiling : delivered.length = budget.maxResults := ceiling
    rw [uncounted, List.length_nil] at hlength hexamined
    refine ⟨?_, iff_of_false (by simp [PartOutcome.nextCursor]) (by omega)⟩
    rw [if_neg (by omega)]
    omega

/-- **What a page without a filter comes to**: it delivers what is afforded of its window, leaves
behind itself what is accounted, and is the last where it delivered the whole window. -/
theorem afforded_unfiltered (h : PageOf input (budget.admitSession now) whole examined delivered
    counted rest page) (hkeyed : Keyed Yield.key whole)
    (hall : ∀ view, input.filters.matchesView view = true)
    (hwindow : window = whole.filter fun y => !input.pastBound y.key) :
    window.take (budget.accounted window) = examined ∧
      window.take (budget.afforded window) = delivered ∧
      (page.nextCursor = none ↔ budget.afforded window = window.length) := by
  obtain ⟨haccounted, hlast⟩ := h.accounted_unfiltered hkeyed hall hwindow
  have hupTo := h.upTo_eq
  rw [← hwindow] at hupTo
  refine ⟨?_, ?_, hlast⟩
  · rw [← haccounted, hupTo, List.take_left]
  · rw [← h.delivered_unfiltered hkeyed hall hwindow, hupTo, h.examined_unfiltered hall,
      List.append_assoc, List.take_left]

end Unfiltered

end PageOf

/-! ## The pages -/

namespace QueryBudget

/-- The pages behind a cursor with this window, and what they deliver; `fuel` bounds their number. -/
def pagesBehind (budget : QueryBudget) : Nat → List Yield → Nat × List Yield
  | 0, _ => (0, [])
  | fuel + 1, window =>
    if budget.afforded window = window.length then (1, window)
    else
      let behind := pagesBehind budget fuel (window.drop (budget.accounted window))
      (behind.1 + 1, window.take (budget.afforded window) ++ behind.2)

/-- The window behind a first page: the records it has not accounted for, to the end of the batch it
stopped in. -/
def behindFirst (budget : QueryBudget) (residents : List Yield) : List Yield :=
  (residents.take (scanBatch * (budget.accounted residents / scanBatch + 1))).drop
    (budget.accounted residents)

/-- The pages that walk a kind from its first, and what they deliver. -/
def pagesOf (budget : QueryBudget) (residents : List Yield) : Nat × List Yield :=
  if budget.afforded residents = residents.length then (1, residents)
  else
    let behind := budget.pagesBehind (residents.length + 1) (budget.behindFirst residents)
    (behind.1 + 1, residents.take (budget.afforded residents) ++ behind.2)

end QueryBudget

end RuntimeTrail
