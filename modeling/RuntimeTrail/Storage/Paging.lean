import RuntimeTrail.Library.Keyed
import RuntimeTrail.Storage.Driver

/-!
# Paging over a shelf that changes

A walk pages over a shelf, each call resuming from the last key of the batch
before it.  Between two calls the driver keeps and evicts as it likes.

* **one page** — `ofAhead_cases`: it holds everything ahead and no cursor, or it
  is cut at its last record with at least one more behind it;
* **a fixed shelf** — `walk_fixed`: the walk returns the resident sequence, and
  reports the end;
* **a shelf that changes** — `walk_sorted`, `walk_throughout`: keys only
  increase, and what is resident at every call is returned.
-/

namespace RuntimeTrail

open Library

/-! ## One page -/

/-- A resident as a scan yields it. -/
def ScanItem.ofEntry {R : Type} (p : AdmissionKey × R) : ScanItem R := ⟨p.1, p.2⟩

/-- The position a caller resumes from: the key of a batch's last item. -/
def ScanPage.lastKey {R : Type} (page : ScanPage R) : Option AdmissionKey :=
  page.items.getLast?.map ScanItem.key

/-- **One page.**  It ends the walk with everything ahead, or it is cut at its last record, with
another one behind the cut. -/
theorem ScanPage.ofAhead_cases {R : Type} {limit : Nat} (hlimit : 0 < limit)
    (ahead : List (AdmissionKey × R)) :
    ((ofAhead limit ahead).cursor = none ∧
        (ofAhead limit ahead).items = ahead.map ScanItem.ofEntry) ∨
      ∃ front last back, ahead = front ++ last :: back ∧ back ≠ [] ∧
        (ofAhead limit ahead).items = (front ++ [last]).map ScanItem.ofEntry ∧
        (ofAhead limit ahead).cursor = some last.1 := by
  by_cases hmore : limit < ahead.length
  · have hne : ahead.take limit ≠ [] :=
      List.ne_nil_of_length_pos (by rw [List.length_take]; omega)
    obtain ⟨front, last, htake⟩ : ∃ front last, ahead.take limit = front ++ [last] :=
      ⟨_, _, (List.dropLast_append_getLast hne).symm⟩
    have hsplit : ahead = front ++ last :: ahead.drop limit := by
      conv_lhs => rw [← List.take_append_drop limit ahead, htake]
      simp
    refine Or.inr ⟨front, last, ahead.drop limit, hsplit, ?_, ?_, ?_⟩
    · rw [Ne, List.drop_eq_nil_iff]
      omega
    · rw [ofAhead, htake]
      rfl
    · simp [ofAhead, hmore, htake]
  · refine Or.inl ⟨by simp [ofAhead, hmore], ?_⟩
    simp only [ofAhead, List.take_of_length_le (not_lt.mp hmore)]
    rfl

/-- An empty page of positive width has nothing ahead. -/
theorem ScanPage.ahead_eq_nil {R : Type} {limit : Nat} (hlimit : 0 < limit)
    {ahead : List (AdmissionKey × R)} (h : (ofAhead limit ahead).items = []) : ahead = [] := by
  rcases ofAhead_cases hlimit ahead with ⟨-, hitems⟩ | ⟨front, last, back, -, -, hitems, -⟩
  · rw [h, eq_comm, List.map_eq_nil_iff] at hitems
    exact hitems
  · rw [h] at hitems
    simp at hitems

/-- Resuming from a member of what was ahead leaves what was behind it. -/
theorem aheadEntries_of_cut {R : Type} {residents : SortedMap AdmissionKey R}
    {after : Option AdmissionKey} {front back : List (AdmissionKey × R)} {last : AdmissionKey × R}
    (h : residents.entries.filter (fun p => p.1.follows after) = front ++ last :: back) :
    residents.entries.filter (fun p => p.1.follows (some last.1)) = back :=
  @Keyed.filter_past_of_filter_eq _ _ _ Prod.fst _ _ _ _ residents.sorted _
    AdmissionKey.follows_of_lt h

/-! ## The walk -/

/-- What a driver does to a shelf: it keeps a record whose entity is not resident, or evicts the
oldest. -/
inductive ShelfOp (R : Type) where
  | keep (admitted : Admitted R)
  | evict

/-- One call of a walk: what the driver did since the call before it, and the limit asked for. -/
structure Visit (R : Type) where
  changes : List (ShelfOp R)
  limit : Nat
  positive : 0 < limit

/-- What a walk returned, the shelf as it stood at each of its calls, and whether it reported the
end. -/
structure Walked (R : Type) where
  items : List (ScanItem R)
  seen : List (Shelf R)
  exhausted : Bool

namespace Shelf

variable {R : Type} [Accounted R]

def apply (shelf : Shelf R) : ShelfOp R → Shelf R
  | .keep admitted => if shelf.contains admitted.entity then shelf else shelf.insert admitted
  | .evict =>
    match shelf.popSmallest with
    | some (_, shelf') => shelf'
    | none => shelf

def applyAll (shelf : Shelf R) (ops : List (ShelfOp R)) : Shelf R := ops.foldl apply shelf

/-- The walk from a resume point: a call without a cursor ends it. -/
def walk (shelf : Shelf R) (after : Option AdmissionKey) : List (Visit R) → Walked R
  | [] => ⟨[], [], false⟩
  | visit :: rest =>
    let shelf := shelf.applyAll visit.changes
    let page := shelf.scanAfter after visit.limit
    match page.cursor with
    | none => ⟨page.items, [shelf], true⟩
    | some _ =>
      let walked := shelf.walk page.lastKey rest
      ⟨page.items ++ walked.items, shelf :: walked.seen, walked.exhausted⟩

/-- The residents a scan from `after` still has ahead. -/
def ahead (shelf : Shelf R) (after : Option AdmissionKey) : List (AdmissionKey × R) :=
  shelf.entries.filter fun p => p.1.follows after

omit [Accounted R] in
theorem keyed_entries (shelf : Shelf R) : Keyed Prod.fst shelf.entries := shelf.byKey.sorted

omit [Accounted R] in
theorem keyed_ahead (shelf : Shelf R) (after : Option AdmissionKey) :
    Keyed Prod.fst (shelf.ahead after) := shelf.keyed_entries.filter _

omit [Accounted R] in
theorem ahead_of_cut {shelf : Shelf R} {after : Option AdmissionKey}
    {front back : List (AdmissionKey × R)} {last : AdmissionKey × R}
    (h : shelf.ahead after = front ++ last :: back) : shelf.ahead (some last.1) = back :=
  aheadEntries_of_cut h

/-- One call of a walk ends it, or leaves the rest of the walk to resume at the page's cut. -/
theorem walk_cons (shelf : Shelf R) (after : Option AdmissionKey) (visit : Visit R)
    (rest : List (Visit R)) :
    let now := shelf.applyAll visit.changes
    shelf.walk after (visit :: rest) = ⟨(now.ahead after).map ScanItem.ofEntry, [now], true⟩ ∨
      ∃ front last back, now.ahead after = front ++ last :: back ∧ back ≠ [] ∧
        shelf.walk after (visit :: rest) =
          ⟨(front ++ [last]).map ScanItem.ofEntry ++ (now.walk (some last.1) rest).items,
            now :: (now.walk (some last.1) rest).seen,
            (now.walk (some last.1) rest).exhausted⟩ := by
  intro now
  have hpage : (shelf.applyAll visit.changes).scanAfter after visit.limit =
      ScanPage.ofAhead visit.limit (now.ahead after) := now.scansOver after visit.limit
  rw [walk]
  simp only [hpage]
  rcases ScanPage.ofAhead_cases visit.positive (now.ahead after) with
    ⟨hcursor, hitems⟩ | ⟨front, last, back, hsplit, hback, hitems, hcursor⟩
  · refine Or.inl ?_
    rw [hcursor, hitems]
  · refine Or.inr ⟨front, last, back, hsplit, hback, ?_⟩
    have hlast : (ScanPage.ofAhead visit.limit (now.ahead after)).lastKey = some last.1 := by
      rw [ScanPage.lastKey, hitems]
      simp [ScanItem.ofEntry]
    rw [hcursor, hlast, hitems]

/-! ## A shelf that changes -/

/-- Whatever is kept and evicted between the calls, the walk only moves forward. -/
theorem walk_sorted (shelf : Shelf R) (after : Option AdmissionKey) (visits : List (Visit R)) :
    Keyed ScanItem.key (shelf.walk after visits).items ∧
      ∀ item ∈ (shelf.walk after visits).items, item.key.follows after = true := by
  induction visits generalizing shelf after with
  | nil => exact ⟨List.Pairwise.nil, fun item hitem => absurd hitem (by simp [walk])⟩
  | cons visit rest ih =>
    have hkeyed := (shelf.applyAll visit.changes).keyed_ahead after
    have hfollows : ∀ p ∈ (shelf.applyAll visit.changes).ahead after,
        p.1.follows after = true := fun p hp => (List.mem_filter.mp hp).2
    rcases shelf.walk_cons after visit rest with heq | ⟨front, last, back, hsplit, -, heq⟩
    · rw [heq]
      refine ⟨List.pairwise_map.mpr hkeyed, fun item hitem => ?_⟩
      obtain ⟨p, hp, rfl⟩ := List.mem_map.mp hitem
      exact hfollows p hp
    · rw [heq]
      rw [hsplit] at hkeyed hfollows
      obtain ⟨hsorted, hpast⟩ := ih (shelf.applyAll visit.changes) (some last.1)
      have hupto : ∀ p ∈ front ++ [last], p.1 ≤ last.1 := by
        intro p hp
        rcases List.mem_append.mp hp with hp | hp
        · exact (hkeyed.lt_of_mem_front hp).le
        · rw [List.mem_singleton.mp hp]
      have hlast : ∀ item ∈ ((shelf.applyAll visit.changes).walk (some last.1) rest).items,
          last.1 < item.key := fun item hitem => of_decide_eq_true (hpast item hitem)
      refine ⟨List.pairwise_append.mpr ⟨?_, hsorted, ?_⟩, ?_⟩
      · have hfront : Keyed Prod.fst (front ++ [last]) := by
          rw [show front ++ last :: back = (front ++ [last]) ++ back by simp] at hkeyed
          exact hkeyed.left
        exact List.pairwise_map.mpr hfront
      · intro a ha b hb
        obtain ⟨p, hp, rfl⟩ := List.mem_map.mp ha
        exact (hupto p hp).trans_lt (hlast b hb)
      · intro item hitem
        rcases List.mem_append.mp hitem with hitem | hitem
        · obtain ⟨p, hp, rfl⟩ := List.mem_map.mp hitem
          refine hfollows p ?_
          rcases List.mem_append.mp hp with hp | hp
          · simp [hp]
          · simp [List.mem_singleton.mp hp]
        · exact AdmissionKey.follows_of_lt (hfollows last (by simp)) (hlast item hitem)

/-- A walk that reports the end has returned every resident ahead of it that stood at each of its
calls. -/
theorem walk_throughout (shelf : Shelf R) (after : Option AdmissionKey) (visits : List (Visit R))
    (hend : (shelf.walk after visits).exhausted = true) {p : AdmissionKey × R}
    (hp : p.1.follows after = true) (hstands : ∀ s ∈ (shelf.walk after visits).seen, p ∈ s.entries) :
    ScanItem.ofEntry p ∈ (shelf.walk after visits).items := by
  induction visits generalizing shelf after with
  | nil => exact absurd hend (by simp [walk])
  | cons visit rest ih =>
    rcases shelf.walk_cons after visit rest with heq | ⟨front, last, back, hsplit, -, heq⟩
    · rw [heq] at hstands ⊢
      have hmem := hstands (shelf.applyAll visit.changes) (by simp)
      exact List.mem_map_of_mem (List.mem_filter.mpr ⟨hmem, hp⟩)
    · rw [heq] at hstands hend ⊢
      have hmem := hstands (shelf.applyAll visit.changes) (by simp)
      have hahead : p ∈ (shelf.applyAll visit.changes).ahead after :=
        List.mem_filter.mpr ⟨hmem, hp⟩
      by_cases hpast : last.1 < p.1
      · -- it lies past this page, and the rest of the walk resumes there
        refine List.mem_append_right _ (ih _ _ hend (decide_eq_true hpast) fun s hs => ?_)
        exact hstands s (List.mem_cons_of_mem _ hs)
      · refine List.mem_append_left _ (List.mem_map_of_mem ?_)
        have hkeyed := (shelf.applyAll visit.changes).keyed_ahead after
        rw [hsplit] at hahead hkeyed
        rcases List.mem_append.mp hahead with hfront | hback
        · exact List.mem_append_left _ hfront
        · rcases List.mem_cons.mp hback with rfl | hback
          · simp
          · exact absurd (hkeyed.lt_of_mem_back hback) hpast

/-! ## A fixed shelf -/

/-- Over a fixed shelf a walk that reports the end has returned what was ahead of it, and it reports
the end after one call for each resident ahead, at the latest. -/
theorem walk_fixed (shelf : Shelf R) (after : Option AdmissionKey) (visits : List (Visit R))
    (hfixed : ∀ visit ∈ visits, visit.changes = []) :
    ((shelf.walk after visits).exhausted = true →
        (shelf.walk after visits).items = (shelf.ahead after).map ScanItem.ofEntry) ∧
      ((shelf.ahead after).length < visits.length →
        (shelf.walk after visits).exhausted = true) := by
  induction visits generalizing after with
  | nil => exact ⟨fun h => absurd h (by simp [walk]), fun h => absurd h (by simp)⟩
  | cons visit rest ih =>
    have hnow : shelf.applyAll visit.changes = shelf := by
      rw [hfixed visit (by simp)]
      rfl
    rcases shelf.walk_cons after visit rest with heq | ⟨front, last, back, hsplit, -, heq⟩
    · rw [hnow] at heq
      rw [heq]
      exact ⟨fun _ => rfl, fun _ => rfl⟩
    · rw [hnow] at heq hsplit
      obtain ⟨hitems, hend⟩ :=
        ih (some last.1) fun v hv => hfixed v (List.mem_cons_of_mem _ hv)
      rw [ahead_of_cut hsplit] at hitems hend
      rw [heq, hsplit]
      refine ⟨fun h => ?_, fun h => hend ?_⟩
      · rw [hitems h, ← List.map_append]
        simp
      · simp only [List.length_append, List.length_cons] at h
        omega

/-- **Paging.**  From the start of any shelf, whatever limits the calls ask for: if nothing changes
the walk returns the resident sequence, each record once, and reports the end; and whatever is kept
and evicted between the calls, the keys strictly increase, so none is returned twice, and a walk
that reports the end has returned every record that was resident throughout. -/
theorem walk_exact (shelf : Shelf R) (visits : List (Visit R)) :
    let walked := shelf.walk none visits
    ((∀ visit ∈ visits, visit.changes = []) →
      (walked.exhausted = true → walked.items = shelf.entries.map ScanItem.ofEntry) ∧
        (shelf.len < visits.length → walked.exhausted = true)) ∧
    Keyed ScanItem.key walked.items ∧
    (walked.exhausted = true → ∀ p, (∀ s ∈ walked.seen, p ∈ s.entries) →
      ScanItem.ofEntry p ∈ walked.items) := by
  intro walked
  refine ⟨fun hfixed => ?_, (shelf.walk_sorted none visits).1, fun hend p hstands => ?_⟩
  · have hall : shelf.ahead none = shelf.entries := List.filter_eq_self.mpr fun _ _ => rfl
    have h := shelf.walk_fixed none visits hfixed
    rw [hall] at h
    exact h
  · exact shelf.walk_throughout none visits hend rfl hstands

end Shelf

end RuntimeTrail
