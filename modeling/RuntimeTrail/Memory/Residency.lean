import RuntimeTrail.Memory.Store

/-!
# What is resident, as one list

The three shelves hold three kinds of record; retention and its reports are about
all of them together.  `InMemoryStore.merged` is the resident set as one list in
the residency order, and every operation of the store is put in one shape over it:

* **a keep** — `apply_keep`: whatever the kind, a keep is `keepResident`, either
  the refusal `refusal` names or the entry `enter` followed by a retention pass;
* **an eviction** — `popOldest_spec`: a removal takes the head of the merged list;
* **the shelves together** — `merged_perm`, `merged_sorted`, `mem_merged`.
-/

namespace RuntimeTrail

open Library

/-- The three kinds of record, one shelf each. -/
inductive RecordKind where
  | span
  | log
  | point
deriving DecidableEq

/-- A resident record of any kind. -/
inductive Resident where
  | span (record : Arc Span)
  | log (record : Arc LogRecord)
  | point (slot : PointSlot)

namespace Resident

def kind : Resident → RecordKind
  | span _ => .span
  | log _ => .log
  | point _ => .point

/-- What the record adds to its shelf's byte sum. -/
def size : Resident → Nat
  | span record => accountedU64 record
  | log record => accountedU64 record
  | point slot => accountedU64 slot

/-- The stream of a point. -/
def stream? : Resident → Option StreamIdentity
  | point slot => some slot.stream
  | _ => none

end Resident

/-- A resident record with its place in the residency order. -/
abbrev Entry := AdmissionKey × Resident

/-- The residency order on entries: a tie between kinds goes to the span, then to the log. -/
def Entry.le (a b : Entry) : Bool := decide (a.1 ≤ b.1)

/-! ## Merging ordered lists -/

section Merge

variable {α : Type} {le : α → α → Bool}

theorem merge_cons_left {x : α} {xs ys : List α} (h : ∀ y ∈ ys, le x y = true) :
    List.merge (x :: xs) ys le = x :: List.merge xs ys le := by
  cases ys with
  | nil => simp
  | cons y ys => rw [List.cons_merge_cons_pos _ _ _ (h y (by simp))]

theorem merge_cons_right {y : α} {xs ys : List α} (h : ∀ x ∈ xs, le x y = false) :
    List.merge xs (y :: ys) le = y :: List.merge xs ys le := by
  cases xs with
  | nil => simp
  | cons x xs => rw [List.cons_merge_cons_neg _ _ _ (by simp [h x (by simp)])]

end Merge

namespace Shelf

variable {R : Type}

/-- A shelf's records as entries of the merged order. -/
def tagged (shelf : Shelf R) (tag : R → Resident) : List Entry :=
  shelf.entries.map fun p => (p.1, tag p.2)

theorem tagged_sorted (shelf : Shelf R) (tag : R → Resident) :
    (shelf.tagged tag).Pairwise (fun a b => Entry.le a b = true) := by
  rw [tagged, List.pairwise_map]
  exact shelf.byKey.sorted.imp fun h => decide_eq_true h.le

theorem le_of_mem_tagged {shelf : Shelf R} {tag : R → Resident} {key : AdmissionKey}
    (h : shelf.smallestKey = some key) {e : Entry} (he : e ∈ shelf.tagged tag) : key ≤ e.1 := by
  obtain ⟨p, hp, rfl⟩ := List.mem_map.mp he
  exact SortedMap.firstKey?_le h hp

theorem tagged_eq_nil {shelf : Shelf R} {tag : R → Resident} (h : shelf.smallestKey = none) :
    shelf.tagged tag = [] := by
  rw [tagged, entries, SortedMap.firstKey?_eq_none_iff.mp h, List.map_nil]

theorem tagged_of_popSmallest [Accounted R] {shelf shelf' : Shelf R} {key : AdmissionKey}
    {record : R} {tag : R → Resident} (h : shelf.popSmallest = some ((key, record), shelf')) :
    shelf.tagged tag = (key, tag record) :: shelf'.tagged tag := by
  rw [tagged, (popSmallest_eq_some h).1, List.map_cons, tagged]

end Shelf

namespace InMemoryStore

/-! ## The merged residency order -/

/-- Every resident record in the residency order. -/
def merged (s : InMemoryStore) : List Entry :=
  List.merge (List.merge (s.spans.tagged .span) (s.logs.tagged .log) Entry.le)
    (s.points.tagged .point) Entry.le

theorem mem_merged {s : InMemoryStore} {e : Entry} :
    e ∈ s.merged ↔
      e ∈ s.spans.tagged .span ∨ e ∈ s.logs.tagged .log ∨ e ∈ s.points.tagged .point := by
  simp only [merged, List.mem_merge, or_assoc]

theorem merged_perm (s : InMemoryStore) :
    s.merged.Perm (s.spans.tagged .span ++ (s.logs.tagged .log ++ s.points.tagged .point)) := by
  rw [← List.append_assoc]
  exact (@List.merge_perm_append _ Entry.le _ _).trans
    ((@List.merge_perm_append _ Entry.le _ _).append_right _)

theorem merged_sorted (s : InMemoryStore) :
    s.merged.Pairwise (fun a b => a.1 ≤ b.1) := by
  have htrans : ∀ a b c : Entry, Entry.le a b = true → Entry.le b c = true →
      Entry.le a c = true := fun a b c hab hbc =>
    decide_eq_true (le_trans (of_decide_eq_true hab) (of_decide_eq_true hbc))
  have htotal : ∀ a b : Entry, (Entry.le a b || Entry.le b a) = true := fun a b => by
    rcases le_total a.1 b.1 with h | h <;> simp [Entry.le, h]
  have h := List.pairwise_merge htrans htotal _ _
    (List.pairwise_merge htrans htotal _ _ (s.spans.tagged_sorted .span)
      (s.logs.tagged_sorted .log)) (s.points.tagged_sorted .point)
  exact h.imp fun h => of_decide_eq_true h

theorem length_merged (s : InMemoryStore) : s.merged.length = s.residentRecords := by
  simp [merged, Shelf.tagged, Shelf.entries, residentRecords, Shelf.len, SortedMap.length]

/-! ## The oldest record -/

theorem oldestKey_eq_some_iff {s : InMemoryStore} {key : AdmissionKey} :
    s.oldestKey = some key ↔
      (s.spans.smallestKey = some key ∨ s.logs.smallestKey = some key ∨
        s.points.smallestKey = some key) ∧
      (∀ k, s.spans.smallestKey = some k → key ≤ k) ∧
      (∀ k, s.logs.smallestKey = some k → key ≤ k) ∧
      (∀ k, s.points.smallestKey = some k → key ≤ k) := by
  rw [oldestKey, List.min?_eq_some_iff]
  simp only [List.mem_filterMap, List.mem_cons, List.not_mem_nil, or_false, id_eq,
    forall_exists_index, and_imp]
  constructor
  · rintro ⟨⟨o, ho, rfl⟩, hmin⟩
    refine ⟨?_, fun k hk => hmin k _ (Or.inl rfl) hk, fun k hk => hmin k _ (Or.inr (Or.inl rfl)) hk,
      fun k hk => hmin k _ (Or.inr (Or.inr rfl)) hk⟩
    rcases ho with h | h | h
    · exact Or.inl h.symm
    · exact Or.inr (Or.inl h.symm)
    · exact Or.inr (Or.inr h.symm)
  · rintro ⟨hmem, hs, hl, hp⟩
    refine ⟨⟨some key, ?_, rfl⟩, ?_⟩
    · rcases hmem with h | h | h
      · exact Or.inl h.symm
      · exact Or.inr (Or.inl h.symm)
      · exact Or.inr (Or.inr h.symm)
    · rintro k o (rfl | rfl | rfl) hk
      · exact hs k hk
      · exact hl k hk
      · exact hp k hk

theorem oldestKey_eq_none_iff {s : InMemoryStore} : s.oldestKey = none ↔ s.merged = [] := by
  have hnil : ∀ {R : Type} (shelf : Shelf R) (tag : R → Resident),
      shelf.tagged tag = [] ↔ shelf.smallestKey = none := by
    intro R shelf tag
    rw [Shelf.smallestKey, SortedMap.firstKey?_eq_none_iff, Shelf.tagged, List.map_eq_nil_iff,
      Shelf.entries]
  have hmerged : s.merged = [] ↔ s.spans.tagged .span = [] ∧ s.logs.tagged .log = [] ∧
      s.points.tagged .point = [] := by
    rw [← List.length_eq_zero_iff, ← List.length_eq_zero_iff, ← List.length_eq_zero_iff,
      ← List.length_eq_zero_iff, (merged_perm s).length_eq, List.length_append,
      List.length_append]
    omega
  rw [hmerged, hnil, hnil, hnil, oldestKey, List.min?_eq_none_iff, List.filterMap_eq_nil_iff]
  simp

/-- What taking one record off its shelf does to the store. -/
def Removes (s : InMemoryStore) (key : AdmissionKey) (released : Option StreamIdentity)
    (s' : InMemoryStore) : Resident → Prop
  | .span record => ∃ spans, s.spans.popSmallest = some ((key, record), spans) ∧
      s' = { s with spans := spans } ∧ released = none
  | .log record => ∃ logs, s.logs.popSmallest = some ((key, record), logs) ∧
      s' = { s with logs := logs } ∧ released = none
  | .point slot => ∃ points, s.points.popSmallest = some ((key, slot), points) ∧
      s' = (releaseStreamRef { s with points := points } slot.stream).1 ∧
      released = if (releaseStreamRef { s with points := points } slot.stream).2 then
        some slot.stream else none

theorem releaseStreamRef_frame (s : InMemoryStore) (stream : StreamIdentity) :
    (s.releaseStreamRef stream).1.config = s.config ∧ (s.releaseStreamRef stream).1.hook = s.hook ∧
      (s.releaseStreamRef stream).1.counters = s.counters ∧
      (s.releaseStreamRef stream).1.anomalies = s.anomalies := by
  unfold releaseStreamRef
  split
  · exact ⟨rfl, rfl, rfl, rfl⟩
  · split <;> exact ⟨rfl, rfl, rfl, rfl⟩

/-- A removal leaves the configuration, the hook and the counters alone. -/
theorem Removes.frame {s s' : InMemoryStore} {key : AdmissionKey}
    {released : Option StreamIdentity} {r : Resident} (h : s.Removes key released s' r) :
    s'.config = s.config ∧ s'.hook = s.hook ∧ s'.counters = s.counters ∧
      s'.anomalies = s.anomalies := by
  cases r with
  | span record => obtain ⟨spans, -, rfl, -⟩ := h; exact ⟨rfl, rfl, rfl, rfl⟩
  | log record => obtain ⟨logs, -, rfl, -⟩ := h; exact ⟨rfl, rfl, rfl, rfl⟩
  | point slot =>
    obtain ⟨points, -, rfl, -⟩ := h
    exact releaseStreamRef_frame { s with points := points } slot.stream

theorem smallestKey_of_popSmallest {R : Type} [Accounted R] {shelf shelf' : Shelf R}
    {key : AdmissionKey} {record : R} (h : shelf.popSmallest = some ((key, record), shelf')) :
    shelf.smallestKey = some key := by
  rw [Shelf.smallestKey, SortedMap.firstKey?]
  have := (Shelf.popSmallest_eq_some h).1
  rw [Shelf.entries] at this
  simp [this]

/-- A shelf that does not answer the oldest key holds only younger records. -/
theorem lt_of_ne_smallestKey {R : Type} {shelf : Shelf R} {tag : R → Resident}
    {key : AdmissionKey} (hne : ¬ some key = shelf.smallestKey)
    (hle : ∀ k, shelf.smallestKey = some k → key ≤ k) {e : Entry} (he : e ∈ shelf.tagged tag) :
    key < e.1 := by
  cases hk : shelf.smallestKey with
  | none => rw [Shelf.tagged_eq_nil hk] at he; exact absurd he (by simp)
  | some k =>
    have hlt : key < k := lt_of_le_of_ne (hle k hk) (fun h => hne (by rw [h, hk]))
    exact hlt.trans_le (Shelf.le_of_mem_tagged hk he)

/-- A shelf's records are none of them older than the oldest key. -/
theorem le_of_oldest {R : Type} {shelf : Shelf R} {tag : R → Resident} {key : AdmissionKey}
    (hle : ∀ k, shelf.smallestKey = some k → key ≤ k) {e : Entry} (he : e ∈ shelf.tagged tag) :
    key ≤ e.1 := by
  cases hk : shelf.smallestKey with
  | none => rw [Shelf.tagged_eq_nil hk] at he; exact absurd he (by simp)
  | some k => exact (hle k hk).trans (Shelf.le_of_mem_tagged hk he)

/-- **A removal takes the head of the merged order.** -/
theorem popOldest_spec {s s' : InMemoryStore} {key : AdmissionKey}
    {released : Option StreamIdentity} (h : s.popOldest = some ((key, released), s')) :
    ∃ r, s.merged = (key, r) :: s'.merged ∧ s.Removes key released s' r := by
  unfold popOldest at h
  split at h
  · exact absurd h (by simp)
  · rename_i oldest hold
    obtain ⟨hmem, hs, hl, hp⟩ := oldestKey_eq_some_iff.mp hold
    split at h
    · -- the span shelf answers: every other head is at least as young
      obtain ⟨⟨⟨k, record⟩, spans⟩, hpop, heq⟩ := Option.map_eq_some_iff.mp h
      obtain ⟨hkr, rfl⟩ := Prod.mk.inj heq
      obtain ⟨rfl, rfl⟩ := Prod.mk.inj hkr
      rename_i hspan
      obtain rfl : oldest = k :=
        Option.some.inj (hspan.trans (smallestKey_of_popSmallest hpop))
      refine ⟨.span record, ?_, spans, hpop, rfl, rfl⟩
      rw [merged, Shelf.tagged_of_popSmallest hpop,
        merge_cons_left (fun e he => decide_eq_true (le_of_oldest hl he)),
        merge_cons_left (fun e he => decide_eq_true (le_of_oldest hp he))]
      rfl
    · rename_i hspan
      split at h
      · -- the log shelf answers: the spans are strictly younger
        obtain ⟨⟨⟨k, record⟩, logs⟩, hpop, heq⟩ := Option.map_eq_some_iff.mp h
        obtain ⟨hkr, rfl⟩ := Prod.mk.inj heq
        obtain ⟨rfl, rfl⟩ := Prod.mk.inj hkr
        rename_i hlog
        obtain rfl : oldest = k :=
          Option.some.inj (hlog.trans (smallestKey_of_popSmallest hpop))
        have hlt : ∀ e ∈ s.spans.tagged .span, Entry.le e (oldest, .log record) = false :=
          fun e he => decide_eq_false (not_le.mpr (lt_of_ne_smallestKey hspan hs he))
        refine ⟨.log record, ?_, logs, hpop, rfl, rfl⟩
        rw [merged, Shelf.tagged_of_popSmallest hpop, merge_cons_right hlt,
          merge_cons_left (fun e he => decide_eq_true (le_of_oldest hp he))]
        rfl
      · -- the point shelf answers: spans and logs are strictly younger
        rename_i hlog
        split at h
        · exact absurd h (by simp)
        · rename_i k slot points hpop
          obtain ⟨hkr, rfl⟩ := Prod.mk.inj (Option.some.inj h)
          obtain ⟨rfl, rfl⟩ := Prod.mk.inj hkr
          have hpoint : s.points.smallestKey = some oldest := by
            rcases hmem with h | h | h
            · exact absurd h.symm hspan
            · exact absurd h.symm hlog
            · exact h
          obtain rfl : oldest = k :=
            Option.some.inj (hpoint.symm.trans (smallestKey_of_popSmallest hpop))
          refine ⟨.point slot, ?_, points, hpop, rfl, rfl⟩
          obtain ⟨hrs, hrl, hrp⟩ := releaseStreamRef_shelves { s with points := points } slot.stream
          rw [merged, merged, hrs, hrl, hrp, Shelf.tagged_of_popSmallest hpop,
            merge_cons_right (fun e he => ?_)]
          rcases List.mem_merge.mp he with he | he
          · exact decide_eq_false (not_le.mpr (lt_of_ne_smallestKey hspan hs he))
          · exact decide_eq_false (not_le.mpr (lt_of_ne_smallestKey hlog hl he))

/-- There is something to remove exactly when something is resident. -/
theorem popOldest_eq_none_iff {s : InMemoryStore} : s.popOldest = none ↔ s.merged = [] := by
  rw [← oldestKey_eq_none_iff]
  constructor
  · intro h
    by_contra hne
    obtain ⟨oldest, hold⟩ := Option.ne_none_iff_exists'.mp hne
    obtain ⟨hmem, -⟩ := oldestKey_eq_some_iff.mp hold
    unfold popOldest at h
    rw [hold] at h
    simp only at h
    split at h
    · rename_i hspan
      obtain ⟨r, shelf, hpop⟩ := Shelf.popSmallest_of_smallestKey hspan.symm
      rw [hpop] at h
      exact absurd h (by simp)
    · rename_i hspan
      split at h
      · rename_i hlog
        obtain ⟨r, shelf, hpop⟩ := Shelf.popSmallest_of_smallestKey hlog.symm
        rw [hpop] at h
        exact absurd h (by simp)
      · rename_i hlog
        have hpoint : s.points.smallestKey = some oldest := by
          rcases hmem with h | h | h
          · exact absurd h.symm hspan
          · exact absurd h.symm hlog
          · exact h
        obtain ⟨r, shelf, hpop⟩ := Shelf.popSmallest_of_smallestKey hpoint
        rw [hpop] at h
        exact absurd h (by simp)
  · intro h
    unfold popOldest
    rw [h]

/-! ## Keeps in one shape -/

/-- Enter one record on its shelf, charging a point's stream. -/
def enter (s : InMemoryStore) (key : AdmissionKey) : Resident → InMemoryStore
  | .span record => { s with spans := s.spans.insert ⟨key.entity, key.admittedAt, record⟩ }
  | .log record => { s with logs := s.logs.insert ⟨key.entity, key.admittedAt, record⟩ }
  | .point slot =>
    chargeStream { s with points := s.points.insert ⟨key.entity, key.admittedAt, slot⟩ }
      slot.stream

theorem enter_frame (s : InMemoryStore) (key : AdmissionKey) (r : Resident) :
    (s.enter key r).config = s.config ∧ (s.enter key r).hook = s.hook ∧
      (s.enter key r).counters = s.counters ∧ (s.enter key r).anomalies = s.anomalies := by
  cases r <;> exact ⟨rfl, rfl, rfl, rfl⟩

/-- Whether the record's own shelf holds its entity id. -/
def holds (s : InMemoryStore) (entity : EntityId) : Resident → Bool
  | .span _ => s.spans.contains entity
  | .log _ => s.logs.contains entity
  | .point _ => s.points.contains entity

/-- The refusal a keep of this record meets, if any, in the order the keep checks. -/
def refusal (s : InMemoryStore) (entity : EntityId) (r : Resident) : Option KeepOutcome :=
  if s.holds entity r then some .duplicate
  else if s.config.maxAccountedBytes < r.size then some .oversized
  else
    match r.stream? with
    | none => none
    | some stream =>
      if s.config.maxAccountedBytes < accountedU64 stream then
        some (.identityOverCeiling s.config.maxAccountedBytes (accountedU64 stream))
      else if s.series.contains stream = false ∧ s.config.seriesCap ≤ s.residentStreams then
        some .seriesCapReached
      else none

theorem refusal_ne_kept {s : InMemoryStore} {entity : EntityId} {r : Resident} {n : Nat} :
    s.refusal entity r ≠ some (.kept n) := by
  unfold refusal
  split
  · simp
  · split
    · simp
    · split
      · simp
      · split
        · simp
        · split <;> simp

/-- A duplicate is refused for a record its shelf holds. -/
theorem holds_of_duplicate {s : InMemoryStore} {entity : EntityId} {r : Resident}
    (h : s.refusal entity r = some .duplicate) : s.holds entity r = true := by
  unfold refusal at h
  split at h
  · assumption
  · split at h
    · exact absurd h (by simp)
    · split at h
      · exact absurd h (by simp)
      · split at h
        · exact absurd h (by simp)
        · split at h <;> exact absurd h (by simp)

end InMemoryStore

/-- Count one refusal under its own name. -/
def Counters.countRefusal (counters : Counters) : KeepOutcome → Counters
  | .kept _ => counters
  | .duplicate => { counters with duplicateKeeps := counters.duplicateKeeps + 1 }
  | .oversized => { counters with oversizedRefusals := counters.oversizedRefusals + 1 }
  | .seriesCapReached => { counters with keptOutSeriesCap := counters.keptOutSeriesCap + 1 }
  | .identityOverCeiling _ _ =>
    { counters with identityOverCeilingRefusals := counters.identityOverCeilingRefusals + 1 }

/-- Whether a refusal inserted nothing that stands: every one but the duplicate's. -/
def KeepOutcome.reported : KeepOutcome → Bool
  | .oversized => true
  | .seriesCapReached => true
  | .identityOverCeiling _ _ => true
  | _ => false

namespace InMemoryStore

/-- A refused keep: its counter, and its report when it owes one. -/
def refuse (s : InMemoryStore) (entity : EntityId) (r : Resident) (outcome : KeepOutcome) :
    Kept :=
  let s := { s with counters := s.counters.countRefusal outcome }
  if outcome.reported then
    let reported := s.reportRefusal entity r.stream?
    ⟨reported.1, outcome, reported.2⟩
  else ⟨s, outcome, []⟩

/-- A refusal leaves what is resident, and what it is charged, alone. -/
theorem refuse_frame (s : InMemoryStore) (entity : EntityId) (r : Resident)
    (outcome : KeepOutcome) :
    (s.refuse entity r outcome).store.spans = s.spans ∧
      (s.refuse entity r outcome).store.logs = s.logs ∧
      (s.refuse entity r outcome).store.points = s.points ∧
      (s.refuse entity r outcome).store.series = s.series ∧
      (s.refuse entity r outcome).store.identityAccountedBytes = s.identityAccountedBytes ∧
      (s.refuse entity r outcome).store.config = s.config ∧
      (s.refuse entity r outcome).store.windowNanos = s.windowNanos ∧
      (s.refuse entity r outcome).store.hook = s.hook ∧
      (s.refuse entity r outcome).store.anomalies = s.anomalies := by
  unfold refuse reportRefusal
  dsimp only
  split
  · split <;> exact ⟨rfl, rfl, rfl, rfl, rfl, rfl, rfl, rfl, rfl⟩
  · exact ⟨rfl, rfl, rfl, rfl, rfl, rfl, rfl, rfl, rfl⟩

theorem merged_refuse (s : InMemoryStore) (entity : EntityId) (r : Resident)
    (outcome : KeepOutcome) : (s.refuse entity r outcome).store.merged = s.merged := by
  obtain ⟨hspans, hlogs, hpoints, -⟩ := s.refuse_frame entity r outcome
  rw [merged, merged, hspans, hlogs, hpoints]

/-- A keep of any kind: the refusal it meets, or the entry and its retention pass. -/
def keepResident (s : InMemoryStore) (key : AdmissionKey) (r : Resident) : Kept :=
  match s.refusal key.entity r with
  | some outcome => s.refuse key.entity r outcome
  | none =>
    let pass := (s.enter key r).enforceAgainst key.admittedAt
    ⟨pass.store, .kept pass.evicted, pass.calls⟩

theorem keepSpan_eq (s : InMemoryStore) (admitted : Admitted (Arc Span)) :
    s.keepSpan admitted =
      s.keepResident ⟨admitted.admittedAt, admitted.entity⟩ (.span admitted.record) := by
  unfold keepSpan keepOnShelf refuseEarly keepResident refusal holds
  by_cases hdup : s.spans.contains admitted.entity
  · simp [hdup, finishKeep, refuse, Counters.countRefusal, KeepOutcome.reported]
  · by_cases hsize : s.config.maxAccountedBytes < accountedU64 admitted.record
    · simp [hdup, hsize, finishKeep, refuse, Counters.countRefusal, KeepOutcome.reported,
        Resident.size, Resident.stream?]
    · simp [hdup, hsize, finishKeep, Resident.size, Resident.stream?, enter]

theorem keepLogRecord_eq (s : InMemoryStore) (admitted : Admitted (Arc LogRecord)) :
    s.keepLogRecord admitted =
      s.keepResident ⟨admitted.admittedAt, admitted.entity⟩ (.log admitted.record) := by
  unfold keepLogRecord keepOnShelf refuseEarly keepResident refusal holds
  by_cases hdup : s.logs.contains admitted.entity
  · simp [hdup, finishKeep, refuse, Counters.countRefusal, KeepOutcome.reported]
  · by_cases hsize : s.config.maxAccountedBytes < accountedU64 admitted.record
    · simp [hdup, hsize, finishKeep, refuse, Counters.countRefusal, KeepOutcome.reported,
        Resident.size, Resident.stream?]
    · simp [hdup, hsize, finishKeep, Resident.size, Resident.stream?, enter]

theorem keepMetricPoint_eq (s : InMemoryStore) (admitted : Admitted (Arc MetricPoint))
    (stream : StreamIdentity) :
    s.keepMetricPoint admitted stream =
      s.keepResident ⟨admitted.admittedAt, admitted.entity⟩
        (.point ⟨admitted.record, stream⟩) := by
  have hslot : ∀ slot : PointSlot, accountedU64 slot = accountedU64 slot.point := fun _ => rfl
  unfold keepMetricPoint refuseEarly keepResident refusal holds
  by_cases hdup : s.points.contains admitted.entity
  · simp [hdup, refuse, Counters.countRefusal, KeepOutcome.reported]
  · by_cases hsize : s.config.maxAccountedBytes < accountedU64 admitted.record
    · simp [hdup, hsize, refuse, Counters.countRefusal, KeepOutcome.reported, Resident.size,
        Resident.stream?, hslot]
    · by_cases hident : s.config.maxAccountedBytes < accountedU64 stream
      · simp [hdup, hsize, hident, refuse, Counters.countRefusal, KeepOutcome.reported,
          Resident.size, Resident.stream?, hslot]
      · by_cases hcap : s.series.contains stream = false ∧ s.config.seriesCap ≤ s.residentStreams
        · obtain ⟨hc1, hc2⟩ := hcap
          have hc2' : s.config.seriesCap ≤ s.series.length := hc2
          simp [hdup, hsize, hident, hc1, hc2', residentStreams, refuse, Counters.countRefusal,
            KeepOutcome.reported, Resident.size, Resident.stream?, hslot]
        · have hcap' : ¬ (s.series.contains stream = false ∧
              s.config.seriesCap ≤ s.series.length) := hcap
          simp [hdup, hsize, hident, hcap', residentStreams, Resident.size, Resident.stream?,
            hslot, enter]

end InMemoryStore

/-- The record a keep operation offers, with the key it would stand under. -/
def StoreOp.offer : StoreOp → Option Entry
  | .keepSpan a => some (⟨a.admittedAt, a.entity⟩, .span a.record)
  | .keepLogRecord a => some (⟨a.admittedAt, a.entity⟩, .log a.record)
  | .keepMetricPoint a stream => some (⟨a.admittedAt, a.entity⟩, .point ⟨a.record, stream⟩)
  | _ => none

namespace InMemoryStore

/-- **Every keep is one function of the record it offers.** -/
theorem apply_keep {s : InMemoryStore} {op : StoreOp} {key : AdmissionKey} {r : Resident}
    (h : op.offer = some (key, r)) :
    s.apply op = ((s.keepResident key r).store, .keep (s.keepResident key r).outcome,
      (s.keepResident key r).calls) := by
  cases op with
  | keepSpan a =>
    obtain ⟨rfl, rfl⟩ := Prod.mk.inj (Option.some.inj h)
    simp only [apply, keepSpan_eq]
  | keepLogRecord a =>
    obtain ⟨rfl, rfl⟩ := Prod.mk.inj (Option.some.inj h)
    simp only [apply, keepLogRecord_eq]
  | keepMetricPoint a stream =>
    obtain ⟨rfl, rfl⟩ := Prod.mk.inj (Option.some.inj h)
    simp only [apply, keepMetricPoint_eq]
  | _ => exact absurd h (by simp [StoreOp.offer])

/-- What a store operation can leave behind: a refusal's counters, an entry and its pass, a
pass alone, or the anomaly total it was handed. -/
theorem apply_cases (s : InMemoryStore) (op : StoreOp) :
    (∃ key r, op.offer = some (key, r) ∧ ∃ outcome, s.refusal key.entity r = some outcome ∧
      s.apply op = ((s.refuse key.entity r outcome).store, .keep outcome,
        (s.refuse key.entity r outcome).calls)) ∨
    (∃ key r, op.offer = some (key, r) ∧ s.refusal key.entity r = none ∧
      s.apply op = (((s.enter key r).enforceAgainst key.admittedAt).store,
        .keep (.kept ((s.enter key r).enforceAgainst key.admittedAt).evicted),
        ((s.enter key r).enforceAgainst key.admittedAt).calls)) ∨
    (∃ now, op = .enforceRetention now ∧
      s.apply op = ((s.enforceAgainst now).store, .evicted (s.enforceAgainst now).evicted,
        (s.enforceAgainst now).calls)) ∨
    (op.offer = none ∧ (∀ now, op ≠ .enforceRetention now) ∧
      ∃ anomalies reply, (∀ outcome, reply ≠ .keep outcome) ∧
      s.apply op = ({ s with anomalies := anomalies }, reply, [])) := by
  cases hoffer : op.offer with
  | some e =>
    obtain ⟨key, r⟩ := e
    have happly := apply_keep (s := s) hoffer
    cases hrefusal : s.refusal key.entity r with
    | some outcome =>
      refine Or.inl ⟨key, r, rfl, outcome, hrefusal, ?_⟩
      have houtcome : (s.refuse key.entity r outcome).outcome = outcome := by
        unfold refuse; split <;> rfl
      simp only [happly, keepResident, hrefusal, houtcome]
    | none =>
      refine Or.inr (Or.inl ⟨key, r, rfl, hrefusal, ?_⟩)
      simp only [happly, keepResident, hrefusal]
  | none =>
    cases op with
    | enforceRetention now => exact Or.inr (Or.inr (Or.inl ⟨now, rfl, rfl⟩))
    | keepSpan a => exact absurd hoffer (by simp [StoreOp.offer])
    | keepLogRecord a => exact absurd hoffer (by simp [StoreOp.offer])
    | keepMetricPoint a stream => exact absurd hoffer (by simp [StoreOp.offer])
    | observeAdmissionAnomalies total =>
      exact Or.inr (Or.inr (Or.inr ⟨rfl, by simp, total, .done, by simp, rfl⟩))
    | _ => exact Or.inr (Or.inr (Or.inr ⟨rfl, by simp, s.anomalies, _, by simp, rfl⟩))

/-- **One turn of a retention pass.**  A ceiling is violated, the head of the merged order
leaves, and the turn counts it, reports it, and touches nothing else. -/
theorem evictOne_spec {now : AdmissionTime} {pass pass' : Pass}
    (h : evictOne now pass = some pass') :
    ∃ cause key r released s', pass.store.firstViolation now = some cause ∧
      pass.store.merged = (key, r) :: s'.merged ∧ pass.store.Removes key released s' r ∧
      pass' =
        { store :=
            { s' with
              counters :=
                if s'.hook then
                  { s'.counters.countEviction cause with
                    hookDeliveries := (s'.counters.countEviction cause).hookDeliveries + 1 }
                else s'.counters.countEviction cause }
          evicted := pass.evicted + 1
          calls := pass.calls ++ evictionCalls s'.hook key released } := by
  unfold evictOne at h
  split at h
  · exact absurd h (by simp)
  · rename_i cause hcause
    split at h
    · exact absurd h (by simp)
    · rename_i key released s' hpop
      obtain ⟨r, hmerged, hremoves⟩ := popOldest_spec hpop
      exact ⟨cause, key, r, released, s', hcause, hmerged, hremoves, (Option.some.inj h).symm⟩

/-- A pass stops where no ceiling is violated, or where nothing is left to evict. -/
theorem evictOne_eq_none_iff {now : AdmissionTime} {pass : Pass} :
    evictOne now pass = none ↔
      pass.store.firstViolation now = none ∨ pass.store.merged = [] := by
  rw [← popOldest_eq_none_iff]
  unfold evictOne
  split
  · rename_i hv; simp [hv]
  · rename_i cause hv
    split
    · rename_i hp; simp [hp]
    · rename_i hp; simp [hv, hp]

theorem enforceAgainst_of_none {s : InMemoryStore} {now : AdmissionTime}
    (h : s.firstViolation now = none) : s.enforceAgainst now = ⟨s, 0, []⟩ :=
  Loop.run_of_none (evictOne_eq_none_iff.mpr (Or.inl h))

theorem enforceAgainst_of_some {s : InMemoryStore} {now : AdmissionTime} {pass : Pass}
    (h : evictOne now ⟨s, 0, []⟩ = some pass) : s.enforceAgainst now = (passLoop now).run pass :=
  Loop.run_of_some h

end InMemoryStore

end RuntimeTrail
