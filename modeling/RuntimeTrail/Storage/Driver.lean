import RuntimeTrail.Storage.Shelf

/-!
# The store as its readers see it

Query and correlation read a store through its contract: a record by entity id,
an ordered scan of each kind, and the statistics.  A driver is whatever answers
these; nothing else of it is visible to a reader.

* **the scan contract** — `ScansOver`: what a scan answers over a fixed sequence
  of residents.  A shelf's own page loop meets it (`Shelf.scansOver`);
* **a fixed store** — `Residency`, the three sequences in residency order, and
  `TelemetryStore.Serves`, a driver that answers from it; `Residency.driver` is one.
-/

namespace RuntimeTrail

open Library

/-- The read surface of a store. -/
structure TelemetryStore where
  span : EntityId → Option (Arc Span)
  logRecord : EntityId → Option (Arc LogRecord)
  metricPoint : EntityId → Option PointView
  scanSpans : Option AdmissionKey → Nat → ScanPage (Arc Span)
  scanLogRecords : Option AdmissionKey → Nat → ScanPage (Arc LogRecord)
  scanMetricPoints : Option AdmissionKey → Nat → ScanPage PointView
  stats : StoreStats

/-! ## The scan contract -/

/-- Whether a scan that starts strictly after `after` reaches `key`. -/
def AdmissionKey.follows (after : Option AdmissionKey) (key : AdmissionKey) : Bool :=
  match after with
  | none => true
  | some after => decide (after < key)

/-- A scan that reaches a key reaches everything past it. -/
theorem AdmissionKey.follows_of_lt {after : Option AdmissionKey} {a b : AdmissionKey}
    (h : a.follows after = true) (hab : a < b) : b.follows after = true := by
  cases after with
  | none => rfl
  | some after =>
    have hlt : after < a := of_decide_eq_true h
    exact decide_eq_true (hlt.trans hab)

/-- The page of the residents still ahead: at most `limit` of them, and the last one's key when
more follow. -/
def ScanPage.ofAhead {R : Type} (limit : Nat) (ahead : List (AdmissionKey × R)) : ScanPage R where
  items := (ahead.take limit).map fun p => ⟨p.1, p.2⟩
  cursor := if limit < ahead.length then (ahead.take limit).getLast?.map Prod.fst else none

/-- A scan that pages over a fixed sequence of residents. -/
def ScansOver {R : Type} (scan : Option AdmissionKey → Nat → ScanPage R)
    (residents : SortedMap AdmissionKey R) : Prop :=
  ∀ after limit, scan after limit =
    ScanPage.ofAhead limit (residents.entries.filter fun p => p.1.follows after)

/-- A scan that maps each record it yields pages over the mapped residents. -/
theorem ScansOver.mapValues {R S : Type} {scan : Option AdmissionKey → Nat → ScanPage R}
    {residents : SortedMap AdmissionKey R} (h : ScansOver scan residents) (f : R → S) :
    ScansOver (fun after limit =>
      ⟨(scan after limit).items.map fun item => ⟨item.key, f item.record⟩,
        (scan after limit).cursor⟩) (residents.mapValues f) := by
  intro after limit
  have hahead : (residents.mapValues f).entries.filter (fun p => p.1.follows after) =
      (residents.entries.filter fun p => p.1.follows after).map fun p => (p.1, f p.2) := by
    rw [SortedMap.mapValues, List.filter_map]
    rfl
  simp only [h after limit]
  rw [hahead]
  simp only [ScanPage.ofAhead, List.length_map, ← List.map_take, List.map_map, List.getLast?_map,
    Option.map_map]
  rfl

namespace Shelf

variable {R : Type}

/-- A lookup through the index finds exactly the entry that stands under the entity. -/
theorem Indexed.get_eq_some_iff {shelf : Shelf R} (h : shelf.Indexed) {entity : EntityId}
    {record : R} : shelf.get entity = some record ↔
      ∃ key, key.entity = entity ∧ (key, record) ∈ shelf.byKey.entries := by
  unfold get
  constructor
  · intro hget
    cases hkey : shelf.byEntity.get? entity with
    | none => simp [hkey] at hget
    | some key =>
      simp only [hkey] at hget
      obtain ⟨hentity, -⟩ := (h.inverse _ _).mp hkey
      exact ⟨key, hentity, SortedMap.get?_eq_some_iff.mp hget⟩
  · rintro ⟨key, rfl, hmem⟩
    have hkey : shelf.byEntity.get? key.entity = some key :=
      (h.inverse _ _).mpr ⟨rfl, record, hmem⟩
    simp only [hkey]
    exact SortedMap.get?_eq_some_iff.mpr hmem

/-- The page loop, from any point of it. -/
theorem pageFrom_eq {limit : Nat} (ahead : List (AdmissionKey × R)) (items : List (ScanItem R))
    (lastInPage : Option AdmissionKey) (h : items.length ≤ limit) :
    pageFrom limit ahead items lastInPage =
      ⟨items ++ ((ahead.take (limit - items.length)).map fun p => ⟨p.1, p.2⟩),
        if limit < items.length + ahead.length then
          (((ahead.take (limit - items.length)).getLast?.map Prod.fst).or lastInPage)
        else none⟩ := by
  induction ahead generalizing items lastInPage with
  | nil => simp [pageFrom, Nat.not_lt.mpr h]
  | cons p ahead ih =>
    obtain ⟨key, record⟩ := p
    unfold pageFrom
    by_cases hfull : items.length = limit
    · simp [hfull]
    · have hroom : limit - items.length = (limit - (items.length + 1)) + 1 := by omega
      rw [if_neg hfull, ih _ _ (by simp; omega)]
      simp only [List.length_append, List.length_cons, List.length_nil, hroom, List.take_succ_cons,
        List.map_cons, List.append_assoc, List.cons_append, List.nil_append, Nat.zero_add]
      congr 1
      rw [show items.length + 1 + ahead.length = items.length + (ahead.length + 1) by omega]
      split
      · cases htake : (ahead.take (limit - (items.length + 1))).getLast? with
        | none =>
          rw [List.getLast?_eq_none_iff] at htake
          simp [htake]
        | some q => rw [List.getLast?_cons, htake]; rfl
      · rfl

theorem pageFrom_start (limit : Nat) (ahead : List (AdmissionKey × R)) :
    pageFrom limit ahead [] none = ScanPage.ofAhead limit ahead := by
  rw [pageFrom_eq ahead [] none (Nat.zero_le limit)]
  simp [ScanPage.ofAhead]

/-- **A shelf scans over its entries.** -/
theorem scansOver (shelf : Shelf R) : ScansOver shelf.scanAfter shelf.byKey := by
  intro after limit
  unfold scanAfter
  by_cases hlimit : limit = 0
  · subst hlimit
    simp [ScanPage.ofAhead]
  · rw [if_neg hlimit]
    cases after with
    | none => simp [pageFrom_start, AdmissionKey.follows]
    | some after => simp [pageFrom_start, AdmissionKey.follows]

end Shelf

/-! ## A fixed store -/

/-- What is resident: the three kinds, each in residency order. -/
structure Residency where
  spans : SortedMap AdmissionKey (Arc Span)
  logRecords : SortedMap AdmissionKey (Arc LogRecord)
  metricPoints : SortedMap AdmissionKey PointView

/-- A driver that answers every read from one fixed residency. -/
structure TelemetryStore.Serves (store : TelemetryStore) (residency : Residency) : Prop where
  scanSpans : ScansOver store.scanSpans residency.spans
  scanLogRecords : ScansOver store.scanLogRecords residency.logRecords
  scanMetricPoints : ScansOver store.scanMetricPoints residency.metricPoints
  span : ∀ entity record, store.span entity = some record ↔
    ∃ key, key.entity = entity ∧ (key, record) ∈ residency.spans.entries
  logRecord : ∀ entity record, store.logRecord entity = some record ↔
    ∃ key, key.entity = entity ∧ (key, record) ∈ residency.logRecords.entries
  metricPoint : ∀ entity view, store.metricPoint entity = some view ↔
    ∃ key, key.entity = entity ∧ (key, view) ∈ residency.metricPoints.entries

/-- No two residents share an entity id. -/
def EntitiesDistinct {R : Type} (residents : SortedMap AdmissionKey R) : Prop :=
  ∀ p ∈ residents.entries, ∀ q ∈ residents.entries, p.1.entity = q.1.entity → p = q

/-- The record that stands under an entity id. -/
def recordOf {R : Type} (residents : SortedMap AdmissionKey R) (entity : EntityId) : Option R :=
  (residents.entries.find? fun p => decide (p.1.entity = entity)).map Prod.snd

theorem recordOf_eq_some_iff {R : Type} {residents : SortedMap AdmissionKey R}
    (h : EntitiesDistinct residents) {entity : EntityId} {record : R} :
    recordOf residents entity = some record ↔
      ∃ key, key.entity = entity ∧ (key, record) ∈ residents.entries := by
  unfold recordOf
  constructor
  · intro hfind
    obtain ⟨p, hp, rfl⟩ := Option.map_eq_some_iff.mp hfind
    exact ⟨p.1, by simpa using List.find?_some hp, List.mem_of_find?_eq_some hp⟩
  · rintro ⟨key, rfl, hmem⟩
    cases hfind : residents.entries.find? fun p => decide (p.1.entity = key.entity) with
    | none =>
      have hnone := List.find?_eq_none.mp hfind (key, record) hmem
      simp at hnone
    | some p =>
      have hp : p = (key, record) := h p (List.mem_of_find?_eq_some hfind) _ hmem
        (by simpa using List.find?_some hfind)
      rw [hp]
      rfl

namespace Residency

/-- The driver that answers every read straight from a residency. -/
def driver (residency : Residency) (stats : StoreStats) : TelemetryStore where
  span := recordOf residency.spans
  logRecord := recordOf residency.logRecords
  metricPoint := recordOf residency.metricPoints
  scanSpans after limit :=
    ScanPage.ofAhead limit (residency.spans.entries.filter fun p => p.1.follows after)
  scanLogRecords after limit :=
    ScanPage.ofAhead limit (residency.logRecords.entries.filter fun p => p.1.follows after)
  scanMetricPoints after limit :=
    ScanPage.ofAhead limit (residency.metricPoints.entries.filter fun p => p.1.follows after)
  stats := stats

theorem serves {residency : Residency} (hspans : EntitiesDistinct residency.spans)
    (hlogs : EntitiesDistinct residency.logRecords)
    (hpoints : EntitiesDistinct residency.metricPoints) (stats : StoreStats) :
    (residency.driver stats).Serves residency where
  scanSpans _ _ := rfl
  scanLogRecords _ _ := rfl
  scanMetricPoints _ _ := rfl
  span _ _ := recordOf_eq_some_iff hspans
  logRecord _ _ := recordOf_eq_some_iff hlogs
  metricPoint _ _ := recordOf_eq_some_iff hpoints

end Residency

/-- A store nothing is kept in or evicted from: a driver and the residency it answers from. -/
structure FixedStore where
  driver : TelemetryStore
  residency : Residency
  serves : driver.Serves residency

end RuntimeTrail
