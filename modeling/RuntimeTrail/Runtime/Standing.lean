import Mathlib.Data.List.Nodup
import RuntimeTrail.Runtime.Session

/-!
# What stands in the ledger

`Standing` says of a ledger and a list of records that the ledger's entries are
the identities of these records, each exactly once: the spans under the natural
ids of the span records, the points under the identities of the point records,
and the serials of the point records taken back to those identities.

* **admissions** — `Standing.enterSpan`, `Standing.assign`, `Standing.enterPoint`:
  each admission adds the one record it admits;
* **endings** — `Standing.forget`: forgetting a record's entity takes out that
  record, whatever kind it is;
* **exports** — `Standing.admits`, `Standing.undoExport`: an export adds its
  offer-set, and the undo of a refused one takes all of it back.
-/

namespace RuntimeTrail

open Library

/-! ## The identities of a record -/

/-- The ledger entry a span record with a natural identity stands under. -/
def spanEntry : Entry → Option ((TraceId × SpanId) × (EntityId × Arc Span))
  | (key, .span record) => record.val.naturalIdentity.map fun id => (id, (key.entity, record))
  | _ => none

/-- The ledger entry a point record stands under. -/
def pointEntry : Entry → Option (PointIdentity × EntityId)
  | (key, .point slot) => some (.ofInterned slot.stream slot.point, key.entity)
  | _ => none

/-- The index entry that takes a point record's serial back to its identity. -/
def serialEntry : Entry → Option (AssignedId × PointIdentity)
  | (⟨_, .assigned id⟩, .point slot) => some (id, .ofInterned slot.stream slot.point)
  | _ => none

/-- A record's entity id is its natural identity where it has one, and a serial otherwise. -/
def Identified : Entry → Prop
  | (key, .span record) =>
    match record.val.naturalIdentity with
    | some id => key.entity = .span id.1 id.2
    | none => ∃ id, key.entity = .assigned id
  | (key, _) => ∃ id, key.entity = .assigned id

/-- **The ledger's entries are the identities of these records**, one entry for each. -/
structure Standing (l : AdmissionLedger) (records : List Entry) : Prop where
  distinct : (records.map (·.1.entity)).Nodup
  identified : ∀ e ∈ records, Identified e
  serials : ∀ e ∈ records, ∀ id, e.1.entity = .assigned id → id.serial ≤ l.nextSerial
  spans : l.spans.entries.Perm (records.filterMap spanEntry)
  points : l.points.entries.Perm (records.filterMap pointEntry)
  assignedPoints : l.assignedPoints.entries.Perm (records.filterMap serialEntry)

namespace Standing

variable {l l' : AdmissionLedger} {records records' : List Entry}

theorem new (limits : BudgetLimits) : Standing (AdmissionLedger.new limits) [] where
  distinct := List.nodup_nil
  identified e he := absurd he (by simp)
  serials e he := absurd he (by simp)
  spans := List.Perm.refl _
  points := List.Perm.refl _
  assignedPoints := List.Perm.refl _

theorem perm (h : Standing l records) (hp : records.Perm records') : Standing l records' where
  distinct := (hp.map _).nodup_iff.mp h.distinct
  identified e he := h.identified e (hp.mem_iff.mpr he)
  serials e he := h.serials e (hp.mem_iff.mpr he)
  spans := h.spans.trans (hp.filterMap _)
  points := h.points.trans (hp.filterMap _)
  assignedPoints := h.assignedPoints.trans (hp.filterMap _)

/-- The interned streams and the anomalies are no part of it. -/
theorem of_eq (h : Standing l records) (hserial : l'.nextSerial = l.nextSerial)
    (hspans : l'.spans = l.spans) (hpoints : l'.points = l.points)
    (hassigned : l'.assignedPoints = l.assignedPoints) : Standing l' records where
  distinct := h.distinct
  identified := h.identified
  serials := by rw [hserial]; exact h.serials
  spans := by rw [hspans]; exact h.spans
  points := by rw [hpoints]; exact h.points
  assignedPoints := by rw [hassigned]; exact h.assignedPoints

/-! ## Records by what the ledger answers -/

/-- Two records of one entity are one record. -/
theorem eq_of_entity (h : Standing l records) {e f : Entry} (he : e ∈ records) (hf : f ∈ records)
    (hent : e.1.entity = f.1.entity) : e = f :=
  List.inj_on_of_nodup_map h.distinct he hf hent

/-- A record of a natural identity's entity is the span that stands under it. -/
theorem span_of_entity (h : Standing l records) {e : Entry} (he : e ∈ records)
    (key : TraceId × SpanId) (hent : e.1.entity = .span key.1 key.2) :
    ∃ record, e.2 = .span record ∧ record.val.naturalIdentity = some key := by
  have hid := h.identified e he
  obtain ⟨k, r⟩ := e
  cases r with
  | span record =>
    refine ⟨record, rfl, ?_⟩
    unfold Identified at hid
    dsimp only at hid hent
    split at hid
    · rename_i id hnat
      rw [hent] at hid
      obtain ⟨h1, h2⟩ := EntityId.span.inj hid
      rw [hnat, ← Prod.ext h1 h2]
    · obtain ⟨id, hid⟩ := hid
      exact absurd (hent.symm.trans hid) (by simp)
  | log record =>
    obtain ⟨id, hid⟩ := hid
    exact absurd (hent.symm.trans hid) (by simp)
  | point slot =>
    obtain ⟨id, hid⟩ := hid
    exact absurd (hent.symm.trans hid) (by simp)

/-- A natural identity stands exactly when a record carries it as its entity. -/
theorem spans_getPair?_eq_none_iff (h : Standing l records) {key : TraceId × SpanId} :
    l.spans.getPair? key = none ↔ ∀ e ∈ records, e.1.entity ≠ .span key.1 key.2 := by
  rw [ContentMap.getPair?_eq_none_iff]
  constructor
  · intro hnone e he hent
    obtain ⟨record, hr, hnat⟩ := h.span_of_entity he _ hent
    have hmem : (key, (e.1.entity, record)) ∈ l.spans.entries := by
      refine h.spans.mem_iff.mpr (List.mem_filterMap.mpr ⟨e, he, ?_⟩)
      obtain ⟨k, r⟩ := e
      obtain rfl : r = .span record := hr
      simp [spanEntry, hnat]
    simpa using hnone _ hmem
  · rintro hnone ⟨id, v⟩ hmem
    obtain ⟨⟨k, r⟩, he, hentry⟩ := List.mem_filterMap.mp (h.spans.mem_iff.mp hmem)
    by_contra hkey
    obtain rfl : id = key := by simpa using hkey
    have hid := h.identified _ he
    cases r with
    | span record =>
      obtain ⟨nat, hnat, hval⟩ := Option.map_eq_some_iff.mp hentry
      obtain ⟨rfl, -⟩ := Prod.mk.inj hval
      unfold Identified at hid
      dsimp only at hid
      rw [hnat] at hid
      exact hnone _ he hid
    | log record => exact absurd hentry (by simp [spanEntry])
    | point slot => exact absurd hentry (by simp [spanEntry])

/-- A serial the ledger has yet to give names no record. -/
theorem ne_nextAssigned (h : Standing l records) {e : Entry} (he : e ∈ records) :
    e.1.entity ≠ .assigned l.nextAssigned := by
  intro hent
  have := h.serials e he _ hent
  simp [AdmissionLedger.nextAssigned] at this

/-- A serial stands in the index exactly when it is a point record's. -/
theorem assigned_getPair?_eq_none (h : Standing l records) {id : AssignedId}
    (hnone : ∀ e ∈ records, e.1.entity = .assigned id → e.2.kind ≠ .point) :
    l.assignedPoints.getPair? id = none := by
  rw [ContentMap.getPair?_eq_none_iff]
  rintro ⟨id', identity⟩ hmem
  obtain ⟨⟨⟨t, entity⟩, r⟩, he, hentry⟩ := List.mem_filterMap.mp (h.assignedPoints.mem_iff.mp hmem)
  by_contra hkey
  obtain rfl : id' = id := by simpa using hkey
  cases r with
  | point slot =>
    cases entity with
    | assigned id =>
      obtain ⟨rfl, -⟩ := Prod.mk.inj (Option.some.inj hentry)
      exact hnone _ he rfl rfl
    | span t s => exact absurd hentry (by simp [serialEntry])
  | span record => exact absurd hentry (by cases entity <;> simp [serialEntry])
  | log record => exact absurd hentry (by cases entity <;> simp [serialEntry])

/-! ## Admissions -/

/-- A span enters under a natural identity that does not stand. -/
theorem enterSpan (h : Standing l records) {key : TraceId × SpanId} {record : Arc Span}
    (now : AdmissionTime) (hnat : record.val.naturalIdentity = some key)
    (habsent : l.spans.getPair? key = none) :
    Standing { l with spans := l.spans.insert key (.span key.1 key.2, record) }
      ((⟨now, .span key.1 key.2⟩, .span record) :: records) where
  distinct := by
    refine List.nodup_cons.mpr ⟨fun hmem => ?_, h.distinct⟩
    obtain ⟨e, he, hent⟩ := List.mem_map.mp hmem
    exact h.spans_getPair?_eq_none_iff.mp habsent e he hent
  identified := by
    refine List.forall_mem_cons.mpr ⟨?_, h.identified⟩
    simp only [Identified, hnat]
  serials := List.forall_mem_cons.mpr ⟨fun id hid => absurd hid (by simp), h.serials⟩
  spans := by
    have hentry : spanEntry (⟨now, .span key.1 key.2⟩, .span record) =
        some (key, (.span key.1 key.2, record)) := by simp [spanEntry, hnat]
    rw [List.filterMap_cons_some hentry]
    exact (ContentMap.insert_perm_of_none habsent).trans (h.spans.cons _)
  points := h.points
  assignedPoints := h.assignedPoints

/-- What every admission under a fresh serial has in common. -/
theorem assign_entities (h : Standing l records) (now : AdmissionTime) {r : Resident}
    (hid : Identified (⟨now, .assigned l.nextAssigned⟩, r)) :
    ((((⟨now, .assigned l.nextAssigned⟩, r) : Entry) :: records).map (·.1.entity)).Nodup ∧
      (∀ e ∈ ((⟨now, .assigned l.nextAssigned⟩, r) : Entry) :: records, Identified e) ∧
      ∀ e ∈ ((⟨now, .assigned l.nextAssigned⟩, r) : Entry) :: records, ∀ id,
        e.1.entity = .assigned id → id.serial ≤ l.nextSerial + 1 := by
  refine ⟨List.nodup_cons.mpr ⟨fun hmem => ?_, h.distinct⟩,
    List.forall_mem_cons.mpr ⟨hid, h.identified⟩,
    List.forall_mem_cons.mpr ⟨fun id hent => ?_, fun e he id hent => ?_⟩⟩
  · obtain ⟨e, he, hent⟩ := List.mem_map.mp hmem
    exact h.ne_nextAssigned he hent
  · obtain rfl := EntityId.assigned.inj hent
    exact le_refl _
  · exact (h.serials e he id hent).trans (Nat.le_succ _)

/-- A record with no natural identity enters under a fresh serial, and leaves no entry. -/
theorem assign (h : Standing l records) (now : AdmissionTime) {record : StoredRecord}
    (hunnamed : record.Unnamed) :
    Standing l.assign ((⟨now, .assigned l.nextAssigned⟩, record.resident) :: records) := by
  have hid : Identified (⟨now, .assigned l.nextAssigned⟩, record.resident) := by
    cases record with
    | span record =>
      have hnat : record.val.naturalIdentity = none := hunnamed
      simp only [StoredRecord.resident, Identified, hnat]
      exact ⟨_, rfl⟩
    | log record => exact ⟨_, rfl⟩
    | point stream point => exact hunnamed.elim
  obtain ⟨hdistinct, hidentified, hserials⟩ := h.assign_entities _ hid
  refine ⟨hdistinct, hidentified, hserials, ?_, ?_, ?_⟩
  all_goals
    cases record with
    | span record =>
      have hnat : record.val.naturalIdentity = none := hunnamed
      first
      | rw [List.filterMap_cons_none (by simp [spanEntry, StoredRecord.resident, hnat])]
        exact h.spans
      | exact h.points
      | exact h.assignedPoints
    | log record => first | exact h.spans | exact h.points | exact h.assignedPoints
    | point stream point => exact hunnamed.elim

/-- A point enters under an identity that does not stand, with a fresh serial. -/
theorem enterPoint (h : Standing l records) (now : AdmissionTime) (slot : PointSlot)
    (habsent : l.points.getPair? (.ofInterned slot.stream slot.point) = none) :
    Standing (l.enterPoint (.ofInterned slot.stream slot.point))
      ((⟨now, .assigned l.nextAssigned⟩, .point slot) :: records) := by
  obtain ⟨hdistinct, hidentified, hserials⟩ :=
    @assign_entities _ _ h now (.point slot) ⟨_, rfl⟩
  have hfresh : l.assignedPoints.getPair? l.nextAssigned = none :=
    h.assigned_getPair?_eq_none fun e he hent => absurd hent (h.ne_nextAssigned he)
  exact ⟨hdistinct, hidentified, hserials, h.spans,
    (ContentMap.insert_perm_of_none habsent).trans (h.points.cons _),
    (ContentMap.insert_perm_of_none hfresh).trans (h.assignedPoints.cons _)⟩

/-! ## Endings -/

/-- **Forgetting a record's entity takes out that record.** -/
theorem forget {e : Entry} (h : Standing l (e :: records)) :
    Standing (l.forget e.1.entity) records := by
  obtain ⟨⟨t, entity⟩, r⟩ := e
  have hdistinct := (List.nodup_cons.mp h.distinct).2
  have hidentified := (List.forall_mem_cons.mp h.identified).2
  have hserials := (List.forall_mem_cons.mp h.serials).2
  have hid := (List.forall_mem_cons.mp h.identified).1
  cases entity with
  | span traceId spanId =>
    -- a natural identity: the record is the span that stands under it
    obtain ⟨record, hr, hnat⟩ := h.span_of_entity List.mem_cons_self (traceId, spanId) rfl
    obtain rfl : r = .span record := hr
    have hspans := h.spans
    rw [List.filterMap_cons_some (b := ((traceId, spanId), (.span traceId spanId, record)))
      (by simp [spanEntry, hnat])] at hspans
    exact ⟨hdistinct, hidentified, hserials, ContentMap.erase_perm_of_cons hspans, h.points,
      h.assignedPoints⟩
  | assigned id =>
    cases r with
    | point slot =>
      have hindex : l.assignedPoints.get? id = some (.ofInterned slot.stream slot.point) := by
        refine ContentMap.get?_eq_some_iff.mpr ⟨id, ?_, by simp⟩
        exact h.assignedPoints.mem_iff.mpr List.mem_cons_self
      have heq : l.forget (.assigned id) =
          { l with
            assignedPoints := l.assignedPoints.erase id
            points := l.points.erase (.ofInterned slot.stream slot.point) } := by
        simp only [AdmissionLedger.forget, hindex]
      dsimp only
      rw [heq]
      exact ⟨hdistinct, hidentified, hserials, h.spans, ContentMap.erase_perm_of_cons h.points,
        ContentMap.erase_perm_of_cons h.assignedPoints⟩
    | _ =>
      -- no entry was kept for it
      have hindex : l.assignedPoints.getPair? id = none := by
        refine h.assigned_getPair?_eq_none fun f hf hent => ?_
        rw [h.eq_of_entity hf List.mem_cons_self hent]
        simp [Resident.kind]
      have heq : l.forget (.assigned id) = l := by
        simp only [AdmissionLedger.forget, ContentMap.get?, hindex, Option.map_none]
      dsimp only
      rw [heq]
      refine ⟨hdistinct, hidentified, hserials, ?_, h.points, h.assignedPoints⟩
      have hspans := h.spans
      unfold Identified at hid
      first
      | exact hspans
      | dsimp only at hid
        split at hid
        · exact absurd hid (by simp)
        · rename_i hnat
          rwa [List.filterMap_cons_none (by simp [spanEntry, hnat])] at hspans

theorem releaseStream (h : Standing l records) (stream : StreamIdentity) :
    Standing (l.releaseStream stream) records := h.of_eq rfl rfl rfl rfl

/-! ## Exports -/

/-- The records of an offer-set. -/
def offered (pending : List PendingOffer) : List Entry := pending.map (·.queued.entry)

/-- One record's admission adds what it defers. -/
theorem admits {x x' : Export} (h : Standing x.ledger (offered x.pending ++ records))
    (hx : Admits x x') : Standing x'.ledger (offered x'.pending ++ records) := by
  have hlast : ∀ offer : PendingOffer, (offer.queued.entry :: (offered x.pending ++ records)).Perm
      (offered (x.pending ++ [offer]) ++ records) := fun offer => by
    rw [offered, offered, List.map_append, List.map_singleton, List.append_assoc,
      List.singleton_append]
    exact List.perm_middle.symm
  cases hx with
  | nothing anomalies hledger hpending =>
    rw [hledger, hpending]
    exact h.of_eq rfl rfl rfl rfl
  | interned anomalies key entity stream _ _ _ hledger hpending =>
    rw [hledger, hpending]
    exact h.of_eq rfl rfl rfl rfl
  | span now key record hnat habsent hledger hpending =>
    rw [hledger, hpending]
    exact (h.enterSpan now hnat habsent).perm
      (hlast ⟨⟨.span key.1 key.2, now, .span record⟩, none⟩)
  | assigned now record hunnamed hledger hpending =>
    rw [hledger, hpending]
    exact (h.assign now hunnamed).perm
      (hlast ⟨⟨.assigned x.ledger.nextAssigned, now, record⟩, none⟩)
  | point now stream point habsent hledger hpending =>
    rw [hledger, hpending]
    obtain ⟨hserial, hspans, hpoints, hassigned, -⟩ := x.ledger.intern_frame stream
    have hstand := h.of_eq hserial hspans hpoints hassigned
    have hentered := hstand.enterPoint now ⟨point, (x.ledger.intern stream).2.1⟩
      (by rw [hpoints]; exact habsent)
    rw [AdmissionLedger.nextAssigned_intern] at hentered
    exact hentered.perm
      (hlast ⟨⟨.assigned x.ledger.nextAssigned, now, .point (x.ledger.intern stream).2.1 point⟩, _⟩)

/-- The undo of a refused export takes back every record it admitted. -/
theorem undoExport : ∀ (pending : List PendingOffer) {l : AdmissionLedger},
    Standing l (offered pending ++ records) →
    Standing (Pipeline.undoExport pending l) records := by
  intro pending
  induction pending with
  | nil => intro l h; exact h
  | cons offer rest ih =>
    intro l h
    have hforgot : Standing (l.forget offer.queued.entity) (offered rest ++ records) := h.forget
    unfold Pipeline.undoExport
    dsimp only
    split
    · exact ih (hforgot.releaseStream _)
    · exact ih hforgot

end Standing

end RuntimeTrail
