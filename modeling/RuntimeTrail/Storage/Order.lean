import RuntimeTrail.Model.Records

/-!
# The residency order

Records are sequenced by admission time, with the entity id as the tie-break: a
span's natural identity before an assigned serial, spans by trace id bytes and
then span id bytes, assigned ids by serial.  Scans walk this order and retention
evicts from its front.

The comparison is transitive and answers `eq` on equal keys only, so the key
type is linearly ordered and two records of different entity ids never share a
position.
-/

namespace RuntimeTrail

/-- The entity-id tie-break. -/
def entityOrder : EntityId → EntityId → Ordering
  | .span lt ls, .span rt rs => (compare lt.bytes rt.bytes).then (compare ls.bytes rs.bytes)
  | .span _ _, .assigned _ => .lt
  | .assigned _, .span _ _ => .gt
  | .assigned l, .assigned r => compare l.serial r.serial

/-- A record's position in the residency order. -/
structure AdmissionKey where
  admittedAt : AdmissionTime
  entity : EntityId
deriving DecidableEq

namespace AdmissionKey

/-- Admission time first, entity id as the tie-break. -/
def cmp (a b : AdmissionKey) : Ordering :=
  (compare a.admittedAt.unixNano b.admittedAt.unixNano).then (entityOrder a.entity b.entity)

end AdmissionKey

/-! ## The order is total

Both comparisons are lexicographic over plain keys; an id of one kind answers the other
kind's keys with a constant. -/

namespace EntityId

/-- Natural identities come before assigned serials. -/
def kindRank : EntityId → Nat
  | span _ _ => 0
  | assigned _ => 1

def traceBytes : EntityId → List UInt8
  | span traceId _ => traceId.bytes
  | assigned _ => []

def spanBytes : EntityId → List UInt8
  | span _ spanId => spanId.bytes
  | assigned _ => []

def serialRank : EntityId → Nat
  | span _ _ => 0
  | assigned id => id.serial

end EntityId

theorem entityOrder_eq_compareLex :
    entityOrder = compareLex (compareOn EntityId.kindRank) (compareLex
      (compareOn EntityId.traceBytes) (compareLex (compareOn EntityId.spanBytes)
        (compareOn EntityId.serialRank))) := by
  funext a b
  rcases a with ⟨lt, ls⟩ | l <;> rcases b with ⟨rt, rs⟩ | r
  · simp [entityOrder, compareLex, compareOn, EntityId.kindRank, EntityId.traceBytes,
      EntityId.spanBytes, EntityId.serialRank]
  · rfl
  · rfl
  · simp [entityOrder, compareLex, compareOn, EntityId.kindRank, EntityId.traceBytes,
      EntityId.spanBytes, EntityId.serialRank]

instance : Std.TransCmp entityOrder := by
  rw [entityOrder_eq_compareLex]; infer_instance

instance : Std.LawfulEqCmp entityOrder where
  eq_of_compare {a b} h := by
    rcases a with ⟨⟨lt, hlt⟩, ⟨ls, hls⟩⟩ | ⟨⟨l⟩⟩ <;>
      rcases b with ⟨⟨rt, hrt⟩, ⟨rs, hrs⟩⟩ | ⟨⟨r⟩⟩ <;>
      simp_all [entityOrder, Ordering.then_eq_eq]

namespace AdmissionKey

theorem cmp_eq_compareLex :
    cmp = compareLex (compareOn fun k => k.admittedAt.unixNano)
      (fun a b => entityOrder a.entity b.entity) := rfl

instance : Std.TransCmp fun a b : AdmissionKey => entityOrder a.entity b.entity where
  eq_swap := Std.OrientedCmp.eq_swap
  isLE_trans := Std.TransCmp.isLE_trans

instance : Std.TransCmp cmp := by rw [cmp_eq_compareLex]; infer_instance

instance : Std.LawfulEqCmp cmp where
  eq_of_compare {a b} h := by
    obtain ⟨⟨ta⟩, ea⟩ := a
    obtain ⟨⟨tb⟩, eb⟩ := b
    obtain ⟨ht, he⟩ := Ordering.then_eq_eq.mp h
    obtain rfl : ta = tb := Std.LawfulEqCmp.eq_of_compare ht
    obtain rfl : ea = eb := Std.LawfulEqCmp.eq_of_compare he
    rfl

instance : LinearOrder AdmissionKey := Library.linearOrderOfCmp cmp

/-- An earlier admission comes first, whatever the entities. -/
theorem lt_of_unixNano_lt {a b : AdmissionKey}
    (h : a.admittedAt.unixNano < b.admittedAt.unixNano) : a < b := by
  change cmp a b = .lt
  rw [cmp, Nat.compare_eq_lt.mpr h]
  rfl

/-- The key order never runs against admission time. -/
theorem unixNano_le_of_le {a b : AdmissionKey} (h : a ≤ b) :
    a.admittedAt.unixNano ≤ b.admittedAt.unixNano := by
  by_contra hlt
  have hgt : compare a.admittedAt.unixNano b.admittedAt.unixNano = .gt :=
    Nat.compare_eq_gt.mpr (by omega)
  have hcmp : (cmp a b).isLE = true := h
  rw [cmp, hgt] at hcmp
  exact absurd hcmp (by simp)

end AdmissionKey

end RuntimeTrail
