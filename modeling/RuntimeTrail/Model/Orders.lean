import RuntimeTrail.Library.Comparison
import RuntimeTrail.Storage.Order

/-!
# The orders tables are indexed by

The ledger and the stores key ordered maps by identity content, never by a hash.  A
map is as sound as its order: one pair that compares inconsistently hides an entry or
doubles it.

* **values** — `Value.cmp` orders the variants first, so three values that compare in a
  row are of one kind or run through the kinds (`Value.isLE_trans_of_sameKind`); the
  order is transitive by recursion over the value;
* **identities** — the order of every type built from values, field after field;
* **the law** — `orders_total`: each order is total, and answers `eq` exactly where the
  type's own equality holds.
-/

namespace RuntimeTrail

open Library

namespace Value

/-! ## Values -/

/-- Values of different kinds compare by the order of the kinds. -/
theorem cmp_of_kind_ne {a b : Value} (h : a.kind ≠ b.kind) :
    cmp a b = compare a.kind.index b.kind.index := by
  cases a <;> cases b <;> first | rfl | exact absurd rfl h

theorem index_inj {k l : ValueKind} (h : k.index = l.index) : k = l := by
  cases k <;> cases l <;> first | rfl | exact absurd h (by decide)

/-- No value is below another one of an earlier kind. -/
theorem index_le_of_isLE {a b : Value} (h : (cmp a b).isLE) : a.kind.index ≤ b.kind.index := by
  by_cases hkind : a.kind = b.kind
  · rw [hkind]
  · rw [cmp_of_kind_ne hkind] at h
    exact Nat.isLE_compare.mp h

/-- The order is transitive from a value on if it is among the values of its kind. -/
theorem isLE_trans_of_sameKind {a : Value}
    (h : ∀ b c, b.kind = a.kind → c.kind = a.kind →
      (cmp a b).isLE → (cmp b c).isLE → (cmp a c).isLE)
    (b c : Value) (hab : (cmp a b).isLE) (hbc : (cmp b c).isLE) : (cmp a c).isLE := by
  have hfirst := index_le_of_isLE hab
  have hsecond := index_le_of_isLE hbc
  by_cases hkind : a.kind = c.kind
  · have hb : b.kind = a.kind := index_inj (by rw [← hkind] at hsecond; omega)
    exact h b c hb hkind.symm hab hbc
  · rw [cmp_of_kind_ne hkind]
    exact Nat.isLE_compare.mpr (Nat.le_trans hfirst hsecond)

/-- Swapping what is compared swaps the answer. -/
theorem cmp_swap : ∀ a b : Value, cmp a b = (cmp b a).swap := by
  refine Value.rec
    (motive_1 := fun a => ∀ b, cmp a b = (cmp b a).swap)
    (motive_2 := fun as => ∀ bs, cmpItems as bs = (cmpItems bs as).swap)
    (motive_3 := fun as => ∀ bs, cmpEntries as bs = (cmpEntries bs as).swap)
    (motive_4 := fun p => ∀ b, cmp p.2 b = (cmp b p.2).swap)
    ?string ?bool ?int ?double ?bytes ?array ?kvList ?nil ?cons ?fnil ?fcons ?mk
  case string =>
    intro a b
    cases b with
    | string b => simp only [cmp]; exact Std.OrientedCmp.eq_swap
    | _ => rfl
  case bool =>
    intro a b
    cases b with
    | bool b => simp only [cmp]; exact Std.OrientedCmp.eq_swap
    | _ => rfl
  case int =>
    intro a b
    cases b with
    | int b => simp only [cmp]; exact Std.OrientedCmp.eq_swap
    | _ => rfl
  case double =>
    intro a b
    cases b with
    | double b => simp only [cmp]; exact Std.OrientedCmp.eq_swap
    | _ => rfl
  case bytes =>
    intro a b
    cases b with
    | bytes b => simp only [cmp]; exact Std.OrientedCmp.eq_swap
    | _ => rfl
  case array => intro as ih b; cases b <;> first | rfl | exact ih _
  case kvList => intro as ih b; cases b <;> first | rfl | exact ih _
  case nil => intro bs; cases bs <;> rfl
  case cons =>
    intro a as iha ihas bs
    cases bs with
    | nil => rfl
    | cons b bs => simp only [cmpItems, Ordering.swap_then, ← iha, ← ihas]
  case fnil => intro bs; cases bs <;> rfl
  case fcons =>
    rintro ⟨k, a⟩ as iha ihas bs
    rcases bs with _ | ⟨⟨l, b⟩, bs⟩
    · rfl
    · have hkey : compare k l = (compare l k).swap := Std.OrientedCmp.eq_swap
      simp only [cmpEntries, Ordering.swap_then, ← hkey, ← iha, ← ihas]
  case mk => intro k a ih b; exact ih b

/-- Two values below each other are one value. -/
theorem cmp_eq_of_isLE {a b : Value} (hab : (cmp a b).isLE) (hba : (cmp b a).isLE) :
    cmp a b = .eq := by
  rw [cmp_swap b a] at hba
  rcases h : cmp a b with _ | _ | _
  · rw [h] at hba; cases hba
  · rfl
  · rw [h] at hab; cases hab

/-- Comparing the first of three values in a row equal to the last makes all of them equal. -/
theorem cmp_eq_of_row {a b c : Value} (hab : (cmp a b).isLE) (hbc : (cmp b c).isLE)
    (hac : cmp a c = .eq) : cmp a b = .eq ∧ cmp b c = .eq := by
  obtain rfl := (cmp_eq_iff a c).mp hac
  exact ⟨cmp_eq_of_isLE hab hbc, cmp_eq_of_isLE hbc hab⟩

/-- The order is transitive, by recursion over the first value. -/
theorem cmp_isLE_trans :
    ∀ a b c : Value, (cmp a b).isLE → (cmp b c).isLE → (cmp a c).isLE := by
  refine Value.rec
    (motive_1 := fun a => ∀ b c, (cmp a b).isLE → (cmp b c).isLE → (cmp a c).isLE)
    (motive_2 := fun as => ∀ bs cs, (cmpItems as bs).isLE → (cmpItems bs cs).isLE →
      (cmpItems as cs).isLE)
    (motive_3 := fun as => ∀ bs cs, (cmpEntries as bs).isLE → (cmpEntries bs cs).isLE →
      (cmpEntries as cs).isLE)
    (motive_4 := fun p => ∀ b c, (cmp p.2 b).isLE → (cmp b c).isLE → (cmp p.2 c).isLE)
    ?string ?bool ?int ?double ?bytes ?array ?kvList ?nil ?cons ?fnil ?fcons ?mk
  case string =>
    intro a
    refine isLE_trans_of_sameKind fun b c hb hc => ?_
    cases b <;> cases hb
    cases c <;> cases hc
    simp only [cmp]
    exact Std.TransCmp.isLE_trans
  case bool =>
    intro a
    refine isLE_trans_of_sameKind fun b c hb hc => ?_
    cases b <;> cases hb
    cases c <;> cases hc
    simp only [cmp]
    exact Std.TransCmp.isLE_trans
  case int =>
    intro a
    refine isLE_trans_of_sameKind fun b c hb hc => ?_
    cases b <;> cases hb
    cases c <;> cases hc
    simp only [cmp]
    exact Std.TransCmp.isLE_trans
  case double =>
    intro a
    refine isLE_trans_of_sameKind fun b c hb hc => ?_
    cases b <;> cases hb
    cases c <;> cases hc
    simp only [cmp]
    exact Std.TransCmp.isLE_trans
  case bytes =>
    intro a
    refine isLE_trans_of_sameKind fun b c hb hc => ?_
    cases b <;> cases hb
    cases c <;> cases hc
    simp only [cmp]
    exact Std.TransCmp.isLE_trans
  case array =>
    intro as ih
    refine isLE_trans_of_sameKind fun b c hb hc => ?_
    cases b <;> cases hb
    cases c <;> cases hc
    exact ih _ _
  case kvList =>
    intro as ih
    refine isLE_trans_of_sameKind fun b c hb hc => ?_
    cases b <;> cases hb
    cases c <;> cases hc
    exact ih _ _
  case nil => intro bs cs _ _; cases cs <;> rfl
  case cons =>
    intro a as iha ihas bs cs hab hbc
    cases bs with
    | nil => cases hab
    | cons b bs =>
      cases cs with
      | nil => cases hbc
      | cons c cs => exact isLE_then_trans (iha b c) cmp_eq_of_row (ihas bs cs) hab hbc
  case fnil => intro bs cs _ _; cases cs <;> rfl
  case fcons =>
    rintro ⟨k, a⟩ as iha ihas bs cs hab hbc
    rcases bs with _ | ⟨⟨l, b⟩, bs⟩
    · cases hab
    · rcases cs with _ | ⟨⟨m, c⟩, cs⟩
      · cases hbc
      · refine isLE_then_trans Std.TransCmp.isLE_trans (fun hkl hlm hkm => ?_)
          (isLE_then_trans (iha b c) cmp_eq_of_row (ihas bs cs)) hab hbc
        obtain rfl : k = m := Std.LawfulEqCmp.eq_of_compare hkm
        obtain rfl : k = l := Std.LawfulEqCmp.eq_of_compare (Std.OrientedCmp.isLE_antisymm hkl hlm)
        exact ⟨Std.ReflCmp.compare_self, Std.ReflCmp.compare_self⟩
  case mk => intro k a ih b c; exact ih b c

instance : Std.TransCmp cmp where
  eq_swap := cmp_swap _ _
  isLE_trans := cmp_isLE_trans _ _ _

end Value

/-! ## Identities -/

/-- Attribute maps compare as the key-value lists of their entries. -/
instance : Std.TransCmp Attributes.cmp :=
  transCmp_on (fun a : Attributes => Value.kvList a.entries.entries)
    (inferInstance : Std.TransCmp Value.cmp)

instance : Std.TransCmp Resource.cmp :=
  transCmp_on Resource.attributes (inferInstanceAs (Std.TransCmp Attributes.cmp))

instance : Std.TransCmp InstrumentationScope.cmp :=
  transCmp_then (transCmp_on InstrumentationScope.name inferInstance) <|
    transCmp_then (transCmp_on InstrumentationScope.version inferInstance) <|
      transCmp_then (transCmp_on InstrumentationScope.attributes
        (inferInstanceAs (Std.TransCmp Attributes.cmp))) <|
        transCmp_then (transCmp_on InstrumentationScope.schemaUrl inferInstance) <|
          transCmp_on InstrumentationScope.droppedAttributesCount inferInstance

/-- Whether a kind is a sum that is monotonic, what the order of the kinds reads last. -/
def StreamKind.monotonic : StreamKind → Bool
  | sum monotonic => monotonic
  | _ => false

theorem StreamKind.cmp_eq_then (a b : StreamKind) :
    a.cmp b = (compare a.index b.index).then (compare a.monotonic b.monotonic) := by
  cases a <;> cases b <;> rfl

instance : Std.TransCmp StreamKind.cmp := by
  rw [show StreamKind.cmp = _ from funext₂ StreamKind.cmp_eq_then]
  exact transCmp_then (transCmp_on StreamKind.index inferInstance)
    (transCmp_on StreamKind.monotonic inferInstance)

/-- An optional temporality compares by its rank. -/
theorem transCmp_temporality :
    Std.TransCmp fun a b : Option Temporality =>
      compare (Temporality.rank a) (Temporality.rank b) :=
  transCmp_on Temporality.rank inferInstance

instance : Std.TransCmp StreamIdentity.cmp :=
  transCmp_then (transCmp_on StreamIdentity.resource (inferInstanceAs (Std.TransCmp Resource.cmp)))
    <| transCmp_then (transCmp_on StreamIdentity.scope
        (inferInstanceAs (Std.TransCmp InstrumentationScope.cmp)))
    <| transCmp_then (transCmp_on StreamIdentity.name inferInstance)
    <| transCmp_then (transCmp_on StreamIdentity.description inferInstance)
    <| transCmp_then (transCmp_on StreamIdentity.unit inferInstance)
    <| transCmp_then (transCmp_on StreamIdentity.metadata
        (inferInstanceAs (Std.TransCmp Attributes.cmp)))
    <| transCmp_then (transCmp_on StreamIdentity.kind
        (inferInstanceAs (Std.TransCmp StreamKind.cmp)))
    <| transCmp_on StreamIdentity.temporality transCmp_temporality

/-- The stream side of a point's order: the stream's order with its descriptor left out. -/
theorem transCmp_projectedStreamCmp : Std.TransCmp PointIdentity.projectedStreamCmp :=
  transCmp_then (transCmp_on (fun p : PointIdentity => p.stream.resource)
      (inferInstanceAs (Std.TransCmp Resource.cmp)))
    <| transCmp_then (transCmp_on (fun p : PointIdentity => p.stream.scope)
        (inferInstanceAs (Std.TransCmp InstrumentationScope.cmp)))
    <| transCmp_then (transCmp_on (fun p : PointIdentity => p.stream.name) inferInstance)
    <| transCmp_then (transCmp_on (fun p : PointIdentity => p.stream.kind)
        (inferInstanceAs (Std.TransCmp StreamKind.cmp)))
    <| transCmp_on (fun p : PointIdentity => p.stream.temporality) transCmp_temporality

instance : Std.TransCmp PointIdentity.cmp :=
  transCmp_then transCmp_projectedStreamCmp
    <| transCmp_then (transCmp_on (fun p : PointIdentity => p.point.val.attributes)
        (inferInstanceAs (Std.TransCmp Attributes.cmp)))
    <| transCmp_then (transCmp_on PointIdentity.startTimeUnixNano inferInstance)
    <| transCmp_then (transCmp_on PointIdentity.timeUnixNano inferInstance)
    <| transCmp_on PointIdentity.flags inferInstance

/-! ## The law -/

/-- Two streams project alike: the same resource attributes, scope, name, kind and temporality,
whatever their descriptors. -/
def StreamIdentity.ProjectsAlike (s t : StreamIdentity) : Prop :=
  s.resource.attributes = t.resource.attributes ∧ s.scope = t.scope ∧ s.name = t.name ∧
    s.kind = t.kind ∧ s.temporality = t.temporality

theorem PointIdentity.beq_iff_cmp (a b : PointIdentity) : (a == b) = true ↔ a.cmp b = .eq := by
  change (a.cmp b == .eq) = true ↔ _
  exact beq_iff_eq

theorem PointIdentity.cmp_eq_iff (a b : PointIdentity) : a.cmp b = .eq ↔
    a.stream.ProjectsAlike b.stream ∧ a.point.val.attributes = b.point.val.attributes ∧
      a.startTimeUnixNano = b.startTimeUnixNano ∧ a.timeUnixNano = b.timeUnixNano ∧
      a.flags = b.flags := by
  rw [← beq_iff_cmp, beq_iff]
  simp only [content, Prod.mk.injEq, StreamIdentity.ProjectsAlike]

/-- A gauge's start is outside the identity of its points. -/
theorem PointIdentity.ofInterned_start_eq_iff {s t : StreamIdentity} (hkind : s.kind = t.kind)
    (p q : Arc MetricPoint) :
    (ofInterned s p).startTimeUnixNano = (ofInterned t q).startTimeUnixNano ↔
      (s.kind ≠ .gauge → p.val.startTimeUnixNano = q.val.startTimeUnixNano) := by
  simp only [ofInterned, ← hkind]
  cases s.kind <;> simp [StreamKind.requiresStartTime]

theorem PointIdentity.cmp_ofInterned_eq_iff (s t : StreamIdentity) (p q : Arc MetricPoint) :
    cmp (ofInterned s p) (ofInterned t q) = .eq ↔
      s.ProjectsAlike t ∧ p.val.attributes = q.val.attributes ∧
      (s.kind ≠ .gauge → p.val.startTimeUnixNano = q.val.startTimeUnixNano) ∧
      p.val.timeUnixNano = q.val.timeUnixNano ∧ p.val.flags = q.val.flags := by
  rw [PointIdentity.cmp_eq_iff]
  refine and_congr_right fun halike => and_congr_right fun _ => and_congr_left' ?_
  exact ofInterned_start_eq_iff halike.2.2.2.1 p q

/-- **The orders are total.**  The entity order and the residency order, the orders of values and
attribute maps, and the orders of streams and points compare any two values one way round, never
in a circle, and answer `eq` exactly on the values that are equal under the type's own equality.
For points these are the ones whose streams project alike and whose attributes, starts, times and
flags are the same, the start of a gauge's point being no part of it. -/
theorem orders_total :
    TotalCmp entityOrder (· = ·) ∧ TotalCmp AdmissionKey.cmp (· = ·) ∧
    TotalCmp Value.cmp (· = ·) ∧ TotalCmp Attributes.cmp (· = ·) ∧
    TotalCmp StreamIdentity.cmp (fun a b => (a == b) = true) ∧
    TotalCmp PointIdentity.cmp (fun a b => (a == b) = true) ∧
    (∀ a b : PointIdentity, (a == b) = true ↔
      a.stream.ProjectsAlike b.stream ∧ a.point.val.attributes = b.point.val.attributes ∧
        a.startTimeUnixNano = b.startTimeUnixNano ∧ a.timeUnixNano = b.timeUnixNano ∧
        a.flags = b.flags) ∧
    ∀ (s t : StreamIdentity) (p q : Arc MetricPoint),
      (PointIdentity.ofInterned s p == PointIdentity.ofInterned t q) = true ↔
        s.ProjectsAlike t ∧ p.val.attributes = q.val.attributes ∧
        (s.kind ≠ .gauge → p.val.startTimeUnixNano = q.val.startTimeUnixNano) ∧
        p.val.timeUnixNano = q.val.timeUnixNano ∧ p.val.flags = q.val.flags := by
  refine ⟨.of_transCmp fun _ _ => Std.LawfulEqCmp.compare_eq_iff_eq,
    .of_transCmp fun _ _ => Std.LawfulEqCmp.compare_eq_iff_eq,
    .of_transCmp Value.cmp_eq_iff, .of_transCmp Attributes.cmp_eq_iff,
    .of_transCmp StreamIdentity.cmp_eq_iff,
    .of_transCmp fun a b => (PointIdentity.beq_iff_cmp a b).symm, ?_, ?_⟩
  · intro a b
    exact (PointIdentity.beq_iff_cmp _ _).trans (PointIdentity.cmp_eq_iff a b)
  · intro s t p q
    exact (PointIdentity.beq_iff_cmp _ _).trans (PointIdentity.cmp_ofInterned_eq_iff s t p q)

end RuntimeTrail
