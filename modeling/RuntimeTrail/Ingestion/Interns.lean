import RuntimeTrail.Ingestion.Saturation

/-!
# The interns of a saturated export

Interning precedes the verdict on a point: a point that enters interns its
stream, and so does one that collapses or conflicts beside a standing point of
an equal stream.  The first kind travels in the offer-set and is undone with it;
the second is not.

* **the interned streams** — `internedAfter`: which streams are interned once
  some of an export's points were delivered, read off the ledger before it;
* **what is stranded** — `strands`: whether a point of the export interns a
  stream beside a standing point, decided before the export;
* **the law** — `saturated_restores_iff`: a saturated export leaves the ledger as
  it stood exactly when it strands nothing.
-/

namespace RuntimeTrail

open Library

/-- A point as an export delivers it, and its stream. -/
structure PointDelivery where
  stream : StreamIdentity
  point : MetricPoint

/-- The identity a delivery is looked up under, wherever its payload lives. -/
def PointDelivery.identity (d : PointDelivery) : PointIdentity :=
  AdmissionLedger.identityOf d.stream 0 d.point

/-- The translated points of a metric whose stream is translated. -/
def WireMetric.deliveries (metric : WireMetric) : List PointDelivery :=
  match metric.identity with
  | .ok stream => metric.points.filterMap fun
    | .ok point => some ⟨stream, point⟩
    | .error _ => none
  | .error _ => []

/-- The points an export brings to the ledger, in document order. -/
def ExportCall.deliveries : ExportCall → List PointDelivery
  | .spans _ _ => []
  | .logs _ _ => []
  | .metrics _ payload =>
    match payload.decoded with
    | .ok request => request.flatMap WireMetric.deliveries
    | .error _ => []

/-! ## Read off the ledger before the export -/

namespace AdmissionLedger

/-- Whether a delivery passes every gate. -/
def passes (l : AdmissionLedger) (d : PointDelivery) : Bool := (l.gatePoint d.stream d.point).isOk

/-- Whether a point stands under a delivery's identity and an equal stream. -/
def standsUnder (l : AdmissionLedger) (d : PointDelivery) : Bool :=
  match l.points.getPair? d.identity with
  | some (first, _) => first.stream == d.stream
  | none => false

/-- Whether a delivery brings an identity that stands neither in the ledger nor through an earlier
delivery of the export. -/
def brings (l : AdmissionLedger) (earlier : List PointDelivery) (d : PointDelivery) : Bool :=
  !l.points.contains d.identity &&
    earlier.all fun e => !(l.passes e && e.identity == d.identity)

/-- Whether a stream is interned once the earlier deliveries, latest first, were admitted. -/
def internedAfter (l : AdmissionLedger) : List PointDelivery → StreamIdentity → Bool
  | [], stream => l.streams.contains stream
  | d :: earlier, stream =>
    l.internedAfter earlier stream ||
      (l.passes d && (l.standsUnder d || l.brings earlier d) && d.stream == stream)

/-- Whether a delivery interns its stream beside a standing point of it. -/
def strandsAt (l : AdmissionLedger) (earlier : List PointDelivery) (d : PointDelivery) : Bool :=
  l.passes d && l.standsUnder d && !l.internedAfter earlier d.stream

/-- Whether any delivery of the rest of an export does. -/
def strands (l : AdmissionLedger) (earlier : List PointDelivery) : List PointDelivery → Bool
  | [] => false
  | d :: later => l.strandsAt earlier d || l.strands (d :: earlier) later

theorem passes_iff {l : AdmissionLedger} {d : PointDelivery} :
    l.passes d = true ↔ l.gatePoint d.stream d.point = .ok () := by
  unfold passes
  cases l.gatePoint d.stream d.point with
  | error outcome => simp [Except.isOk, Except.toBool]
  | ok u => simp [Except.isOk, Except.toBool]

end AdmissionLedger

/-! ## Tracking the interned streams -/

theorem uninterned_append (pending more : List PendingOffer) (stream : StreamIdentity) :
    uninterned (pending ++ more) stream = (uninterned pending stream && uninterned more stream) :=
  List.all_append

/-- Where an export stands after its earlier deliveries: what stands, what is interned, and whether
an interned stream is missing from the offer-set, all read off the ledger before it. -/
structure Tracks (l : AdmissionLedger) (earlier : List PointDelivery) (l' : AdmissionLedger)
    (pending : List PendingOffer) (stranded : Bool) : Prop where
  limits : l'.limits = l.limits
  stood : ∀ key entry, l.points.getPair? key = some entry → l'.points.getPair? key = some entry
  absent : ∀ key, l'.points.getPair? key = none ↔ l.points.getPair? key = none ∧
    ∀ d ∈ earlier, l.passes d = true → (d.identity == key) = false
  /-- A point the export entered has its stream interned. -/
  backed : ∀ key first entity, l'.points.getPair? key = some (first, entity) →
    l.points.getPair? key = some (first, entity) ∨ l'.streams.contains first.stream = true
  interned : ∀ stream, l'.streams.contains stream = l.internedAfter earlier stream
  added : ∃ added, l'.streams.entries = l.streams.entries ++ added ∧
    (stranded = false ↔ ∀ p ∈ added, uninterned pending p.1 = false)
  offered : ∀ offer ∈ pending, ∀ stream, offer.freshInternStream = some stream →
    l'.streams.contains stream = true ∧ l.streams.contains stream = false

namespace Tracks

variable {l l' : AdmissionLedger} {earlier : List PointDelivery} {pending : List PendingOffer}
  {stranded : Bool} {d : PointDelivery}

theorem start (l : AdmissionLedger) : Tracks l [] l [] false where
  limits := rfl
  stood := fun _ _ h => h
  absent := fun key => ⟨fun h => ⟨h, fun d hd => absurd hd (by simp)⟩, fun h => h.1⟩
  backed := fun _ _ _ h => Or.inl h
  interned := fun _ => rfl
  added := ⟨[], (List.append_nil _).symm, by simp⟩
  offered := fun offer hoffer => absurd hoffer (by simp)

/-- The anomalies and the counter are no part of it. -/
theorem of_eq (h : Tracks l earlier l' pending stranded) {l'' : AdmissionLedger}
    (hlimits : l''.limits = l'.limits) (hpoints : l''.points = l'.points)
    (hstreams : l''.streams = l'.streams) : Tracks l earlier l'' pending stranded := by
  obtain ⟨h1, h2, h3, h4, h5, h6, h7⟩ := h
  exact ⟨hlimits.trans h1, hpoints ▸ h2, hpoints ▸ h3, hpoints ▸ hstreams ▸ h4, hstreams ▸ h5,
    hstreams ▸ h6, hstreams ▸ h7⟩

theorem passes_eq (h : Tracks l earlier l' pending stranded) (d : PointDelivery) :
    l'.passes d = l.passes d := by
  rw [Bool.eq_iff_iff, AdmissionLedger.passes_iff, AdmissionLedger.passes_iff,
    AdmissionLedger.gatePoint_eq_ok_iff, AdmissionLedger.gatePoint_eq_ok_iff, h.limits]

/-- What is absent with one delivery more in the account. -/
theorem absent_cons (h : Tracks l earlier l' pending stranded) (d : PointDelivery)
    (key : PointIdentity) :
    (l.points.getPair? key = none ∧
        ∀ e ∈ d :: earlier, l.passes e = true → (e.identity == key) = false) ↔
      l'.points.getPair? key = none ∧ (l.passes d = true → (d.identity == key) = false) := by
  rw [h.absent key, List.forall_mem_cons, and_assoc]
  exact and_congr_right fun _ => and_comm

/-- What one more delivery changes in what the ledger is read for, where it neither enters nor
interns. -/
theorem idle (h : Tracks l earlier l' pending stranded)
    (habsent : ∀ key, l.passes d = true → l'.points.getPair? key = none →
      (d.identity == key) = false)
    (hinterned : ∀ stream, l.passes d = true → (l.standsUnder d || l.brings earlier d) = true →
      (d.stream == stream) = true → l.internedAfter earlier stream = true)
    (hstrands : l.strandsAt earlier d = false) :
    Tracks l (d :: earlier) l' pending (stranded || l.strandsAt earlier d) := by
  rw [hstrands, Bool.or_false]
  refine ⟨h.limits, h.stood, ?_, h.backed, ?_, h.added, h.offered⟩
  · intro key
    rw [h.absent_cons d key]
    exact ⟨fun hnone => ⟨hnone, fun hpasses => habsent key hpasses hnone⟩, And.left⟩
  · intro stream
    rw [h.interned stream, AdmissionLedger.internedAfter]
    cases hi : l.internedAfter earlier stream with
    | true => rfl
    | false =>
      rw [Bool.false_or, eq_comm, Bool.eq_false_iff]
      intro hall
      simp only [Bool.and_eq_true] at hall
      rw [hinterned stream hall.1.1 hall.1.2 hall.2] at hi
      exact absurd hi (by simp)

/-- A refused delivery. -/
theorem refused (h : Tracks l earlier l' pending stranded) (hrefused : l.passes d = false) :
    Tracks l (d :: earlier) l' pending (stranded || l.strandsAt earlier d) := by
  have hnot : ¬ l.passes d = true := by simp [hrefused]
  refine h.idle (fun key hp => absurd hp hnot) (fun stream hp => absurd hp hnot) ?_
  simp [AdmissionLedger.strandsAt, hrefused]

/-- A delivery that finds a point standing finds it under the lookup's own key. -/
theorem standing_absent {first : PointIdentity} {entity : EntityId}
    (hstands : l'.points.getPair? d.identity = some (first, entity)) (key : PointIdentity)
    (hnone : l'.points.getPair? key = none) : (d.identity == key) = false := by
  rw [Bool.eq_false_iff]
  intro hsame
  rw [ContentMap.getPair?_congr _ hsame, hnone] at hstands
  exact absurd hstands (by simp)

/-- Where no point stands yet, a delivery of its identity brings it. -/
theorem brings_of_absent (h : Tracks l earlier l' pending stranded)
    (habsent : l'.points.getPair? d.identity = none) : l.brings earlier d = true := by
  obtain ⟨hnone, hearlier⟩ := (h.absent d.identity).mp habsent
  simp only [AdmissionLedger.brings, ContentMap.contains, hnone, Bool.and_eq_true, List.all_eq_true]
  refine ⟨rfl, fun e he => ?_⟩
  cases hp : l.passes e with
  | false => rfl
  | true => rw [hearlier e he hp]; rfl

/-- Where a point stands already, a delivery of its identity brings nothing. -/
theorem brings_of_stands (h : Tracks l earlier l' pending stranded) {first : PointIdentity}
    {entity : EntityId} (hstands : l'.points.getPair? d.identity = some (first, entity)) :
    l.brings earlier d = false := by
  rw [Bool.eq_false_iff]
  intro hbrings
  simp only [AdmissionLedger.brings, Bool.and_eq_true, Bool.not_eq_true', List.all_eq_true,
    ContentMap.contains, Option.isSome_eq_false_iff, Option.isNone_iff_eq_none] at hbrings
  have hnone := (h.absent d.identity).mpr ⟨hbrings.1, fun e he hpasses => by
    simpa [hpasses] using hbrings.2 e he⟩
  rw [hnone] at hstands
  exact absurd hstands (by simp)

/-- What stands in the ledger before the export stands under the same stream now. -/
theorem standsUnder_eq (h : Tracks l earlier l' pending stranded) {first : PointIdentity}
    {entity : EntityId} (hstands : l'.points.getPair? d.identity = some (first, entity))
    (hstood : l.standsUnder d = true) : (first.stream == d.stream) = true := by
  unfold AdmissionLedger.standsUnder at hstood
  cases hl : l.points.getPair? d.identity with
  | none =>
    rw [hl] at hstood
    exact absurd hstood (by simp)
  | some entry =>
    have hsame := h.stood _ _ hl
    rw [hstands] at hsame
    rw [hl, ← Option.some.inj hsame] at hstood
    exact hstood

/-- A conflict with a point of another descriptor. -/
theorem redescribed (h : Tracks l earlier l' pending stranded) {first : PointIdentity}
    {entity : EntityId} (hstands : l'.points.getPair? d.identity = some (first, entity))
    (hother : (first.stream == d.stream) = false) :
    Tracks l (d :: earlier) l' pending (stranded || l.strandsAt earlier d) := by
  have hstood : l.standsUnder d = false := by
    rw [Bool.eq_false_iff]
    intro hstood
    rw [h.standsUnder_eq hstands hstood] at hother
    exact absurd hother (by simp)
  refine h.idle (fun key _ => standing_absent hstands key) (fun stream _ heither => ?_) ?_
  · rw [hstood, h.brings_of_stands hstands] at heither
    exact absurd heither (by simp)
  · simp [AdmissionLedger.strandsAt, hstood]

/-- A stream that is interned no more is none of the offer-set's. -/
theorem uninterned_of_absent (h : Tracks l earlier l' pending stranded) {stream : StreamIdentity}
    (habsent : l'.streams.contains stream = false) : uninterned pending stream = true := by
  refine List.all_eq_true.mpr fun offer hoffer => ?_
  split
  · rename_i fresh hfresh
    rw [Bool.not_eq_true', Bool.eq_false_iff]
    intro hsame
    have hcontains := (h.offered offer hoffer fresh hfresh).1
    rw [← ContentMap.contains_congr _ hsame, habsent] at hcontains
    exact absurd hcontains (by simp)
  · rfl

/-- What was interned before the export is interned. -/
theorem contains_of_contains (h : Tracks l earlier l' pending stranded) {stream : StreamIdentity}
    (hcontains : l.streams.contains stream = true) : l'.streams.contains stream = true := by
  obtain ⟨added, hadded, -⟩ := h.added
  obtain ⟨p, hp, hsame⟩ := ContentMap.contains_iff.mp hcontains
  refine ContentMap.contains_iff.mpr ⟨p, ?_, hsame⟩
  rw [hadded]
  exact List.mem_append_left _ hp

/-- A collapse onto a point of an equal stream, or a conflict with one: where its stream was not
interned, the point stood before the export and the delivery strands an intern. -/
theorem beside (h : Tracks l earlier l' pending stranded) (hpasses : l.passes d = true)
    {first : PointIdentity} {entity : EntityId}
    (hstands : l'.points.getPair? d.identity = some (first, entity))
    (hdescribed : (first.stream == d.stream) = true) :
    Tracks l (d :: earlier) (l'.intern d.stream).1 pending (stranded || l.strandsAt earlier d) := by
  cases hcontains : l'.streams.contains d.stream with
  | true =>
    rw [AdmissionLedger.intern_eq_of_contains hcontains]
    refine h.idle (fun key _ => standing_absent hstands key) (fun stream _ _ hsame => ?_) ?_
    · rw [← h.interned, ← ContentMap.contains_congr _ hsame]
      exact hcontains
    · rw [AdmissionLedger.strandsAt, ← h.interned, hcontains, Bool.not_true, Bool.and_false]
  | false =>
    have hlater : l.points.getPair? d.identity = some (first, entity) := by
      rcases h.backed _ _ _ hstands with hl | hbacked
      · exact hl
      · rw [ContentMap.contains_congr _ hdescribed, hcontains] at hbacked
        exact absurd hbacked (by simp)
    have hstood : l.standsUnder d = true := by
      unfold AdmissionLedger.standsUnder
      rw [hlater]
      exact hdescribed
    have hstrands : l.strandsAt earlier d = true := by
      rw [AdmissionLedger.strandsAt, ← h.interned, hcontains, hpasses, hstood]
      rfl
    obtain ⟨-, -, hpoints, -, hlimits, -⟩ := l'.intern_frame d.stream
    have hstreams := AdmissionLedger.entries_intern_of_not_contains hcontains
    obtain ⟨added, hadded, -⟩ := h.added
    rw [hstrands, Bool.or_true]
    refine ⟨hlimits.trans h.limits, hpoints ▸ h.stood, ?_, ?_, ?_,
      ⟨added ++ [(d.stream, ())], by rw [hstreams, hadded, List.append_assoc], ?_⟩, ?_⟩
    · intro key
      rw [hpoints, h.absent_cons d key]
      exact ⟨fun hnone => ⟨hnone, fun _ => standing_absent hstands key hnone⟩, And.left⟩
    · intro key first' entity' hfound
      rw [hpoints] at hfound
      refine (h.backed key first' entity' hfound).imp_right fun hbacked => ?_
      rw [AdmissionLedger.contains_intern, hbacked, Bool.true_or]
    · intro stream
      rw [AdmissionLedger.contains_intern, h.interned, AdmissionLedger.internedAfter, hpasses,
        hstood, Bool.true_or, Bool.true_and, Bool.true_and]
    · have hmissing := h.uninterned_of_absent hcontains
      constructor
      · intro hfalse
        exact absurd hfalse (by simp)
      · intro hall
        have hmem := hall (d.stream, ()) (List.mem_append_right _ List.mem_cons_self)
        rw [hmissing] at hmem
        exact absurd hmem (by simp)
    · intro offer hoffer stream hstream
      obtain ⟨hnow, hbefore⟩ := h.offered offer hoffer stream hstream
      exact ⟨by rw [AdmissionLedger.contains_intern, hnow, Bool.true_or], hbefore⟩

/-- A fresh intern that travels in the offer-set strands nothing. -/
theorem added_offered (h : Tracks l earlier l' pending stranded) (offer : PendingOffer)
    (hoffer : offer.freshInternStream =
      if (l'.intern d.stream).2.2 then some (l'.intern d.stream).2.1 else none) :
    ∃ added, (l'.intern d.stream).1.streams.entries = l.streams.entries ++ added ∧
      (stranded = false ↔ ∀ p ∈ added, uninterned (pending ++ [offer]) p.1 = false) := by
  obtain ⟨added, hadded, hstranded⟩ := h.added
  rcases l'.intern_cases d.stream with ⟨standing, -, heq⟩ | ⟨hfresh, heq⟩
  · rw [heq] at hoffer
    refine ⟨added, ?_, hstranded.trans ?_⟩
    · rw [heq]
      exact hadded
    · have hnothing : ∀ stream, uninterned [offer] stream = true := fun stream => by
        simp [uninterned, hoffer]
      simp only [uninterned_append, hnothing, Bool.and_true]
  · rw [heq] at hoffer
    have hsnoc : l'.streams.entries ++ [(d.stream, ())] =
        l.streams.entries ++ (added ++ [(d.stream, ())]) := by
      rw [hadded, List.append_assoc]
    refine ⟨added ++ [(d.stream, ())], ?_, hstranded.trans ?_⟩
    · rw [heq, ← hsnoc]
      exact ContentMap.entries_insert_of_none hfresh
    · have hone : ∀ stream, uninterned [offer] stream = !(stream == d.stream) := fun stream => by
        simp [uninterned, hoffer]
      simp only [uninterned_append, hone, List.mem_append, List.mem_singleton]
      constructor
      · rintro hall p (hp | rfl)
        · rw [hall p hp, Bool.false_and]
        · simp
      · intro hall p hp
        have hother : (p.1 == d.stream) = false := by
          refine ContentMap.getPair?_eq_none_iff.mp hfresh p ?_
          rw [hadded]
          exact List.mem_append_right _ hp
        simpa [hother] using hall p (Or.inl hp)

/-- The streams the offer-set interned are interned now and were not before the export. -/
theorem interned_offered (h : Tracks l earlier l' pending stranded) (offer : PendingOffer)
    (hoffer : offer.freshInternStream =
      if (l'.intern d.stream).2.2 then some (l'.intern d.stream).2.1 else none) :
    ∀ o ∈ pending ++ [offer], ∀ stream, o.freshInternStream = some stream →
      (l'.intern d.stream).1.streams.contains stream = true ∧
        l.streams.contains stream = false := by
  intro o ho stream hfreshStream
  rw [AdmissionLedger.contains_intern, Bool.or_eq_true]
  rcases List.mem_append.mp ho with ho | ho
  · obtain ⟨hnow, hbefore⟩ := h.offered o ho stream hfreshStream
    exact ⟨Or.inl hnow, hbefore⟩
  · obtain rfl := List.mem_singleton.mp ho
    rw [hoffer] at hfreshStream
    rcases l'.intern_cases d.stream with ⟨standing, -, heq⟩ | ⟨hfresh, heq⟩
    · rw [heq] at hfreshStream
      exact absurd hfreshStream (by simp)
    · rw [heq] at hfreshStream
      obtain rfl := Option.some.inj hfreshStream
      refine ⟨Or.inr BEq.rfl, ?_⟩
      rw [Bool.eq_false_iff]
      intro hbefore
      have hnow := h.contains_of_contains hbefore
      rw [ContentMap.contains, hfresh] at hnow
      exact absurd hnow (by simp)

/-- A point that enters: its intern travels in the offer-set. -/
theorem entered (h : Tracks l earlier l' pending stranded) (hpasses : l.passes d = true)
    {key : PointIdentity} (hkey : (key == d.identity) = true)
    (hstream : key.stream = (l'.intern d.stream).2.1)
    (habsent : l'.points.getPair? d.identity = none) (offer : PendingOffer)
    (hoffer : offer.freshInternStream =
      if (l'.intern d.stream).2.2 then some (l'.intern d.stream).2.1 else none) :
    Tracks l (d :: earlier) ((l'.intern d.stream).1.enterPoint key) (pending ++ [offer])
      (stranded || l.strandsAt earlier d) := by
  obtain ⟨-, -, hpoints, -, hlimits, -⟩ := l'.intern_frame d.stream
  have hstood : l.standsUnder d = false := by
    unfold AdmissionLedger.standsUnder
    rw [((h.absent d.identity).mp habsent).1]
  have hstrands : l.strandsAt earlier d = false := by
    rw [AdmissionLedger.strandsAt, hstood, Bool.and_false, Bool.false_and]
  have hentered : ((l'.intern d.stream).1.enterPoint key).points =
      l'.points.insert key (.assigned (l'.intern d.stream).1.nextAssigned) := by
    rw [← hpoints]
    rfl
  have hentries : ((l'.intern d.stream).1.enterPoint key).points.entries =
      l'.points.entries ++ [(key, .assigned (l'.intern d.stream).1.nextAssigned)] := by
    rw [hentered]
    exact ContentMap.entries_insert_of_none ((ContentMap.getPair?_congr _ hkey).trans habsent)
  have hkeyStream : (key.stream == d.stream) = true := by
    rw [hstream]
    exact l'.intern_beq d.stream
  rw [hstrands, Bool.or_false]
  refine ⟨hlimits.trans h.limits, ?_, ?_, ?_, ?_, h.added_offered offer hoffer,
    h.interned_offered offer hoffer⟩
  · intro k entry hentry
    obtain ⟨hmem, hsame⟩ := ContentMap.getPair?_eq_some_iff.mp (h.stood k entry hentry)
    refine ContentMap.getPair?_eq_some_iff.mpr ⟨?_, hsame⟩
    rw [hentries]
    exact List.mem_append_left _ hmem
  · intro k
    have hcongr : (key == k) = (d.identity == k) := BEq.congr_left hkey
    rw [hentered, ContentMap.getPair?_insert_eq_none_iff, h.absent_cons d k, hcongr]
    exact and_congr_right fun _ => ⟨fun hnew _ => hnew, fun hnew => hnew hpasses⟩
  · intro k first entity hfound
    change _ ∨ (l'.intern d.stream).1.streams.contains first.stream = true
    rw [AdmissionLedger.contains_intern, Bool.or_eq_true]
    obtain ⟨hmem, hsame⟩ := ContentMap.getPair?_eq_some_iff.mp hfound
    rw [hentries] at hmem
    rcases List.mem_append.mp hmem with hmem | hmem
    · rcases h.backed k first entity (ContentMap.getPair?_eq_some_iff.mpr ⟨hmem, hsame⟩)
        with hl | hbacked
      · exact Or.inl hl
      · exact Or.inr (Or.inl hbacked)
    · obtain ⟨rfl, -⟩ := Prod.mk.inj (List.mem_singleton.mp hmem)
      exact Or.inr (Or.inr (BEq.symm hkeyStream))
  · intro stream
    change (l'.intern d.stream).1.streams.contains stream = _
    rw [AdmissionLedger.contains_intern, h.interned, AdmissionLedger.internedAfter, hpasses,
      h.brings_of_absent habsent, Bool.or_true, Bool.true_and, Bool.true_and]

end Tracks

/-! ## An export's points, one after the other -/

namespace Tracks

variable {l : AdmissionLedger} {earlier : List PointDelivery} {stranded : Bool} {x : Export}

/-- **One delivery, every exit of it.** -/
theorem admitPoint (h : Tracks l earlier x.ledger x.pending stranded) (now : AdmissionTime)
    (stream : StreamIdentity) (point : MetricPoint) :
    let d : PointDelivery := ⟨stream, point⟩
    let x' := x.admitPoint now stream (.ok point)
    Tracks l (d :: earlier) x'.ledger x'.pending (stranded || l.strandsAt earlier d) := by
  intro d x'
  have hpasses := h.passes_eq d
  have hidentity : (d.identity == AdmissionLedger.identityOf stream x.nextAddr point) = true :=
    (PointIdentity.beq_iff _ _).mpr rfl
  have hlookup : ∀ {v}, x.ledger.points.getPair?
      (AdmissionLedger.identityOf stream x.nextAddr point) = v →
      x.ledger.points.getPair? d.identity = v := fun hv =>
    (ContentMap.getPair?_congr _ hidentity).trans hv
  generalize hr : x.ledger.admitMetricPoint x.nextAddr stream point = r
  have hexit := x.ledger.admitMetricPoint_exit x.nextAddr stream point
  rw [hr] at hexit
  cases hexit with
  | refused outcome gate =>
    have hfails : l.passes d = false := by
      rw [← hpasses, Bool.eq_false_iff]
      intro hp
      rw [AdmissionLedger.passes_iff] at hp
      exact absurd (gate.symm.trans hp) (by simp)
    have hx : x'.ledger = x.ledger ∧ x'.pending = x.pending := by
      simp only [x', Export.admitPoint, hr, PointAdmission.bare]
      exact ⟨rfl, rfl⟩
    rw [hx.1, hx.2]
    exact h.refused hfails
  | collapsed first standing gate stands described same =>
    have hp : l.passes d = true := hpasses ▸ AdmissionLedger.passes_iff.mpr gate
    have hx : x'.pending = x.pending := by simp [x', Export.admitPoint, hr, Export.note]
    have hl : x'.ledger = { (x.ledger.intern stream).1 with anomalies :=
        (x.ledger.anomalies.countMismatch (x.ledger.intern stream).2.1.resource.schemaUrl
          stream.resource.schemaUrl) } := by simp [x', Export.admitPoint, hr, Export.note]
    rw [hx, hl]
    exact (h.beside hp (hlookup stands) described).of_eq rfl rfl rfl
  | conflict first standing gate stands described differs =>
    have hp : l.passes d = true := hpasses ▸ AdmissionLedger.passes_iff.mpr gate
    have hx : x'.pending = x.pending := by simp [x', Export.admitPoint, hr, Export.note]
    have hl : x'.ledger = { (x.ledger.intern stream).1 with anomalies :=
        x.ledger.anomalies.countPointConflict } := by simp [x', Export.admitPoint, hr, Export.note]
    rw [hx, hl]
    exact (h.beside hp (hlookup stands) described).of_eq rfl rfl rfl
  | redescribed first standing gate stands described =>
    have hx : x'.pending = x.pending := by
      simp [x', Export.admitPoint, hr, PointAdmission.bare, Export.note]
    have hl : x'.ledger = { x.ledger with anomalies := x.ledger.anomalies.countPointConflict } := by
      simp [x', Export.admitPoint, hr, PointAdmission.bare, Export.note]
    rw [hx, hl]
    exact (h.redescribed (hlookup stands) described).of_eq rfl rfl rfl
  | entered gate absent =>
    have hp : l.passes d = true := hpasses ▸ AdmissionLedger.passes_iff.mpr gate
    have hkey : (PointIdentity.ofInterned (x.ledger.intern stream).2.1 ⟨x.nextAddr, point⟩ ==
        d.identity) = true :=
      BEq.trans (PointIdentity.ofInterned_beq (x.ledger.intern_beq stream) _) (BEq.symm hidentity)
    have hentered := h.entered hp hkey rfl (hlookup absent) ⟨⟨.assigned
      x.ledger.nextAssigned, now, .point (x.ledger.intern stream).2.1 ⟨x.nextAddr, point⟩⟩,
      if (x.ledger.intern stream).2.2 then some (x.ledger.intern stream).2.1 else none⟩ rfl
    simpa [x', Export.admitPoint, hr, Export.note, Export.defer] using hentered

theorem strands_append (l : AdmissionLedger) : ∀ (first later earlier : List PointDelivery),
    l.strands earlier (first ++ later) =
      (l.strands earlier first || l.strands (first.reverse ++ earlier) later) := by
  intro first
  induction first with
  | nil => intro later earlier; simp [AdmissionLedger.strands]
  | cons d first ih =>
    intro later earlier
    simp only [List.cons_append, AdmissionLedger.strands, ih, List.reverse_cons,
      List.append_assoc, List.nil_append, Bool.or_assoc]

/-- A metric's points. -/
theorem admitMetric (h : Tracks l earlier x.ledger x.pending stranded) (now : AdmissionTime)
    (metric : WireMetric) :
    Tracks l (metric.deliveries.reverse ++ earlier) (x.admitMetric now metric).ledger
      (x.admitMetric now metric).pending (stranded || l.strands earlier metric.deliveries) := by
  unfold Export.admitMetric WireMetric.deliveries
  cases metric.identity with
  | error reason =>
    dsimp only
    have hnoted := @Export.foldl_keeps (Except RecordRejection MetricPoint)
      (fun x _ => x.note (.rejected reason))
      (fun x => Tracks l earlier x.ledger x.pending stranded) (fun x r hx => hx) metric.points x h
    simpa [AdmissionLedger.strands] using hnoted
  | ok stream =>
    dsimp only
    generalize metric.points = points
    induction points generalizing x earlier stranded with
    | nil => simpa [AdmissionLedger.strands] using h
    | cons translated points ih =>
      cases translated with
      | error reason =>
        have hnoted : Tracks l earlier (x.note (.rejected reason)).ledger
            (x.note (.rejected reason)).pending stranded := h
        exact ih hnoted
      | ok point =>
        have hrest := ih (h.admitPoint now stream point)
        simpa [AdmissionLedger.strands, Bool.or_assoc] using hrest

/-- A request's metrics. -/
theorem admitMetrics (now : AdmissionTime) (request : List WireMetric) :
    ∀ {earlier : List PointDelivery} {stranded : Bool} {x : Export},
      Tracks l earlier x.ledger x.pending stranded →
      Tracks l ((request.flatMap WireMetric.deliveries).reverse ++ earlier)
        (request.foldl (Export.admitMetric now) x).ledger
        (request.foldl (Export.admitMetric now) x).pending
        (stranded || l.strands earlier (request.flatMap WireMetric.deliveries)) := by
  induction request with
  | nil => intro earlier stranded x h; simpa [AdmissionLedger.strands] using h
  | cons metric request ih =>
    intro earlier stranded x h
    have hrest := ih (h.admitMetric now metric)
    simpa [strands_append, Bool.or_assoc] using hrest

/-- What the undo leaves of the interned streams: those that were, and what was stranded. -/
theorem entries_undo {l' : AdmissionLedger} {pending : List PendingOffer}
    (h : Tracks l earlier l' pending stranded) (hl' : l'.Consistent) :
    ∃ added, l'.streams.entries = l.streams.entries ++ added ∧
      (stranded = false ↔ ∀ p ∈ added, uninterned pending p.1 = false) ∧
      (Pipeline.undoExport pending l').streams.entries =
        l.streams.entries ++ added.filter (fun p => uninterned pending p.1) := by
  obtain ⟨-, -, -, hstreams⟩ := Pipeline.undoExport_entries pending hl'
  obtain ⟨added, hadded, hstranded⟩ := h.added
  have hkept : ∀ p ∈ l.streams.entries, uninterned pending p.1 = true := by
    intro p hp
    refine List.all_eq_true.mpr fun offer hoffer => ?_
    split
    · rename_i fresh hfresh
      have hbefore := (h.offered offer hoffer fresh hfresh).2
      rw [ContentMap.contains_eq_false_iff.mp hbefore p hp]
      rfl
    · rfl
  refine ⟨added, hadded, hstranded, ?_⟩
  rw [hstreams, hadded, List.filter_append, List.filter_eq_self.mpr hkept]

/-- **The undo restores the interned streams exactly where nothing is stranded.** -/
theorem restored_iff {l' : AdmissionLedger} {pending : List PendingOffer}
    (h : Tracks l earlier l' pending stranded) (hl' : l'.Consistent) :
    (Pipeline.undoExport pending l').streams = l.streams ↔ stranded = false := by
  obtain ⟨added, -, hstranded, hentries⟩ := h.entries_undo hl'
  rw [hstranded]
  constructor
  · intro heq p hp
    rw [heq] at hentries
    have hnil := List.self_eq_append_right.mp hentries
    simpa using List.filter_eq_nil_iff.mp hnil p hp
  · intro hall
    refine ContentMap.ext ?_
    rw [hentries, List.filter_eq_nil_iff.mpr fun p hp => by simp [hall p hp], List.append_nil]

end Tracks

/-! ## The law -/

namespace Pipeline

/-- An export's admissions, whatever its signal. -/
theorem admits_admitCall {p : Pipeline} {c : ExportCall} {x : Export}
    (h : p.admitCall c = .ok x) : Relation.ReflTransGen Admits p.openExport x := by
  cases c with
  | spans now payload => exact admits_admitSpans h
  | logs now payload => exact admits_admitLogs h
  | metrics now payload => exact admits_admitMetrics h

/-- A span or a log interns nothing. -/
theorem tracks_of_streams {l : AdmissionLedger} {x : Export} (hpending : ∀ offer ∈ x.pending,
      offer.freshInternStream = none) (hstreams : x.ledger.streams = l.streams)
    (hl' : x.ledger.Consistent) :
    (undoExport x.pending x.ledger).streams = l.streams := by
  obtain ⟨-, -, -, hentries⟩ := undoExport_entries x.pending hl'
  refine ContentMap.ext ?_
  rw [hentries, ← hstreams]
  refine List.filter_eq_self.mpr fun p _ => List.all_eq_true.mpr fun offer hoffer => ?_
  rw [hpending offer hoffer]

end Pipeline

/-- A record that is no point leaves the interned streams, and its offer names none. -/
def StreamsIdle (l : AdmissionLedger) (x : Export) : Prop :=
  (∀ offer ∈ x.pending, offer.freshInternStream = none) ∧ x.ledger.streams = l.streams

theorem streamsIdle_admitSpan {l : AdmissionLedger} {x : Export} (h : StreamsIdle l x)
    (now : AdmissionTime) (translated : Except RecordRejection Span) :
    StreamsIdle l (x.admitSpan now translated) := by
  cases translated with
  | error reason => exact h
  | ok span =>
    generalize hr : x.ledger.admitSpan x.nextAddr span = r
    have hexit := x.ledger.admitSpan_exit x.nextAddr span
    rw [hr] at hexit
    simp only [Export.admitSpan, hr]
    cases hexit with
    | rejected rejection gate => exact h
    | unnamed gate natural =>
      refine ⟨fun offer hoffer => ?_, h.2⟩
      rcases List.mem_append.mp hoffer with hoffer | hoffer
      · exact h.1 offer hoffer
      · rw [List.mem_singleton.mp hoffer]
    | collapsed key standing first gate natural stands same => exact h
    | conflict key standing first gate natural stands differs => exact h
    | entered key gate natural absent =>
      refine ⟨fun offer hoffer => ?_, h.2⟩
      rcases List.mem_append.mp hoffer with hoffer | hoffer
      · exact h.1 offer hoffer
      · rw [List.mem_singleton.mp hoffer]

theorem streamsIdle_admitLog {l : AdmissionLedger} {x : Export} (h : StreamsIdle l x)
    (now : AdmissionTime) (translated : Except RecordRejection LogRecord) :
    StreamsIdle l (x.admitLog now translated) := by
  cases translated with
  | error reason => exact h
  | ok record =>
    rcases x.ledger.admitLogRecord_cases record with ⟨hledger, hnot⟩ | heq
    · rw [StreamsIdle, Export.ledger_admitLog, Export.pending_admitLog now hnot, hledger]
      exact h
    · simp only [Export.admitLog, heq]
      refine ⟨fun offer hoffer => ?_, h.2⟩
      rcases List.mem_append.mp hoffer with hoffer | hoffer
      · exact h.1 offer hoffer
      · rw [List.mem_singleton.mp hoffer]

namespace Pipeline

/-- The undo of an export restores the interned streams exactly where it strands none. -/
theorem streams_undo_iff {p : Pipeline} (hp : p.ledger.Consistent) {c : ExportCall} {x : Export}
    (hx : p.admitCall c = .ok x) :
    (undoExport x.pending x.ledger).streams = p.ledger.streams ↔
      p.ledger.strands [] c.deliveries = false := by
  have hl' := consistent_admitCall hp hx
  have hopen : StreamsIdle p.ledger p.openExport :=
    ⟨fun offer hoffer => absurd hoffer (by simp [openExport]), rfl⟩
  cases c with
  | spans now payload =>
    obtain ⟨spans, -, rfl⟩ := admitExport_eq_ok hx
    have hidle := @Export.foldl_keeps _ _ (StreamsIdle p.ledger)
      (fun x r hx => streamsIdle_admitSpan hx now r) spans _ hopen
    exact ⟨fun _ => rfl, fun _ => tracks_of_streams hidle.1 hidle.2 hl'⟩
  | logs now payload =>
    obtain ⟨logs, -, rfl⟩ := admitExport_eq_ok hx
    have hidle := @Export.foldl_keeps _ _ (StreamsIdle p.ledger)
      (fun x r hx => streamsIdle_admitLog hx now r) logs _ hopen
    exact ⟨fun _ => rfl, fun _ => tracks_of_streams hidle.1 hidle.2 hl'⟩
  | metrics now payload =>
    obtain ⟨request, hrequest, rfl⟩ := admitExport_eq_ok hx
    have htracks := @Tracks.admitMetrics p.ledger now request [] false p.openExport
      (Tracks.start p.ledger)
    rw [Bool.false_or] at htracks
    rw [htracks.restored_iff hl', ExportCall.deliveries, hrequest]

/-- Saturation is decided at the hand-off, and nowhere before it. -/
theorem admitExport_ne_saturated {R : Type} {p : Pipeline} {payload : Payload R}
    {count : R → Gate} {admitRecords : Export → R → Export} {queue : String}
    {ceiling attempted : Nat} :
    p.admitExport payload count admitRecords ≠ .error (.queueSaturated queue ceiling attempted) := by
  unfold admitExport gate
  intro h
  split at h
  · rename_i signal hgate
    obtain rfl := Except.error.inj h
    split at hgate
    · exact absurd hgate (by simp)
    · split at hgate
      · exact absurd hgate (by simp)
      · exact absurd hgate (by simp)
  · split at h
    · exact absurd h (by simp)
    · split at h
      · exact absurd h (by simp)
      · exact absurd h (by simp)

/-- A saturated export was admitted whole and did not fit; it was undone. -/
theorem saturated_cases {p : Pipeline} {c : ExportCall} {queue : String} {ceiling attempted : Nat}
    (h : (p.call c).2 = .error (.queueSaturated queue ceiling attempted)) :
    ∃ x, p.admitCall c = .ok x ∧ (p.call c).1.ledger = undoExport x.pending x.ledger ∧
      (p.call c).1.sink = p.sink := by
  rw [call_eq] at h ⊢
  cases hadmitted : p.admitCall c with
  | error signal =>
    rw [hadmitted] at h
    obtain rfl : signal = .queueSaturated queue ceiling attempted := Except.error.inj h
    cases c with
    | spans now payload => exact absurd hadmitted admitExport_ne_saturated
    | logs now payload => exact absurd hadmitted admitExport_ne_saturated
    | metrics now payload => exact absurd hadmitted admitExport_ne_saturated
  | ok x =>
    rw [hadmitted] at h
    refine ⟨x, rfl, ?_⟩
    simp only [ingest, offerExport] at h ⊢
    split at h
    · exact absurd h (by simp)
    · rename_i hfits
      rw [if_neg hfits]
      exact ⟨rfl, rfl⟩

/-- The queue is unchanged, and the ledger's maps and interned streams are what they were. -/
def Restored (p p' : Pipeline) : Prop :=
  p'.sink = p.sink ∧ p'.ledger.spans = p.ledger.spans ∧ p'.ledger.points = p.ledger.points ∧
    p'.ledger.assignedPoints = p.ledger.assignedPoints ∧ p'.ledger.streams = p.ledger.streams

/-- **What a saturated export leaves.**  From every reachable pipeline, an export that is refused
for saturation leaves the queue and the ledger as they were exactly when none of its points interns
a stream beside a standing point of it: every entry, and every other intern, is undone. -/
theorem saturated_restores_iff (limits : BudgetLimits) (payloadCeiling queueCeiling : Nat)
    (ops : List PipelineOp) (c : ExportCall) (queue : String) (ceiling attempted : Nat) :
    let p := (new limits payloadCeiling queueCeiling).run ops
    (p.call c).2 = .error (.queueSaturated queue ceiling attempted) →
    (p.Restored (p.call c).1 ↔ p.ledger.strands [] c.deliveries = false) := by
  intro p hsaturated
  have hp : p.ledger.Consistent := consistent_run ops (AdmissionLedger.Consistent.new limits)
  obtain ⟨x, hx, hledger, hsink⟩ := saturated_cases hsaturated
  have hextends := Extends.chain (Extends.start hp) (admits_admitCall hx)
  obtain ⟨hspans, hpoints, hindex⟩ := hextends.restored hp (consistent_admitCall hp hx)
  rw [Restored, hsink, hledger, ← streams_undo_iff hp hx]
  exact ⟨fun h => h.2.2.2.2, fun h => ⟨rfl, hspans, hpoints, hindex, h⟩⟩

/-- Budgets without attribute sets, and a queue of the 3072 bytes their largest legal record is
bounded by. -/
def smallest : Pipeline := new ⟨0, 0, 4096, 0, 0, 0, 8, 10000, 10000, 0⟩ 4194304 3072

/-- A point of the stream "m". -/
def firstPoint : PipelineOp :=
  .ingest (.metrics ⟨0⟩ ⟨1, .ok [⟨.ok (.bare "m" none), [.ok (.bare 0)]⟩]⟩)

/-- The same point again, and twenty of the stream "n" the queue has no room for. -/
def crowdedCall : ExportCall :=
  .metrics ⟨1⟩ ⟨1, .ok [⟨.ok (.bare "m" none), [.ok (.bare 0)]⟩,
    ⟨.ok (.bare "n" none), (List.range 20).map fun n => .ok (.bare n)⟩]⟩

theorem saturated_restores_interned :
    (smallest.run [firstPoint]).Restored ((smallest.run [firstPoint]).call crowdedCall).1 :=
  (saturated_restores_iff ⟨0, 0, 4096, 0, 0, 0, 8, 10000, 10000, 0⟩ 4194304 3072 [firstPoint]
    crowdedCall pipelineQueueName 3072 3160 (by decide +kernel)).mpr (by decide +kernel)

/-- A saturated export can leave a stream interned: a point stands, its stream is released, and the
export delivers it again beside more than the queue has room for. -/
theorem not_saturated_restores :
    ¬ ∀ limits payloadCeiling queueCeiling ops c queue ceiling attempted,
      (((new limits payloadCeiling queueCeiling).run ops).call c).2 =
        .error (.queueSaturated queue ceiling attempted) →
      ((new limits payloadCeiling queueCeiling).run ops).Restored
        (((new limits payloadCeiling queueCeiling).run ops).call c).1 := by
  intro h
  have hrestored := h ⟨0, 0, 4096, 0, 0, 0, 8, 10000, 10000, 0⟩ 4194304 3072
    [firstPoint, .releaseStream (.bare "m" none)] crowdedCall pipelineQueueName 3072 3160
    (by decide +kernel)
  exact absurd (congrArg ContentMap.length hrestored.2.2.2.2) (by decide +kernel)

end Pipeline

end RuntimeTrail
