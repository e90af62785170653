import RuntimeTrail.Ingestion.Interns

/-!
# What stands behind an export's deliveries

What the ledger holds once some of an export's records were admitted, read off
the ledger before the export: an identity stands under what stood before, or else
under the first record that brought it.

* **the records** — `LedgerDelivery`, and `Pipeline.delivered_induct`, the
  induction over an export's admissions;
* **what stands** — `standingSpan`, `standingPoint` and `handle`;
* **the account** — `Follows`, kept by every delivery whatever it comes to
  (`Follows.span`, `Follows.point`).
-/

namespace RuntimeTrail

open Library

/-! ## The records of an export -/

/-- A record as an export delivers it to the ledger. -/
inductive LedgerDelivery where
  | span (span : Span)
  | log (record : LogRecord)
  | point (delivery : PointDelivery)

/-- The translated records of an export of one kind. -/
def deliveredAs {R : Type} (kind : R → LedgerDelivery) (records : List (Except RecordRejection R)) :
    List LedgerDelivery :=
  records.filterMap fun
    | .ok record => some (kind record)
    | .error _ => none

/-- What an export brings to the ledger, in document order. -/
def ExportCall.delivered : ExportCall → List LedgerDelivery
  | .spans _ payload =>
    match payload.decoded with
    | .ok records => deliveredAs .span records
    | .error _ => []
  | .logs _ payload =>
    match payload.decoded with
    | .ok records => deliveredAs .log records
    | .error _ => []
  | .metrics now payload => (ExportCall.metrics now payload).deliveries.map .point

namespace Export

/-- One record after the other, of one kind: an account of what was delivered, latest first, that
every record keeps. -/
theorem deliveredAs_induct {R : Type} {A : List LedgerDelivery → Export → Prop}
    {kind : R → LedgerDelivery} {f : Export → Except RecordRejection R → Export}
    (refused : ∀ earlier x reason, A earlier x → A earlier (f x (.error reason)))
    (taken : ∀ earlier x record, A earlier x → A (kind record :: earlier) (f x (.ok record)))
    (records : List (Except RecordRejection R)) :
    ∀ earlier x, A earlier x →
      A ((deliveredAs kind records).reverse ++ earlier) (records.foldl f x) := by
  induction records with
  | nil => exact fun earlier x h => h
  | cons translated records ih =>
    intro earlier x h
    cases translated with
    | error reason => exact ih _ _ (refused _ _ _ h)
    | ok record =>
      have hrest := ih _ _ (taken _ _ record h)
      rw [List.foldl_cons]
      simpa [deliveredAs] using hrest

/-- The points of a request. -/
theorem metrics_induct {A : List LedgerDelivery → Export → Prop} {now : AdmissionTime}
    (noted : ∀ earlier x outcome, A earlier x → A earlier (x.note outcome))
    (point : ∀ earlier x stream point, A earlier x →
      A (.point ⟨stream, point⟩ :: earlier) (x.admitPoint now stream (.ok point)))
    (request : List WireMetric) :
    ∀ earlier x, A earlier x →
      A (((request.flatMap WireMetric.deliveries).map .point).reverse ++ earlier)
        (request.foldl (Export.admitMetric now) x) := by
  induction request with
  | nil => exact fun earlier x h => h
  | cons metric request ih =>
    intro earlier x h
    have hmetric : A ((metric.deliveries.map .point).reverse ++ earlier)
        (x.admitMetric now metric) := by
      unfold admitMetric WireMetric.deliveries
      cases hidentity : metric.identity with
      | error reason =>
        exact @foldl_keeps _ (fun x _ => x.note (.rejected reason)) (A earlier)
          (fun x _ hx => noted _ _ _ hx) metric.points x h
      | ok stream =>
        have hpoints := @deliveredAs_induct _ A (fun p => .point ⟨stream, p⟩)
          (Export.admitPoint now stream) (fun _ _ _ hx => noted _ _ _ hx)
          (fun _ _ p hx => point _ _ stream p hx) metric.points earlier x h
        have hsame : metric.deliveries.map LedgerDelivery.point =
            deliveredAs (fun p => .point ⟨stream, p⟩) metric.points := by
          rw [WireMetric.deliveries, hidentity, deliveredAs]
          dsimp only
          rw [List.map_filterMap]
          refine List.filterMap_congr fun translated _ => ?_
          cases translated <;> rfl
        rw [← hsame, WireMetric.deliveries, hidentity] at hpoints
        exact hpoints
    have hrest := ih _ _ hmetric
    simpa using hrest

end Export

/-- **The induction over an export.**  An account of what was delivered, latest first, that holds of
an open export and that every record's admission keeps holds of an admitted one. -/
theorem Pipeline.delivered_induct {A : List LedgerDelivery → Export → Prop}
    (noted : ∀ earlier x outcome, A earlier x → A earlier (x.note outcome))
    (span : ∀ earlier x now span, A earlier x →
      A (.span span :: earlier) (x.admitSpan now (.ok span)))
    (log : ∀ earlier x now record, A earlier x →
      A (.log record :: earlier) (x.admitLog now (.ok record)))
    (point : ∀ earlier x now stream point, A earlier x →
      A (.point ⟨stream, point⟩ :: earlier) (x.admitPoint now stream (.ok point)))
    {p : Pipeline} (hopen : A [] p.openExport) {c : ExportCall} {x : Export}
    (h : p.admitCall c = .ok x) : A c.delivered.reverse x := by
  cases c with
  | spans now payload =>
    obtain ⟨records, hrecords, rfl⟩ := admitExport_eq_ok h
    have hall := @Export.deliveredAs_induct _ A .span (Export.admitSpan now)
      (fun _ _ _ hx => noted _ _ _ hx) (fun _ _ r hx => span _ _ now r hx) records _ _ hopen
    rw [ExportCall.delivered, hrecords]
    simpa using hall
  | logs now payload =>
    obtain ⟨records, hrecords, rfl⟩ := admitExport_eq_ok h
    have hall := @Export.deliveredAs_induct _ A .log (Export.admitLog now)
      (fun _ _ _ hx => noted _ _ _ hx) (fun _ _ r hx => log _ _ now r hx) records _ _ hopen
    rw [ExportCall.delivered, hrecords]
    simpa using hall
  | metrics now payload =>
    obtain ⟨request, hrequest, rfl⟩ := admitExport_eq_ok h
    have hall := Export.metrics_induct noted (fun _ _ stream p hx => point _ _ now stream p hx)
      request _ _ hopen
    rw [ExportCall.delivered, ExportCall.deliveries, hrequest]
    simpa using hall

/-! ## Read off the ledger before the export -/

namespace AdmissionLedger

/-- The span under a natural identity once the earlier records, latest first, were delivered. -/
def standingSpan (l : AdmissionLedger) :
    List LedgerDelivery → TraceId × SpanId → Option Span
  | [], key => (l.spans.get? key).map (·.2.val)
  | .span span :: earlier, key =>
    (l.standingSpan earlier key).or
      (if (checkSpan span l.limits).isOk && span.naturalIdentity == some key then some span else none)
  | _ :: earlier, key => l.standingSpan earlier key

/-- The point under an identity, and the stream it stands under. -/
def standingPoint (l : AdmissionLedger) : List LedgerDelivery → PointIdentity → Option PointDelivery
  | [], key => (l.points.getPair? key).map fun p => ⟨p.1.stream, p.1.point.val⟩
  | .point d :: earlier, key =>
    (l.standingPoint earlier key).or
      (if l.passes d && d.identity == key then some d else none)
  | _ :: earlier, key => l.standingPoint earlier key

/-- Whether a delivery finds a point under its identity that stands under another descriptor. -/
def redescribes (l : AdmissionLedger) (earlier : List LedgerDelivery) (d : PointDelivery) : Bool :=
  (l.standingPoint earlier d.identity).any fun first => !(first.stream == d.stream)

/-- The interned handle of a stream: the first one that was delivered, but for a conflict of
descriptors. -/
def handle (l : AdmissionLedger) : List LedgerDelivery → StreamIdentity → Option StreamIdentity
  | [], stream => (l.streams.getPair? stream).map (·.1)
  | .point d :: earlier, stream =>
    (l.handle earlier stream).or
      (if l.passes d && !l.redescribes earlier d && d.stream == stream then some d.stream else none)
  | _ :: earlier, stream => l.handle earlier stream

/-! ## The account -/

/-- A ledger holds what the deliveries of an export, latest first, left standing. -/
structure Follows (l : AdmissionLedger) (earlier : List LedgerDelivery) (l' : AdmissionLedger) :
    Prop where
  limits : l'.limits = l.limits
  spans : ∀ key, (l'.spans.get? key).map (·.2.val) = l.standingSpan earlier key
  points : ∀ key, Option.Rel
    (fun (p : PointIdentity × EntityId) (first : PointDelivery) =>
      (p.1.stream == first.stream) = true ∧ p.1.point.val = first.point)
    (l'.points.getPair? key) (l.standingPoint earlier key)
  streams : ∀ stream, (l'.streams.getPair? stream).map (·.1) = l.handle earlier stream

theorem Follows.start (l : AdmissionLedger) : l.Follows [] l where
  limits := rfl
  spans _ := rfl
  points key := by
    rw [standingPoint]
    cases l.points.getPair? key with
    | none => exact .none
    | some p => exact .some ⟨BEq.rfl, rfl⟩
  streams _ := rfl

namespace Follows

variable {l l' l'' : AdmissionLedger} {earlier : List LedgerDelivery}

/-- The counters are no part of it. -/
theorem of_eq (h : l.Follows earlier l') (hlimits : l''.limits = l'.limits)
    (hspans : l''.spans = l'.spans) (hpoints : l''.points = l'.points)
    (hstreams : l''.streams = l'.streams) : l.Follows earlier l'' :=
  ⟨hlimits.trans h.limits, hspans ▸ h.spans, hpoints ▸ h.points, hstreams ▸ h.streams⟩

theorem passes_eq (h : l.Follows earlier l') (d : PointDelivery) : l'.passes d = l.passes d := by
  rw [Bool.eq_iff_iff, passes_iff, passes_iff, gatePoint_eq_ok_iff, gatePoint_eq_ok_iff, h.limits]

/-- What stands in the ledger under a natural identity is what is accounted there. -/
theorem standingSpan_eq (h : l.Follows earlier l') {key : TraceId × SpanId} {standing : EntityId}
    {first : Arc Span} (hstands : l'.spans.get? key = some (standing, first)) :
    l.standingSpan earlier key = some first.val := by
  rw [← h.spans key, hstands]
  rfl

theorem standingSpan_eq_none (h : l.Follows earlier l') {key : TraceId × SpanId}
    (habsent : l'.spans.getPair? key = none) : l.standingSpan earlier key = none := by
  rw [← h.spans key, ContentMap.get?, habsent]
  rfl

/-- A span that enters nothing. -/
theorem span_idle (h : l.Follows earlier l') {span : Span} (hlimits : l''.limits = l'.limits)
    (hspans : l''.spans = l'.spans) (hpoints : l''.points = l'.points)
    (hstreams : l''.streams = l'.streams)
    (hkept : ∀ key, (checkSpan span l.limits).isOk && span.naturalIdentity == some key →
      (l.standingSpan earlier key).isSome) : l.Follows (.span span :: earlier) l'' where
  limits := hlimits.trans h.limits
  spans key := by
    rw [hspans, h.spans key, standingSpan]
    split
    · rename_i hbrings
      rw [Option.or_of_isSome (hkept key hbrings)]
    · rw [Option.or_none]
  points := hpoints ▸ h.points
  streams := hstreams ▸ h.streams

/-- **A span's admission**, every exit of it. -/
theorem span (h : l.Follows earlier l') (addr : Nat) (span : Span) :
    l.Follows (.span span :: earlier) (l'.admitSpan addr span).1 := by
  have hexit := l'.admitSpan_exit addr span
  generalize l'.admitSpan addr span = r at hexit ⊢
  have hgate : ∀ {verdict}, checkSpan span l'.limits = verdict →
      checkSpan span l.limits = verdict := fun hverdict => by rw [← h.limits, hverdict]
  cases hexit with
  | rejected rejection gate =>
    refine h.span_idle rfl rfl rfl rfl fun key hbrings => ?_
    simp [hgate gate, Except.isOk, Except.toBool] at hbrings
  | unnamed gate natural =>
    refine h.span_idle rfl rfl rfl rfl fun key hbrings => ?_
    simp [natural] at hbrings
  | collapsed key standing first gate natural stands same =>
    refine h.span_idle rfl rfl rfl rfl fun other hbrings => ?_
    obtain ⟨-, rfl⟩ : _ ∧ key = other := by simpa [natural] using hbrings
    rw [h.standingSpan_eq stands]
    rfl
  | conflict key standing first gate natural stands differs =>
    refine h.span_idle rfl rfl rfl rfl fun other hbrings => ?_
    obtain ⟨-, rfl⟩ : _ ∧ key = other := by simpa [natural] using hbrings
    rw [h.standingSpan_eq stands]
    rfl
  | entered key gate natural absent =>
    refine ⟨h.limits, fun other => ?_, h.points, h.streams⟩
    rw [standingSpan]
    dsimp only
    rw [ContentMap.get?_insert]
    by_cases hother : key = other
    · subst hother
      simp [h.standingSpan_eq_none absent, hgate gate, natural, Except.isOk, Except.toBool]
    · rw [if_neg (by simpa using hother), h.spans other]
      simp [natural, hother]

/-- A log record's admission. -/
theorem log (h : l.Follows earlier l') (record : LogRecord) :
    l.Follows (.log record :: earlier) (l'.admitLogRecord record).1 := by
  have hsame : l.Follows (.log record :: earlier) l' := ⟨h.limits, h.spans, h.points, h.streams⟩
  rcases l'.admitLogRecord_cases record with ⟨heq, -⟩ | heq
  · rw [heq]
    exact hsame
  · rw [heq]
    exact hsame.of_eq rfl rfl rfl rfl

/-! A point that passes its gates interns its stream, unless what stands under its identity has
another descriptor. -/

/-- What stands in the ledger under a point's identity is what is accounted there. -/
theorem standingPoint_eq (h : l.Follows earlier l') {key identity : PointIdentity}
    (hsame : (key == identity) = true) {first : PointIdentity} {standing : EntityId}
    (hstands : l'.points.getPair? identity = some (first, standing)) :
    ∃ brought, l.standingPoint earlier key = some brought ∧
      (first.stream == brought.stream) = true ∧ first.point.val = brought.point := by
  have hrel := h.points key
  rw [ContentMap.getPair?_congr _ hsame, hstands] at hrel
  cases hbrought : l.standingPoint earlier key with
  | none =>
    rw [hbrought] at hrel
    cases hrel
  | some brought =>
    rw [hbrought] at hrel
    cases hrel with
    | some hsame => exact ⟨brought, rfl, hsame⟩

theorem standingPoint_eq_none (h : l.Follows earlier l') {key identity : PointIdentity}
    (hsame : (key == identity) = true) (habsent : l'.points.getPair? identity = none) :
    l.standingPoint earlier key = none := by
  have hrel := h.points key
  rw [ContentMap.getPair?_congr _ hsame, habsent] at hrel
  generalize l.standingPoint earlier key = standing at hrel ⊢
  cases hrel
  rfl

/-- A point that stands under another descriptor is told from the account. -/
theorem redescribes_eq (h : l.Follows earlier l') {d : PointDelivery} {identity : PointIdentity}
    (hsame : (d.identity == identity) = true) {first : PointIdentity} {standing : EntityId}
    (hstands : l'.points.getPair? identity = some (first, standing)) :
    l.redescribes earlier d = !(first.stream == d.stream) := by
  obtain ⟨brought, hbrought, hstream, -⟩ := h.standingPoint_eq hsame hstands
  have hagree : (brought.stream == d.stream) = (first.stream == d.stream) :=
    Bool.eq_iff_iff.mpr ⟨BEq.trans hstream, BEq.trans (BEq.symm hstream)⟩
  rw [redescribes, hbrought, Option.any_some, hagree]

/-- A point that is refused, or finds one under its identity, puts none there. -/
theorem standingPoint_or_of_left (h : l.Follows earlier l') {d : PointDelivery}
    (hleft : l.passes d = false ∨ (l.standingPoint earlier d.identity).isSome = true)
    (key : PointIdentity) : (l.standingPoint earlier key).or
      (if l.passes d && d.identity == key then some d else none) =
        l.standingPoint earlier key := by
  split
  · rename_i hputs
    rw [Bool.and_eq_true] at hputs
    rcases hleft with hrefused | hstands
    · rw [hrefused] at hputs
      exact absurd hputs.1 (by simp)
    · refine Option.or_of_isSome ?_
      cases hfound : l'.points.getPair? key with
      | some entry =>
        obtain ⟨brought, hbrought, -⟩ := h.standingPoint_eq BEq.rfl hfound
        rw [hbrought]
        rfl
      | none =>
        rw [h.standingPoint_eq_none hputs.2 hfound] at hstands
        cases hstands
  · rw [Option.or_none]

/-- The streams behind a delivery that interned its own. -/
theorem streams_intern (h : l.Follows earlier l') {d : PointDelivery} (hpasses : l.passes d = true)
    (hdescribed : l.redescribes earlier d = false) (stream : StreamIdentity) :
    ((l'.intern d.stream).1.streams.getPair? stream).map (·.1) =
      l.handle (.point d :: earlier) stream := by
  rw [handle, ← h.streams stream, hpasses, hdescribed, Bool.not_false, Bool.and_self, Bool.true_and]
  rcases l'.intern_cases d.stream with ⟨standing, hstanding, heq⟩ | ⟨hfresh, heq⟩
  · rw [heq]
    by_cases hsame : (d.stream == stream) = true
    · rw [← ContentMap.getPair?_congr _ hsame, hstanding]
      rfl
    · rw [if_neg hsame, Option.or_none]
  · rw [heq]
    change ((l'.streams.insert d.stream ()).getPair? stream).map _ = _
    rw [ContentMap.getPair?_insert_of_none hfresh]
    by_cases hsame : (d.stream == stream) = true
    · rw [if_pos hsame, if_pos hsame, ← ContentMap.getPair?_congr _ hsame, hfresh]
      rfl
    · rw [if_neg hsame, if_neg hsame, Option.or_none]

/-- A point that is refused, or finds one of another descriptor under its identity. -/
theorem point_left (h : l.Follows earlier l') {d : PointDelivery} {l'' : AdmissionLedger}
    (hleft : l.passes d = false ∨
      ((l.standingPoint earlier d.identity).isSome = true ∧ l.redescribes earlier d = true))
    (hlimits : l''.limits = l'.limits) (hspans : l''.spans = l'.spans)
    (hpoints : l''.points = l'.points) (hstreams : l''.streams = l'.streams) :
    l.Follows (.point d :: earlier) l'' where
  limits := hlimits.trans h.limits
  spans := hspans ▸ h.spans
  points key := by
    rw [hpoints, standingPoint, h.standingPoint_or_of_left (hleft.imp_right And.left)]
    exact h.points key
  streams stream := by
    rw [hstreams, handle, h.streams stream]
    rcases hleft with hrefused | ⟨-, hother⟩
    · simp [hrefused]
    · simp [hother]

/-- A point that finds one of its own descriptor under its identity. -/
theorem point_interned (h : l.Follows earlier l') {d : PointDelivery} (hpasses : l.passes d = true)
    (hstands : (l.standingPoint earlier d.identity).isSome = true)
    (hdescribed : l.redescribes earlier d = false) {l'' : AdmissionLedger}
    (hlimits : l''.limits = l'.limits) (hspans : l''.spans = l'.spans)
    (hpoints : l''.points = l'.points) (hstreams : l''.streams = (l'.intern d.stream).1.streams) :
    l.Follows (.point d :: earlier) l'' where
  limits := hlimits.trans h.limits
  spans := hspans ▸ h.spans
  points key := by
    rw [hpoints, standingPoint, h.standingPoint_or_of_left (Or.inr hstands)]
    exact h.points key
  streams stream := by rw [hstreams, h.streams_intern hpasses hdescribed]

/-- A point that finds nothing under its identity enters, under its interned handle. -/
theorem point_entered (h : l.Follows earlier l') {d : PointDelivery} (hpasses : l.passes d = true)
    (habsent : l'.points.getPair? d.identity = none) {key : PointIdentity}
    (hkey : (key == d.identity) = true) (hstream : (key.stream == d.stream) = true)
    (hpoint : key.point.val = d.point) :
    l.Follows (.point d :: earlier) ((l'.intern d.stream).1.enterPoint key) := by
  obtain ⟨-, hspans, hpoints, -, hlimits, -⟩ := l'.intern_frame d.stream
  have hnone := h.standingPoint_eq_none BEq.rfl habsent
  refine ⟨hlimits.trans h.limits, hspans ▸ h.spans, fun other => ?_,
    fun stream => h.streams_intern hpasses (by rw [redescribes, hnone]; rfl) stream⟩
  change Option.Rel _ (((l'.intern d.stream).1.points.insert key _).getPair? other) _
  rw [hpoints, standingPoint, ContentMap.getPair?_insert_of_none
    ((ContentMap.getPair?_congr _ hkey).trans habsent)]
  by_cases hsame : (d.identity == other) = true
  · rw [if_pos (BEq.trans hkey hsame), hpasses, hsame, Bool.and_self, if_pos rfl,
      h.standingPoint_eq_none (BEq.symm hsame) habsent, Option.none_or]
    exact .some ⟨hstream, hpoint⟩
  · rw [if_neg fun hother => hsame (BEq.trans (BEq.symm hkey) hother), if_neg (by simp [hsame]),
      Option.or_none]
    exact h.points other

/-- **A point's admission**, every exit of it. -/
theorem point (h : l.Follows earlier l') (addr : Nat) (d : PointDelivery) :
    l.Follows (.point d :: earlier) (l'.admitMetricPoint addr d.stream d.point).1 := by
  have hexit := l'.admitMetricPoint_exit addr d.stream d.point
  generalize l'.admitMetricPoint addr d.stream d.point = r at hexit ⊢
  have hidentity : (d.identity == identityOf d.stream addr d.point) = true :=
    (PointIdentity.beq_iff _ _).mpr rfl
  obtain ⟨-, hspans, hpoints, -, hlimits, -⟩ := l'.intern_frame d.stream
  have hstands : ∀ {first standing}, l'.points.getPair? (identityOf d.stream addr d.point) =
      some (first, standing) → (l.standingPoint earlier d.identity).isSome = true := by
    intro first standing hfound
    obtain ⟨brought, hbrought, -⟩ := h.standingPoint_eq hidentity hfound
    rw [hbrought]
    rfl
  cases hexit with
  | refused outcome gate =>
    refine h.point_left (Or.inl ?_) rfl rfl rfl rfl
    rw [← h.passes_eq, Bool.eq_false_iff]
    intro hp
    exact absurd (gate.symm.trans (passes_iff.mp hp)) (by simp)
  | collapsed first standing gate stands described same =>
    exact h.point_interned (h.passes_eq d ▸ passes_iff.mpr gate) (hstands stands)
      (by rw [h.redescribes_eq hidentity stands, described]; rfl) hlimits hspans hpoints rfl
  | conflict first standing gate stands described differs =>
    exact h.point_interned (h.passes_eq d ▸ passes_iff.mpr gate) (hstands stands)
      (by rw [h.redescribes_eq hidentity stands, described]; rfl) hlimits hspans hpoints rfl
  | redescribed first standing gate stands described =>
    exact h.point_left (Or.inr ⟨hstands stands,
      by rw [h.redescribes_eq hidentity stands, described]; rfl⟩) rfl rfl rfl rfl
  | entered gate absent =>
    exact h.point_entered (h.passes_eq d ▸ passes_iff.mpr gate)
      ((ContentMap.getPair?_congr _ hidentity).trans absent)
      (BEq.trans (PointIdentity.ofInterned_beq (l'.intern_beq d.stream) _) (BEq.symm hidentity))
      (l'.intern_beq _) rfl

end Follows

end AdmissionLedger

/-- **An export is accounted for.**  One that gets as far as its hand-off leaves a ledger that
follows its deliveries. -/
theorem Pipeline.follows_admitCall {p : Pipeline} {c : ExportCall} {x : Export}
    (h : p.admitCall c = .ok x) : p.ledger.Follows c.delivered.reverse x.ledger :=
  @delivered_induct (fun earlier x => p.ledger.Follows earlier x.ledger)
    (fun _ _ _ hx => hx)
    (fun earlier x now span hx => by
      rw [Export.ledger_admitSpan]
      exact hx.span x.nextAddr span)
    (fun earlier x now record hx => by
      rw [Export.ledger_admitLog]
      exact hx.log record)
    (fun earlier x now stream point hx => by
      rw [Export.ledger_admitPoint]
      exact hx.point x.nextAddr ⟨stream, point⟩)
    p (.start p.ledger) c x h

end RuntimeTrail
