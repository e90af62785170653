import RuntimeTrail.Ingestion.Deliveries

/-!
# What an export counts

Admission counts an anomaly where a delivery finds its identity standing with
other content, another descriptor or another schema url.  Whether any record of
an export does is read off the ledger before it.

* **what is counted** — `disturbsAt`, for one delivery behind the ones before it,
  and `disturbed` for all of them;
* **the steps** — `Counts`, what a span's admission (`Follows.counts_span`) and a
  point's (`Follows.counts_point`) come to;
* **the account** — `Counted`, which `counted_admitCall` brings to a whole export.
-/

namespace RuntimeTrail

open Library

namespace AdmissionLedger

/-! ## What disturbs -/

/-- Whether two spans of one identity agree: in content, and in their resources' schema urls. -/
def spansAgree (first span : Span) : Bool :=
  first == span && decide (first.resource.schemaUrl = span.resource.schemaUrl)

/-- Whether a point agrees with the one that stands under its identity: in descriptor, in payload,
and in the schema url of the handle its stream is interned under. -/
def pointsAgree (handle : Option StreamIdentity) (first d : PointDelivery) : Bool :=
  first.stream == d.stream && first.point.identityPayloadEq d.point d.stream.kind &&
    handle.all fun h => decide (h.resource.schemaUrl = d.stream.resource.schemaUrl)

/-- Whether a delivery passes its gates and finds its identity standing with something else.  A log
record finds nothing standing. -/
def disturbsAt (l : AdmissionLedger) (earlier : List LedgerDelivery) : LedgerDelivery → Bool
  | .span span =>
    (checkSpan span l.limits).isOk && span.naturalIdentity.any fun key =>
      (l.standingSpan earlier key).any fun first => !spansAgree first span
  | .log _ => false
  | .point d =>
    l.passes d && (l.standingPoint earlier d.identity).any fun first =>
      !pointsAgree (l.handle earlier d.stream) first d

/-- Whether any of the deliveries, latest first, does. -/
def disturbed (l : AdmissionLedger) : List LedgerDelivery → Bool
  | [] => false
  | d :: earlier => l.disturbsAt earlier d || l.disturbed earlier

/-- Nothing is disturbed where no single delivery does, each past the ones before it. -/
theorem disturbed_eq_false_iff {l : AdmissionLedger} {deliveries : List LedgerDelivery} :
    l.disturbed deliveries = false ↔ ∀ later d earlier,
      deliveries = later ++ d :: earlier → l.disturbsAt earlier d = false := by
  induction deliveries with
  | nil => simp [disturbed]
  | cons d deliveries ih =>
    rw [disturbed, Bool.or_eq_false_iff, ih]
    constructor
    · rintro ⟨hlast, hrest⟩ later e earlier heq
      cases later with
      | nil =>
        obtain ⟨rfl, rfl⟩ := List.cons.inj heq
        exact hlast
      | cons b later =>
        obtain ⟨rfl, rfl⟩ := List.cons.inj heq
        exact hrest later e earlier rfl
    · intro hall
      exact ⟨hall [] d deliveries rfl, fun later e earlier heq =>
        hall (d :: later) e earlier (by rw [heq]; rfl)⟩

/-! ## The counters -/

theorem countMismatch_of_eq {a : AdmissionAnomalies} {standing delivered : Option String}
    (h : standing = delivered) : a.countMismatch standing delivered = a :=
  if_neg fun hne => hne h

theorem total_countMismatch_of_ne {a : AdmissionAnomalies} {standing delivered : Option String}
    (h : standing ≠ delivered) : a.total < (a.countMismatch standing delivered).total := by
  rw [AdmissionAnomalies.countMismatch, if_pos h]
  simp only [AdmissionAnomalies.total]
  omega

theorem total_countSpanConflict (a : AdmissionAnomalies) : a.total < a.countSpanConflict.total := by
  simp only [AdmissionAnomalies.total, AdmissionAnomalies.countSpanConflict]
  omega

theorem total_countPointConflict (a : AdmissionAnomalies) :
    a.total < a.countPointConflict.total := by
  simp only [AdmissionAnomalies.total, AdmissionAnomalies.countPointConflict]
  omega

/-! ## One delivery -/

/-- What a delivery does to the counters: they grow if it disturbs what stands, and stay
otherwise. -/
def Counts (disturbs : Bool) (l l' : AdmissionLedger) : Prop :=
  (disturbs = false ∧ l'.anomalies = l.anomalies) ∨
    (disturbs = true ∧ l.anomalies.total < l'.anomalies.total)

namespace Follows

variable {l l' : AdmissionLedger} {earlier : List LedgerDelivery}

/-- **A span is counted where it disturbs.** -/
theorem counts_span (h : l.Follows earlier l') (addr : Nat) (span : Span) :
    Counts (l.disturbsAt earlier (.span span)) l' (l'.admitSpan addr span).1 := by
  have hexit := l'.admitSpan_exit addr span
  generalize l'.admitSpan addr span = r at hexit ⊢
  have hgate : ∀ {verdict}, checkSpan span l'.limits = verdict →
      checkSpan span l.limits = verdict := fun hverdict => by rw [← h.limits, hverdict]
  cases hexit with
  | rejected rejection gate =>
    exact Or.inl ⟨by simp [disturbsAt, hgate gate, Except.isOk, Except.toBool], rfl⟩
  | unnamed gate natural => exact Or.inl ⟨by simp [disturbsAt, natural], rfl⟩
  | collapsed key standing first gate natural stands same =>
    have hdisturbs : l.disturbsAt earlier (.span span) =
        !decide (first.val.resource.schemaUrl = span.resource.schemaUrl) := by
      simp [disturbsAt, hgate gate, natural, h.standingSpan_eq stands, spansAgree, same,
        Except.isOk, Except.toBool]
    by_cases hurl : first.val.resource.schemaUrl = span.resource.schemaUrl
    · exact Or.inl ⟨by rw [hdisturbs, decide_eq_true hurl]; rfl, countMismatch_of_eq hurl⟩
    · exact Or.inr ⟨by rw [hdisturbs, decide_eq_false hurl]; rfl, total_countMismatch_of_ne hurl⟩
  | conflict key standing first gate natural stands differs =>
    refine Or.inr ⟨?_, total_countSpanConflict _⟩
    simp [disturbsAt, hgate gate, natural, h.standingSpan_eq stands, spansAgree, differs,
      Except.isOk, Except.toBool]
  | entered key gate natural absent =>
    exact Or.inl ⟨by simp [disturbsAt, natural, h.standingSpan_eq_none absent], rfl⟩

/-- **A point is counted where it disturbs.** -/
theorem counts_point (h : l.Follows earlier l') (addr : Nat) (d : PointDelivery) :
    Counts (l.disturbsAt earlier (.point d)) l' (l'.admitMetricPoint addr d.stream d.point).1 := by
  have hexit := l'.admitMetricPoint_exit addr d.stream d.point
  generalize l'.admitMetricPoint addr d.stream d.point = r at hexit ⊢
  have hidentity : (d.identity == identityOf d.stream addr d.point) = true :=
    (PointIdentity.beq_iff _ _).mpr rfl
  have hpasses : l'.gatePoint d.stream d.point = .ok () → l.passes d = true := fun gate =>
    h.passes_eq d ▸ passes_iff.mpr gate
  obtain ⟨-, -, -, -, -, hanomalies⟩ := l'.intern_frame d.stream
  cases hexit with
  | refused outcome gate =>
    refine Or.inl ⟨?_, rfl⟩
    rw [disturbsAt, ← h.passes_eq, passes, gate]
    rfl
  | collapsed first standing gate stands described same =>
    obtain ⟨brought, hbrought, hstream, hpoint⟩ := h.standingPoint_eq hidentity stands
    have hagrees : (brought.stream == d.stream) = true := BEq.trans (BEq.symm hstream) described
    have hdisturbs : l.disturbsAt earlier (.point d) =
        !((l.handle earlier d.stream).all fun handle =>
          decide (handle.resource.schemaUrl = d.stream.resource.schemaUrl)) := by
      simp [disturbsAt, hpasses gate, hbrought, pointsAgree, hagrees, ← hpoint, same]
    rw [hdisturbs, ← h.streams d.stream]
    -- the schema url compared is the interned handle's, which is the delivery's own when fresh
    by_cases hurl : (l'.intern d.stream).2.1.resource.schemaUrl = d.stream.resource.schemaUrl
    · refine Or.inl ⟨?_, countMismatch_of_eq hurl⟩
      rcases l'.intern_cases d.stream with ⟨handle, hhandle, heq⟩ | ⟨hfresh, -⟩
      · rw [heq] at hurl
        dsimp only at hurl
        simp [hhandle, hurl]
      · simp [hfresh]
    · refine Or.inr ⟨?_, total_countMismatch_of_ne hurl⟩
      rcases l'.intern_cases d.stream with ⟨handle, hhandle, heq⟩ | ⟨-, heq⟩
      · rw [heq] at hurl
        dsimp only at hurl
        simp [hhandle, hurl]
      · rw [heq] at hurl
        exact absurd rfl hurl
  | conflict first standing gate stands described differs =>
    obtain ⟨brought, hbrought, -, hpoint⟩ := h.standingPoint_eq hidentity stands
    refine Or.inr ⟨?_, total_countPointConflict _⟩
    simp [disturbsAt, hpasses gate, hbrought, pointsAgree, ← hpoint, differs]
  | redescribed first standing gate stands described =>
    obtain ⟨brought, hbrought, hstream, -⟩ := h.standingPoint_eq hidentity stands
    have hother : (brought.stream == d.stream) = false := by
      rw [Bool.eq_false_iff]
      intro hsame
      rw [BEq.trans hstream hsame] at described
      cases described
    refine Or.inr ⟨?_, total_countPointConflict _⟩
    simp [disturbsAt, hpasses gate, hbrought, pointsAgree, hother]
  | entered gate absent =>
    exact Or.inl ⟨by simp [disturbsAt, h.standingPoint_eq_none hidentity absent], hanomalies⟩

end Follows

/-! ## A whole export -/

/-- Where an export stands behind its deliveries, latest first: nothing of it was counted, or the
count has grown. -/
structure Counted (l : AdmissionLedger) (earlier : List LedgerDelivery) (l' : AdmissionLedger) :
    Prop where
  follows : l.Follows earlier l'
  quiet : l.disturbed earlier = false → l'.anomalies = l.anomalies
  grown : l.disturbed earlier = true → l.anomalies.total < l'.anomalies.total

/-- One delivery more. -/
theorem Counted.step {l l' l'' : AdmissionLedger} {earlier : List LedgerDelivery}
    (h : l.Counted earlier l') {d : LedgerDelivery} (hfollows : l.Follows (d :: earlier) l'')
    (hcounts : Counts (l.disturbsAt earlier d) l' l'') : l.Counted (d :: earlier) l'' := by
  refine ⟨hfollows, fun hquiet => ?_, fun hgrown => ?_⟩
  · obtain ⟨hlast, hrest⟩ := Bool.or_eq_false_iff.mp hquiet
    rcases hcounts with ⟨-, hsame⟩ | ⟨hdisturbs, -⟩
    · exact hsame.trans (h.quiet hrest)
    · rw [hlast] at hdisturbs
      cases hdisturbs
  · have hle : l.anomalies.total ≤ l'.anomalies.total := by
      cases hearlier : l.disturbed earlier with
      | true => exact (h.grown hearlier).le
      | false => rw [h.quiet hearlier]
    rcases hcounts with ⟨hlast, hsame⟩ | ⟨-, hlt⟩
    · rw [disturbed, hlast, Bool.false_or] at hgrown
      rw [hsame]
      exact h.grown hgrown
    · exact hle.trans_lt hlt

end AdmissionLedger

/-- **What a whole export counts.**  An export that gets as far as its hand-off leaves the counters
exactly where none of its deliveries disturbs what stands. -/
theorem Pipeline.counted_admitCall {p : Pipeline} {c : ExportCall} {x : Export}
    (h : p.admitCall c = .ok x) : p.ledger.Counted c.delivered.reverse x.ledger := by
  refine @delivered_induct (fun earlier x => p.ledger.Counted earlier x.ledger)
    (fun _ _ _ hx => hx) (fun earlier x now span hx => ?_) (fun earlier x now record hx => ?_)
    (fun earlier x now stream point hx => ?_) p ⟨.start p.ledger, fun _ => rfl, (Bool.noConfusion ·)⟩ c x h
  · rw [Export.ledger_admitSpan]
    exact hx.step (hx.follows.span x.nextAddr span) (hx.follows.counts_span x.nextAddr span)
  · rw [Export.ledger_admitLog]
    refine hx.step (hx.follows.log record) (Or.inl ⟨rfl, ?_⟩)
    rcases x.ledger.admitLogRecord_cases record with ⟨heq, -⟩ | heq
    · rw [heq]
    · rw [heq]
      rfl
  · rw [Export.ledger_admitPoint]
    exact hx.step (hx.follows.point x.nextAddr ⟨stream, point⟩)
      (hx.follows.counts_point x.nextAddr ⟨stream, point⟩)

end RuntimeTrail
