import RuntimeTrail.Memory.Retention

/-!
# A store whose accounts are exact

The three accounts of a store together: the derived counts agree with what is
resident, the standing streams are charged what their points' handles cost, and
each shelf's byte sum is its records'.  Nothing is asked of the ceilings, so this
survives a change of configuration.

* **one step** — `Audited.enter`, `Audited.removes`, and `Audited.apply` for the
  operations that are `Accountable`;
* **what a ceiling measures** — `Audited.accountedBytes_eq`.
-/

namespace RuntimeTrail

open Library

namespace InMemoryStore

/-- Counts, charges and byte sums agree with what is resident, and are 64-bit counts. -/
structure Audited (s : InMemoryStore) : Prop where
  tallied : s.Tallied
  charged : s.Charged
  bytes : ∀ kind, BytesExact kind s
  words : (∀ kind, s.shelfBytes kind ≤ u64Max) ∧ s.identityAccountedBytes ≤ u64Max

/-- The side condition of an operation that keeps the accounts exact: the record it enters takes
no sum past the largest count, and a point's handle has the size its stream is charged with. -/
def Accountable (s : InMemoryStore) (op : StoreOp) : Prop :=
  (∀ kind, s.NoSaturation kind op) ∧ s.SameCharge op

theorem Audited.new (config : RetentionConfig) (hook : Bool) : (new config hook).Audited where
  tallied := (Coherent.new config hook).tallied
  charged := Charged.new config hook
  bytes kind := BytesExact.new kind config hook
  words := ⟨fun kind => by cases kind <;> exact Nat.zero_le _, Nat.zero_le _⟩

theorem Audited.of_eq {s s' : InMemoryStore} (h : s.Audited) (hspans : s'.spans = s.spans)
    (hlogs : s'.logs = s.logs) (hpoints : s'.points = s.points) (hseries : s'.series = s.series)
    (htotal : s'.identityAccountedBytes = s.identityAccountedBytes) : s'.Audited where
  tallied := h.tallied.of_eq hspans hlogs hpoints hseries
  charged := h.charged.of_eq hpoints hseries htotal
  bytes kind := (h.bytes kind).of_eq hspans hlogs hpoints
  words := by
    refine ⟨fun kind => ?_, by rw [htotal]; exact h.words.2⟩
    have hkind := h.words.1 kind
    cases kind with
    | span => rw [shelfBytes, hspans]; exact hkind
    | log => rw [shelfBytes, hlogs]; exact hkind
    | point => rw [shelfBytes, hpoints]; exact hkind

/-- A saturating sum is a 64-bit count, whatever enters. -/
theorem words_enter {s : InMemoryStore} (hc : s.Tallied) (key : AdmissionKey) (r : Resident)
    (h : (∀ kind, s.shelfBytes kind ≤ u64Max) ∧ s.identityAccountedBytes ≤ u64Max) :
    (∀ kind, (s.enter key r).shelfBytes kind ≤ u64Max) ∧
      (s.enter key r).identityAccountedBytes ≤ u64Max := by
  obtain ⟨hshelves, hidentity⟩ := h
  have hsat : ∀ a b, saturatingAdd a b ≤ u64Max := saturatingAdd_le
  cases r with
  | span record =>
    refine ⟨fun kind => ?_, hidentity⟩
    cases kind with
    | span => exact hsat _ _
    | log => exact hshelves .log
    | point => exact hshelves .point
  | log record =>
    refine ⟨fun kind => ?_, hidentity⟩
    cases kind with
    | span => exact hshelves .span
    | log => exact hsat _ _
    | point => exact hshelves .point
  | point slot =>
    refine ⟨fun kind => ?_, ?_⟩
    · cases kind with
      | span => exact hshelves .span
      | log => exact hshelves .log
      | point => exact hsat _ _
    · rw [identityAccountedBytes_enter hc]
      split
      · exact hidentity
      · exact hsat _ _

theorem Audited.enter {s : InMemoryStore} (h : s.Audited) {key : AdmissionKey} {r : Resident}
    (hfresh : s.holds key.entity r = false)
    (hbound : s.shelfBytes r.kind + r.size ≤ u64Max)
    (hsize : ∀ stream, r.stream? = some stream →
      (∀ e ∈ s.series.entries, e.1 == stream → accountedU64 e.1 = accountedU64 stream) ∧
        (s.series.contains stream = false →
          s.identityAccountedBytes + accountedU64 stream ≤ u64Max)) :
    (s.enter key r).Audited where
  tallied := h.tallied.enter hfresh
  charged := h.charged.enter h.tallied hfresh hsize
  bytes kind := (h.bytes kind).enter h.tallied hfresh fun hkind => hkind ▸ hbound
  words := words_enter h.tallied key r h.words

/-- A removal takes bytes out of its shelf's sum, and at most a charge out of the total. -/
theorem Removes.bytes_le {s s' : InMemoryStore} (h : s.Tallied) {key : AdmissionKey}
    {released : Option StreamIdentity} {r : Resident} (hr : s.Removes key released s' r) :
    (∀ kind, s'.shelfBytes kind ≤ s.shelfBytes kind) ∧
      s'.identityAccountedBytes ≤ s.identityAccountedBytes := by
  have hpopped : ∀ {R : Type} [Accounted R] {shelf shelf' : Shelf R} {k : AdmissionKey} {v : R},
      shelf.popSmallest = some ((k, v), shelf') →
        shelf'.accountedBytes ≤ shelf.accountedBytes := fun hpop => by
    rw [(Shelf.popSmallest_eq_some hpop).2.2]
    exact Nat.sub_le _ _
  cases r with
  | span record =>
    obtain ⟨spans, hpop, rfl, -⟩ := hr
    refine ⟨fun kind => ?_, le_refl _⟩
    cases kind with
    | span => exact hpopped hpop
    | log => exact le_refl _
    | point => exact le_refl _
  | log record =>
    obtain ⟨logs, hpop, rfl, -⟩ := hr
    refine ⟨fun kind => ?_, le_refl _⟩
    cases kind with
    | span => exact le_refl _
    | log => exact hpopped hpop
    | point => exact le_refl _
  | point slot =>
    obtain ⟨points, hpop, rfl, -⟩ := hr
    rw [releaseStreamRef_eq h.series (Shelf.popSmallest_eq_some hpop).1]
    refine ⟨fun kind => ?_, ?_⟩
    · split <;> cases kind with
      | span => exact le_refl _
      | log => exact le_refl _
      | point => exact hpopped hpop
    · split
      · exact Nat.sub_le _ _
      · exact le_refl _

theorem Audited.removes {s s' : InMemoryStore} (h : s.Audited) {key : AdmissionKey}
    {released : Option StreamIdentity} {r : Resident} (hr : s.Removes key released s' r) :
    s'.Audited where
  tallied := h.tallied.removes hr
  charged := h.charged.removes h.tallied hr
  bytes kind := (h.bytes kind).removes hr
  words := by
    obtain ⟨hshelves, hidentity⟩ := hr.bytes_le h.tallied
    exact ⟨fun kind => (hshelves kind).trans (h.words.1 kind), hidentity.trans h.words.2⟩

theorem Audited.enforceAgainst {s : InMemoryStore} (h : s.Audited) (now : AdmissionTime) :
    (s.enforceAgainst now).store.Audited :=
  (passLoop now).run_invariant (I := fun pass => pass.store.Audited)
    (fun _ _ hp hstep => by
      obtain ⟨cause, key, r, released, s', -, -, hremoves, rfl⟩ := evictOne_spec hstep
      exact (hp.removes hremoves).of_eq rfl rfl rfl rfl rfl) h

/-- **Every accountable operation keeps the accounts exact.** -/
theorem Audited.apply {s : InMemoryStore} (h : s.Audited) {op : StoreOp}
    (hop : s.Accountable op) : (s.apply op).1.Audited := by
  rcases apply_cases s op with ⟨key, r, -, outcome, -, heq⟩ | ⟨key, r, hoffer, hr, heq⟩ |
    ⟨now, -, heq⟩ | ⟨-, -, anomalies, reply, -, heq⟩
  · obtain ⟨hspans, hlogs, hpoints, hseries, htotal, -⟩ := s.refuse_frame key.entity r outcome
    rw [heq]
    exact h.of_eq hspans hlogs hpoints hseries htotal
  · have hfits := hop.1 r.kind key r hoffer hr rfl
    rw [heq]
    exact (h.enter (not_holds_of_refusal hr) hfits (hop.2.offered hoffer hr)).enforceAgainst _
  · rw [heq]; exact h.enforceAgainst now
  · rw [heq]; exact h.of_eq rfl rfl rfl rfl rfl

/-- **What the byte ceiling measures** is the resident records' sizes and one charge for each
distinct stream, as a 64-bit count. -/
theorem Audited.accountedBytes_eq {s : InMemoryStore} (h : s.Audited) :
    s.accountedBytes = saturatingAdd (recordBytes s.merged) (identityBytes s.merged) := by
  have hrecords := recordBytes_merged s
  have hspans : s.spans.accountedBytes = s.recordSum .span := h.bytes .span
  have hlogs : s.logs.accountedBytes = s.recordSum .log := h.bytes .log
  have hpoints : s.points.accountedBytes = s.recordSum .point := h.bytes .point
  rw [accountedBytes, recordAccountedBytes, hspans, hlogs, hpoints, h.charged.total,
    ← identityBytes_merged h.tallied h.charged, hrecords]
  simp only [saturatingAdd]
  omega

end InMemoryStore

end RuntimeTrail
