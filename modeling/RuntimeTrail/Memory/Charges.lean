import RuntimeTrail.Memory.Coherence

/-!
# What the resident streams are charged

A stream is charged when its first point enters, with the size of the handle that
point brought, and the charge is taken back when its last point leaves, with the
size of the handle *that* point brought.  The two handles are equal to the model
and may differ in size: equality ignores the resource's `schemaUrl`, the size
counts it.

* **the account** — `chargeSum` adds up what each standing stream was charged;
  `Balanced` says the store's own total is that sum and covers any release;
* **the condition** — `SameCharge`: an accepted point brings a handle of the size
  its stream was charged, and a first charge fits in the total.  Runs that keep to
  it are balanced at every eviction (`identity_charge_exact`);
* **without it** — `not_identity_charge_exact`: two handles of one stream, one
  with a `schemaUrl`, leave a charge behind that no resident point accounts for.
-/

namespace RuntimeTrail

open Library

namespace InMemoryStore

/-- What the standing streams were charged: the table keeps the handle of the first point. -/
def chargeSum (s : InMemoryStore) : Nat := (s.series.entries.map fun e => accountedU64 e.1).sum

/-- The total is what the standing streams were charged, it covers the release of whichever
point leaves, and with no point resident it is zero. -/
def Balanced (s : InMemoryStore) : Prop :=
  s.identityAccountedBytes = s.chargeSum ∧
    (∀ p ∈ s.points.entries, accountedU64 p.2.stream ≤ s.identityAccountedBytes) ∧
    (s.points.len = 0 → s.identityAccountedBytes = 0)

/-- The side condition under which charges balance: an accepted point's handle has the size its
stream is charged with, or is charged without taking the total past the largest count. -/
def SameCharge (s : InMemoryStore) (op : StoreOp) : Prop :=
  ∀ admitted stream, op = .keepMetricPoint admitted stream →
    s.refusal admitted.entity (.point ⟨admitted.record, stream⟩) = none →
    (∀ e ∈ s.series.entries, e.1 == stream → accountedU64 e.1 = accountedU64 stream) ∧
      (s.series.contains stream = false →
        s.identityAccountedBytes + accountedU64 stream ≤ u64Max)

/-- The pass an operation runs, at any turn: started from the store with the record entered, or
from the store as it stands, and stopped after any number of evictions. -/
def DuringPass (s : InMemoryStore) (op : StoreOp) (pass : Pass) : Prop :=
  ∃ start now, ((∃ key r, op.offer = some (key, r) ∧ s.refusal key.entity r = none ∧
        start = s.enter key r ∧ now = key.admittedAt) ∨
      (op = .enforceRetention now ∧ start = s)) ∧
    Relation.ReflTransGen (fun p p' => evictOne now p = some p') ⟨start, 0, []⟩ pass

/-! ## The invariant -/

/-- The total is the sum of the standing charges, and every resident point's handle has the size
its stream was charged with. -/
structure Charged (s : InMemoryStore) : Prop where
  total : s.identityAccountedBytes = s.chargeSum
  sized : ∀ e ∈ s.series.entries, ∀ p ∈ s.points.entries, e.1 == p.2.stream →
    accountedU64 e.1 = accountedU64 p.2.stream

theorem Charged.new (config : RetentionConfig) (hook : Bool) : (new config hook).Charged where
  total := rfl
  sized e he := absurd he (by simp [InMemoryStore.new, ContentMap.empty])

theorem Charged.of_eq {s s' : InMemoryStore} (h : s.Charged) (hpoints : s'.points = s.points)
    (hseries : s'.series = s.series)
    (htotal : s'.identityAccountedBytes = s.identityAccountedBytes) : s'.Charged where
  total := by rw [htotal, h.total, chargeSum, chargeSum, hseries]
  sized := by rw [hseries, hpoints]; exact h.sized

theorem chargeSum_of_keys {s s' : InMemoryStore}
    (h : s'.series.entries.map (·.1) = s.series.entries.map (·.1)) :
    s'.chargeSum = s.chargeSum := by
  have hmap : ∀ m : ContentMap StreamIdentity Nat,
      m.entries.map (fun e => accountedU64 e.1) = (m.entries.map (·.1)).map accountedU64 :=
    fun m => by rw [List.map_map]; rfl
  rw [chargeSum, chargeSum, hmap, hmap, h]

/-- A resident point's stream stands in the table. -/
theorem Tallied.standing_of_mem {s : InMemoryStore} (hc : s.Tallied) {key : AdmissionKey}
    {slot : PointSlot} (h : (key, slot) ∈ s.points.entries) :
    ∃ e ∈ s.series.entries, e.1 == slot.stream := by
  refine ContentMap.contains_iff.mp (hc.series.contains_iff.mpr ?_)
  exact List.countP_pos_iff.mpr ⟨_, h, BEq.rfl⟩

/-- **The invariant balances the account**: a resident point's stream stands in the table, so
its handle's size is one term of the sum. -/
theorem Charged.balanced {s : InMemoryStore} (h : s.Charged) (hc : s.Tallied) : s.Balanced := by
  refine ⟨h.total, ?_, ?_⟩
  · rintro ⟨key, slot⟩ hp
    obtain ⟨e, he, heq⟩ := hc.standing_of_mem hp
    rw [← h.sized e he _ hp heq, h.total]
    exact List.single_le_sum (fun _ _ => Nat.zero_le _) _ (List.mem_map.mpr ⟨e, he, rfl⟩)
  · intro hnone
    have hpoints : s.points.entries = [] := List.length_eq_zero_iff.mp hnone
    have hseries : s.series.entries = [] := by
      refine List.eq_nil_iff_forall_not_mem.mpr fun e he => ?_
      have hstand := hc.series.contains_iff.mp (ContentMap.contains_iff.mpr ⟨e, he, BEq.rfl⟩)
      rw [Shelf.pointCount, hpoints] at hstand
      exact absurd hstand (by simp)
    rw [h.total, chargeSum, hseries]
    rfl

/-! ## One insertion -/

theorem chargeSum_enter_standing {s : InMemoryStore} {key : AdmissionKey} {slot : PointSlot}
    (h : s.series.contains slot.stream = true) :
    (s.enter key (.point slot)).chargeSum = s.chargeSum := by
  obtain ⟨e, he⟩ := Option.isSome_iff_exists.mp h
  exact chargeSum_of_keys (ContentMap.keys_insert_of_some he)

theorem chargeSum_enter_new {s : InMemoryStore} {key : AdmissionKey} {slot : PointSlot}
    (h : s.series.contains slot.stream = false) :
    (s.enter key (.point slot)).chargeSum = s.chargeSum + accountedU64 slot.stream := by
  have hnone : s.series.getPair? slot.stream = none := by simpa [ContentMap.contains] using h
  have hentries := ContentMap.entries_insert_of_none
    (v := (s.series.get? slot.stream).getD 0 + 1) hnone
  change ((s.series.insert slot.stream _).entries.map _).sum = _
  rw [hentries, List.map_append, List.sum_append, List.map_singleton, List.sum_singleton,
    chargeSum]

theorem identityAccountedBytes_enter {s : InMemoryStore} (hc : s.Tallied) (key : AdmissionKey)
    (slot : PointSlot) :
    (s.enter key (.point slot)).identityAccountedBytes =
      if s.series.contains slot.stream then s.identityAccountedBytes
      else saturatingAdd s.identityAccountedBytes (accountedU64 slot.stream) := by
  have hcount := hc.series.getD_eq slot.stream
  change (if (s.series.get? slot.stream).getD 0 = 0 then _ else _) = _
  by_cases hs : s.series.contains slot.stream = true
  · have := hc.series.contains_iff.mp hs
    rw [if_neg (by omega), if_pos hs]
  · have : ¬ 0 < s.points.pointCount slot.stream := fun h => hs (hc.series.contains_iff.mpr h)
    rw [if_pos (by omega), if_neg hs]

theorem Charged.enter {s : InMemoryStore} (h : s.Charged) (hc : s.Tallied) {key : AdmissionKey}
    {r : Resident} (hfresh : s.holds key.entity r = false)
    (hsize : ∀ stream, r.stream? = some stream →
      (∀ e ∈ s.series.entries, e.1 == stream → accountedU64 e.1 = accountedU64 stream) ∧
        (s.series.contains stream = false →
          s.identityAccountedBytes + accountedU64 stream ≤ u64Max)) :
    (s.enter key r).Charged := by
  cases r with
  | span record => exact h.of_eq rfl rfl rfl
  | log record => exact h.of_eq rfl rfl rfl
  | point slot =>
    obtain ⟨hsame, hfits⟩ := hsize slot.stream rfl
    have hmem : ∀ p ∈ (s.enter key (.point slot)).points.entries,
        p = (key, slot) ∨ p ∈ s.points.entries := fun p hp =>
      List.mem_cons.mp ((@Shelf.Indexed.insert_perm _ _ _ hc.points ⟨key.entity, key.admittedAt, slot⟩
        hfresh).mem_iff.mp hp)
    by_cases hs : s.series.contains slot.stream = true
    · refine ⟨?_, fun e he p hp heq => ?_⟩
      · rw [identityAccountedBytes_enter hc, if_pos hs, chargeSum_enter_standing hs, h.total]
      · -- the standing handles are the same ones
        obtain ⟨e', he'⟩ := Option.isSome_iff_exists.mp hs
        have hkeys : e.1 ∈ s.series.entries.map (·.1) := by
          rw [← ContentMap.keys_insert_of_some he']
          exact List.mem_map_of_mem he
        obtain ⟨f, hf, hfe⟩ := List.mem_map.mp hkeys
        rw [← hfe] at heq ⊢
        rcases hmem p hp with rfl | hp
        · exact hsame f hf heq
        · exact h.sized f hf p hp heq
    · have hnew : s.series.contains slot.stream = false := by simpa using hs
      refine ⟨?_, fun e he p hp heq => ?_⟩
      · rw [identityAccountedBytes_enter hc, if_neg hs, chargeSum_enter_new hnew,
          saturatingAdd_of_le (hfits hnew), h.total]
      · have hnone : s.series.getPair? slot.stream = none := by
          simpa [ContentMap.contains] using hnew
        have he' : e ∈ s.series.entries ∨ e = (slot.stream, (s.series.get? slot.stream).getD 0 + 1) := by
          have := ContentMap.entries_insert_of_none
            (v := (s.series.get? slot.stream).getD 0 + 1) hnone
          change e ∈ (s.series.insert slot.stream _).entries at he
          rw [this, List.mem_append, List.mem_singleton] at he
          exact he
        have hfresh := ContentMap.contains_eq_false_iff.mp hnew
        rcases he' with he' | rfl
        · rcases hmem p hp with rfl | hp
          · exact absurd heq (by simp [hfresh e he'])
          · exact h.sized e he' p hp heq
        · rcases hmem p hp with rfl | hp
          · rfl
          · obtain ⟨f, hf, hfp⟩ := hc.standing_of_mem hp
            exact absurd (BEq.trans hfp (BEq.symm heq)) (by simp [hfresh f hf])

/-! ## One eviction, and a pass -/

theorem Charged.removes {s s' : InMemoryStore} (h : s.Charged) (hc : s.Tallied)
    {key : AdmissionKey} {released : Option StreamIdentity} {r : Resident}
    (hr : s.Removes key released s' r) : s'.Charged := by
  cases r with
  | span record =>
    obtain ⟨spans, hpop, rfl, -⟩ := hr
    exact h.of_eq rfl rfl rfl
  | log record =>
    obtain ⟨logs, hpop, rfl, -⟩ := hr
    exact h.of_eq rfl rfl rfl
  | point slot =>
    obtain ⟨points, hpop, rfl, -⟩ := hr
    have hentries := (Shelf.popSmallest_eq_some hpop).1
    have hstay : ∀ p ∈ points.entries, p ∈ s.points.entries := fun p hp => by
      rw [hentries]; exact List.mem_cons_of_mem _ hp
    obtain ⟨e, he⟩ : ∃ e, s.series.getPair? slot.stream = some e := by
      have hget := hc.series.get?_of_removed hentries
      obtain ⟨e, he, -⟩ := Option.map_eq_some_iff.mp hget
      exact ⟨e, he⟩
    rw [releaseStreamRef_eq hc.series hentries]
    split
    · -- the last point: the charge taken back is the charge that stands
      obtain ⟨hmem, heq⟩ := ContentMap.getPair?_eq_some_iff.mp he
      have hsize : accountedU64 e.1 = accountedU64 slot.stream :=
        h.sized e hmem (key, slot) (by rw [hentries]; simp) heq
      refine ⟨?_, fun f hf p hp => h.sized f (ContentMap.mem_erase.mp hf).1 p (hstay p hp)⟩
      have hsum : s.chargeSum =
          accountedU64 e.1 + ((s.series.erase slot.stream).entries.map fun e => accountedU64 e.1).sum := by
        rw [chargeSum, ((ContentMap.erase_perm he).map _).sum_eq, List.map_cons, List.sum_cons]
      change s.identityAccountedBytes - accountedU64 slot.stream = _
      rw [h.total, hsum, hsize, Nat.add_sub_cancel_left]
      rfl
    · have hkeys := ContentMap.keys_insert_of_some (v := points.pointCount slot.stream) he
      refine ⟨h.total.trans (chargeSum_of_keys hkeys).symm, fun f hf p hp heq => ?_⟩
      have hkey : f.1 ∈ s.series.entries.map (·.1) := by
        rw [← hkeys]
        exact List.mem_map_of_mem hf
      obtain ⟨g, hg, hgf⟩ := List.mem_map.mp hkey
      rw [← hgf] at heq ⊢
      exact h.sized g hg p (hstay p hp) heq

theorem Charged.evictOne {now : AdmissionTime} {pass pass' : Pass} (h : pass.store.Charged)
    (hc : pass.store.Tallied) (hstep : evictOne now pass = some pass') : pass'.store.Charged := by
  obtain ⟨cause, key, r, released, s', -, -, hremoves, rfl⟩ := evictOne_spec hstep
  exact (h.removes hc hremoves).of_eq rfl rfl rfl

theorem charged_of_turns {now : AdmissionTime} {pass pass' : Pass} (h : pass.store.Charged)
    (hc : pass.store.Tallied)
    (hturns : Relation.ReflTransGen (fun p p' => InMemoryStore.evictOne now p = some p') pass pass') :
    pass'.store.Charged ∧ pass'.store.Tallied := by
  induction hturns with
  | refl => exact ⟨h, hc⟩
  | tail _ hstep ih => exact ⟨ih.1.evictOne ih.2 hstep, ih.2.evictOne hstep⟩

theorem Charged.enforceAgainst {s : InMemoryStore} (h : s.Charged) (hc : s.Tallied)
    (now : AdmissionTime) : (s.enforceAgainst now).store.Charged :=
  ((passLoop now).run_invariant (I := fun pass => pass.store.Charged ∧ pass.store.Tallied)
    (fun _ _ hp hstep => ⟨hp.1.evictOne hp.2 hstep, hp.2.evictOne hstep⟩) ⟨h, hc⟩).1

theorem Charged.refuse {s : InMemoryStore} (h : s.Charged) (entity : EntityId)
    (r : Resident) (outcome : KeepOutcome) : (s.refuse entity r outcome).store.Charged := by
  obtain ⟨-, -, hpoints, hseries, htotal, -⟩ := s.refuse_frame entity r outcome
  exact h.of_eq hpoints hseries htotal

/-! ## Every run -/

/-- What the side condition says of the record an operation offers. -/
theorem SameCharge.offered {s : InMemoryStore} {op : StoreOp} (h : s.SameCharge op)
    {key : AdmissionKey} {r : Resident} (hoffer : op.offer = some (key, r))
    (hr : s.refusal key.entity r = none) (stream : StreamIdentity) (hs : r.stream? = some stream) :
    (∀ e ∈ s.series.entries, e.1 == stream → accountedU64 e.1 = accountedU64 stream) ∧
      (s.series.contains stream = false →
        s.identityAccountedBytes + accountedU64 stream ≤ u64Max) := by
  cases op with
  | keepMetricPoint admitted given =>
    obtain ⟨rfl, rfl⟩ := Prod.mk.inj (Option.some.inj hoffer)
    obtain rfl := Option.some.inj hs
    exact h admitted given rfl hr
  | keepSpan admitted =>
    obtain ⟨rfl, rfl⟩ := Prod.mk.inj (Option.some.inj hoffer)
    exact absurd hs (by simp [Resident.stream?])
  | keepLogRecord admitted =>
    obtain ⟨rfl, rfl⟩ := Prod.mk.inj (Option.some.inj hoffer)
    exact absurd hs (by simp [Resident.stream?])
  | _ => exact absurd hoffer (by simp [StoreOp.offer])

theorem Charged.apply {s : InMemoryStore} (h : s.Charged) (hc : s.Tallied) {op : StoreOp}
    (hop : s.SameCharge op) : (s.apply op).1.Charged := by
  rcases apply_cases s op with ⟨key, r, -, outcome, -, heq⟩ | ⟨key, r, hoffer, hr, heq⟩ |
    ⟨now, -, heq⟩ | ⟨-, -, anomalies, reply, -, heq⟩
  · rw [heq]; exact h.refuse _ _ _
  · have hfresh := not_holds_of_refusal hr
    rw [heq]
    exact (h.enter hc hfresh (hop.offered hoffer hr)).enforceAgainst (hc.enter hfresh) _
  · rw [heq]; exact h.enforceAgainst hc now
  · rw [heq]; exact h.of_eq rfl rfl rfl

theorem charged_of_reaches {config : RetentionConfig} {hook : Bool} {s : InMemoryStore}
    (h : Reaches Step SameCharge (new config hook) s) : s.Charged ∧ s.Coherent :=
  h.invariant (I := fun s => s.Charged ∧ s.Coherent)
    ⟨Charged.new config hook, Coherent.new config hook⟩ fun s op s' hs hop hstep => by
      rw [hstep]
      exact ⟨hs.1.apply hs.2.tallied hop, hs.2.apply op⟩

/-- **Charges balance where handles of one stream have one size.**  In a run whose accepted
points bring handles of the size their stream was charged, the total is the sum of the charges,
covers every release, and is zero with no point resident: in every state reached, and at every
turn of the pass of the next operation. -/
theorem identity_charge_exact {config : RetentionConfig} {hook : Bool} {s : InMemoryStore}
    (h : Reaches Step SameCharge (new config hook) s) :
    s.Balanced ∧ ∀ op pass, s.SameCharge op → s.DuringPass op pass → pass.store.Balanced := by
  obtain ⟨hcharged, hc⟩ := charged_of_reaches h
  have ht := hc.tallied
  refine ⟨hcharged.balanced ht, ?_⟩
  rintro op pass hop ⟨start, now, hstart | hstart, hturns⟩
  · obtain ⟨key, r, hoffer, hr, rfl, rfl⟩ := hstart
    obtain ⟨hp, hpc⟩ := @charged_of_turns _ ⟨s.enter key r, 0, []⟩ _
      (hcharged.enter ht (not_holds_of_refusal hr) (hop.offered hoffer hr))
      (ht.enter (not_holds_of_refusal hr)) hturns
    exact hp.balanced hpc
  · obtain ⟨-, rfl⟩ := hstart
    obtain ⟨hp, hpc⟩ := @charged_of_turns _ ⟨start, 0, []⟩ _ hcharged ht hturns
    exact hp.balanced hpc

/-- A byte ceiling no small run reaches, and a window of ten nanoseconds. -/
def windowConfig : RetentionConfig := ⟨10, 100000, 10, 5⟩

/-- Two points of one stream, whose handles differ in the resource's `schemaUrl` alone, and the
retention pass that expires both. -/
def twoHandles (first second : Option String) : List StoreOp :=
  [.keepMetricPoint ⟨.serial 1, ⟨0⟩, ⟨0, MetricPoint.bare 1⟩⟩ (.bare "m" first),
    .keepMetricPoint ⟨.serial 2, ⟨0⟩, ⟨1, MetricPoint.bare 2⟩⟩ (.bare "m" second),
    .enforceRetention ⟨20⟩]

theorem identity_charge_exact_twoHandles :
    ((new windowConfig true).run (twoHandles (some "u") (some "v"))).1.Balanced := by
  refine (@identity_charge_exact windowConfig true _ ?_).1
  refine Reaches.head ?_ rfl (Reaches.head ?_ rfl (Reaches.head ?_ rfl (Reaches.refl _)))
  · rintro admitted stream heq -
    obtain ⟨rfl, rfl⟩ := StoreOp.keepMetricPoint.inj heq
    decide
  · rintro admitted stream heq -
    obtain ⟨rfl, rfl⟩ := StoreOp.keepMetricPoint.inj heq
    decide
  · rintro admitted stream heq
    exact absurd heq (by simp)

/-- A handle with a `schemaUrl` is charged and one without is released: what is left stands for
no resident stream. -/
theorem not_identity_charge_exact :
    ¬ ∀ (config : RetentionConfig) (hook : Bool) (ops : List StoreOp),
      ((new config hook).run ops).1.Balanced := by
  intro hclaim
  obtain ⟨-, -, hzero⟩ := hclaim windowConfig true (twoHandles (some "u") none)
  exact absurd (hzero (by decide)) (by decide)

end InMemoryStore

end RuntimeTrail
