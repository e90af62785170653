import RuntimeTrail.Library.Suffix
import RuntimeTrail.Memory.Charges

/-!
# Retention against its reference

What retention should leave is said of the resident records as one list in the
residency order: the longest suffix of it that has few enough records, few enough
bytes, and nothing expired.  The bytes of a list are its records' and one identity
charge for each distinct stream in it, so dropping a head may free a record's
bytes alone or a whole identity with it.

* **the reference** — `Satisfies`, with `IsLongestSuffix` for the suffix;
* **the store's own sums** — `Accounts`: in runs whose sums fit, `accountedBytes`
  is the reference's count of what is resident, so a ceiling is violated exactly
  where the reference's bound fails (`Accounts.firstViolation_eq_none_iff`);
* **the pass** — `retention_eq_reference`.

The order of a keep is the resident list with the entering record in its place.
Keys of different entities differ, so this order is unique wherever the ids are.
-/

namespace RuntimeTrail

open Library

/-! ## The reference -/

/-- The accounted sizes of a list of records, added up. -/
def recordBytes (order : List Entry) : Nat := (order.map (·.2.size)).sum

/-- The streams of the points in a list. -/
def streamsOf (order : List Entry) : List StreamIdentity := order.filterMap (·.2.stream?)

/-- One identity charge for each distinct stream of a list. -/
def identityBytes (order : List Entry) : Nat := distinctSum accountedU64 (streamsOf order)

/-- Whether the window has run out on a record admitted at this key. -/
def Expired (config : RetentionConfig) (now : AdmissionTime) (key : AdmissionKey) : Prop :=
  key.admittedAt.unixNano ≤ now.unixNano ∧
    config.windowNanos ≤ now.unixNano - key.admittedAt.unixNano

/-- The bounds a retained list meets against the reading `now`. -/
structure Satisfies (config : RetentionConfig) (now : AdmissionTime) (order : List Entry) :
    Prop where
  records : order.length ≤ config.maxRecords
  bytes : recordBytes order + identityBytes order ≤ config.maxAccountedBytes
  window : ∀ e ∈ order, ¬ Expired config now e.1

/-- Equal streams of a list have handles of one size. -/
def SameSizes (order : List Entry) : Prop :=
  ∀ a ∈ streamsOf order, ∀ b ∈ streamsOf order, a == b → accountedU64 a = accountedU64 b

instance (order : List Entry) : Decidable (SameSizes order) :=
  inferInstanceAs (Decidable (∀ a ∈ streamsOf order, ∀ b ∈ streamsOf order, a == b →
    accountedU64 a = accountedU64 b))

theorem recordBytes_cons (e : Entry) (order : List Entry) :
    recordBytes (e :: order) = e.2.size + recordBytes order := by
  rw [recordBytes, List.map_cons, List.sum_cons, recordBytes]

theorem recordBytes_perm {order order' : List Entry} (h : order.Perm order') :
    recordBytes order = recordBytes order' := (h.map _).sum_eq

theorem streamsOf_cons_of_none {e : Entry} {order : List Entry} (h : e.2.stream? = none) :
    streamsOf (e :: order) = streamsOf order := by
  simp [streamsOf, h]

theorem streamsOf_cons_of_some {e : Entry} {order : List Entry} {stream : StreamIdentity}
    (h : e.2.stream? = some stream) : streamsOf (e :: order) = stream :: streamsOf order := by
  simp [streamsOf, h]

theorem identityBytes_cons_le (e : Entry) (order : List Entry) :
    identityBytes order ≤ identityBytes (e :: order) := by
  unfold identityBytes
  cases h : e.2.stream? with
  | none => rw [streamsOf_cons_of_none h]
  | some stream =>
    rw [streamsOf_cons_of_some h, distinctSum]
    split
    · exact le_refl _
    · exact Nat.le_add_left _ _

namespace InMemoryStore

/-! ## The store's own sums -/

/-- The store's sums are those of the reference: each is exact, and together they fit. -/
structure Accounts (config : RetentionConfig) (s : InMemoryStore) : Prop where
  coherent : s.Coherent
  charged : s.Charged
  bytes : ∀ kind, BytesExact kind s
  config_eq : s.config = config
  fits : recordBytes s.merged + identityBytes s.merged ≤ u64Max

theorem mem_streamsOf_merged {s : InMemoryStore} {stream : StreamIdentity} :
    stream ∈ streamsOf s.merged ↔ ∃ p ∈ s.points.entries, p.2.stream = stream := by
  simp only [streamsOf, List.mem_filterMap, mem_merged, Shelf.tagged, List.mem_map]
  constructor
  · rintro ⟨e, ⟨p, hp, rfl⟩ | ⟨p, hp, rfl⟩ | ⟨p, hp, rfl⟩, he⟩
    · exact absurd he (by simp [Resident.stream?])
    · exact absurd he (by simp [Resident.stream?])
    · exact ⟨p, hp, Option.some.inj he⟩
  · rintro ⟨p, hp, rfl⟩
    exact ⟨_, Or.inr (Or.inr ⟨p, hp, rfl⟩), rfl⟩

theorem recordBytes_merged (s : InMemoryStore) :
    recordBytes s.merged = s.recordSum .span + s.recordSum .log + s.recordSum .point := by
  have htagged : ∀ {R : Type} [Accounted R] (shelf : Shelf R) (tag : R → Resident),
      (∀ record, (tag record).size = accountedU64 record) →
      recordBytes (shelf.tagged tag) = shelf.recordSum := by
    intro R _ shelf tag hsize
    rw [recordBytes, Shelf.tagged, List.map_map, Shelf.recordSum]
    exact congrArg List.sum (List.map_congr_left fun p _ => hsize p.2)
  rw [recordBytes_perm s.merged_perm]
  simp only [recordBytes, List.map_append, List.sum_append] at htagged ⊢
  rw [htagged s.spans .span fun _ => rfl, htagged s.logs .log fun _ => rfl,
    htagged s.points .point fun _ => rfl, ← Nat.add_assoc]
  rfl

/-- The standing charges are one charge for each distinct resident stream. -/
theorem identityBytes_merged {s : InMemoryStore} (hc : s.Tallied) (h : s.Charged) :
    identityBytes s.merged = s.chargeSum := by
  have hmap : s.chargeSum = ((s.series.entries.map (·.1)).map accountedU64).sum := by
    rw [List.map_map]; rfl
  rw [identityBytes, hmap]
  refine distinctSum_eq_sum (ContentMap.pairwise_fst.mp s.series.distinct) ?_ ?_ ?_
  · intro stream hs
    obtain ⟨⟨key, slot⟩, hp, rfl⟩ := mem_streamsOf_merged.mp hs
    obtain ⟨e, he, heq⟩ := hc.standing_of_mem hp
    exact ⟨e.1, List.mem_map_of_mem he, heq⟩
  · intro k hk
    obtain ⟨e, he, rfl⟩ := List.mem_map.mp hk
    have hpos := hc.series.contains_iff.mp (ContentMap.contains_iff.mpr ⟨e, he, BEq.rfl⟩)
    obtain ⟨p, hp, heq⟩ := List.countP_pos_iff.mp hpos
    exact ⟨p.2.stream, mem_streamsOf_merged.mpr ⟨p, hp, rfl⟩, BEq.symm heq⟩
  · intro k hk stream hs heq
    obtain ⟨e, he, rfl⟩ := List.mem_map.mp hk
    obtain ⟨p, hp, rfl⟩ := mem_streamsOf_merged.mp hs
    exact h.sized e he p hp heq

/-- What the byte ceiling measures is the reference's count. -/
theorem Accounts.accountedBytes_eq {config : RetentionConfig} {s : InMemoryStore}
    (h : s.Accounts config) :
    s.accountedBytes = recordBytes s.merged + identityBytes s.merged := by
  have hfits := h.fits
  have hident := identityBytes_merged h.coherent.tallied h.charged
  have hrecords := recordBytes_merged s
  have hspans : s.spans.accountedBytes = s.recordSum .span := h.bytes .span
  have hlogs : s.logs.accountedBytes = s.recordSum .log := h.bytes .log
  have hpoints : s.points.accountedBytes = s.recordSum .point := h.bytes .point
  have hrecordBytes : s.recordAccountedBytes = recordBytes s.merged := by
    rw [recordAccountedBytes, hspans, hlogs, hpoints,
      saturatingAdd_of_le (a := s.recordSum .span) (by omega), saturatingAdd_of_le (by omega),
      hrecords]
  rw [accountedBytes, hrecordBytes, h.charged.total, ← hident, saturatingAdd_of_le hfits]

/-- The oldest key heads the merged order. -/
theorem oldestKey_eq_head? (s : InMemoryStore) : s.oldestKey = s.merged.head?.map (·.1) := by
  cases hpop : s.popOldest with
  | none =>
    have hnil := popOldest_eq_none_iff.mp hpop
    rw [oldestKey_eq_none_iff.mpr hnil, hnil]
    rfl
  | some popped =>
    obtain ⟨⟨key, released⟩, s'⟩ := popped
    obtain ⟨r, hmerged, hremoves⟩ := popOldest_spec hpop
    cases hold : s.oldestKey with
    | none => rw [oldestKey_eq_none_iff.mp hold] at hmerged; exact absurd hmerged (by simp)
    | some oldest =>
      obtain ⟨hmem, hs, hl, hp⟩ := oldestKey_eq_some_iff.mp hold
      have hle : oldest ≤ key := by
        have hin : (key, r) ∈ s.merged := by rw [hmerged]; simp
        rcases mem_merged.mp hin with h | h | h
        · exact le_of_oldest hs h
        · exact le_of_oldest hl h
        · exact le_of_oldest hp h
      have hge : key ≤ oldest := by
        have hsorted := s.merged_sorted
        rw [hmerged] at hsorted
        have hhead := (List.pairwise_cons.mp hsorted).1
        have hin : ∃ e ∈ s.merged, e.1 = oldest := by
          rcases hmem with h | h | h
          · obtain ⟨v, hv⟩ := SortedMap.entries_of_firstKey? h
            exact ⟨(oldest, .span v), mem_merged.mpr (Or.inl (List.mem_map.mpr
              ⟨(oldest, v), by rw [Shelf.entries, hv]; simp, rfl⟩)), rfl⟩
          · obtain ⟨v, hv⟩ := SortedMap.entries_of_firstKey? h
            exact ⟨(oldest, .log v), mem_merged.mpr (Or.inr (Or.inl (List.mem_map.mpr
              ⟨(oldest, v), by rw [Shelf.entries, hv]; simp, rfl⟩))), rfl⟩
          · obtain ⟨v, hv⟩ := SortedMap.entries_of_firstKey? h
            exact ⟨(oldest, .point v), mem_merged.mpr (Or.inr (Or.inr (List.mem_map.mpr
              ⟨(oldest, v), by rw [Shelf.entries, hv]; simp, rfl⟩))), rfl⟩
        obtain ⟨e, he, rfl⟩ := hin
        rw [hmerged] at he
        rcases List.mem_cons.mp he with rfl | he
        · exact le_refl _
        · exact hhead e he
      rw [hmerged, le_antisymm hle hge]
      rfl

/-- Nothing is expired exactly when the oldest record is not. -/
theorem forall_not_expired_iff {s : InMemoryStore} {config : RetentionConfig}
    {now : AdmissionTime} :
    (∀ e ∈ s.merged, ¬ Expired config now e.1) ↔
      ∀ oldest, s.oldestKey = some oldest → ¬ Expired config now oldest := by
  rw [oldestKey_eq_head?]
  have hsorted := s.merged_sorted
  cases hm : s.merged with
  | nil => simp
  | cons first rest =>
    rw [hm] at hsorted
    have hhead := (List.pairwise_cons.mp hsorted).1
    simp only [List.head?_cons, Option.map_some, Option.some.injEq, forall_eq']
    refine ⟨fun h => h first (by simp), fun h e he => ?_⟩
    rcases List.mem_cons.mp he with rfl | he
    · exact h
    · -- a younger record expires no earlier
      rintro ⟨hle, hwindow⟩
      have hage := AdmissionKey.unixNano_le_of_le (hhead e he)
      exact h ⟨hage.trans hle, by omega⟩

/-- **A ceiling is violated exactly where the reference's bound fails.** -/
theorem Accounts.firstViolation_eq_none_iff {config : RetentionConfig} {s : InMemoryStore}
    (h : s.Accounts config) {now : AdmissionTime} :
    s.firstViolation now = none ↔ Satisfies config now s.merged := by
  have hbytes := h.accountedBytes_eq
  have hlen := s.length_merged
  have hwindow : s.windowNanos = config.windowNanos := by rw [h.coherent.window, h.config_eq]
  rw [firstViolation, h.config_eq]
  by_cases hr : config.maxRecords < s.residentRecords
  · rw [if_pos hr]
    refine ⟨fun h => absurd h (by simp), fun h => ?_⟩
    have := h.records
    omega
  · rw [if_neg hr]
    by_cases hb : config.maxAccountedBytes < s.accountedBytes
    · rw [if_pos hb]
      refine ⟨fun h => absurd h (by simp), fun h => ?_⟩
      have := h.bytes
      omega
    · rw [if_neg hb]
      have hrest : Satisfies config now s.merged ↔
          ∀ oldest, s.oldestKey = some oldest → ¬ Expired config now oldest := by
        rw [← forall_not_expired_iff]
        exact ⟨fun h => h.window, fun h => ⟨by omega, by omega, h⟩⟩
      rw [hrest]
      cases hold : s.oldestKey with
      | none => simp
      | some oldest => simp [Expired, hwindow]

/-! ## Operations keep the account -/

/-- The side condition of an operation under which the sums are the reference's: with the record
it offers, equal streams have handles of one size and everything together fits. -/
def Bounded (s : InMemoryStore) (op : StoreOp) : Prop :=
  ∀ key r, op.offer = some (key, r) → s.refusal key.entity r = none →
    SameSizes ((key, r) :: s.merged) ∧
      recordBytes ((key, r) :: s.merged) + identityBytes ((key, r) :: s.merged) ≤ u64Max

theorem Accounts.new (config : RetentionConfig) (hook : Bool) :
    (new config hook).Accounts config where
  coherent := Coherent.new config hook
  charged := Charged.new config hook
  bytes kind := BytesExact.new kind config hook
  config_eq := rfl
  fits := by
    have hnil : (InMemoryStore.new config hook).merged = [] := oldestKey_eq_none_iff.mp rfl
    rw [hnil]
    exact Nat.zero_le _

theorem Accounts.of_eq {config : RetentionConfig} {s s' : InMemoryStore} (h : s.Accounts config)
    (hspans : s'.spans = s.spans) (hlogs : s'.logs = s.logs) (hpoints : s'.points = s.points)
    (hseries : s'.series = s.series)
    (htotal : s'.identityAccountedBytes = s.identityAccountedBytes)
    (hwindow : s'.windowNanos = s.windowNanos) (hconfig : s'.config = s.config) :
    s'.Accounts config where
  coherent := h.coherent.of_eq hspans hlogs hpoints hseries hwindow hconfig
  charged := h.charged.of_eq hpoints hseries htotal
  bytes kind := (h.bytes kind).of_eq hspans hlogs hpoints
  config_eq := hconfig.trans h.config_eq
  fits := by
    have hmerged : s'.merged = s.merged := by rw [merged, merged, hspans, hlogs, hpoints]
    rw [hmerged]
    exact h.fits

section Enter

variable {config : RetentionConfig} {s : InMemoryStore} {key : AdmissionKey} {r : Resident}

/-- A record that fits with everything resident fits on its own shelf. -/
theorem Accounts.shelf_fits (h : s.Accounts config) (kind : RecordKind)
    (hfits : recordBytes ((key, r) :: s.merged) + identityBytes ((key, r) :: s.merged) ≤ u64Max) :
    s.shelfBytes kind + r.size ≤ u64Max := by
  rw [recordBytes_cons, recordBytes_merged] at hfits
  rw [show s.shelfBytes kind = s.recordSum kind from h.bytes kind]
  cases kind <;> simp only at hfits ⊢ <;> omega

/-- The offered point's handle meets the standing charge of its stream, or fits beside all. -/
theorem Accounts.charge_fits (h : s.Accounts config) (hsame : SameSizes ((key, r) :: s.merged))
    (hfits : recordBytes ((key, r) :: s.merged) + identityBytes ((key, r) :: s.merged) ≤ u64Max)
    (stream : StreamIdentity) (hstream : r.stream? = some stream) :
    (∀ e ∈ s.series.entries, e.1 == stream → accountedU64 e.1 = accountedU64 stream) ∧
      (s.series.contains stream = false →
        s.identityAccountedBytes + accountedU64 stream ≤ u64Max) := by
  have hstreams : streamsOf ((key, r) :: s.merged) = stream :: streamsOf s.merged :=
    streamsOf_cons_of_some hstream
  constructor
  · intro e he heq
    -- a standing stream has a resident point, whose handle the offered one must match
    have hpos := h.coherent.series.contains_iff.mp (ContentMap.contains_iff.mpr ⟨e, he, BEq.rfl⟩)
    obtain ⟨p, hp, hpe⟩ := List.countP_pos_iff.mp hpos
    rw [h.charged.sized e he p hp (BEq.symm hpe)]
    refine hsame _ ?_ _ (by rw [hstreams]; simp) (BEq.trans hpe heq)
    rw [hstreams]
    exact List.mem_cons_of_mem _ (mem_streamsOf_merged.mpr ⟨p, hp, rfl⟩)
  · intro hnew
    have hany : (streamsOf s.merged).any (· == stream) = false := by
      refine List.any_eq_false.mpr fun k hk heq => ?_
      obtain ⟨⟨pkey, slot⟩, hp, rfl⟩ := mem_streamsOf_merged.mp hk
      obtain ⟨e, he, hes⟩ := h.coherent.tallied.standing_of_mem hp
      exact absurd (BEq.trans hes heq) (by simp [ContentMap.contains_eq_false_iff.mp hnew e he])
    have hident : identityBytes ((key, r) :: s.merged) =
        accountedU64 stream + identityBytes s.merged := by
      rw [identityBytes, hstreams, distinctSum, if_neg (by simp [hany]), identityBytes]
    rw [h.charged.total, ← identityBytes_merged h.coherent.tallied h.charged]
    omega

theorem Accounts.enter (h : s.Accounts config) (hr : s.refusal key.entity r = none)
    (hsame : SameSizes ((key, r) :: s.merged))
    (hfits : recordBytes ((key, r) :: s.merged) + identityBytes ((key, r) :: s.merged) ≤ u64Max) :
    (s.enter key r).Accounts config := by
  have hcharge := h.charge_fits hsame hfits
  have hfresh := not_holds_of_refusal hr
  have hcharged := h.charged.enter h.coherent.tallied hfresh hcharge
  have hcoherent := h.coherent.enter hr
  refine ⟨hcoherent, hcharged, fun kind => (h.bytes kind).enter h.coherent.tallied hfresh fun _ =>
    h.shelf_fits kind hfits, (s.enter_frame key r).1.trans h.config_eq, ?_⟩
  have hident : identityBytes (s.enter key r).merged = identityBytes ((key, r) :: s.merged) := by
    have hbase := identityBytes_merged h.coherent.tallied h.charged
    rw [identityBytes_merged hcoherent.tallied hcharged]
    cases r with
    | span record => exact hbase.symm
    | log record => exact hbase.symm
    | point slot =>
      have hstreams : streamsOf ((key, Resident.point slot) :: s.merged) =
          slot.stream :: streamsOf s.merged := rfl
      rw [identityBytes, hstreams, distinctSum]
      by_cases hs : s.series.contains slot.stream = true
      · have hpos := h.coherent.series.contains_iff.mp hs
        obtain ⟨p, hp, hps⟩ := List.countP_pos_iff.mp hpos
        rw [if_pos (List.any_eq_true.mpr ⟨_, mem_streamsOf_merged.mpr ⟨p, hp, rfl⟩, hps⟩),
          chargeSum_enter_standing hs]
        exact hbase.symm
      · have hnew : s.series.contains slot.stream = false := by simpa using hs
        have hany : ¬ (streamsOf s.merged).any (· == slot.stream) = true := by
          intro hany
          obtain ⟨k, hk, heq⟩ := List.any_eq_true.mp hany
          obtain ⟨p, hp, rfl⟩ := mem_streamsOf_merged.mp hk
          exact hs (h.coherent.series.contains_iff.mpr (List.countP_pos_iff.mpr ⟨p, hp, heq⟩))
        rw [if_neg hany, chargeSum_enter_new hnew, Nat.add_comm, ← hbase, identityBytes]
  rw [hident, recordBytes_perm (h.coherent.tallied.merged_enter hfresh)]
  exact hfits

end Enter

theorem Accounts.evictOne {config : RetentionConfig} {now : AdmissionTime} {pass pass' : Pass}
    (h : pass.store.Accounts config) (hstep : evictOne now pass = some pass') :
    pass'.store.Accounts config := by
  obtain ⟨cause, key, r, released, s', -, hmerged, hremoves, rfl⟩ := evictOne_spec hstep
  have hs' : s'.Accounts config := by
    refine ⟨h.coherent.removes hremoves, h.charged.removes h.coherent.tallied hremoves,
      fun kind => (h.bytes kind).removes hremoves, hremoves.frame.1.trans h.config_eq, ?_⟩
    have hfits := h.fits
    have hident := identityBytes_cons_le (key, r) s'.merged
    rw [hmerged, recordBytes_cons] at hfits
    omega
  exact hs'.of_eq rfl rfl rfl rfl rfl rfl rfl

theorem Accounts.enforceAgainst {config : RetentionConfig} {s : InMemoryStore}
    (h : s.Accounts config) (now : AdmissionTime) :
    (s.enforceAgainst now).store.Accounts config :=
  (passLoop now).run_invariant (I := fun pass => pass.store.Accounts config)
    (fun _ _ hp hstep => hp.evictOne hstep) h

theorem Accounts.apply {config : RetentionConfig} {s : InMemoryStore} (h : s.Accounts config)
    {op : StoreOp} (hop : s.Bounded op) : (s.apply op).1.Accounts config := by
  rcases apply_cases s op with ⟨key, r, -, outcome, -, heq⟩ | ⟨key, r, hoffer, hr, heq⟩ |
    ⟨now, -, heq⟩ | ⟨-, -, anomalies, reply, -, heq⟩
  · obtain ⟨hspans, hlogs, hpoints, hseries, htotal, hconfig, hwindow, -⟩ :=
      s.refuse_frame key.entity r outcome
    rw [heq]
    exact h.of_eq hspans hlogs hpoints hseries htotal hwindow hconfig
  · obtain ⟨hsame, hfits⟩ := hop key r hoffer hr
    rw [heq]
    exact (h.enter hr hsame hfits).enforceAgainst _
  · rw [heq]; exact h.enforceAgainst now
  · rw [heq]; exact h.of_eq rfl rfl rfl rfl rfl rfl rfl

theorem accounts_of_reaches {config : RetentionConfig} {hook : Bool} {s : InMemoryStore}
    (h : Reaches Step Bounded (new config hook) s) : s.Accounts config :=
  h.invariant (Accounts.new config hook) fun s op s' hs hop hstep => by
    rw [hstep]
    exact hs.apply hop

/-! ## The pass -/

end InMemoryStore

/-- The record an eviction call names. -/
def HookCall.evicted? : HookCall → Option EntityId
  | .evicted entity => some entity
  | _ => none

namespace InMemoryStore

/-- What enforcement over an order leaves: the longest suffix that meets the bounds, the records
before it counted and reported in order, the series cap kept, and no ceiling violated. -/
structure Enforced (config : RetentionConfig) (hook : Bool) (now : AdmissionTime)
    (order : List Entry) (s' : InMemoryStore) (evicted : Nat) (calls : List HookCall) : Prop where
  survivors : IsLongestSuffix (Satisfies config now) order s'.merged
  removed : evicted ≤ order.length ∧ s'.merged = order.drop evicted
  reported : calls.filterMap HookCall.evicted? =
    if hook then (order.take evicted).map (·.1.entity) else []
  seriesCap : s'.series.length ≤ config.seriesCap
  stopped : s'.firstViolation now = none

/-- Where a pass over an order stands: that many heads removed, each of them reported. -/
structure Underway (config : RetentionConfig) (hook : Bool) (order : List Entry) (pass : Pass) :
    Prop where
  accounts : pass.store.Accounts config
  hook_eq : pass.store.hook = hook
  removed : pass.evicted ≤ order.length ∧ pass.store.merged = order.drop pass.evicted
  reported : pass.calls.filterMap HookCall.evicted? =
    if hook then (order.take pass.evicted).map (·.1.entity) else []

theorem evicted?_evictionCalls (hook : Bool) (key : AdmissionKey)
    (released : Option StreamIdentity) :
    (evictionCalls hook key released).filterMap HookCall.evicted? =
      if hook then [key.entity] else [] := by
  cases hook <;> cases released <;> simp [evictionCalls, HookCall.evicted?]

theorem Underway.start {config : RetentionConfig} {hook : Bool} {s : InMemoryStore}
    (h : s.Accounts config) (hhook : s.hook = hook) :
    Underway config hook s.merged ⟨s, 0, []⟩ :=
  ⟨h, hhook, ⟨Nat.zero_le _, rfl⟩, by simp⟩

/-- Each turn removes the next record of the order and reports it. -/
theorem Underway.evictOne {config : RetentionConfig} {hook : Bool} {order : List Entry}
    {now : AdmissionTime} {pass pass' : Pass} (h : Underway config hook order pass)
    (hstep : evictOne now pass = some pass') : Underway config hook order pass' := by
  have haccounts := h.accounts.evictOne hstep
  obtain ⟨cause, key, r, released, s', -, hmerged, hremoves, rfl⟩ := evictOne_spec hstep
  have hhook : s'.hook = hook := hremoves.frame.2.1.trans h.hook_eq
  have hdrop : order.drop pass.evicted = (key, r) :: s'.merged := h.removed.2 ▸ hmerged
  have hlt : pass.evicted < order.length := by
    by_contra hge
    rw [List.drop_eq_nil_of_le (by omega)] at hdrop
    exact absurd hdrop (by simp)
  have hcons := List.drop_eq_getElem_cons hlt
  rw [hdrop] at hcons
  obtain ⟨hhead, htail⟩ := List.cons.inj hcons
  refine ⟨haccounts, hhook, ⟨hlt, htail⟩, ?_⟩
  change (pass.calls ++ evictionCalls s'.hook key released).filterMap HookCall.evicted? = _
  rw [List.filterMap_append, h.reported, evicted?_evictionCalls, hhook]
  cases hook with
  | false => rfl
  | true =>
    simp only [if_true]
    rw [List.take_succ_eq_append_getElem hlt, List.map_append, ← hhead]
    rfl

theorem underway_of_turns {config : RetentionConfig} {hook : Bool} {order : List Entry}
    {now : AdmissionTime} {pass pass' : Pass} (h : Underway config hook order pass)
    (hturns : Relation.ReflTransGen (fun p p' => InMemoryStore.evictOne now p = some p') pass pass') :
    Underway config hook order pass' := by
  induction hturns with
  | refl => exact h
  | tail _ hstep ih => exact ih.evictOne hstep

/-- **One pass is the reference**, whatever store it starts from. -/
theorem Accounts.enforced {config : RetentionConfig} {hook : Bool} {s : InMemoryStore}
    (h : s.Accounts config) (hhook : s.hook = hook) (now : AdmissionTime) :
    Enforced config hook now s.merged (s.enforceAgainst now).store (s.enforceAgainst now).evicted
      (s.enforceAgainst now).calls := by
  have hend : Underway config hook s.merged (s.enforceAgainst now) :=
    (passLoop now).run_invariant (fun _ _ hp hstep => hp.evictOne hstep) (Underway.start h hhook)
  have hempty : ∀ {s : InMemoryStore}, s.Accounts config → s.merged = [] →
      Satisfies config now s.merged := fun _ hnil => by
    rw [hnil]
    exact ⟨Nat.zero_le _, Nat.zero_le _, fun e he => absurd he (by simp)⟩
  have hstop : ∀ {pass : Pass}, pass.store.Accounts config → InMemoryStore.evictOne now pass = none →
      Satisfies config now pass.store.merged := fun hp hnone => by
    rcases evictOne_eq_none_iff.mp hnone with hv | hnil
    · exact hp.firstViolation_eq_none_iff.mp hv
    · exact hempty hp hnil
  have hsuffix : IsLongestSuffix (Satisfies config now) s.merged (s.enforceAgainst now).store.merged := by
    refine @Loop.run_isLongestSuffix _ _ (passLoop now) (fun pass => pass.store.Accounts config)
      (fun pass => pass.store.merged) _ (fun _ _ hp hstep => hp.evictOne hstep)
      (fun _ hp hnone => hstop hp hnone) ?_ ⟨s, 0, []⟩ h
    intro pass pass' hp hstep
    obtain ⟨cause, key, r, released, s', hcause, hmerged, -, rfl⟩ := evictOne_spec hstep
    refine ⟨fun hsat => ?_, (key, r), hmerged⟩
    rw [hp.firstViolation_eq_none_iff.mpr hsat] at hcause
    exact absurd hcause (by simp)
  refine ⟨hsuffix, hend.removed, hend.reported, ?_, ?_⟩
  · have hcap := hend.accounts.coherent.seriesCap
    rw [hend.accounts.config_eq] at hcap
    exact hcap
  · exact hend.accounts.firstViolation_eq_none_iff.mpr
      (hstop hend.accounts ((passLoop now).step_run _))

theorem hook_of_apply (s : InMemoryStore) (op : StoreOp) : (s.apply op).1.hook = s.hook := by
  have hpass : ∀ (s : InMemoryStore) now, (s.enforceAgainst now).store.hook = s.hook :=
    fun s now => (passLoop now).run_invariant (I := fun pass => pass.store.hook = s.hook)
      (s := ⟨s, 0, []⟩) (fun _ _ hp hstep => by
        obtain ⟨cause, key, r, released, s', -, -, hremoves, rfl⟩ := evictOne_spec hstep
        exact hremoves.frame.2.1.trans hp) rfl
  rcases apply_cases s op with ⟨key, r, -, outcome, -, heq⟩ | ⟨key, r, hoffer, hr, heq⟩ |
    ⟨now, -, heq⟩ | ⟨-, -, anomalies, reply, -, heq⟩
  · rw [heq]; exact (s.refuse_frame key.entity r outcome).2.2.2.2.2.2.2.1
  · rw [heq]; exact (hpass _ _).trans (s.enter_frame key r).2.1
  · rw [heq]; exact hpass s now
  · rw [heq]

theorem hook_of_reaches {config : RetentionConfig} {hook : Bool}
    {ok : InMemoryStore → StoreOp → Prop} {s : InMemoryStore}
    (h : Reaches Step ok (new config hook) s) : s.hook = hook :=
  h.invariant (I := fun s => s.hook = hook) rfl fun s op s' hs _ hstep => by
    rw [hstep, hook_of_apply, hs]

/-- **Retention is its reference.**  In a run whose sums fit and whose equal streams have handles
of one size, a record kept joins the resident records in the residency order, and the pass that
follows, like any `enforceRetention`, leaves exactly the longest suffix of that order within the
record ceiling, the byte ceiling and the window; it removes the records before it one by one in
that order, and answers how many. -/
theorem retention_eq_reference {config : RetentionConfig} {hook : Bool} {s : InMemoryStore}
    (h : Reaches Step Bounded (new config hook) s) (op : StoreOp) (hop : s.Bounded op) :
    (∀ key r n, op.offer = some (key, r) → (s.apply op).2.1 = .keep (.kept n) →
      ∃ order : List Entry, order.Perm ((key, r) :: s.merged) ∧
        order.Pairwise (fun a b => a.1 ≤ b.1) ∧
        Enforced config hook key.admittedAt order (s.apply op).1 n (s.apply op).2.2 ∧
        ∀ pass, s.DuringPass op pass → pass.store.merged = order.drop pass.evicted) ∧
    (∀ now, op = .enforceRetention now → ∃ n, (s.apply op).2.1 = .evicted n ∧
      Enforced config hook now s.merged (s.apply op).1 n (s.apply op).2.2 ∧
      ∀ pass, s.DuringPass op pass → pass.store.merged = s.merged.drop pass.evicted) := by
  have haccounts := accounts_of_reaches h
  have hhook := hook_of_reaches h
  constructor
  · intro key r n hoffer hreply
    have hr : s.refusal key.entity r = none := by
      rw [apply_keep hoffer, keepResident] at hreply
      split at hreply
      · rename_i outcome hrefused
        have houtcome : (s.refuse key.entity r outcome).outcome = outcome := by
          unfold refuse; split <;> rfl
        rw [StoreReply.keep.inj hreply] at houtcome
        exact absurd (houtcome ▸ hrefused) refusal_ne_kept
      · assumption
    obtain ⟨hsame, hfits⟩ := hop key r hoffer hr
    have hentered := haccounts.enter hr hsame hfits
    have hhook' : (s.enter key r).hook = hook := (s.enter_frame key r).2.1.trans hhook
    have hkeep : s.keepResident key r = ⟨((s.enter key r).enforceAgainst key.admittedAt).store,
        .kept ((s.enter key r).enforceAgainst key.admittedAt).evicted,
        ((s.enter key r).enforceAgainst key.admittedAt).calls⟩ := by
      simp only [keepResident, hr]
    refine ⟨(s.enter key r).merged,
      haccounts.coherent.tallied.merged_enter (not_holds_of_refusal hr), merged_sorted _, ?_, ?_⟩
    · rw [apply_keep hoffer, hkeep] at hreply ⊢
      obtain rfl := KeepOutcome.kept.inj (StoreReply.keep.inj hreply)
      exact hentered.enforced hhook' _
    · rintro pass ⟨start, now, ⟨key', r', hoffer', -, rfl, rfl⟩ | ⟨rfl, -⟩, hturns⟩
      · obtain ⟨rfl, rfl⟩ := Prod.mk.inj (Option.some.inj (hoffer.symm.trans hoffer'))
        exact (underway_of_turns (Underway.start hentered hhook') hturns).removed.2
      · exact absurd hoffer (by simp [StoreOp.offer])
  · rintro now rfl
    refine ⟨_, rfl, haccounts.enforced hhook now, ?_⟩
    rintro pass ⟨start, now', ⟨key', r', hoffer', -⟩ | ⟨-, rfl⟩, hturns⟩
    · exact absurd hoffer' (by simp [StoreOp.offer])
    · exact (underway_of_turns (Underway.start haccounts hhook) hturns).removed.2

/-- Two logs, kept at times 0 and 5. -/
def twoLogs : List StoreOp :=
  [.keepLogRecord ⟨.serial 1, ⟨0⟩, ⟨0, LogRecord.bare none none⟩⟩,
    .keepLogRecord ⟨.serial 2, ⟨5⟩, ⟨1, LogRecord.bare none none⟩⟩]

/-- A point kept at 12 expires the first of them. -/
theorem retention_eq_reference_twoLogs :
    let s := ((new windowConfig true).run twoLogs).1
    let op : StoreOp :=
      .keepMetricPoint ⟨.serial 3, ⟨12⟩, ⟨2, MetricPoint.bare 1⟩⟩ (.bare "m" none)
    ∃ order : List Entry, order.length = 3 ∧
      Enforced windowConfig true ⟨12⟩ order (s.apply op).1 1 (s.apply op).2.2 := by
  have hbounded : ∀ (s : InMemoryStore) (op : StoreOp) key r, op.offer = some (key, r) →
      s.spans.entries = [] → s.points.entries = [] →
      SameSizes ((key, r) :: s.logs.tagged .log) ∧
        recordBytes ((key, r) :: s.logs.tagged .log) +
          identityBytes ((key, r) :: s.logs.tagged .log) ≤ u64Max →
      s.Bounded op := fun s op key r hoffer hspans hpoints h key' r' hoffer' _ => by
    obtain ⟨rfl, rfl⟩ := Prod.mk.inj (Option.some.inj (hoffer.symm.trans hoffer'))
    have hmerged : s.merged = s.logs.tagged .log := by
      simp only [merged, Shelf.tagged, hspans, hpoints, List.map_nil, List.nil_merge,
        List.merge_right]
    rw [hmerged]
    exact h
  have hreach : Reaches Step Bounded (new windowConfig true)
      ((new windowConfig true).run twoLogs).1 :=
    Reaches.head (hbounded _ _ _ _ rfl rfl rfl (by decide)) rfl
      (Reaches.head (hbounded _ _ _ _ rfl rfl rfl (by decide)) rfl (Reaches.refl _))
  have hop := hbounded ((new windowConfig true).run twoLogs).1
    (.keepMetricPoint ⟨.serial 3, ⟨12⟩, ⟨2, MetricPoint.bare 1⟩⟩ (.bare "m" none)) _ _ rfl
    rfl rfl (by decide)
  obtain ⟨order, hperm, -, henforced, -⟩ :=
    (retention_eq_reference hreach _ hop).1 ⟨⟨12⟩, .serial 3⟩ _ 1 rfl rfl
  refine ⟨order, ?_, henforced⟩
  rw [hperm.length_eq, List.length_cons, length_merged]
  rfl

end InMemoryStore

end RuntimeTrail
