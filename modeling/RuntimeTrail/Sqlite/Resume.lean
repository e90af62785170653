import RuntimeTrail.Sqlite.Rebuild

/-!
# A reopened store resumes the closed one

At every point of a run, across any number of reopenings, the file mirrors what is
resident, and opening it again rebuilds what stood there: the records and their
order, the byte accounts, the reference counts.  Only then is it brought under the
ceilings of the new configuration, from the front of the residency order.

* **the rebuild** — `rebuilt_of_mirrors`;
* **the ceilings** — `trimmed_enforceNoWindow`: what is left is the longest suffix
  within them;
* **the open** — `openFile_resumes`, and `reopening_exact` for runs.

The accounts are the condition.  A stream's charge is read off the handle of its
first point when it is live and off the first row when it is rebuilt; equal
handles may differ in size, and then the two accounts differ
(`not_reopening_exact`).
-/

namespace RuntimeTrail

open Library

/-! ## The rebuild -/

/-- The same record, whatever its address; a point's stream may be another handle, equal and
charged alike. -/
def Resident.Same : Resident → Resident → Prop
  | .span a, .span b => a.val = b.val
  | .log a, .log b => a.val = b.val
  | .point a, .point b => SameSlot a b
  | _, _ => False

/-- The same record at the same place in the order. -/
def Entry.Same (a b : Entry) : Prop := a.1 = b.1 ∧ a.2.Same b.2

/-- A store rebuilt as another stood: the same residents in the same order, found by the same
keys, with the same byte accounts and reference counts. -/
structure Rebuilt (live rebuilt : InMemoryStore) : Prop where
  residents : List.Forall₂ Entry.Same live.merged rebuilt.merged
  indexed : rebuilt.spans.Indexed ∧ rebuilt.logs.Indexed ∧ rebuilt.points.Indexed
  shelfBytes : ∀ kind, rebuilt.shelfBytes kind = live.shelfBytes kind
  identityBytes : rebuilt.identityAccountedBytes = live.identityAccountedBytes
  series : ∀ stream, rebuilt.series.get? stream = live.series.get? stream

section Same

variable {live rebuilt : InMemoryStore}

theorem forall₂_merged (hspans : SameRecords live.spans rebuilt.spans)
    (hlogs : SameRecords live.logs rebuilt.logs) (hpoints : SameSlots live.points rebuilt.points) :
    List.Forall₂ Entry.Same live.merged rebuilt.merged := by
  have hle : ∀ a b a' b' : Entry, Entry.Same a b → Entry.Same a' b' →
      Entry.le a a' = Entry.le b b' := fun _ _ _ _ h h' => by
    rw [Entry.le, Entry.le, h.1, h'.1]
  have htagged : ∀ {R : Type} {shelf shelf' : Shelf R} (tag : R → Resident)
      {S : AdmissionKey × R → AdmissionKey × R → Prop},
      List.Forall₂ S shelf.entries shelf'.entries →
      (∀ p q, S p q → Entry.Same (p.1, tag p.2) (q.1, tag q.2)) →
      List.Forall₂ Entry.Same (shelf.tagged tag) (shelf'.tagged tag) := by
    intro R shelf shelf' tag S h hS
    exact List.forall₂_map_left_iff.mpr (List.forall₂_map_right_iff.mpr (h.imp hS))
  exact forall₂_merge hle (forall₂_merge hle (htagged .span hspans fun _ _ h => h)
    (htagged .log hlogs fun _ _ h => h)) (htagged .point hpoints fun _ _ h => h)

/-- Shelves that list the same records have the same sum. -/
theorem recordSum_eq {R : Type} [Accounted R] {shelf shelf' : Shelf R}
    {S : AdmissionKey × R → AdmissionKey × R → Prop}
    (h : List.Forall₂ S shelf.entries shelf'.entries)
    (hS : ∀ p q, S p q → accountedU64 p.2 = accountedU64 q.2) :
    shelf.recordSum = shelf'.recordSum :=
  ((Matched.of_forall₂ h).map_perm hS).sum_eq

theorem pointCount_eq (h : SameSlots live.points rebuilt.points) (stream : StreamIdentity) :
    live.points.pointCount stream = rebuilt.points.pointCount stream := by
  have hmember : ∀ p q : AdmissionKey × PointSlot, p.1 = q.1 ∧ SameSlot p.2 q.2 →
      (p.2.stream == stream) = (q.2.stream == stream) := fun p q hpq =>
    BEq.congr_left hpq.2.stream
  have hperm := (Matched.of_forall₂ h).map_perm hmember
  have hcount : ∀ points : Shelf PointSlot, points.pointCount stream =
      (points.entries.map fun p => p.2.stream == stream).countP id := fun points => by
    rw [Shelf.pointCount, List.countP_map]
    rfl
  rw [hcount, hcount, hperm.countP_eq]

/-- The standing charges of one store are those of the other. -/
theorem chargeSum_eq (h : SameSlots live.points rebuilt.points) (hlive : live.Audited)
    (hrebuilt : rebuilt.Audited) : rebuilt.chargeSum = live.chargeSum := by
  have hkeys : live.chargeSum = ((live.series.entries.map (·.1)).map accountedU64).sum := by
    rw [List.map_map]
    rfl
  have hsame := Matched.of_forall₂ h
  rw [← InMemoryStore.identityBytes_merged hrebuilt.tallied hrebuilt.charged, hkeys]
  refine distinctSum_eq_sum (ContentMap.pairwise_fst.mp live.series.distinct) ?_ ?_ ?_
  · intro stream hs
    obtain ⟨q, hq, rfl⟩ := InMemoryStore.mem_streamsOf_merged.mp hs
    obtain ⟨p, hp, -, hpq⟩ := hsame.flip.exists_right hq
    obtain ⟨e, he, hep⟩ := hlive.tallied.standing_of_mem hp
    exact ⟨e.1, List.mem_map_of_mem he, BEq.trans hep hpq.stream⟩
  · intro k hk
    obtain ⟨e, he, rfl⟩ := List.mem_map.mp hk
    have hpos := hlive.tallied.series.contains_iff.mp (ContentMap.contains_iff.mpr ⟨e, he, BEq.rfl⟩)
    obtain ⟨p, hp, hpe⟩ := List.countP_pos_iff.mp hpos
    obtain ⟨q, hq, -, hpq⟩ := hsame.exists_right hp
    exact ⟨q.2.stream, InMemoryStore.mem_streamsOf_merged.mpr ⟨q, hq, rfl⟩,
      BEq.trans (BEq.symm hpe) hpq.stream⟩
  · intro k hk stream hs heq
    obtain ⟨e, he, rfl⟩ := List.mem_map.mp hk
    obtain ⟨q, hq, rfl⟩ := InMemoryStore.mem_streamsOf_merged.mp hs
    obtain ⟨p, hp, -, hpq⟩ := hsame.flip.exists_right hq
    exact (hlive.charged.sized e he p hp (BEq.trans heq (BEq.symm hpq.stream))).trans hpq.size

/-- A store of the same records, its accounts exact, is rebuilt. -/
theorem rebuilt_of_same (hspans : SameRecords live.spans rebuilt.spans)
    (hlogs : SameRecords live.logs rebuilt.logs) (hpoints : SameSlots live.points rebuilt.points)
    (hlive : live.Audited) (hrebuilt : rebuilt.Audited) : Rebuilt live rebuilt where
  residents := forall₂_merged hspans hlogs hpoints
  indexed := ⟨hrebuilt.tallied.spans, hrebuilt.tallied.logs, hrebuilt.tallied.points⟩
  shelfBytes kind := by
    rw [show rebuilt.shelfBytes kind = rebuilt.recordSum kind from hrebuilt.bytes kind,
      show live.shelfBytes kind = live.recordSum kind from hlive.bytes kind]
    have hval : ∀ {V : Type} [Accounted V] (a b : Arc V), a.val = b.val →
        accountedU64 a = accountedU64 b := fun a b h => by
      change accountedU64 a.val = accountedU64 b.val
      rw [h]
    cases kind with
    | span => exact (recordSum_eq hspans fun p q h => hval p.2 q.2 h.2).symm
    | log => exact (recordSum_eq hlogs fun p q h => hval p.2 q.2 h.2).symm
    | point => exact (recordSum_eq hpoints fun p q h => hval p.2.point q.2.point h.2.point).symm
  identityBytes := by
    rw [hrebuilt.charged.total, hlive.charged.total, chargeSum_eq hpoints hlive hrebuilt]
  series stream := by
    rw [hrebuilt.tallied.series stream, hlive.tallied.series stream, pointCount_eq hpoints]

end Same

/-- A file that mirrors a store mirrors any store of the same records. -/
theorem Mirrors.of_same {decoder : RowDecoder} {tables : Tables} {live rebuilt : InMemoryStore}
    (h : Mirrors decoder tables live) (hspans : SameRecords live.spans rebuilt.spans)
    (hlogs : SameRecords live.logs rebuilt.logs) (hpoints : SameSlots live.points rebuilt.points) :
    Mirrors decoder tables rebuilt where
  spans := Matched.trans h.spans (Matched.of_forall₂ hspans) fun _ _ _ ⟨he, hr⟩ hpq =>
    ⟨he.trans (by rw [hpq.1]), hr.nano.trans (by rw [hpq.1]), hr.record.trans (by rw [hpq.2])⟩
  logs := Matched.trans h.logs (Matched.of_forall₂ hlogs) fun _ _ _ ⟨he, hr⟩ hpq =>
    ⟨he.trans (by rw [hpq.1]), hr.nano.trans (by rw [hpq.1]), hr.record.trans (by rw [hpq.2])⟩
  points := Matched.trans h.points (Matched.of_forall₂ hpoints) fun _ _ _ ⟨he, hr⟩ hpq => by
    obtain ⟨stream, hstream, hequal, hsize⟩ := hr.stream
    exact ⟨he.trans (by rw [hpq.1]), hr.nano.trans (by rw [hpq.1]),
      hr.point.trans (by rw [hpq.2.point]), stream, hstream, BEq.trans hequal hpq.2.stream,
      hsize.trans hpq.2.size⟩

/-- **A file rebuilds the store it mirrors**, in whatever order its rows come. -/
theorem rebuilt_of_mirrors {decoder : RowDecoder} {tables : Tables} {live : InMemoryStore}
    (h : Mirrors decoder tables live) (hlive : live.Audited) (rows : RowOrder tables)
    (addresses : Allocation) (config : RetentionConfig) (hook : Bool) :
    ∃ loaded, load decoder rows = .ok loaded ∧
      Rebuilt live ((rehydrate addresses loaded).inner tables config hook).memory ∧
      ((rehydrate addresses loaded).inner tables config hook).memory.Audited ∧
      Mirrors decoder tables ((rehydrate addresses loaded).inner tables config hook).memory := by
  obtain ⟨spans, hspansOk, hspans⟩ := loadRows_ok h.spans rows.spans_perm "spans"
  obtain ⟨logs, hlogsOk, hlogs⟩ := loadRows_ok h.logs rows.logs_perm "logs"
  obtain ⟨points, hpointsOk, hpoints⟩ := loadPointRows_ok h.points rows.points_perm
  refine ⟨⟨spans, logs, points⟩, by rw [load, hspansOk, hlogsOk, hpointsOk]; rfl, ?_⟩
  obtain ⟨hsi, hse, hss⟩ := rebuilt_records hlive.tallied.spans (hlive.bytes .span)
    (hlive.words.1 .span) hspans (addresses .span)
  obtain ⟨hli, hle, hls⟩ := rebuilt_records hlive.tallied.logs (hlive.bytes .log)
    (hlive.words.1 .log) hlogs (addresses .log)
  -- the store as it stands before the first point is read
  set base : InMemoryStore := { InMemoryStore.new config hook with
    spans := spans.foldl (rehydrateRecord (addresses .span)) Shelf.new
    logs := logs.foldl (rehydrateRecord (addresses .log)) Shelf.new } with hbase
  have hnew := InMemoryStore.Audited.new config hook
  have hbaseAudited : base.Audited := by
    have hsum : ∀ {V : Type} [Accounted V] {shelf shelf' : Shelf (Arc V)}, SameRecords shelf shelf' →
        shelf.recordSum = shelf'.recordSum := fun hsame => recordSum_eq hsame fun p q hpq => by
      change accountedU64 p.2.val = accountedU64 q.2.val
      rw [hpq.2]
    refine ⟨⟨hsi, hli, hnew.tallied.points, hnew.tallied.series⟩, hnew.charged.of_eq rfl rfl rfl,
      fun kind => ?_, fun kind => ?_, Nat.zero_le _⟩
    · cases kind with
      | span => exact hse
      | log => exact hle
      | point => exact hnew.bytes .point
    · cases kind with
      | span =>
        exact (hse.trans ((hsum hss).symm.trans (hlive.bytes .span).symm)).trans_le (hlive.words.1 .span)
      | log =>
        exact (hle.trans ((hsum hls).symm.trans (hlive.bytes .log).symm)).trans_le (hlive.words.1 .log)
      | point => exact Nat.zero_le _
  obtain ⟨haudited, hslots, hspansEq, hlogsEq⟩ :=
    hlive.rebuilt_points hbaseAudited rfl rfl hpoints (addresses .point)
  have hwalk := InMemoryStore.rehydratePoints_eq (addresses .point) points base ContentMap.empty
  have hmemory : ((rehydrate addresses ⟨spans, logs, points⟩).inner tables config hook).memory =
      ((resolveAll ContentMap.empty points).map (slotOf (addresses .point))).foldl
        InMemoryStore.enterPoint base := hwalk
  rw [hmemory]
  have hss' : SameRecords live.spans (((resolveAll ContentMap.empty points).map
      (slotOf (addresses .point))).foldl InMemoryStore.enterPoint base).spans := by
    rw [hspansEq]
    exact hss
  have hls' : SameRecords live.logs (((resolveAll ContentMap.empty points).map
      (slotOf (addresses .point))).foldl InMemoryStore.enterPoint base).logs := by
    rw [hlogsEq]
    exact hls
  exact ⟨rebuilt_of_same hss' hls' hslots hlive haudited, haudited, h.of_same hss' hls' hslots⟩

/-! ## The ceilings -/

/-- The capacity ceilings of a configuration; bytes are measured as a 64-bit count. -/
structure Within (config : RetentionConfig) (order : List Entry) : Prop where
  records : order.length ≤ config.maxRecords
  bytes : saturatingAdd (recordBytes order) (identityBytes order) ≤ config.maxAccountedBytes

/-- What the open-time pass leaves of a store: the longest suffix of the residency order within
the ceilings, its accounts exact. -/
structure Trimmed (config : RetentionConfig) (s s' : InMemoryStore) : Prop where
  survivors : IsLongestSuffix (Within config) s.merged s'.merged
  audited : s'.Audited

namespace Inner

/-- A removal takes the head of the residency order. -/
theorem popOldest_head {i i' : Inner} {ops ops' : List DbOp} {key : AdmissionKey}
    {released : Option StreamIdentity} (h : i.popOldest ops = some ((key, released), i', ops')) :
    ∃ r, i.memory.merged = (key, r) :: i'.memory.merged := by
  have hview := popOldest_view i i.counters ops
  rw [h, Option.map_some] at hview
  obtain ⟨r, hmerged, -⟩ := InMemoryStore.popOldest_spec hview
  refine ⟨r, hmerged.trans ?_⟩
  rfl

theorem popOldest_eq_none {i : Inner} {ops : List DbOp} (h : i.popOldest ops = none) :
    i.memory.merged = [] := by
  have hview := popOldest_view i i.counters ops
  rw [h, Option.map_none] at hview
  exact InMemoryStore.popOldest_eq_none_iff.mp hview

/-- **A capacity ceiling is violated exactly where the order is not within it.** -/
theorem firstViolationNoWindow_eq_none_iff {i : Inner} (h : i.memory.Audited) :
    i.firstViolationNoWindow = none ↔ Within i.config i.memory.merged := by
  have hlen : i.memory.merged.length = i.residentRecords := i.memory.length_merged
  have hbytes : i.accountedBytes =
      saturatingAdd (recordBytes i.memory.merged) (identityBytes i.memory.merged) :=
    h.accountedBytes_eq
  unfold firstViolationNoWindow
  by_cases hr : i.config.maxRecords < i.residentRecords
  · rw [if_pos hr]
    refine ⟨fun h => absurd h (by simp), fun h => ?_⟩
    have := h.records
    omega
  · rw [if_neg hr]
    by_cases hb : i.config.maxAccountedBytes < i.accountedBytes
    · rw [if_pos hb]
      refine ⟨fun h => absurd h (by simp), fun h => ?_⟩
      have := h.bytes
      omega
    · rw [if_neg hb]
      exact ⟨fun _ => ⟨by omega, by omega⟩, fun _ => rfl⟩

/-- Where the open-time pass stands. -/
structure Trimming (decoder : RowDecoder) (tables : Tables) (config : RetentionConfig)
    (sweep : Sweep) : Prop where
  audited : sweep.inner.memory.Audited
  config_eq : sweep.inner.config = config
  staged : Staged decoder tables sweep

theorem Trimming.turn {decoder : RowDecoder} {tables : Tables} {config : RetentionConfig}
    {sweep sweep' : Sweep} (h : Trimming decoder tables config sweep)
    (hstep : evictOneNoWindow sweep = some sweep') :
    Trimming decoder tables config sweep' ∧ ¬ Within config sweep.inner.memory.merged ∧
      ∃ e, sweep.inner.memory.merged = e :: sweep'.inner.memory.merged := by
  unfold evictOneNoWindow at hstep
  split at hstep
  · exact absurd hstep (by simp)
  · rename_i cause hcause
    split at hstep
    · exact absurd hstep (by simp)
    · rename_i key released i ops hpop
      obtain rfl := Option.some.inj hstep
      obtain ⟨-, hconfig, r, hremoves, -⟩ := popOldest_deletes hpop
      obtain ⟨head, hhead⟩ := popOldest_head hpop
      refine ⟨⟨(h.audited.removes hremoves).of_eq rfl rfl rfl rfl rfl,
        hconfig.trans h.config_eq, h.staged.turn hpop _ _ _⟩, fun hwithin => ?_, _, hhead⟩
      rw [← h.config_eq] at hwithin
      rw [(firstViolationNoWindow_eq_none_iff h.audited).mpr hwithin] at hcause
      exact absurd hcause (by simp)

theorem Trimming.stop {decoder : RowDecoder} {tables : Tables} {config : RetentionConfig}
    {sweep : Sweep} (h : Trimming decoder tables config sweep)
    (hstep : evictOneNoWindow sweep = none) : Within config sweep.inner.memory.merged := by
  unfold evictOneNoWindow at hstep
  split at hstep
  · rename_i hnone
    rw [← h.config_eq]
    exact (firstViolationNoWindow_eq_none_iff h.audited).mp hnone
  · split at hstep
    · rename_i hpop
      rw [popOldest_eq_none hpop]
      exact ⟨Nat.zero_le _, Nat.zero_le _⟩
    · exact absurd hstep (by simp)

/-- **The open-time pass leaves the longest suffix within the ceilings**, and its deletes. -/
theorem trimmed_enforceNoWindow {decoder : RowDecoder} {i : Inner} (haudited : i.memory.Audited)
    (h : Mirrors decoder i.conn i.memory) :
    Trimmed i.config i.memory (i.enforceNoWindow [] []).inner.memory ∧
      Trimming decoder i.conn i.config (i.enforceNoWindow [] []) := by
  have hstart : Trimming decoder i.conn i.config ⟨i, 0, [], []⟩ := ⟨haudited, rfl, rfl, h⟩
  have hend : Trimming decoder i.conn i.config (i.enforceNoWindow [] []) :=
    noWindowLoop.run_invariant (fun _ _ hp hstep => (hp.turn hstep).1) hstart
  refine ⟨⟨?_, hend.audited⟩, hend⟩
  exact @Loop.run_isLongestSuffix _ _ noWindowLoop (Trimming decoder i.conn i.config)
    (fun sweep => sweep.inner.memory.merged) _ (fun _ _ hp hstep => (hp.turn hstep).1)
    (fun _ hp hnone => hp.stop hnone) (fun _ _ hp hstep => (hp.turn hstep).2) _ hstart

end Inner

namespace FileBackedStore

/-! ## The open -/

/-- A store whose file mirrors what is resident, its accounts exact. -/
structure Recorded (decoder : RowDecoder) (f : FileBackedStore) : Prop where
  configured : f.Configured
  audited : f.memory.Audited
  mirrors : Mirrors decoder f.inner.conn f.memory

theorem Recorded.openFresh (decoder : RowDecoder) (config : RetentionConfig) (hook : Bool) :
    Recorded decoder (openFresh config hook) where
  configured := rfl
  audited := InMemoryStore.Audited.new config hook
  mirrors := Mirrors.empty config hook

/-- An open of the file under a configuration resumes a store: it reads every row, rebuilds what
stood, and leaves of it what the ceilings allow. -/
structure Resumes (decoder : RowDecoder) (tables : Tables) (live : InMemoryStore)
    (rows : RowOrder tables) (addresses : Allocation) (config : RetentionConfig) (hook : Bool)
    (loaded : LoadedRows) (f : FileBackedStore) : Prop where
  read : load decoder rows = .ok loaded
  opened : ∃ calls, openFile decoder tables rows addresses config hook true = .ok (f, calls)
  rebuilt : Rebuilt live ((rehydrate addresses loaded).inner tables config hook).memory
  trimmed : Trimmed config ((rehydrate addresses loaded).inner tables config hook).memory f.memory
  recorded : Recorded decoder f

/-- An open that reads and writes: the trim, committed and delivered. -/
theorem openFile_eq {decoder : RowDecoder} {tables : Tables} {rows : RowOrder tables}
    {loaded : LoadedRows} (hload : load decoder rows = .ok loaded) (addresses : Allocation)
    (config : RetentionConfig) (hook : Bool) :
    let sweep := ((rehydrate addresses loaded).inner tables config hook).enforceNoWindow [] []
    let delivered := (sweep.inner.commit sweep.ops true).deliver sweep.deliveries
    openFile decoder tables rows addresses config hook true =
      .ok (⟨config, delivered.1⟩, delivered.2) := by
  intro sweep delivered
  have hcommitted : sweep.inner.conn.commit sweep.ops true =
      .ok (sweep.ops.foldl Tables.execute sweep.inner.conn) := by
    unfold Tables.commit
    cases sweep.ops with
    | nil => rfl
    | cons op ops => rfl
  have hdelivered : delivered =
      { sweep.inner with conn := sweep.ops.foldl Tables.execute sweep.inner.conn }.deliver
        sweep.deliveries := by
    change (sweep.inner.commit sweep.ops true).deliver sweep.deliveries = _
    rw [Inner.commit, hcommitted]
  rw [hdelivered]
  unfold openFile
  rw [hload]
  dsimp only
  rw [show ((rehydrate addresses loaded).inner tables config hook).enforceNoWindow [] [] = sweep
    from rfl, hcommitted]

/-- **Opening a file that mirrors a store resumes the store.** -/
theorem openFile_resumes {decoder : RowDecoder} {tables : Tables} {live : InMemoryStore}
    (h : Mirrors decoder tables live) (hlive : live.Audited) (rows : RowOrder tables)
    (addresses : Allocation) (config : RetentionConfig) (hook : Bool) :
    ∃ loaded f, Resumes decoder tables live rows addresses config hook loaded f := by
  obtain ⟨loaded, hload, hrebuilt, haudited, hmirrors⟩ :=
    rebuilt_of_mirrors h hlive rows addresses config hook
  have hopen := openFile_eq hload addresses config hook
  set i := (rehydrate addresses loaded).inner tables config hook with hi
  obtain ⟨htrimmed, htrimming⟩ := Inner.trimmed_enforceNoWindow (i := i) haudited hmirrors
  set sweep := i.enforceNoWindow [] [] with hsweep
  obtain ⟨hmemory, -, hconfig⟩ :=
    Inner.deliver_commit sweep.inner sweep.ops true sweep.deliveries
  have hfinal : ((sweep.inner.commit sweep.ops true).deliver sweep.deliveries).1.memory.Audited := by
    rw [hmemory]
    exact htrimmed.audited.of_eq rfl rfl rfl rfl rfl
  have hmerged : ((sweep.inner.commit sweep.ops true).deliver sweep.deliveries).1.memory.merged =
      sweep.inner.memory.merged := by
    rw [hmemory]
    rfl
  refine ⟨loaded, ⟨config, ((sweep.inner.commit sweep.ops true).deliver sweep.deliveries).1⟩,
    hload, ⟨_, hopen⟩, hrebuilt, ⟨?_, hfinal⟩, ?_, hfinal, htrimming.staged.committed⟩
  · have hsurvivors := htrimmed.survivors
    rw [← hmerged] at hsurvivors
    exact hsurvivors
  · exact htrimming.config_eq.symm.trans hconfig.symm

/-- Over an empty file an open is a fresh store. -/
theorem openFile_empty (decoder : RowDecoder) (addresses : Allocation) (config : RetentionConfig)
    (hook succeeds : Bool) :
    openFile decoder Tables.empty (RowOrder.asEntered Tables.empty) addresses config hook succeeds =
      .ok (openFresh config hook, []) := by
  have hpop : (openFresh config hook).inner.popOldest [] = none := rfl
  have hstop : Inner.evictOneNoWindow ⟨(openFresh config hook).inner, 0, [], []⟩ = none := by
    cases hcause : (openFresh config hook).inner.firstViolationNoWindow with
    | none => simp only [Inner.evictOneNoWindow, hcause]
    | some cause => simp only [Inner.evictOneNoWindow, hcause, hpop]
  have hrun : (openFresh config hook).inner.enforceNoWindow [] [] =
      ⟨(openFresh config hook).inner, 0, [], []⟩ := Loop.run_of_none hstop
  have hload : load decoder (RowOrder.asEntered Tables.empty) = .ok ⟨[], [], []⟩ := rfl
  have hinner : (rehydrate addresses ⟨[], [], []⟩).inner Tables.empty config hook =
      (openFresh config hook).inner := rfl
  simp only [openFile, hload, hinner, hrun]
  rfl

/-! ## Every run -/

/-- What happens to a file-backed store: an operation, or the close of its session and the open
of the next one. -/
inductive FileOp where
  | op (op : StoreOp)
  | reopen (config : RetentionConfig) (hook : Bool) (addresses : Allocation)

/-- One step, its commit succeeding; a reopening reads the rows in any order. -/
def FileStep (codec : Codec) (decoder : RowDecoder) (f : FileBackedStore) :
    FileOp → FileBackedStore → Prop
  | .op op, f' => f' = (f.apply codec true op).1
  | .reopen config hook addresses, f' => ∃ rows calls,
      openFile decoder f.inner.conn rows addresses config hook true = .ok (f', calls)

/-- What a run is given at each of its steps. -/
def Given (codec : Codec) (decoder : RowDecoder) (f : FileBackedStore) : FileOp → Prop
  | .op op => f.Assumed codec decoder op
  | .reopen _ _ _ => True

/-- Whether a step keeps the accounts exact. -/
def KeepsAccounts (f : FileBackedStore) : FileOp → Prop
  | .op op => f.memory.Accountable op
  | .reopen _ _ _ => True

theorem Recorded.step {codec : Codec} {decoder : RowDecoder} {f f' : FileBackedStore}
    {op : FileOp} (h : Recorded decoder f) (hgiven : Given codec decoder f op)
    (hkeeps : KeepsAccounts f op) (hstep : FileStep codec decoder f op f') : Recorded decoder f' := by
  cases op with
  | op op =>
    obtain rfl := hstep
    obtain ⟨hmatches, -⟩ := apply_matches h.configured codec op true
    refine ⟨hmatches.configured, ?_, mirrors_apply h.configured h.mirrors h.audited.tallied op hgiven⟩
    rw [hmatches.memory]
    exact h.audited.apply hkeeps
  | reopen config hook addresses =>
    obtain ⟨rows, calls, hopen⟩ := hstep
    obtain ⟨loaded, g, hresumes⟩ :=
      openFile_resumes h.mirrors h.audited rows addresses config hook
    obtain ⟨calls', hopened⟩ := hresumes.opened
    obtain ⟨rfl, -⟩ := Prod.mk.inj (Except.ok.inj (hopen.symm.trans hopened))
    exact hresumes.recorded

theorem recorded_of_reaches {codec : Codec} {decoder : RowDecoder} {config : RetentionConfig}
    {hook : Bool} {f : FileBackedStore}
    (h : Reaches (FileStep codec decoder) (fun f op => Given codec decoder f op ∧ KeepsAccounts f op)
      (openFresh config hook) f) : Recorded decoder f :=
  h.invariant (Recorded.openFresh decoder config hook) fun _ _ _ hf hok hstep =>
    hf.step hok.1 hok.2 hstep

/-- **A reopened store resumes the closed one.**  In a run whose steps keep the accounts exact,
across any number of reopenings, the tables hold exactly the resident records in every state
reached; and opening the file there, in whatever order its rows come and under whatever
configuration, rebuilds the same residents in the same order with the same byte accounts and
reference counts, and then drops from the front of that order what the ceilings require. -/
theorem reopening_exact {codec : Codec} {decoder : RowDecoder} {config : RetentionConfig}
    {hook : Bool} {f : FileBackedStore}
    (h : Reaches (FileStep codec decoder) (fun f op => Given codec decoder f op ∧ KeepsAccounts f op)
      (openFresh config hook) f) :
    Mirrors decoder f.inner.conn f.memory ∧
      ∀ (rows : RowOrder f.inner.conn) (addresses : Allocation) (config' : RetentionConfig)
        (hook' : Bool), ∃ loaded f',
        Resumes decoder f.inner.conn f.memory rows addresses config' hook' loaded f' := by
  have hrecorded := recorded_of_reaches h
  exact ⟨hrecorded.mirrors, fun rows addresses config' hook' =>
    openFile_resumes hrecorded.mirrors hrecorded.audited rows addresses config' hook'⟩

/-! ## Two handles of one stream -/

/-- A serializer of the two measurements and the handles of one stream. -/
def measurementCodec : Codec where
  span _ := none
  logRecord _ := none
  metricPoint point := some (if point.val = MetricPoint.bare 1 then "one" else "two")
  streamIdentity stream := some (stream.resource.schemaUrl.getD "")

/-- What reads that serializer's payloads back. -/
def measurementDecoder : RowDecoder where
  span _ := .error "no span"
  logRecord _ := .error "no log"
  metricPoint text := .ok (MetricPoint.bare (if text = "one" then 1 else 2))
  streamIdentity text := .ok (.bare "m" (if text = "" then none else some text))

/-- Two points of one stream, under handles that differ in the resource's `schemaUrl` alone. -/
def twoPoints (first second : Option String) : FileOp × FileOp :=
  (.op (.keepMetricPoint ⟨.serial 1, ⟨0⟩, ⟨0, MetricPoint.bare 1⟩⟩ (.bare "m" first)),
    .op (.keepMetricPoint ⟨.serial 2, ⟨0⟩, ⟨1, MetricPoint.bare 2⟩⟩ (.bare "m" second)))

/-- The store once both are kept. -/
def keptBoth (config : RetentionConfig) (first second : Option String) : FileBackedStore :=
  ((openFresh config true).run measurementCodec
    [(.keepMetricPoint ⟨.serial 1, ⟨0⟩, ⟨0, MetricPoint.bare 1⟩⟩ (.bare "m" first), true),
      (.keepMetricPoint ⟨.serial 2, ⟨0⟩, ⟨1, MetricPoint.bare 2⟩⟩ (.bare "m" second), true)]).1

/-- Handles of one size: both points are resident, and reopened under a ceiling of one record the
file keeps the younger. -/
theorem reopening_exact_twoPoints :
    ∃ loaded f', Resumes measurementDecoder
      (keptBoth InMemoryStore.windowConfig (some "u") (some "v")).inner.conn
      (keptBoth InMemoryStore.windowConfig (some "u") (some "v")).memory
      (RowOrder.asEntered _) (fun _ _ => 7) ⟨1, 100000, 10, 5⟩ false loaded f' := by
  refine (@reopening_exact measurementCodec measurementDecoder InMemoryStore.windowConfig true
    (keptBoth InMemoryStore.windowConfig (some "u") (some "v")) ?_).2 _ _ _ _
  refine Reaches.head (e := (twoPoints (some "u") (some "v")).1) ⟨?_, ?_, ?_⟩ rfl
    (Reaches.head (e := (twoPoints (some "u") (some "v")).2) ⟨?_, ?_, ?_⟩ rfl (Reaches.refl _))
  · rintro key r hoffer -
    obtain ⟨rfl, rfl⟩ := Prod.mk.inj (Option.some.inj hoffer)
    exact ⟨by decide, ⟨_, rfl, rfl⟩, _, rfl, rfl⟩
  · rintro kind key r hoffer - -
    obtain ⟨rfl, rfl⟩ := Prod.mk.inj (Option.some.inj hoffer)
    cases kind <;> decide
  · rintro admitted stream heq -
    obtain ⟨rfl, rfl⟩ := StoreOp.keepMetricPoint.inj heq
    decide
  · rintro key r hoffer -
    obtain ⟨rfl, rfl⟩ := Prod.mk.inj (Option.some.inj hoffer)
    exact ⟨by decide, ⟨_, rfl, rfl⟩, _, rfl, rfl⟩
  · rintro kind key r hoffer - -
    obtain ⟨rfl, rfl⟩ := Prod.mk.inj (Option.some.inj hoffer)
    cases kind <;> decide
  · rintro admitted stream heq -
    obtain ⟨rfl, rfl⟩ := StoreOp.keepMetricPoint.inj heq
    decide

/-- Handles of two sizes: once the first point is evicted the live store still charges its
handle, and the rebuilt one charges the other. -/
theorem not_reopening_exact :
    ¬ ∀ (codec : Codec) (decoder : RowDecoder) (config : RetentionConfig) (hook : Bool)
        (f : FileBackedStore),
      Reaches (FileStep codec decoder) (Given codec decoder) (openFresh config hook) f →
        ∀ (rows : RowOrder f.inner.conn) (addresses : Allocation), ∃ loaded,
          load decoder rows = .ok loaded ∧
            Rebuilt f.memory ((rehydrate addresses loaded).inner f.inner.conn config hook).memory := by
  intro hclaim
  have hreach : Reaches (FileStep measurementCodec measurementDecoder)
      (Given measurementCodec measurementDecoder) (openFresh ⟨1, 100000, 10, 5⟩ true)
      (keptBoth ⟨1, 100000, 10, 5⟩ (some "u") none) := by
    refine Reaches.head (e := (twoPoints (some "u") none).1) ?_ rfl
      (Reaches.head (e := (twoPoints (some "u") none).2) ?_ rfl (Reaches.refl _))
    · rintro key r hoffer -
      obtain ⟨rfl, rfl⟩ := Prod.mk.inj (Option.some.inj hoffer)
      exact ⟨by decide, ⟨_, rfl, rfl⟩, _, rfl, rfl⟩
    · rintro key r hoffer -
      obtain ⟨rfl, rfl⟩ := Prod.mk.inj (Option.some.inj hoffer)
      exact ⟨by decide, ⟨_, rfl, rfl⟩, _, rfl, rfl⟩
  obtain ⟨loaded, hload, hrebuilt⟩ := hclaim _ _ _ _ _ hreach (RowOrder.asEntered _) fun _ _ => 0
  have hrows : load measurementDecoder
      (RowOrder.asEntered (keptBoth ⟨1, 100000, 10, 5⟩ (some "u") none).inner.conn) =
        .ok ⟨[], [], [(.serial 2, 0, MetricPoint.bare 2, .bare "m" none)]⟩ := rfl
  obtain rfl := Except.ok.inj (hrows.symm.trans hload)
  exact absurd hrebuilt.identityBytes (by decide)

end FileBackedStore

end RuntimeTrail
