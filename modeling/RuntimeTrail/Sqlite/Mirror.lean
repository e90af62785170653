import RuntimeTrail.Library.Matching
import RuntimeTrail.Memory.Audit
import RuntimeTrail.Sqlite.Reopen

/-!
# The file holds what is resident

A table mirrors a shelf when its rows are, in some order, the shelf's records: each
under the record's entity, with its admission time, decoding to the record.  The
write batch of an operation carries its put before the deletes of the pass that
follows, so a record inserted and evicted by one operation leaves no row.

* **one table** — `Mirrored.insert`, `Mirrored.popSmallest`;
* **the staged batch** — `Mirrors.enter`, `Mirrors.removes`: what the staged
  changes would make of the file mirrors what is resident at every turn of a pass;
* **every operation** — `mirrors_apply`: a batch that commits makes it so.
-/

namespace RuntimeTrail

open Library

/-! ## One table and one shelf -/

section Table

variable {ρ R : Type} {S : ρ → AdmissionKey × R → Prop} {table : ContentMap EntityId ρ}
  {shelf shelf' : Shelf R}

/-- The table's rows are, in some order, the shelf's records under their entities. -/
def Mirrored (S : ρ → AdmissionKey × R → Prop) (table : ContentMap EntityId ρ)
    (shelf : Shelf R) : Prop :=
  Matched (fun row p => row.1 = p.1.entity ∧ S row.2 p) table.entries shelf.entries

theorem Mirrored.empty : Mirrored S ContentMap.empty Shelf.new := Matched.nil

/-- An entity the shelf does not hold has no row. -/
theorem Mirrored.getPair?_eq_none (h : Mirrored S table shelf) (hindexed : shelf.Indexed)
    {entity : EntityId} (hfresh : shelf.contains entity = false) :
    table.getPair? entity = none := by
  refine ContentMap.getPair?_eq_none_iff.mpr fun row hrow => ?_
  obtain ⟨p, hp, hentity, -⟩ := h.exists_right hrow
  by_contra heq
  have hcontains : shelf.contains entity = true :=
    hindexed.contains_iff.mpr ⟨p, hp, by rw [← hentity]; simpa using heq⟩
  rw [hfresh] at hcontains
  exact absurd hcontains (by simp)

theorem Mirrored.insert [Accounted R] (h : Mirrored S table shelf) (hindexed : shelf.Indexed)
    (admitted : Admitted R) {row : ρ} (hfresh : shelf.contains admitted.entity = false)
    (hrow : S row (⟨admitted.admittedAt, admitted.entity⟩, admitted.record)) :
    Mirrored S (table.insert admitted.entity row) (shelf.insert admitted) := by
  have hentered := ContentMap.insert_perm_of_none (v := row) (h.getPair?_eq_none hindexed hfresh)
  exact (Matched.cons ⟨rfl, hrow⟩ h).perm_left hentered |>.perm_right
    (hindexed.insert_perm hfresh).symm

theorem Mirrored.popSmallest [Accounted R] (h : Mirrored S table shelf) {key : AdmissionKey}
    {record : R} (hpop : shelf.popSmallest = some ((key, record), shelf')) :
    Mirrored S (table.erase key.entity) shelf' := by
  unfold Mirrored at h
  rw [(Shelf.popSmallest_eq_some hpop).1] at h
  obtain ⟨row, rest, hperm, ⟨hentity, -⟩, hrest⟩ := h.of_cons
  have herased := ContentMap.erase_perm_of_cons hperm
  rw [hentity] at herased
  exact hrest.perm_left herased

end Table

/-! ## Rows of each kind -/

/-- A row of a table of records holds this record. -/
structure RecordRow {V : Type} (decode : String → Except String V) (row : Row)
    (p : AdmissionKey × Arc V) : Prop where
  nano : row.admissionNano = p.1.admittedAt.unixNano
  record : decode row.payload = .ok p.2.val

/-- A row of the table of points holds this point, and a stream equal to the point's and
charged alike. -/
structure SlotRow (decoder : RowDecoder) (row : PointRow) (p : AdmissionKey × PointSlot) :
    Prop where
  nano : row.admissionNano = p.1.admittedAt.unixNano
  point : decoder.metricPoint row.payload = .ok p.2.point.val
  stream : ∃ stream, decoder.streamIdentity row.streamPayload = .ok stream ∧
    (stream == p.2.stream) = true ∧ accountedU64 stream = accountedU64 p.2.stream

/-- **The tables hold exactly the resident records.** -/
structure Mirrors (decoder : RowDecoder) (tables : Tables) (s : InMemoryStore) : Prop where
  spans : Mirrored (RecordRow decoder.span) tables.spans s.spans
  logs : Mirrored (RecordRow decoder.logRecord) tables.logs s.logs
  points : Mirrored (SlotRow decoder) tables.points s.points

/-- The serializer's payloads of a record decode to the record. -/
def RoundTrips (codec : Codec) (decoder : RowDecoder) : Resident → Prop
  | .span record => ∃ payload, codec.span record = some payload ∧
      decoder.span payload = .ok record.val
  | .log record => ∃ payload, codec.logRecord record = some payload ∧
      decoder.logRecord payload = .ok record.val
  | .point slot =>
    (∃ payload, codec.metricPoint slot.point = some payload ∧
      decoder.metricPoint payload = .ok slot.point.val) ∧
    ∃ payload, codec.streamIdentity slot.stream = some payload ∧
      decoder.streamIdentity payload = .ok slot.stream

/-- The delete a removal stages. -/
def deleteOp (entity : EntityId) : Resident → DbOp
  | .span _ => .deleteSpan entity
  | .log _ => .deleteLog entity
  | .point _ => .deletePoint entity

namespace Mirrors

variable {decoder : RowDecoder} {tables : Tables} {s s' : InMemoryStore}

theorem of_eq (h : Mirrors decoder tables s) (hspans : s'.spans = s.spans)
    (hlogs : s'.logs = s.logs) (hpoints : s'.points = s.points) : Mirrors decoder tables s' where
  spans := hspans ▸ h.spans
  logs := hlogs ▸ h.logs
  points := hpoints ▸ h.points

theorem empty (config : RetentionConfig) (hook : Bool) :
    Mirrors decoder Tables.empty (InMemoryStore.new config hook) where
  spans := Mirrored.empty
  logs := Mirrored.empty
  points := Mirrored.empty

/-- A removal and its staged delete take the same record. -/
theorem removes (h : Mirrors decoder tables s) {key : AdmissionKey}
    {released : Option StreamIdentity} {r : Resident} (hr : s.Removes key released s' r) :
    Mirrors decoder (tables.execute (deleteOp key.entity r)) s' := by
  cases r with
  | span record =>
    obtain ⟨spans, hpop, rfl, -⟩ := hr
    exact ⟨h.spans.popSmallest hpop, h.logs, h.points⟩
  | log record =>
    obtain ⟨logs, hpop, rfl, -⟩ := hr
    exact ⟨h.spans, h.logs.popSmallest hpop, h.points⟩
  | point slot =>
    obtain ⟨points, hpop, rfl, -⟩ := hr
    obtain ⟨hspans, hlogs, hpoints⟩ :=
      InMemoryStore.releaseStreamRef_shelves { s with points := points } slot.stream
    exact of_eq (s := { s with points := points })
      ⟨h.spans, h.logs, h.points.popSmallest hpop⟩ hspans hlogs hpoints

theorem admissionColumn_of_le {nano : Nat} (h : nano ≤ i64Max) : admissionColumn nano = nano :=
  if_pos h

/-- An entry and its staged row put the same record. -/
theorem enter (h : Mirrors decoder tables s) (hc : s.Tallied) {codec : Codec} {key : AdmissionKey}
    {r : Resident} (hfresh : s.holds key.entity r = false)
    (htime : key.admittedAt.unixNano ≤ i64Max) (hround : RoundTrips codec decoder r) :
    Mirrors decoder ((FileBackedStore.row codec key r).foldl Tables.execute tables)
      (s.enter key r) := by
  have hcolumn := admissionColumn_of_le htime
  cases r with
  | span record =>
    obtain ⟨payload, hencoded, hdecoded⟩ := hround
    simp only [FileBackedStore.row, hencoded, List.foldl_cons, List.foldl_nil, Tables.execute]
    exact ⟨h.spans.insert hc.spans ⟨key.entity, key.admittedAt, record⟩ hfresh
      ⟨hcolumn, hdecoded⟩, h.logs, h.points⟩
  | log record =>
    obtain ⟨payload, hencoded, hdecoded⟩ := hround
    simp only [FileBackedStore.row, hencoded, List.foldl_cons, List.foldl_nil, Tables.execute]
    exact ⟨h.spans, h.logs.insert hc.logs ⟨key.entity, key.admittedAt, record⟩
      hfresh ⟨hcolumn, hdecoded⟩, h.points⟩
  | point slot =>
    obtain ⟨⟨payload, hencoded, hdecoded⟩, streamPayload, hstream, hstream'⟩ := hround
    simp only [FileBackedStore.row, hencoded, hstream, List.foldl_cons, List.foldl_nil,
      Tables.execute]
    exact ⟨h.spans, h.logs, h.points.insert hc.points
      ⟨key.entity, key.admittedAt, slot⟩ hfresh
      ⟨hcolumn, hdecoded, _, hstream', BEq.rfl, rfl⟩⟩

end Mirrors

/-! ## The staged batch -/

namespace Inner

/-- A removal stages its own delete, and leaves the file alone. -/
theorem popOldest_deletes {i i' : Inner} {ops ops' : List DbOp} {key : AdmissionKey}
    {released : Option StreamIdentity} (h : i.popOldest ops = some ((key, released), i', ops')) :
    i'.conn = i.conn ∧ i'.config = i.config ∧
      ∃ r, i.memory.Removes key released i'.memory r ∧ ops' = ops ++ [deleteOp key.entity r] := by
  unfold popOldest at h
  split at h
  · exact absurd h (by simp)
  · split at h
    · obtain ⟨⟨⟨k, record⟩, spans⟩, hpop, heq⟩ := Option.map_eq_some_iff.mp h
      obtain ⟨hkr, hi⟩ := Prod.mk.inj heq
      obtain ⟨rfl, rfl⟩ := Prod.mk.inj hkr
      obtain ⟨rfl, rfl⟩ := Prod.mk.inj hi
      exact ⟨rfl, rfl, .span record, ⟨spans, hpop, rfl, rfl⟩, rfl⟩
    · split at h
      · obtain ⟨⟨⟨k, record⟩, logs⟩, hpop, heq⟩ := Option.map_eq_some_iff.mp h
        obtain ⟨hkr, hi⟩ := Prod.mk.inj heq
        obtain ⟨rfl, rfl⟩ := Prod.mk.inj hkr
        obtain ⟨rfl, rfl⟩ := Prod.mk.inj hi
        exact ⟨rfl, rfl, .log record, ⟨logs, hpop, rfl, rfl⟩, rfl⟩
      · split at h
        · exact absurd h (by simp)
        · rename_i k slot points hpop
          obtain ⟨hkr, hi⟩ := Prod.mk.inj (Option.some.inj h)
          obtain ⟨rfl, rfl⟩ := Prod.mk.inj hkr
          obtain ⟨rfl, rfl⟩ := Prod.mk.inj hi
          have hview := releaseStreamRef_view { i with points := points } i.counters slot.stream
          obtain ⟨hconn, -, hcounters⟩ := releaseStreamRef_frame { i with points := points } slot.stream
          refine ⟨hconn, ?_, .point slot, ⟨points, hpop, ?_, ?_⟩, rfl⟩
          · unfold releaseStreamRef
            split
            · rfl
            · split <;> rfl
          · rw [memory, hcounters]
            exact (congrArg Prod.fst hview).symm
          · exact congrArg (fun b : Bool => if b then some slot.stream else none)
              (congrArg Prod.snd hview).symm

/-- Where a pass over a file stands: what the staged batch would make of the file mirrors what
is resident. -/
structure Staged (decoder : RowDecoder) (tables : Tables) (sweep : Sweep) : Prop where
  conn : sweep.inner.conn = tables
  mirrors : Mirrors decoder (sweep.ops.foldl Tables.execute tables) sweep.inner.memory

/-- A turn that takes one record off and counts it keeps the batch in step. -/
theorem Staged.turn {decoder : RowDecoder} {tables : Tables} {sweep : Sweep}
    (h : Staged decoder tables sweep) {key : AdmissionKey} {released : Option StreamIdentity}
    {i : Inner} {ops : List DbOp} (hpop : sweep.inner.popOldest sweep.ops = some ((key, released), i, ops))
    (counters : Counters) (evicted : Nat) (deliveries : List Delivery) :
    Staged decoder tables ⟨{ i with counters := counters }, evicted, ops, deliveries⟩ := by
  obtain ⟨hconn, -, r, hremoves, rfl⟩ := popOldest_deletes hpop
  refine ⟨hconn.trans h.conn, ?_⟩
  rw [List.foldl_append]
  exact (h.mirrors.removes hremoves).of_eq rfl rfl rfl

theorem Staged.evictOne {decoder : RowDecoder} {tables : Tables} {now : AdmissionTime}
    {sweep sweep' : Sweep} (h : Staged decoder tables sweep)
    (hstep : Inner.evictOne now sweep = some sweep') : Staged decoder tables sweep' := by
  unfold Inner.evictOne at hstep
  split at hstep
  · exact absurd hstep (by simp)
  · split at hstep
    · exact absurd hstep (by simp)
    · rename_i hpop
      obtain rfl := Option.some.inj hstep
      exact h.turn hpop _ _ _

/-- A batch that commits is what the file then is. -/
theorem conn_commit (i : Inner) (ops : List DbOp) :
    (i.commit ops true).conn = ops.foldl Tables.execute i.conn := by
  unfold commit Tables.commit
  cases ops with
  | nil => rfl
  | cons op ops => rfl

theorem conn_deliver : ∀ (deliveries : List Delivery) (i : Inner),
    (i.deliver deliveries).1.conn = i.conn := by
  intro deliveries i
  rw [deliver_eq]

/-- **A pass that commits leaves the file mirroring what is resident.** -/
theorem Staged.committed {decoder : RowDecoder} {tables : Tables} {sweep : Sweep}
    (h : Staged decoder tables sweep) :
    Mirrors decoder ((sweep.inner.commit sweep.ops true).deliver sweep.deliveries).1.conn
      ((sweep.inner.commit sweep.ops true).deliver sweep.deliveries).1.memory := by
  rw [conn_deliver, conn_commit, h.conn, (deliver_commit _ _ _ _).1]
  exact h.mirrors.of_eq rfl rfl rfl

theorem staged_enforceAgainst {decoder : RowDecoder} {i : Inner} {now : AdmissionTime}
    {ops : List DbOp} (h : Mirrors decoder (ops.foldl Tables.execute i.conn) i.memory) :
    Staged decoder i.conn (i.enforceAgainst now ops []) :=
  (sweepLoop now).run_invariant (fun _ _ hp hstep => hp.evictOne hstep) ⟨rfl, h⟩

end Inner

namespace FileBackedStore

/-! ## Every operation -/

/-- What a run of the store is given: an accepted record comes at a time its column holds, and
the serializer round trips it. -/
def Assumed (codec : Codec) (decoder : RowDecoder) (f : FileBackedStore) (op : StoreOp) : Prop :=
  ∀ key r, op.offer = some (key, r) → f.memory.refusal key.entity r = none →
    key.admittedAt.unixNano ≤ i64Max ∧ RoundTrips codec decoder r

/-- A keep whose batch commits leaves the file mirroring what is resident. -/
theorem mirrors_keepResident {codec : Codec} {decoder : RowDecoder} {f : FileBackedStore}
    (h : Mirrors decoder f.inner.conn f.memory) (hc : f.memory.Tallied) (key : AdmissionKey)
    (r : Resident) (hassumed : f.memory.refusal key.entity r = none →
      key.admittedAt.unixNano ≤ i64Max ∧ RoundTrips codec decoder r) :
    Mirrors decoder (f.keepResident key r (row codec key r) true).store.inner.conn
      (f.keepResident key r (row codec key r) true).store.memory := by
  unfold keepResident
  cases hr : f.memory.refusal key.entity r with
  | some outcome =>
    -- nothing is staged but, perhaps, a report
    exact @Inner.Staged.committed _ f.inner.conn
      ⟨{ f.inner with counters := f.inner.counters.countRefusal outcome }, 0, [], _⟩
      ⟨rfl, h.of_eq rfl rfl rfl⟩
  | none =>
    obtain ⟨htime, hround⟩ := hassumed hr
    have hentered := h.enter hc (InMemoryStore.not_holds_of_refusal hr) htime hround
    have hconn : (f.inner.enter key r).conn = f.inner.conn := by cases r <;> rfl
    refine @Inner.Staged.committed _ (f.inner.enter key r).conn _
      (Inner.staged_enforceAgainst ?_)
    rw [hconn, Inner.memory_enter]
    exact hentered

/-- **Every operation whose batch commits leaves the file mirroring what is resident.** -/
theorem mirrors_apply {codec : Codec} {decoder : RowDecoder} {f : FileBackedStore}
    (hconfigured : f.Configured) (h : Mirrors decoder f.inner.conn f.memory)
    (hc : f.memory.Tallied) (op : StoreOp) (hassumed : f.Assumed codec decoder op) :
    Mirrors decoder (f.apply codec true op).1.inner.conn (f.apply codec true op).1.memory := by
  cases op with
  | keepSpan admitted =>
    simp only [apply, keepSpan_eq hconfigured]
    exact mirrors_keepResident h hc _ _ (hassumed _ _ rfl)
  | keepLogRecord admitted =>
    simp only [apply, keepLogRecord_eq hconfigured]
    exact mirrors_keepResident h hc _ _ (hassumed _ _ rfl)
  | keepMetricPoint admitted stream =>
    simp only [apply, keepMetricPoint_eq hconfigured]
    exact mirrors_keepResident h hc _ _ (hassumed _ _ rfl)
  | enforceRetention now => exact (@Inner.staged_enforceAgainst _ _ _ [] h).committed
  | observeAdmissionAnomalies total => exact h.of_eq rfl rfl rfl
  | span entity => exact h
  | logRecord entity => exact h
  | metricPoint entity => exact h
  | scanSpans after limit => exact h
  | scanLogRecords after limit => exact h
  | scanMetricPoints after limit => exact h
  | stats => exact h

end FileBackedStore

end RuntimeTrail
