import RuntimeTrail.Library.Faults
import RuntimeTrail.Sqlite.Rebuild

/-!
# A file some of whose commits failed

A commit that fails leaves its changes out of the file for good: nothing stages
them again.  What the file says of an entity is then stale, and never wrong: it is
what was resident at some earlier point, and every operation that has changed it since
failed to commit.

* **one table** — `HoldsAt`: a table and a shelf say the same of an entity;
* **one change** — `InStep`: a batch brings the file up to date about an entity, or
  touches neither the file nor the entity;
* **one operation** — `inStep_apply`, `conn_apply_failed`: what a commit that succeeds
  or fails does;
* **a run** — `file_stale`.
-/

namespace RuntimeTrail

open Library

/-! ## One table and one shelf -/

section Table

variable {ρ R : Type} {S : ρ → AdmissionKey × R → Prop} {table : ContentMap EntityId ρ}
  {shelf shelf' : Shelf R} {entity : EntityId}

/-- The table and the shelf say the same of an entity: both hold it, and the row is the record's, or
neither does. -/
structure HoldsAt (S : ρ → AdmissionKey × R → Prop) (table : ContentMap EntityId ρ)
    (shelf : Shelf R) (entity : EntityId) : Prop where
  row : ∀ row, table.get? entity = some row →
    ∃ p ∈ shelf.entries, p.1.entity = entity ∧ S row p
  record : ∀ p ∈ shelf.entries, p.1.entity = entity →
    ∃ row, table.get? entity = some row ∧ S row p

/-- Two shelves hold the same under an entity. -/
def Shelf.SameAt (shelf shelf' : Shelf R) (entity : EntityId) : Prop :=
  ∀ p : AdmissionKey × R, p.1.entity = entity → (p ∈ shelf.entries ↔ p ∈ shelf'.entries)

theorem Shelf.SameAt.refl (shelf : Shelf R) (entity : EntityId) : shelf.SameAt shelf entity :=
  fun _ _ => Iff.rfl

theorem Shelf.SameAt.trans {shelf'' : Shelf R} (h : shelf.SameAt shelf' entity)
    (h' : shelf'.SameAt shelf'' entity) : shelf.SameAt shelf'' entity :=
  fun p hp => (h p hp).trans (h' p hp)

/-- A shelf holds nothing under an entity. -/
def Shelf.Bare (shelf : Shelf R) (entity : EntityId) : Prop :=
  ∀ p ∈ shelf.entries, p.1.entity ≠ entity

/-- A removal bares its own entity and leaves the others as they were. -/
theorem Shelf.popSmallest_at [Accounted R] (hindexed : shelf.Indexed) {key : AdmissionKey}
    {record : R} (hpop : shelf.popSmallest = some ((key, record), shelf')) (entity : EntityId) :
    (key.entity = entity ∧ shelf'.Bare entity) ∨
      (key.entity ≠ entity ∧ shelf.SameAt shelf' entity) := by
  have hentries := (Shelf.popSmallest_eq_some hpop).1
  by_cases hentity : key.entity = entity
  · subst hentity
    refine Or.inl ⟨rfl, fun p hp hp' => ?_⟩
    have honce := hindexed.nodup_entities
    rw [hentries, List.map_cons, List.nodup_cons] at honce
    exact honce.1 (List.mem_map.mpr ⟨p, hp, hp'⟩)
  · refine Or.inr ⟨hentity, fun p hp => ?_⟩
    rw [hentries, List.mem_cons]
    constructor
    · rintro (rfl | hp')
      · exact absurd hp hentity
      · exact hp'
    · exact Or.inr

/-- What a table says of an entity is right of every shelf that holds the same under it. -/
theorem HoldsAt.congr {table' : ContentMap EntityId ρ} (h : HoldsAt S table shelf entity)
    (htable : table'.get? entity = table.get? entity) (hshelf : shelf.SameAt shelf' entity) :
    HoldsAt S table' shelf' entity where
  row row hrow := by
    obtain ⟨p, hp, hentity, hS⟩ := h.row row (htable ▸ hrow)
    exact ⟨p, (hshelf p hentity).mp hp, hentity, hS⟩
  record p hp hentity := by
    obtain ⟨row, hrow, hS⟩ := h.record p ((hshelf p hentity).mpr hp) hentity
    exact ⟨row, htable ▸ hrow, hS⟩

theorem HoldsAt.empty : HoldsAt S ContentMap.empty Shelf.new entity where
  row row hrow := by cases hrow
  record p hp := (List.not_mem_nil hp).elim

/-- After an entry and its put, the two say the same of the entity, and of the others what they
did. -/
theorem HoldsAt.insert [Accounted R] (hindexed : shelf.Indexed) (admitted : Admitted R) {row : ρ}
    (hfresh : shelf.contains admitted.entity = false)
    (hrow : S row (⟨admitted.admittedAt, admitted.entity⟩, admitted.record)) (entity : EntityId) :
    HoldsAt S (table.insert admitted.entity row) (shelf.insert admitted) entity ∨
      ((table.insert admitted.entity row).get? entity = table.get? entity ∧
        shelf.SameAt (shelf.insert admitted) entity) := by
  have hmem : ∀ p, p ∈ (shelf.insert admitted).entries ↔
      p = (⟨admitted.admittedAt, admitted.entity⟩, admitted.record) ∨ p ∈ shelf.entries := by
    intro p
    rw [(hindexed.insert_perm hfresh).mem_iff, List.mem_cons]
  by_cases hentity : admitted.entity = entity
  · subst hentity
    have hget : (table.insert admitted.entity row).get? admitted.entity = some row := by
      rw [ContentMap.get?_insert, if_pos (by simp)]
    refine Or.inl ⟨fun row' hrow' => ?_, fun p hp hp' => ?_⟩
    · obtain rfl := Option.some.inj (hget.symm.trans hrow')
      exact ⟨_, (hmem _).mpr (Or.inl rfl), rfl, hrow⟩
    · rcases (hmem p).mp hp with rfl | hp
      · exact ⟨row, hget, hrow⟩
      · have hcontains := hindexed.contains_iff.mpr ⟨p, hp, hp'⟩
        rw [hfresh] at hcontains
        cases hcontains
  · refine Or.inr ⟨?_, fun p hp => ?_⟩
    · rw [ContentMap.get?_insert, if_neg (by simpa using hentity)]
    · rw [hmem]
      constructor
      · exact Or.inr
      · rintro (rfl | hp')
        · exact absurd hp hentity
        · exact hp'

/-- After a removal and its delete, neither holds the entity, and both hold the others as they
did. -/
theorem HoldsAt.popSmallest [Accounted R] (hindexed : shelf.Indexed) {key : AdmissionKey}
    {record : R} (hpop : shelf.popSmallest = some ((key, record), shelf')) (entity : EntityId) :
    HoldsAt S (table.erase key.entity) shelf' entity ∨
      ((table.erase key.entity).get? entity = table.get? entity ∧ shelf.SameAt shelf' entity) := by
  rcases Shelf.popSmallest_at hindexed hpop entity with ⟨rfl, hbare⟩ | ⟨hentity, hsame⟩
  · refine Or.inl ⟨fun row hrow => ?_, fun p hp hp' => absurd hp' (hbare p hp)⟩
    rw [ContentMap.get?_erase, if_pos (by simp)] at hrow
    cases hrow
  · refine Or.inr ⟨?_, hsame⟩
    rw [ContentMap.get?_erase, if_neg (by simpa using hentity)]

end Table

/-! ## The three kinds -/

/-- The tables and the resident records say the same of an entity. -/
def AgreesAt (decoder : RowDecoder) (tables : Tables) (s : InMemoryStore) :
    RecordKind → EntityId → Prop
  | .span, entity => HoldsAt (RecordRow decoder.span) tables.spans s.spans entity
  | .log, entity => HoldsAt (RecordRow decoder.logRecord) tables.logs s.logs entity
  | .point, entity => HoldsAt (SlotRow decoder) tables.points s.points entity

/-- Two stores have the same record of the kind resident under an entity, or none. -/
def InMemoryStore.SameAt (s s' : InMemoryStore) : RecordKind → EntityId → Prop
  | .span, entity => s.spans.SameAt s'.spans entity
  | .log, entity => s.logs.SameAt s'.logs entity
  | .point, entity => s.points.SameAt s'.points entity

/-- Two files have the same row of the kind under an entity, or none. -/
def Tables.SameAt (tables tables' : Tables) : RecordKind → EntityId → Prop
  | .span, entity => tables'.spans.get? entity = tables.spans.get? entity
  | .log, entity => tables'.logs.get? entity = tables.logs.get? entity
  | .point, entity => tables'.points.get? entity = tables.points.get? entity

section Kinds

variable {decoder : RowDecoder} {tables tables' : Tables} {s s' s'' : InMemoryStore}
  {kind : RecordKind} {entity : EntityId}

theorem InMemoryStore.SameAt.refl (s : InMemoryStore) (kind : RecordKind) (entity : EntityId) :
    s.SameAt s kind entity := by
  cases kind <;> exact Shelf.SameAt.refl _ _

theorem InMemoryStore.SameAt.trans (h : s.SameAt s' kind entity) (h' : s'.SameAt s'' kind entity) :
    s.SameAt s'' kind entity := by
  cases kind <;> exact Shelf.SameAt.trans h h'

/-- Stores with the same shelves hold the same everywhere. -/
theorem InMemoryStore.sameAt_of_eq (hspans : s'.spans = s.spans) (hlogs : s'.logs = s.logs)
    (hpoints : s'.points = s.points) (kind : RecordKind) (entity : EntityId) :
    s.SameAt s' kind entity := by
  cases kind with
  | span => exact fun p _ => by rw [hspans]
  | log => exact fun p _ => by rw [hlogs]
  | point => exact fun p _ => by rw [hpoints]

theorem Tables.SameAt.refl (tables : Tables) (kind : RecordKind) (entity : EntityId) :
    tables.SameAt tables kind entity := by
  cases kind <;> rfl

theorem Tables.SameAt.trans {tables'' : Tables} (h : tables.SameAt tables' kind entity)
    (h' : tables'.SameAt tables'' kind entity) : tables.SameAt tables'' kind entity := by
  cases kind <;> exact Eq.trans h' h

theorem AgreesAt.congr (h : AgreesAt decoder tables s kind entity)
    (htables : tables.SameAt tables' kind entity) (hs : s.SameAt s' kind entity) :
    AgreesAt decoder tables' s' kind entity := by
  cases kind <;> exact HoldsAt.congr h htables hs

theorem AgreesAt.empty (config : RetentionConfig) (hook : Bool) (kind : RecordKind)
    (entity : EntityId) :
    AgreesAt decoder Tables.empty (InMemoryStore.new config hook) kind entity := by
  cases kind <;> exact HoldsAt.empty

/-! ## One change -/

/-- A change made to the file and to what is resident: it leaves the two agreeing about an entity, or
leaves both as they were about it. -/
def InStep (decoder : RowDecoder) (tables : Tables) (s : InMemoryStore) (tables' : Tables)
    (s' : InMemoryStore) : Prop :=
  ∀ kind entity, AgreesAt decoder tables' s' kind entity ∨
    (tables.SameAt tables' kind entity ∧ s.SameAt s' kind entity)

theorem InStep.refl (tables : Tables) (s : InMemoryStore) : InStep decoder tables s tables s :=
  fun _ _ => Or.inr ⟨Tables.SameAt.refl _ _ _, InMemoryStore.SameAt.refl _ _ _⟩

/-- Changes in step are in step one after the other. -/
theorem InStep.trans {tables'' : Tables} (h : InStep decoder tables s tables' s')
    (h' : InStep decoder tables' s' tables'' s'') : InStep decoder tables s tables'' s'' := by
  intro kind entity
  rcases h' kind entity with hagrees | ⟨htables', hs'⟩
  · exact Or.inl hagrees
  · rcases h kind entity with hagrees | ⟨htables, hs⟩
    · exact Or.inl (hagrees.congr htables' hs')
    · exact Or.inr ⟨htables.trans htables', hs.trans hs'⟩

/-- What is in step with a store is in step with every store of the same shelves. -/
theorem InStep.of_eq {s₁ : InMemoryStore} (h : InStep decoder tables s tables' s')
    (hspans : s₁.spans = s'.spans) (hlogs : s₁.logs = s'.logs) (hpoints : s₁.points = s'.points) :
    InStep decoder tables s tables' s₁ :=
  h.trans fun kind entity =>
    Or.inr ⟨Tables.SameAt.refl _ _ _, InMemoryStore.sameAt_of_eq hspans hlogs hpoints kind entity⟩

/-- A removal and its staged delete are in step. -/
theorem InStep.removes (hc : s.Tallied) {key : AdmissionKey} {released : Option StreamIdentity}
    {r : Resident} (hr : s.Removes key released s' r) :
    InStep decoder tables s (tables.execute (deleteOp key.entity r)) s' := by
  intro kind entity
  cases r with
  | span record =>
    obtain ⟨spans, hpop, rfl, -⟩ := hr
    cases kind with
    | span => exact HoldsAt.popSmallest hc.spans hpop entity
    | _ => exact Or.inr ⟨rfl, Shelf.SameAt.refl _ _⟩
  | log record =>
    obtain ⟨logs, hpop, rfl, -⟩ := hr
    cases kind with
    | log => exact HoldsAt.popSmallest hc.logs hpop entity
    | _ => exact Or.inr ⟨rfl, Shelf.SameAt.refl _ _⟩
  | point slot =>
    obtain ⟨points, hpop, rfl, -⟩ := hr
    obtain ⟨hspans, hlogs, hpoints⟩ :=
      InMemoryStore.releaseStreamRef_shelves { s with points := points } slot.stream
    have hsame := InMemoryStore.sameAt_of_eq (s := { s with points := points }) hspans hlogs hpoints
    cases kind with
    | point =>
      have hpopped := @HoldsAt.popSmallest _ _ (SlotRow decoder) tables.points _ _ _ hc.points _ _
        hpop entity
      rcases hpopped with hholds | ⟨htable, hshelf⟩
      · exact Or.inl (HoldsAt.congr hholds rfl (hsame .point entity))
      · exact Or.inr ⟨htable, hshelf.trans (hsame .point entity)⟩
    | span => exact Or.inr ⟨rfl, hsame .span entity⟩
    | log => exact Or.inr ⟨rfl, hsame .log entity⟩

/-- An entry and its staged row are in step. -/
theorem InStep.enter (hc : s.Tallied) {codec : Codec} {key : AdmissionKey} {r : Resident}
    (hfresh : s.holds key.entity r = false) (htime : key.admittedAt.unixNano ≤ i64Max)
    (hround : RoundTrips codec decoder r) :
    InStep decoder tables s ((FileBackedStore.row codec key r).foldl Tables.execute tables)
      (s.enter key r) := by
  have hcolumn := Mirrors.admissionColumn_of_le htime
  intro kind entity
  cases r with
  | span record =>
    obtain ⟨payload, hencoded, hdecoded⟩ := hround
    simp only [FileBackedStore.row, hencoded, List.foldl_cons, List.foldl_nil, Tables.execute]
    cases kind with
    | span =>
      exact HoldsAt.insert hc.spans ⟨key.entity, key.admittedAt, record⟩ hfresh
        ⟨hcolumn, hdecoded⟩ entity
    | _ => exact Or.inr ⟨rfl, Shelf.SameAt.refl _ _⟩
  | log record =>
    obtain ⟨payload, hencoded, hdecoded⟩ := hround
    simp only [FileBackedStore.row, hencoded, List.foldl_cons, List.foldl_nil, Tables.execute]
    cases kind with
    | log =>
      exact HoldsAt.insert hc.logs ⟨key.entity, key.admittedAt, record⟩ hfresh
        ⟨hcolumn, hdecoded⟩ entity
    | _ => exact Or.inr ⟨rfl, Shelf.SameAt.refl _ _⟩
  | point slot =>
    obtain ⟨⟨payload, hencoded, hdecoded⟩, streamPayload, hstream, hstream'⟩ := hround
    simp only [FileBackedStore.row, hencoded, hstream, List.foldl_cons, List.foldl_nil,
      Tables.execute]
    cases kind with
    | point =>
      exact HoldsAt.insert hc.points ⟨key.entity, key.admittedAt, slot⟩ hfresh
        ⟨hcolumn, hdecoded, _, hstream', BEq.rfl, rfl⟩ entity
    | _ => exact Or.inr ⟨rfl, Shelf.SameAt.refl _ _⟩

end Kinds

/-! ## One operation -/

namespace Inner

/-- Where a pass over a file stands: its staged batch is in step with what it has done so far. -/
structure Stepping (decoder : RowDecoder) (tables : Tables) (s : InMemoryStore) (sweep : Sweep) :
    Prop where
  conn : sweep.inner.conn = tables
  tallied : sweep.inner.memory.Tallied
  inStep : InStep decoder tables s (sweep.ops.foldl Tables.execute tables) sweep.inner.memory

theorem Stepping.evictOne {decoder : RowDecoder} {tables : Tables} {s : InMemoryStore}
    {now : AdmissionTime} {sweep sweep' : Sweep} (h : Stepping decoder tables s sweep)
    (hstep : Inner.evictOne now sweep = some sweep') : Stepping decoder tables s sweep' := by
  unfold Inner.evictOne at hstep
  split at hstep
  · cases hstep
  · split at hstep
    · cases hstep
    · rename_i hpop
      obtain rfl := Option.some.inj hstep
      obtain ⟨hconn, -, r, hremoves, rfl⟩ := popOldest_deletes hpop
      refine ⟨hconn.trans h.conn, ?_, ?_⟩
      · exact (h.tallied.removes hremoves).of_eq rfl rfl rfl rfl
      · dsimp only
        rw [List.foldl_append]
        exact (h.inStep.trans (InStep.removes h.tallied hremoves)).of_eq rfl rfl rfl

theorem stepping_enforceAgainst {decoder : RowDecoder} {s : InMemoryStore} {i : Inner}
    {now : AdmissionTime} {ops : List DbOp} (hc : i.memory.Tallied)
    (h : InStep decoder i.conn s (ops.foldl Tables.execute i.conn) i.memory) :
    Stepping decoder i.conn s (i.enforceAgainst now ops []) :=
  (sweepLoop now).run_invariant (fun _ _ hp hstep => hp.evictOne hstep) ⟨rfl, hc, h⟩

/-- A pass that commits is in step. -/
theorem Stepping.committed {decoder : RowDecoder} {tables : Tables} {s : InMemoryStore}
    {sweep : Sweep} (h : Stepping decoder tables s sweep) :
    InStep decoder tables s
      ((sweep.inner.commit sweep.ops true).deliver sweep.deliveries).1.conn
      ((sweep.inner.commit sweep.ops true).deliver sweep.deliveries).1.memory := by
  rw [conn_deliver, conn_commit, h.conn, (deliver_commit _ _ _ _).1]
  exact h.inStep.of_eq rfl rfl rfl

/-- A batch that is rolled back leaves the file as it was. -/
theorem conn_commit_failed (i : Inner) (ops : List DbOp) : (i.commit ops false).conn = i.conn := by
  unfold commit Tables.commit
  cases ops with
  | nil => rfl
  | cons op ops => rfl

end Inner

namespace FileBackedStore

variable {codec : Codec} {decoder : RowDecoder} {f : FileBackedStore}

theorem inStep_keepResident (hc : f.memory.Tallied) (key : AdmissionKey) (r : Resident)
    (hassumed : f.memory.refusal key.entity r = none →
      key.admittedAt.unixNano ≤ i64Max ∧ RoundTrips codec decoder r) :
    InStep decoder f.inner.conn f.memory
      (f.keepResident key r (row codec key r) true).store.inner.conn
      (f.keepResident key r (row codec key r) true).store.memory := by
  unfold keepResident
  cases hr : f.memory.refusal key.entity r with
  | some outcome =>
    exact @Inner.Stepping.committed _ _ _
      ⟨{ f.inner with counters := f.inner.counters.countRefusal outcome }, 0, [], _⟩
      ⟨rfl, hc.of_eq rfl rfl rfl rfl, (InStep.refl _ _).of_eq rfl rfl rfl⟩
  | none =>
    obtain ⟨htime, hround⟩ := hassumed hr
    have hfresh := InMemoryStore.not_holds_of_refusal hr
    have hconn : (f.inner.enter key r).conn = f.inner.conn := by cases r <;> rfl
    have hentered := @InStep.enter decoder f.inner.conn f.memory hc codec key r hfresh htime hround
    refine hconn ▸ @Inner.Stepping.committed _ (f.inner.enter key r).conn _ _
      (Inner.stepping_enforceAgainst ?_ ?_)
    · rw [Inner.memory_enter]
      exact hc.enter hfresh
    · rw [hconn, Inner.memory_enter]
      exact hentered

/-- **An operation that commits is in step**: the file is up to date about every entity it touched. -/
theorem inStep_apply (hconfigured : f.Configured) (hc : f.memory.Tallied) (op : StoreOp)
    (hassumed : f.Assumed codec decoder op) :
    InStep decoder f.inner.conn f.memory (f.apply codec true op).1.inner.conn
      (f.apply codec true op).1.memory := by
  cases op with
  | keepSpan admitted =>
    simp only [apply, keepSpan_eq hconfigured]
    exact inStep_keepResident hc _ _ (hassumed _ _ rfl)
  | keepLogRecord admitted =>
    simp only [apply, keepLogRecord_eq hconfigured]
    exact inStep_keepResident hc _ _ (hassumed _ _ rfl)
  | keepMetricPoint admitted stream =>
    simp only [apply, keepMetricPoint_eq hconfigured]
    exact inStep_keepResident hc _ _ (hassumed _ _ rfl)
  | enforceRetention now =>
    exact (@Inner.stepping_enforceAgainst _ _ _ _ [] hc (InStep.refl _ _)).committed
  | observeAdmissionAnomalies total => exact (InStep.refl _ _).of_eq rfl rfl rfl
  | _ => exact InStep.refl _ _

/-- A pass rolled back leaves the file as it was. -/
theorem conn_sweep_failed (i : Inner) (now : AdmissionTime) (ops : List DbOp) :
    (((i.enforceAgainst now ops []).inner.commit (i.enforceAgainst now ops []).ops false).deliver
      (i.enforceAgainst now ops []).deliveries).1.conn = i.conn := by
  rw [Inner.conn_deliver, Inner.conn_commit_failed]
  refine (Inner.sweepLoop now).run_invariant (I := fun sweep => sweep.inner.conn = i.conn)
    (fun sweep sweep' hconn hstep => ?_) rfl
  change Inner.evictOne now sweep = some sweep' at hstep
  unfold Inner.evictOne at hstep
  split at hstep
  · cases hstep
  · split at hstep
    · cases hstep
    · rename_i hpop
      obtain rfl := Option.some.inj hstep
      exact (Inner.popOldest_deletes hpop).1.trans hconn

theorem conn_keepResident_failed (f : FileBackedStore) (key : AdmissionKey) (r : Resident)
    (put : List DbOp) :
    (f.keepResident key r put false).store.inner.conn = f.inner.conn := by
  unfold keepResident
  cases f.memory.refusal key.entity r with
  | some outcome =>
    dsimp only [finish]
    rw [Inner.conn_deliver, Inner.conn_commit_failed]
  | none =>
    have hconn : (f.inner.enter key r).conn = f.inner.conn := by cases r <;> rfl
    exact (conn_sweep_failed (f.inner.enter key r) key.admittedAt put).trans hconn

/-- An operation whose commit fails leaves the file as it was. -/
theorem conn_apply_failed (hconfigured : f.Configured) (codec : Codec) (op : StoreOp) :
    (f.apply codec false op).1.inner.conn = f.inner.conn := by
  cases op with
  | keepSpan admitted =>
    simp only [apply, keepSpan_eq hconfigured]
    exact conn_keepResident_failed _ _ _ _
  | keepLogRecord admitted =>
    simp only [apply, keepLogRecord_eq hconfigured]
    exact conn_keepResident_failed _ _ _ _
  | keepMetricPoint admitted stream =>
    simp only [apply, keepMetricPoint_eq hconfigured]
    exact conn_keepResident_failed _ _ _ _
  | enforceRetention now => exact conn_sweep_failed f.inner now []
  | _ => rfl

/-! ## A run -/

/-- One operation with the fate of its commit. -/
def next (codec : Codec) (f : FileBackedStore) (op : StoreOp × Bool) : FileBackedStore :=
  (f.apply codec op.2 op.1).1

/-- What every state of a run keeps to. -/
structure Kempt (f : FileBackedStore) : Prop where
  configured : f.Configured
  tallied : f.memory.Tallied

theorem Kempt.openFresh (config : RetentionConfig) (hook : Bool) :
    (openFresh config hook).Kempt :=
  ⟨rfl, (InMemoryStore.Coherent.new config hook).tallied⟩

theorem Kempt.next (h : f.Kempt) (op : StoreOp × Bool) : (f.next codec op).Kempt := by
  obtain ⟨hmatches, -⟩ := apply_matches h.configured codec op.1 op.2
  refine ⟨hmatches.configured, ?_⟩
  rw [show (f.next codec op).memory = (f.memory.apply op.1).1 from hmatches.memory]
  exact h.tallied.apply op.1

/-- A file that missed the commits that failed is stale about an entity since this point of a
run. -/
abbrev Stale (codec : Codec) (decoder : RowDecoder) (kind : RecordKind) (entity : EntityId)
    (start : FileBackedStore) (before after : List (StoreOp × Bool)) : Prop :=
  StaleSince (next codec) (fun op => op.2 = false) (fun f g => f.memory.SameAt g.memory kind entity)
    (fun f g => AgreesAt decoder f.inner.conn g.memory kind entity) start before after

/-- **The file is stale and never wrong.**  What the file of a run says of an entity was resident at
some point of the run, and of the operations since only ones whose commit failed have changed the
entity's residency. -/
theorem file_stale {config : RetentionConfig} {hook : Bool} (ops : List (StoreOp × Bool))
    (hgiven : ∀ front op back, ops = front ++ op :: back →
      (front.foldl (next codec) (openFresh config hook)).Assumed codec decoder op.1)
    (kind : RecordKind) (entity : EntityId) :
    ∃ before after, ops = before ++ after ∧
      Stale codec decoder kind entity (openFresh config hook) before after := by
  refine (@exists_staleSince _ _ (next codec) (fun op => op.2 = false)
    (fun f g => f.memory.SameAt g.memory kind entity)
    (fun f g => AgreesAt decoder f.inner.conn g.memory kind entity) _ Kempt
    (fun f op => f.Assumed codec decoder op.1) (fun f op hf _ => hf.next op) ?_ ?_
    (Kempt.openFresh config hook) (AgreesAt.empty config hook kind entity) ops hgiven).2
  · rintro f ⟨op, succeeds⟩ hf hassumed hcommits
    obtain rfl : succeeds = true := by simpa using hcommits
    refine (inStep_apply hf.configured hf.tallied op hassumed kind entity).imp_right ?_
    rintro ⟨htables, hsame⟩
    exact ⟨fun g hg => hg.congr htables (InMemoryStore.SameAt.refl _ _ _), hsame⟩
  · rintro f ⟨op, succeeds⟩ hf - hfails g hg
    obtain rfl : succeeds = false := hfails
    refine hg.congr ?_ (InMemoryStore.SameAt.refl _ _ _)
    rw [show (f.next codec (op, false)).inner.conn = f.inner.conn from
      conn_apply_failed hf.configured codec op]
    exact Tables.SameAt.refl _ _ _

end FileBackedStore

end RuntimeTrail
