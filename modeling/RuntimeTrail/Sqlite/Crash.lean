import RuntimeTrail.Sqlite.Degraded
import RuntimeTrail.Sqlite.Resume

/-!
# Reopening a file some of whose commits failed

A file that missed commits is still a file: every row was staged by some keep, so an
open reads all of them, and the store it rebuilds holds exactly what the rows say.
Of every entity that is what was resident at some point of the session.

* **the rows** — `Readable`: every row decodes, whichever commits failed;
* **the rebuild** — `rehydrated_records`, `rehydrated_points`: the rebuilt shelves hold
  what the rows say;
* **the ceilings** — `suffix_enforceNoWindow`: an open drops the oldest, and only over a
  ceiling;
* **the law** — `degraded_durability`.
-/

namespace RuntimeTrail

open Library

/-! ## The rows -/

/-- Every row of the tables decodes. -/
structure Readable (decoder : RowDecoder) (tables : Tables) : Prop where
  spans : ∀ entity row, tables.spans.get? entity = some row →
    ∃ record, decoder.span row.payload = .ok record
  logs : ∀ entity row, tables.logs.get? entity = some row →
    ∃ record, decoder.logRecord row.payload = .ok record
  points : ∀ entity row, tables.points.get? entity = some row →
    (∃ point, decoder.metricPoint row.payload = .ok point) ∧
      ∃ stream, decoder.streamIdentity row.streamPayload = .ok stream

/-- What a staged change puts decodes. -/
def DbOp.Readable (decoder : RowDecoder) : DbOp → Prop
  | .putSpan _ _ payload => ∃ record, decoder.span payload = .ok record
  | .putLog _ _ payload => ∃ record, decoder.logRecord payload = .ok record
  | .putPoint _ _ payload streamPayload =>
    (∃ point, decoder.metricPoint payload = .ok point) ∧
      ∃ stream, decoder.streamIdentity streamPayload = .ok stream
  | _ => True

section Rows

variable {decoder : RowDecoder} {tables : Tables}

theorem Readable.empty : Readable decoder Tables.empty where
  spans _ _ h := by cases h
  logs _ _ h := by cases h
  points _ _ h := by cases h

/-- What holds of every row holds of them after a put of such a row. -/
theorem forall_get?_insert {ρ : Type} {P : ρ → Prop} {table : ContentMap EntityId ρ}
    (h : ∀ entity row, table.get? entity = some row → P row) {entity : EntityId} {row : ρ}
    (hrow : P row) : ∀ entity' row', (table.insert entity row).get? entity' = some row' → P row' := by
  intro entity' row' hget
  rw [ContentMap.get?_insert] at hget
  split at hget
  · exact Option.some.inj hget ▸ hrow
  · exact h entity' row' hget

/-- What holds of every row holds of those a delete leaves. -/
theorem forall_get?_erase {ρ : Type} {P : ρ → Prop} {table : ContentMap EntityId ρ}
    (h : ∀ entity row, table.get? entity = some row → P row) {entity : EntityId} :
    ∀ entity' row', (table.erase entity).get? entity' = some row' → P row' := by
  intro entity' row' hget
  rw [ContentMap.get?_erase] at hget
  split at hget
  · cases hget
  · exact h entity' row' hget

theorem Readable.execute (h : Readable decoder tables) {op : DbOp} (hop : op.Readable decoder) :
    Readable decoder (tables.execute op) := by
  cases op with
  | putSpan entity admittedAt payload =>
    exact ⟨forall_get?_insert h.spans hop, h.logs, h.points⟩
  | putLog entity admittedAt payload =>
    exact ⟨h.spans, forall_get?_insert h.logs hop, h.points⟩
  | putPoint entity admittedAt payload streamPayload =>
    exact ⟨h.spans, h.logs, forall_get?_insert h.points hop⟩
  | deleteSpan entity => exact ⟨forall_get?_erase h.spans, h.logs, h.points⟩
  | deleteLog entity => exact ⟨h.spans, forall_get?_erase h.logs, h.points⟩
  | deletePoint entity => exact ⟨h.spans, h.logs, forall_get?_erase h.points⟩

/-- A batch of such changes leaves a readable file, whether it commits or not. -/
theorem Readable.commit {i : Inner} {ops : List DbOp} (h : Readable decoder i.conn)
    (hops : ∀ op ∈ ops, op.Readable decoder) (succeeds : Bool) :
    Readable decoder (i.commit ops succeeds).conn := by
  cases succeeds with
  | false =>
    rw [Inner.conn_commit_failed]
    exact h
  | true =>
    rw [Inner.conn_commit]
    generalize i.conn = tables at h
    induction ops generalizing tables with
    | nil => exact h
    | cons op ops ih =>
      exact ih (fun op' hop' => hops op' (List.mem_cons_of_mem _ hop'))
        _ (h.execute (hops op List.mem_cons_self))

/-- A pass stages deletes after what was staged before it. -/
theorem readable_enforceAgainst (i : Inner) (now : AdmissionTime) {ops : List DbOp}
    (hops : ∀ op ∈ ops, op.Readable decoder) :
    (i.enforceAgainst now ops []).inner.conn = i.conn ∧
      ∀ op ∈ (i.enforceAgainst now ops []).ops, op.Readable decoder := by
  refine (Inner.sweepLoop now).run_invariant
    (I := fun sweep => sweep.inner.conn = i.conn ∧ ∀ op ∈ sweep.ops, op.Readable decoder)
    (fun sweep sweep' hsweep hstep => ?_) ⟨rfl, hops⟩
  change Inner.evictOne now sweep = some sweep' at hstep
  unfold Inner.evictOne at hstep
  split at hstep
  · cases hstep
  · split at hstep
    · cases hstep
    · rename_i hpop
      obtain rfl := Option.some.inj hstep
      obtain ⟨hconn, -, r, -, rfl⟩ := Inner.popOldest_deletes hpop
      refine ⟨hconn.trans hsweep.1, fun op hop => ?_⟩
      rcases List.mem_append.mp hop with hop | hop
      · exact hsweep.2 op hop
      · rw [List.mem_singleton.mp hop]
        cases r <;> trivial

/-- What a keep stages of a record the serializer round trips. -/
theorem readable_row {codec : Codec} {key : AdmissionKey} {r : Resident}
    (hround : RoundTrips codec decoder r) :
    ∀ op ∈ FileBackedStore.row codec key r, op.Readable decoder := by
  intro op hop
  cases r with
  | span record =>
    obtain ⟨payload, hencoded, hdecoded⟩ := hround
    simp only [FileBackedStore.row, hencoded, List.mem_singleton] at hop
    exact hop ▸ ⟨_, hdecoded⟩
  | log record =>
    obtain ⟨payload, hencoded, hdecoded⟩ := hround
    simp only [FileBackedStore.row, hencoded, List.mem_singleton] at hop
    exact hop ▸ ⟨_, hdecoded⟩
  | point slot =>
    obtain ⟨⟨payload, hencoded, hdecoded⟩, streamPayload, hstream, hstream'⟩ := hround
    simp only [FileBackedStore.row, hencoded, hstream, List.mem_singleton] at hop
    exact hop ▸ ⟨⟨_, hdecoded⟩, _, hstream'⟩

end Rows

namespace FileBackedStore

variable {codec : Codec} {decoder : RowDecoder} {f : FileBackedStore}

theorem readable_keepResident (h : Readable decoder f.inner.conn) (key : AdmissionKey)
    (r : Resident) (succeeds : Bool)
    (hround : f.memory.refusal key.entity r = none → RoundTrips codec decoder r) :
    Readable decoder (f.keepResident key r (row codec key r) succeeds).store.inner.conn := by
  unfold keepResident
  cases hr : f.memory.refusal key.entity r with
  | some outcome =>
    dsimp only [finish]
    rw [Inner.conn_deliver]
    exact Readable.commit h (fun op hop => (List.not_mem_nil hop).elim) succeeds
  | none =>
    dsimp only [finish]
    have hentered : (f.inner.enter key r).conn = f.inner.conn := by cases r <;> rfl
    obtain ⟨hconn, hops⟩ := readable_enforceAgainst (f.inner.enter key r) key.admittedAt
      (@readable_row decoder codec key r (hround hr))
    rw [Inner.conn_deliver]
    exact Readable.commit (by rw [hconn, hentered]; exact h) hops succeeds

/-- Every operation leaves a readable file, whatever becomes of its commit. -/
theorem readable_next (hconfigured : f.Configured) (h : Readable decoder f.inner.conn)
    (op : StoreOp × Bool) (hassumed : f.Assumed codec decoder op.1) :
    Readable decoder (f.next codec op).inner.conn := by
  obtain ⟨op, succeeds⟩ := op
  unfold next
  cases op with
  | keepSpan admitted =>
    simp only [apply, keepSpan_eq hconfigured]
    exact readable_keepResident h _ _ _ fun hr => (hassumed _ _ rfl hr).2
  | keepLogRecord admitted =>
    simp only [apply, keepLogRecord_eq hconfigured]
    exact readable_keepResident h _ _ _ fun hr => (hassumed _ _ rfl hr).2
  | keepMetricPoint admitted stream =>
    simp only [apply, keepMetricPoint_eq hconfigured]
    exact readable_keepResident h _ _ _ fun hr => (hassumed _ _ rfl hr).2
  | enforceRetention now =>
    obtain ⟨hconn, hops⟩ := @readable_enforceAgainst decoder f.inner now []
      fun op hop => (List.not_mem_nil hop).elim
    change Readable decoder
      (((f.inner.enforceAgainst now [] []).inner.commit (f.inner.enforceAgainst now [] []).ops
        succeeds).deliver (f.inner.enforceAgainst now [] []).deliveries).1.conn
    rw [Inner.conn_deliver]
    exact Readable.commit (by rw [hconn]; exact h) hops succeeds
  | _ => exact h

/-- The file of every run is readable. -/
theorem readable_run {config : RetentionConfig} {hook : Bool} (ops : List (StoreOp × Bool))
    (hgiven : ∀ front op back, ops = front ++ op :: back →
      (front.foldl (next codec) (openFresh config hook)).Assumed codec decoder op.1) :
    (ops.foldl (next codec) (openFresh config hook)).Kempt ∧
      Readable decoder (ops.foldl (next codec) (openFresh config hook)).inner.conn := by
  induction ops using List.reverseRecOn with
  | nil => exact ⟨Kempt.openFresh config hook, Readable.empty⟩
  | append_singleton ops op ih =>
    obtain ⟨hkempt, hreadable⟩ := ih fun front op' back hsplit =>
      hgiven front op' (back ++ [op]) (by rw [hsplit, List.append_assoc, List.cons_append])
    rw [List.foldl_append, List.foldl_cons, List.foldl_nil]
    exact ⟨hkempt.next op, readable_next hkempt.configured hreadable op (hgiven ops op [] rfl)⟩

end FileBackedStore

/-! ## The rebuild -/

/-- Fresh records entered one by one all stand, the index with them. -/
theorem Shelf.Indexed.foldl_insert {R : Type} [Accounted R] {shelf : Shelf R} (h : shelf.Indexed)
    (todo : List (Admitted R)) (hnodup : (todo.map (·.entity)).Nodup)
    (hfresh : ∀ a ∈ todo, shelf.contains a.entity = false) :
    (todo.foldl Shelf.insert shelf).Indexed ∧
      (todo.foldl Shelf.insert shelf).entries.Perm (todo.map Admitted.entry ++ shelf.entries) := by
  induction todo generalizing shelf with
  | nil => exact ⟨h, List.Perm.refl _⟩
  | cons a rest ih =>
    obtain ⟨ha, hrest⟩ := List.nodup_cons.mp hnodup
    have hnew := hfresh a List.mem_cons_self
    have hothers : ∀ b ∈ rest, (shelf.insert a).contains b.entity = false := fun b hb =>
      Shelf.contains_insert_of_ne (fun heq => ha (List.mem_map.mpr ⟨b, hb, heq.symm⟩))
        (hfresh b (List.mem_cons_of_mem _ hb))
    obtain ⟨hindexed, hperm⟩ := ih (h.insert hnew) hrest hothers
    refine ⟨hindexed, hperm.trans ?_⟩
    rw [List.map_cons, List.cons_append]
    exact ((h.insert_perm hnew).append_left _).trans List.perm_middle

section Table

variable {ρ R T : Type} [Accounted R] {S : ρ → AdmissionKey × R → Prop}
  {table : ContentMap EntityId ρ} {rows : List (EntityId × ρ)} {todo : List (Admitted R)}

/-- The rows of a table have pairwise different entities. -/
theorem nodup_rows (hrows : table.entries.Perm rows) : (rows.map (·.1)).Nodup := by
  refine (hrows.map _).nodup_iff.mp (List.pairwise_map.mpr (table.distinct.imp ?_))
  intro a b h heq
  rw [heq] at h
  simp at h

theorem mem_rows_iff (hrows : table.entries.Perm rows) {entity : EntityId} {row : ρ} :
    (entity, row) ∈ rows ↔ table.get? entity = some row := by
  rw [← hrows.mem_iff, ContentMap.get?_eq_some_iff]
  constructor
  · exact fun h => ⟨entity, h, BEq.rfl⟩
  · rintro ⟨entity', h, hsame⟩
    rwa [← show entity' = entity by simpa using hsame]

/-- **Records entered row by row hold what the rows say**, whatever order the rows come in. -/
theorem holdsAt_foldl_insert (hrows : table.entries.Perm rows)
    (h : Matched (fun row a => a.entity = row.1 ∧ S row.2 a.entry) rows todo)
    (entity : EntityId) : HoldsAt S table (todo.foldl Shelf.insert Shelf.new) entity := by
  have hentities : (rows.map (·.1)).Perm (todo.map (·.entity)) :=
    h.map_perm fun row a ha => ha.1.symm
  obtain ⟨-, hperm⟩ := Shelf.Indexed.new.foldl_insert todo
    (hentities.nodup_iff.mp (nodup_rows hrows)) (fun _ _ => rfl)
  rw [show (Shelf.new : Shelf R).entries = [] from rfl, List.append_nil] at hperm
  refine ⟨fun row hrow => ?_, fun p hp hentity => ?_⟩
  · obtain ⟨a, ha, hname, hS⟩ := h.exists_right ((mem_rows_iff hrows).mpr hrow)
    exact ⟨a.entry, hperm.mem_iff.mpr (List.mem_map_of_mem ha), hname, hS⟩
  · obtain ⟨a, ha, rfl⟩ := List.mem_map.mp (hperm.mem_iff.mp hp)
    obtain ⟨⟨entity', row⟩, hrow, hname, hS⟩ := h.flip.exists_right ha
    obtain rfl : entity' = entity := hname.symm.trans hentity
    exact ⟨row, (mem_rows_iff hrows).mp hrow, hS⟩

end Table

/-- A row of a table of records loads, and as what its payload decodes to. -/
theorem loadRow_eq_ok_iff {V : Type} {name : String} {decode : String → Except String V}
    {row : EntityId × Row} {l : EntityId × Nat × V} :
    loadRow name decode row = .ok l ↔
      l.1 = row.1 ∧ l.2.1 = row.2.admissionNano ∧ decode row.2.payload = .ok l.2.2 := by
  obtain ⟨entity, nano, value⟩ := l
  unfold loadRow
  cases hdecode : decode row.2.payload with
  | error _ => exact ⟨fun h => (by cases h), fun h => (by cases h.2.2)⟩
  | ok decoded =>
    constructor
    · intro h
      cases h
      exact ⟨rfl, rfl, rfl⟩
    · rintro ⟨rfl, rfl, h⟩
      cases h
      rfl

/-- A row of the table of points loads, and as what its two payloads decode to. -/
theorem loadPointRow_eq_ok_iff {decoder : RowDecoder} {row : EntityId × PointRow}
    {l : EntityId × Nat × MetricPoint × StreamIdentity} :
    loadPointRow decoder row = .ok l ↔
      l.1 = row.1 ∧ l.2.1 = row.2.admissionNano ∧
        decoder.metricPoint row.2.payload = .ok l.2.2.1 ∧
          decoder.streamIdentity row.2.streamPayload = .ok l.2.2.2 := by
  obtain ⟨entity, nano, point, stream⟩ := l
  unfold loadPointRow
  cases hpoint : decoder.metricPoint row.2.payload with
  | error _ => exact ⟨fun h => (by cases h), fun h => (by cases h.2.2.1)⟩
  | ok decoded =>
    cases hstream : decoder.streamIdentity row.2.streamPayload with
    | error _ => exact ⟨fun h => (by cases h), fun h => (by cases h.2.2.2)⟩
    | ok decodedStream =>
      constructor
      · intro h
        cases h
        exact ⟨rfl, rfl, rfl, rfl⟩
      · rintro ⟨rfl, rfl, h, h'⟩
        cases h
        cases h'
        rfl

/-- A readable table of records is read whole, and the shelf rebuilt from it holds what it says. -/
theorem rehydrated_records {V : Type} [Accounted V] {decode : String → Except String V}
    {table : ContentMap EntityId Row}
    (hreadable : ∀ entity row, table.get? entity = some row →
      ∃ value, decode row.payload = .ok value)
    {rows : List (EntityId × Row)} (hrows : table.entries.Perm rows) (name : String) :
    ∃ loaded, rows.mapM (loadRow name decode) = .ok loaded ∧ ∀ address entity,
      HoldsAt (RecordRow decode) table (loaded.foldl (rehydrateRecord address) Shelf.new)
        entity := by
  obtain ⟨loaded, hok, hrel⟩ := @mapM_ok_forall₂ _ _ _ (loadRow name decode) rows fun row hrow => by
    obtain ⟨value, hvalue⟩ := hreadable row.1 row.2 ((mem_rows_iff hrows).mp hrow)
    exact ⟨(row.1, row.2.admissionNano, value), loadRow_eq_ok_iff.mpr ⟨rfl, rfl, hvalue⟩⟩
  refine ⟨loaded, hok, fun address entity => ?_⟩
  have hfold : loaded.foldl (rehydrateRecord address) Shelf.new =
      (loaded.map fun row => (⟨row.1, ⟨row.2.1⟩, ⟨address row.1, row.2.2⟩⟩ : Admitted (Arc V))).foldl
        Shelf.insert Shelf.new := by
    rw [List.foldl_map]
    rfl
  rw [hfold]
  refine holdsAt_foldl_insert hrows ((Matched.of_forall₂ hrel).map_right fun row l hload => ?_) entity
  obtain ⟨hentity, hnano, hvalue⟩ := loadRow_eq_ok_iff.mp hload
  exact ⟨hentity, hnano.symm, hvalue⟩

/-- A row of the table of points holds this point, and a stream equal to the point's. -/
structure StoredPoint (decoder : RowDecoder) (row : PointRow) (p : AdmissionKey × PointSlot) :
    Prop where
  nano : row.admissionNano = p.1.admittedAt.unixNano
  point : decoder.metricPoint row.payload = .ok p.2.point.val
  stream : ∃ stream, decoder.streamIdentity row.streamPayload = .ok stream ∧
    (p.2.stream == stream) = true

/-- Interning answers an equal stream, and interns streams under themselves. -/
theorem resolveStream_equal {interned : ContentMap StreamIdentity StreamIdentity}
    {stream : StreamIdentity} (hself : ∀ e ∈ interned.entries, e.2 = e.1) :
    ((resolveStream interned stream).1 == stream) = true ∧
      ∀ e ∈ (resolveStream interned stream).2.entries, e.2 = e.1 := by
  unfold resolveStream
  cases hget : interned.get? stream with
  | some known =>
    obtain ⟨k, hmem, hk⟩ := ContentMap.get?_eq_some_iff.mp hget
    obtain rfl : known = k := hself _ hmem
    exact ⟨hk, hself⟩
  | none =>
    refine ⟨BEq.rfl, fun e he => ?_⟩
    have hnone : interned.getPair? stream = none := by simpa [ContentMap.get?] using hget
    rcases List.mem_cons.mp ((ContentMap.insert_perm_of_none hnone).mem_iff.mp he) with rfl | he
    · rfl
    · exact hself e he

/-- The shelf of points is what the resolved rows enter, one by one. -/
theorem points_foldl_rehydratePoint (address : EntityId → Nat)
    (rows : List (EntityId × Nat × MetricPoint × StreamIdentity)) (state : Rehydrating) :
    (rows.foldl (rehydratePoint address) state).points =
      ((resolveAll state.interned rows).map (slotOf address)).foldl Shelf.insert state.points := by
  induction rows generalizing state with
  | nil => rfl
  | cons row rows ih =>
    rw [List.foldl_cons, ih]
    rfl

/-- Interning changes no row but the handle, for one equal to it. -/
theorem resolveAll_equal (rows : List (EntityId × Nat × MetricPoint × StreamIdentity))
    {interned : ContentMap StreamIdentity StreamIdentity}
    (hself : ∀ e ∈ interned.entries, e.2 = e.1) :
    List.Forall₂ (fun row row' => row'.1 = row.1 ∧ row'.2.1 = row.2.1 ∧ row'.2.2.1 = row.2.2.1 ∧
      (row'.2.2.2 == row.2.2.2) = true) rows (resolveAll interned rows) := by
  induction rows generalizing interned with
  | nil => exact List.Forall₂.nil
  | cons row rows ih =>
    obtain ⟨hequal, hself'⟩ := @resolveStream_equal interned row.2.2.2 hself
    exact List.Forall₂.cons ⟨rfl, rfl, rfl, hequal⟩ (ih hself')

/-- A readable table of points is read whole, and the shelf rebuilt from it holds what it says. -/
theorem rehydrated_points {decoder : RowDecoder} {table : ContentMap EntityId PointRow}
    (hreadable : ∀ entity row, table.get? entity = some row →
      (∃ point, decoder.metricPoint row.payload = .ok point) ∧
        ∃ stream, decoder.streamIdentity row.streamPayload = .ok stream)
    {rows : List (EntityId × PointRow)} (hrows : table.entries.Perm rows) :
    ∃ loaded, rows.mapM (loadPointRow decoder) = .ok loaded ∧ ∀ address entity,
      HoldsAt (StoredPoint decoder) table
        (loaded.foldl (rehydratePoint address)
          ⟨Shelf.new, ContentMap.empty, 0, ContentMap.empty⟩).points entity := by
  obtain ⟨loaded, hok, hrel⟩ := @mapM_ok_forall₂ _ _ _ (loadPointRow decoder) rows fun row hrow => by
    obtain ⟨⟨point, hpoint⟩, stream, hstream⟩ :=
      hreadable row.1 row.2 ((mem_rows_iff hrows).mp hrow)
    exact ⟨(row.1, row.2.admissionNano, point, stream),
      loadPointRow_eq_ok_iff.mpr ⟨rfl, rfl, hpoint, hstream⟩⟩
  refine ⟨loaded, hok, fun address entity => ?_⟩
  rw [points_foldl_rehydratePoint]
  have hresolved := @resolveAll_equal loaded ContentMap.empty fun e he => (List.not_mem_nil he).elim
  have hslots : Matched (fun l (a : Admitted PointSlot) => a.entity = l.1 ∧
      a.admittedAt.unixNano = l.2.1 ∧ a.record.point.val = l.2.2.1 ∧
        (a.record.stream == l.2.2.2) = true)
      loaded ((resolveAll ContentMap.empty loaded).map (slotOf address)) :=
    (Matched.of_forall₂ hresolved).map_right fun l l' h => h
  refine holdsAt_foldl_insert hrows
    ((Matched.of_forall₂ hrel).trans hslots fun row l a hload h => ?_) entity
  obtain ⟨hentity, hnano, hpoint, hstream⟩ := loadPointRow_eq_ok_iff.mp hload
  refine ⟨h.1.trans hentity, (h.2.1.trans hnano).symm, ?_, l.2.2.2, hstream, h.2.2.2⟩
  exact hpoint.trans (congrArg Except.ok h.2.2.1.symm)

/-! ## Past and rebuilt -/

/-- Two shelves hold the same under an entity, the allocations apart. -/
structure Shelf.MatchesAt {R : Type} (same : R → R → Prop) (shelf shelf' : Shelf R)
    (entity : EntityId) : Prop where
  forth : ∀ p ∈ shelf.entries, p.1.entity = entity →
    ∃ q ∈ shelf'.entries, q.1 = p.1 ∧ same p.2 q.2
  back : ∀ q ∈ shelf'.entries, q.1.entity = entity →
    ∃ p ∈ shelf.entries, p.1 = q.1 ∧ same p.2 q.2

/-- Shelves one table is right about hold the same. -/
theorem HoldsAt.matches {ρ R : Type} {S S' : ρ → AdmissionKey × R → Prop} {same : R → R → Prop}
    {table : ContentMap EntityId ρ} {shelf shelf' : Shelf R} {entity : EntityId}
    (h : HoldsAt S table shelf entity) (h' : HoldsAt S' table shelf' entity)
    (hS : ∀ row p q, p.1.entity = q.1.entity → S row p → S' row q → p.1 = q.1 ∧ same p.2 q.2) :
    shelf.MatchesAt same shelf' entity where
  forth p hp hentity := by
    obtain ⟨row, hrow, hrecord⟩ := h.record p hp hentity
    obtain ⟨q, hq, hentity', hrecord'⟩ := h'.row row hrow
    obtain ⟨hkey, hsame⟩ := hS row p q (hentity.trans hentity'.symm) hrecord hrecord'
    exact ⟨q, hq, hkey.symm, hsame⟩
  back q hq hentity := by
    obtain ⟨row, hrow, hrecord'⟩ := h'.record q hq hentity
    obtain ⟨p, hp, hentity', hrecord⟩ := h.row row hrow
    exact ⟨p, hp, hS row p q (hentity'.trans hentity.symm) hrecord hrecord'⟩

/-- Two stores have the same record of the kind resident under an entity, the allocations apart: of
a point's stream, one equal to it. -/
def InMemoryStore.MatchesAt (s s' : InMemoryStore) : RecordKind → EntityId → Prop
  | .span, entity => s.spans.MatchesAt (fun a b => a.val = b.val) s'.spans entity
  | .log, entity => s.logs.MatchesAt (fun a b => a.val = b.val) s'.logs entity
  | .point, entity => s.points.MatchesAt
      (fun a b => a.point.val = b.point.val ∧ (b.stream == a.stream) = true) s'.points entity

theorem AdmissionKey.eq_of_nano {a b : AdmissionKey}
    (hnano : a.admittedAt.unixNano = b.admittedAt.unixNano) (hentity : a.entity = b.entity) :
    a = b := by
  obtain ⟨⟨nano⟩, entity⟩ := a
  obtain ⟨⟨nano'⟩, entity'⟩ := b
  obtain rfl : nano = nano' := hnano
  obtain rfl : entity = entity' := hentity
  rfl

theorem recordRow_same {V : Type} {decode : String → Except String V} (row : Row)
    (p q : AdmissionKey × Arc V) (hentity : p.1.entity = q.1.entity) (hp : RecordRow decode row p)
    (hq : RecordRow decode row q) : p.1 = q.1 ∧ p.2.val = q.2.val :=
  ⟨AdmissionKey.eq_of_nano (hp.nano.symm.trans hq.nano) hentity,
    Except.ok.inj (hp.record.symm.trans hq.record)⟩

/-- **A readable file is rebuilt as what it says.**  Its rows are read in any order, and the rebuilt
store holds of every entity what a store the file is right about does. -/
theorem load_rehydrate {decoder : RowDecoder} {tables : Tables} (h : Readable decoder tables)
    (rows : RowOrder tables) :
    ∃ loaded, load decoder rows = .ok loaded ∧ ∀ addresses config hook s kind entity,
      AgreesAt decoder tables s kind entity →
        s.MatchesAt ((rehydrate addresses loaded).inner tables config hook).memory kind entity := by
  obtain ⟨spans, hspans, hheldSpans⟩ := rehydrated_records h.spans rows.spans_perm "spans"
  obtain ⟨logs, hlogs, hheldLogs⟩ := rehydrated_records h.logs rows.logs_perm "logs"
  obtain ⟨points, hpoints, hheldPoints⟩ := rehydrated_points h.points rows.points_perm
  refine ⟨⟨spans, logs, points⟩, ?_, fun addresses config hook s kind entity hagrees => ?_⟩
  · unfold load
    rw [hspans, hlogs, hpoints]
    rfl
  · cases kind with
    | span => exact HoldsAt.matches hagrees (hheldSpans (addresses .span) entity) recordRow_same
    | log => exact HoldsAt.matches hagrees (hheldLogs (addresses .log) entity) recordRow_same
    | point =>
      refine HoldsAt.matches hagrees (hheldPoints (addresses .point) entity)
        fun row p q hentity hp hq => ?_
      obtain ⟨stream, hstream, hequal, -⟩ := hp.stream
      obtain ⟨stream', hstream', hequal'⟩ := hq.stream
      obtain rfl := Except.ok.inj (hstream.symm.trans hstream')
      exact ⟨AdmissionKey.eq_of_nano (hp.nano.symm.trans hq.nano) hentity,
        Except.ok.inj (hp.point.symm.trans hq.point), BEq.trans hequal' hequal⟩

/-! ## The ceilings -/

/-- An open drops the oldest of what it rebuilt, and nothing where no ceiling is violated. -/
theorem Inner.suffix_enforceNoWindow (i : Inner) :
    (i.enforceNoWindow [] []).inner.memory.merged <:+ i.memory.merged ∧
      (i.firstViolationNoWindow = none →
        (i.enforceNoWindow [] []).inner.memory.merged = i.memory.merged) := by
  refine ⟨?_, fun hnone => ?_⟩
  · refine noWindowLoop.run_invariant (I := fun sweep => sweep.inner.memory.merged <:+ i.memory.merged)
      (fun sweep sweep' hsuffix hstep => ?_) (List.suffix_refl _)
    change evictOneNoWindow sweep = some sweep' at hstep
    unfold evictOneNoWindow at hstep
    split at hstep
    · cases hstep
    · split at hstep
      · cases hstep
      · rename_i hpop
        obtain rfl := Option.some.inj hstep
        obtain ⟨r, hmerged⟩ := popOldest_head hpop
        exact (List.suffix_cons _ _).trans (hmerged ▸ hsuffix)
  · have hstop : evictOneNoWindow ⟨i, 0, [], []⟩ = none := by
      simp only [evictOneNoWindow, hnone]
    rw [show i.enforceNoWindow [] [] = ⟨i, 0, [], []⟩ from Loop.run_of_none hstop]

/-! ## Every run -/

namespace FileBackedStore

/-- What a store holds under an entity is what was resident at some point of a run, and of the
operations since only ones whose commit failed have changed it. -/
def Remembers (codec : Codec) (start : FileBackedStore) (ops : List (StoreOp × Bool))
    (rebuilt : InMemoryStore) (kind : RecordKind) (entity : EntityId) : Prop :=
  ∃ before after, ops = before ++ after ∧
    (before.foldl (next codec) start).memory.MatchesAt rebuilt kind entity ∧
    ∀ front op back, after = front ++ op :: back → op.2 = false ∨
      ((before ++ front).foldl (next codec) start).memory.SameAt
        ((before ++ front ++ [op]).foldl (next codec) start).memory kind entity

/-- What an open of the file of a run comes to: the rows read whole, each entity rebuilt as the file
remembers it, and the oldest dropped where a ceiling is violated. -/
structure ResumesStale (codec : Codec) (decoder : RowDecoder) (start : FileBackedStore)
    (ops : List (StoreOp × Bool)) (rows : RowOrder (ops.foldl (next codec) start).inner.conn)
    (addresses : Allocation) (config : RetentionConfig) (hook : Bool) (rebuilt : Inner)
    (f : FileBackedStore) : Prop where
  read : ∃ loaded, load decoder rows = .ok loaded ∧
    rebuilt = (rehydrate addresses loaded).inner (ops.foldl (next codec) start).inner.conn config hook
  opened : ∃ calls, openFile decoder _ rows addresses config hook true = .ok (f, calls)
  remembers : ∀ kind entity, Remembers codec start ops rebuilt.memory kind entity
  survivors : f.memory.merged <:+ rebuilt.memory.merged
  whole : rebuilt.firstViolationNoWindow = none → f.memory.merged = rebuilt.memory.merged

/-- **A reopened store remembers, however many commits failed.**  The file of every run reads whole;
what is rebuilt of every entity is what was resident at some point, since when only operations whose
commit failed have changed it; and the open keeps all of it but the oldest over a ceiling. -/
theorem degraded_durability {codec : Codec} {decoder : RowDecoder} {config : RetentionConfig}
    {hook : Bool} (ops : List (StoreOp × Bool))
    (hgiven : ∀ front op back, ops = front ++ op :: back →
      (front.foldl (next codec) (openFresh config hook)).Assumed codec decoder op.1)
    (rows : RowOrder (ops.foldl (next codec) (openFresh config hook)).inner.conn)
    (addresses : Allocation) (config' : RetentionConfig) (hook' : Bool) :
    ∃ rebuilt f, ResumesStale codec decoder (openFresh config hook) ops rows addresses config' hook'
      rebuilt f := by
  obtain ⟨-, hreadable⟩ := readable_run ops hgiven
  obtain ⟨loaded, hload, hmatches⟩ := load_rehydrate hreadable rows
  have hopen := openFile_eq hload addresses config' hook'
  set rebuilt := (rehydrate addresses loaded).inner
    (ops.foldl (next codec) (openFresh config hook)).inner.conn config' hook' with hrebuilt
  set sweep := rebuilt.enforceNoWindow [] [] with hsweep
  have hmerged : (⟨config', ((sweep.inner.commit sweep.ops true).deliver sweep.deliveries).1⟩ :
      FileBackedStore).memory.merged = sweep.inner.memory.merged := by
    change ((sweep.inner.commit sweep.ops true).deliver sweep.deliveries).1.memory.merged = _
    rw [(Inner.deliver_commit sweep.inner sweep.ops true sweep.deliveries).1]
    rfl
  obtain ⟨hsuffix, hwhole⟩ := rebuilt.suffix_enforceNoWindow
  refine ⟨rebuilt, _, ⟨loaded, hload, hrebuilt⟩, ⟨_, hopen⟩, fun kind entity => ?_, ?_, ?_⟩
  · obtain ⟨before, after, rfl, hstale⟩ := file_stale ops hgiven kind entity
    have hsaid := hstale.said
    rw [← List.foldl_append] at hsaid
    refine ⟨before, after, rfl, hmatches _ _ _ _ _ _ hsaid, fun front op back hsplit => ?_⟩
    have hmissed := hstale.missed front op back hsplit
    rw [List.foldl_append, List.foldl_append, List.foldl_append, List.foldl_cons, List.foldl_nil]
    exact hmissed
  · rw [hmerged]
    exact hsuffix
  · rw [hmerged]
    exact hwhole

/-- A store of one record keeps two points.  The batch that stages the second and evicts the first is
rolled back. -/
def evictionMissed : List (StoreOp × Bool) :=
  [(.keepMetricPoint ⟨.serial 1, ⟨0⟩, ⟨0, MetricPoint.bare 1⟩⟩ (.bare "m" none), true),
    (.keepMetricPoint ⟨.serial 2, ⟨0⟩, ⟨1, MetricPoint.bare 2⟩⟩ (.bare "m" none), false)]

/-- The reopened store has the first point again and never the second, whose row was lost. -/
theorem degraded_durability_evictionMissed :
    ∃ rebuilt f, ResumesStale measurementCodec measurementDecoder
      (openFresh ⟨1, 100000, 10, 5⟩ true) evictionMissed (RowOrder.asEntered _) (fun _ _ => 7)
      ⟨1, 100000, 10, 5⟩ true rebuilt f := by
  refine degraded_durability evictionMissed ?_ _ _ _ _
  intro front op back hsplit
  rcases front with _ | ⟨first, _ | ⟨second, _ | ⟨third, front⟩⟩⟩
  · obtain ⟨rfl, -⟩ := List.cons.inj hsplit
    rintro key r hoffer -
    obtain ⟨rfl, rfl⟩ := Prod.mk.inj (Option.some.inj hoffer)
    exact ⟨by decide, ⟨_, rfl, rfl⟩, _, rfl, rfl⟩
  · obtain ⟨rfl, hrest⟩ := List.cons.inj hsplit
    obtain ⟨rfl, -⟩ := List.cons.inj hrest
    rintro key r hoffer -
    obtain ⟨rfl, rfl⟩ := Prod.mk.inj (Option.some.inj hoffer)
    exact ⟨by decide, ⟨_, rfl, rfl⟩, _, rfl, rfl⟩
  · obtain ⟨-, hrest⟩ := List.cons.inj hsplit
    cases (List.cons.inj hrest).2
  · obtain ⟨-, hrest⟩ := List.cons.inj hsplit
    cases (List.cons.inj hrest).2

end FileBackedStore

end RuntimeTrail
