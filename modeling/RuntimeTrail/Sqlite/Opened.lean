import RuntimeTrail.Library.Recovery
import RuntimeTrail.Sqlite.Crash

/-!
# What any open hands over

An open reads whatever rows the file holds, those of failed commits included.  Its
store is in order all the same: a table names an entity once, so each row enters as
a fresh record, and the trim removes as retention does.

* **the read** — `entities_of_load`: the rows read name pairwise different entities;
* **the rebuild** — `tallied_rehydrate`: index, order map and series table agree;
* **the open** — `tallied_of_openFile`.
-/

namespace RuntimeTrail

open Library

/-! ## The read -/

/-- Rows of a table, read one by one, name pairwise different entities. -/
theorem nodup_of_mapM {ρ L : Type} {table : ContentMap EntityId ρ} {rows : List (EntityId × ρ)}
    (hrows : table.entries.Perm rows) {read : EntityId × ρ → Except LoadError (EntityId × L)}
    (hread : ∀ {row l}, read row = .ok l → l.1 = row.1) {loaded : List (EntityId × L)}
    (h : rows.mapM read = .ok loaded) : (loaded.map (·.1)).Nodup := by
  have hentities : loaded.map (·.1) = rows.map (·.1) := by
    rw [mapM_eq_ok_iff] at h
    clear hrows
    induction h with
    | nil => rfl
    | cons hl _ ih => rw [List.map_cons, List.map_cons, hread hl, ih]
  rw [hentities]
  exact nodup_rows hrows

/-- **Every row read names an entity of its own**, within its table. -/
theorem entities_of_load {decoder : RowDecoder} {tables : Tables} {rows : RowOrder tables}
    {loaded : LoadedRows} (h : load decoder rows = .ok loaded) :
    (loaded.spans.map (·.1)).Nodup ∧ (loaded.logs.map (·.1)).Nodup ∧
      (loaded.points.map (·.1)).Nodup := by
  obtain ⟨spans, hspans, h⟩ := bind_eq_ok_iff.mp h
  obtain ⟨logs, hlogs, h⟩ := bind_eq_ok_iff.mp h
  obtain ⟨points, hpoints, h⟩ := bind_eq_ok_iff.mp h
  obtain rfl := Except.ok.inj h
  exact ⟨nodup_of_mapM rows.spans_perm (fun hl => (loadRow_eq_ok_iff.mp hl).1) hspans,
    nodup_of_mapM rows.logs_perm (fun hl => (loadRow_eq_ok_iff.mp hl).1) hlogs,
    nodup_of_mapM rows.points_perm (fun hl => (loadPointRow_eq_ok_iff.mp hl).1) hpoints⟩

/-! ## The rebuild -/

/-- A shelf rebuilt from rows of pairwise different entities is indexed. -/
theorem indexed_rehydrateRecord {V : Type} [Accounted V] (address : EntityId → Nat)
    {rows : List (EntityId × Nat × V)} (h : (rows.map (·.1)).Nodup) :
    (rows.foldl (rehydrateRecord address) Shelf.new).Indexed := by
  have hfold : rows.foldl (rehydrateRecord address) Shelf.new =
      (rows.map fun row => (⟨row.1, ⟨row.2.1⟩, ⟨address row.1, row.2.2⟩⟩ : Admitted (Arc V))).foldl
        Shelf.insert Shelf.new := by
    rw [List.foldl_map]
    rfl
  rw [hfold]
  exact (Shelf.Indexed.new.foldl_insert _ (by rw [List.map_map]; exact h) fun _ _ => rfl).1

namespace InMemoryStore

/-- Points of pairwise different entities, entered one by one, are each counted. -/
theorem Tallied.enterPoints {s : InMemoryStore} (h : s.Tallied) (todo : List (Admitted PointSlot))
    (hnodup : (todo.map (·.entity)).Nodup)
    (hfresh : ∀ a ∈ todo, s.points.contains a.entity = false) :
    (todo.foldl enterPoint s).Tallied := by
  induction todo generalizing s with
  | nil => exact h
  | cons a rest ih =>
    obtain ⟨ha, hrest⟩ := List.nodup_cons.mp hnodup
    refine ih (h.enter (hfresh a List.mem_cons_self)) hrest fun b hb => ?_
    exact Shelf.contains_insert_of_ne (fun heq => ha (List.mem_map.mpr ⟨b, hb, heq.symm⟩))
      (hfresh b (List.mem_cons_of_mem _ hb))

end InMemoryStore

theorem entity_resolveAll (interned : ContentMap StreamIdentity StreamIdentity)
    (rows : List (EntityId × Nat × MetricPoint × StreamIdentity)) :
    (resolveAll interned rows).map (·.1) = rows.map (·.1) := by
  induction rows generalizing interned with
  | nil => rfl
  | cons row rows ih => rw [resolveAll, List.map_cons, List.map_cons, ih]

/-- **A store rebuilt from a file's rows has its counts exact**, whatever the rows say. -/
theorem tallied_rehydrate {decoder : RowDecoder} {tables : Tables} {rows : RowOrder tables}
    {loaded : LoadedRows} (h : load decoder rows = .ok loaded) (addresses : Allocation)
    (config : RetentionConfig) (hook : Bool) :
    ((rehydrate addresses loaded).inner tables config hook).memory.Tallied := by
  obtain ⟨hspans, hlogs, hpoints⟩ := entities_of_load h
  set base : InMemoryStore :=
    { InMemoryStore.new config hook with
      spans := loaded.spans.foldl (rehydrateRecord (addresses .span)) Shelf.new
      logs := loaded.logs.foldl (rehydrateRecord (addresses .log)) Shelf.new } with hbase
  have hnew := InMemoryStore.Coherent.new config hook
  have htallied : base.Tallied := ⟨indexed_rehydrateRecord _ hspans,
    indexed_rehydrateRecord _ hlogs, hnew.points, hnew.series⟩
  have hwalk := InMemoryStore.rehydratePoints_eq (addresses .point) loaded.points base
    ContentMap.empty
  have hentered := htallied.enterPoints
    ((resolveAll ContentMap.empty loaded.points).map (slotOf (addresses .point)))
    (by rw [List.map_map]
        exact (entity_resolveAll ContentMap.empty loaded.points).symm ▸ hpoints)
    fun _ _ => rfl
  rw [← hwalk] at hentered
  exact hentered.of_eq rfl rfl rfl rfl

/-! ## The open -/

/-- The open-time pass removes as retention does, and leaves the configuration. -/
theorem Inner.tallied_enforceNoWindow {i : Inner} (h : i.memory.Tallied) :
    (i.enforceNoWindow [] []).inner.memory.Tallied ∧
      (i.enforceNoWindow [] []).inner.config = i.config :=
  noWindowLoop.run_invariant
    (I := fun sweep => sweep.inner.memory.Tallied ∧ sweep.inner.config = i.config)
    (fun sweep sweep' hsweep hstep => by
      change evictOneNoWindow sweep = some sweep' at hstep
      unfold evictOneNoWindow at hstep
      split at hstep
      · exact absurd hstep (by simp)
      · split at hstep
        · exact absurd hstep (by simp)
        · rename_i hpop
          obtain rfl := Option.some.inj hstep
          obtain ⟨-, hconfig, r, hremoves, -⟩ := popOldest_deletes hpop
          exact ⟨(hsweep.1.removes hremoves).of_eq rfl rfl rfl rfl, hconfig.trans hsweep.2⟩)
    ⟨h, rfl⟩

section Open

variable {decoder : RowDecoder} {tables : Tables} {rows : RowOrder tables} {addresses : Allocation}
  {config : RetentionConfig} {hook succeeds : Bool} {f : FileBackedStore} {calls : List HookCall}

/-- **An opened store's counts are exact, and its two copies of its configuration agree.** -/
theorem tallied_of_openFile
    (h : openFile decoder tables rows addresses config hook succeeds = .ok (f, calls)) :
    f.memory.Tallied ∧ f.Configured := by
  unfold openFile at h
  cases hload : load decoder rows with
  | error error => simp [hload] at h
  | ok loaded =>
    obtain ⟨htallied, hconfig⟩ :=
      Inner.tallied_enforceNoWindow (tallied_rehydrate hload addresses config hook)
    simp only [hload] at h
    set sweep := ((rehydrate addresses loaded).inner tables config hook).enforceNoWindow [] []
    cases hcommit : sweep.inner.conn.commit sweep.ops succeeds with
    | error u => simp [hcommit] at h
    | ok conn =>
      simp only [hcommit] at h
      obtain ⟨rfl, -⟩ := Prod.mk.inj (Except.ok.inj h)
      rw [Inner.deliver_eq]
      exact ⟨htallied.of_eq rfl rfl rfl rfl, hconfig.symm⟩

end Open

end RuntimeTrail
