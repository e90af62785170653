import RuntimeTrail.Sqlite.Mirror

/-!
# What a file rebuilds

The rebuild reads rows in the database's order and enters each record where the
live store would.  Over a file that mirrors a store with exact accounts it
rebuilds that store: the same records in the same order, the same byte accounts,
the same reference counts.

* **records** — `Shelf.foldl_insert`: entering fresh records one by one, in any
  order, leaves them and an exact sum;
* **streams** — `resolveAll_same`: interning by content changes no stream and no
  charge; `rehydratePoints_eq`: the walk over the points is the live entry of
  each in turn;
* **the rebuild** — `rebuilt_of_mirrors`.
-/

namespace RuntimeTrail

open Library

/-! ## Records -/

/-- An admitted record as the shelf's order lists it. -/
def Admitted.entry {R : Type} (admitted : Admitted R) : AdmissionKey × R :=
  (⟨admitted.admittedAt, admitted.entity⟩, admitted.record)

/-- A fresh record leaves every other entity as fresh as it was. -/
theorem Shelf.contains_insert_of_ne {R : Type} [Accounted R] {shelf : Shelf R}
    {admitted : Admitted R} {entity : EntityId} (hne : admitted.entity ≠ entity)
    (h : shelf.contains entity = false) : (shelf.insert admitted).contains entity = false := by
  change (shelf.byEntity.insert admitted.entity _).contains entity = false
  rw [ContentMap.contains_insert, show shelf.byEntity.contains entity = false from h]
  simpa using hne

/-- Fresh records entered one by one: all of them stand, the index with them, and the sum is
exact. -/
theorem Shelf.foldl_insert {R : Type} [Accounted R] : ∀ (todo : List (Admitted R)) {shelf : Shelf R},
    shelf.Indexed → shelf.Exact → (todo.map (·.entity)).Nodup →
    (∀ a ∈ todo, shelf.contains a.entity = false) →
    shelf.recordSum + (todo.map fun a => accountedU64 a.record).sum ≤ u64Max →
    (todo.foldl Shelf.insert shelf).Indexed ∧ (todo.foldl Shelf.insert shelf).Exact ∧
      (todo.foldl Shelf.insert shelf).entries.Perm (todo.map Admitted.entry ++ shelf.entries) := by
  intro todo
  induction todo with
  | nil => intro shelf hindexed hexact _ _ _; exact ⟨hindexed, hexact, List.Perm.refl _⟩
  | cons a rest ih =>
    intro shelf hindexed hexact hnodup hfresh hfits
    obtain ⟨ha, hrest⟩ := List.nodup_cons.mp hnodup
    rw [List.map_cons, List.sum_cons] at hfits
    have hnew := hfresh a List.mem_cons_self
    have hsum := Shelf.recordSum_insert hindexed hnew
    have hbound : shelf.accountedBytes + accountedU64 a.record ≤ u64Max := by
      rw [show shelf.accountedBytes = shelf.recordSum from hexact]
      omega
    have hothers : ∀ b ∈ rest, (shelf.insert a).contains b.entity = false := fun b hb =>
      Shelf.contains_insert_of_ne (fun heq => ha (List.mem_map.mpr ⟨b, hb, heq.symm⟩))
        (hfresh b (List.mem_cons_of_mem _ hb))
    obtain ⟨hi, he, hperm⟩ := ih (hindexed.insert hnew) (hexact.insert hindexed hnew hbound) hrest
      hothers (by omega)
    refine ⟨hi, he, hperm.trans ?_⟩
    rw [List.map_cons, List.cons_append]
    exact ((hindexed.insert_perm hnew).append_left _).trans List.perm_middle

/-- What a row of records is to the resident record it was loaded from. -/
def LoadedFrom {V : Type} (loaded : EntityId × Nat × V) (p : AdmissionKey × Arc V) : Prop :=
  loaded.1 = p.1.entity ∧ loaded.2.1 = p.1.admittedAt.unixNano ∧ loaded.2.2 = p.2.val

/-- Two shelves list the same records in the same order, at their own addresses. -/
def SameRecords {V : Type} (shelf shelf' : Shelf (Arc V)) : Prop :=
  List.Forall₂ (fun p q => p.1 = q.1 ∧ p.2.val = q.2.val) shelf.entries shelf'.entries

section Records

variable {V : Type} {live : Shelf (Arc V)} {table : ContentMap EntityId Row}
  {decode : String → Except String V}

/-- The rows of a mirrored table decode, each to a resident record. -/
theorem loadRows_ok (h : Mirrored (RecordRow decode) table live) {rows : List (EntityId × Row)}
    (hrows : table.entries.Perm rows) (name : String) :
    ∃ loaded, rows.mapM (loadRow name decode) = .ok loaded ∧
      Matched LoadedFrom loaded live.entries := by
  have hmatched := Matched.perm_left h hrows.symm
  have hload : ∀ {row : EntityId × Row} {p : AdmissionKey × Arc V}, row.1 = p.1.entity →
      RecordRow decode row.2 p → loadRow name decode row = .ok (row.1, row.2.admissionNano, p.2.val) :=
    fun _ hrow => by
      unfold loadRow
      rw [hrow.record]
      rfl
  obtain ⟨loaded, hok, hrel⟩ := @mapM_ok_forall₂ _ _ _ (loadRow name decode) rows fun row hrow => by
    obtain ⟨p, -, hentity, hholds⟩ := hmatched.exists_right hrow
    exact ⟨_, hload hentity hholds⟩
  refine ⟨loaded, hok, (Matched.of_forall₂ hrel).flip.trans hmatched ?_⟩
  rintro l row p hl ⟨hentity, hholds⟩
  rw [hload hentity hholds] at hl
  obtain rfl := Except.ok.inj hl
  exact ⟨hentity, hholds.nano, rfl⟩

variable [Accounted V]

/-- The entities of a shelf are pairwise different. -/
theorem Shelf.Indexed.nodup_entities {R : Type} {shelf : Shelf R} (h : shelf.Indexed) :
    (shelf.entries.map fun p => p.1.entity).Nodup := by
  refine List.pairwise_map.mpr (shelf.byKey.sorted.imp_of_mem fun {p q} hp hq hlt heq => ?_)
  have hp' := (h.inverse p.1.entity p.1).mpr ⟨rfl, p.2, hp⟩
  have hq' := (h.inverse p.1.entity q.1).mpr ⟨heq.symm, q.2, hq⟩
  rw [Option.some.inj (hp'.symm.trans hq')] at hlt
  exact absurd hlt (lt_irrefl _)

/-- **Records are rebuilt as they stood**, in whatever order their rows come. -/
theorem rebuilt_records (hindexed : live.Indexed) (hexact : live.Exact)
    (hword : live.accountedBytes ≤ u64Max) {loaded : List (EntityId × Nat × V)}
    (h : Matched LoadedFrom loaded live.entries) (address : EntityId → Nat) :
    (loaded.foldl (rehydrateRecord address) Shelf.new).Indexed ∧
      (loaded.foldl (rehydrateRecord address) Shelf.new).Exact ∧
      SameRecords live (loaded.foldl (rehydrateRecord address) Shelf.new) := by
  set enter : EntityId × Nat × V → Admitted (Arc V) :=
    fun row => ⟨row.1, ⟨row.2.1⟩, ⟨address row.1, row.2.2⟩⟩ with henter
  have hfold : loaded.foldl (rehydrateRecord address) Shelf.new =
      (loaded.map enter).foldl Shelf.insert Shelf.new := by
    rw [List.foldl_map]
    rfl
  have hentities : ((loaded.map enter).map (·.entity)).Nodup := by
    rw [List.map_map]
    exact (h.map_perm (f := fun row => (enter row).entity) (g := fun p => p.1.entity)
      fun _ _ hl => hl.1).nodup_iff.mpr hindexed.nodup_entities
  have hsum : ((loaded.map enter).map fun a => accountedU64 a.record).sum = live.recordSum := by
    rw [List.map_map]
    exact (h.map_perm (f := fun row => accountedU64 (enter row).record)
      (g := fun p => accountedU64 p.2) fun row p hl => by
        change accountedU64 row.2.2 = accountedU64 p.2.val
        rw [hl.2.2]).sum_eq
  obtain ⟨hi, he, hperm⟩ := Shelf.foldl_insert (loaded.map enter) Shelf.Indexed.new
    (show (Shelf.new : Shelf (Arc V)).Exact from rfl) hentities (fun _ _ => rfl) (by
      rw [hsum, ← show live.accountedBytes = live.recordSum from hexact]
      exact (Nat.zero_add _).trans_le hword)
  rw [hfold]
  refine ⟨hi, he, ?_⟩
  have hmatched : Matched (fun (p q : AdmissionKey × Arc V) => p.1 = q.1 ∧ p.2.val = q.2.val)
      live.entries ((loaded.map enter).foldl Shelf.insert Shelf.new).entries := by
    refine (h.flip.map_right (f := fun row => (enter row).entry) ?_).perm_right ?_
    · rintro ⟨⟨nano, entity⟩, record⟩ row ⟨hentity, hnano, hrecord⟩
      refine ⟨?_, hrecord.symm⟩
      simp only [henter, Admitted.entry, hentity, hnano]
    · refine (hperm.trans ?_).symm
      rw [List.map_map, show (Shelf.new : Shelf (Arc V)).entries = [] from rfl, List.append_nil]
      rfl
  exact hmatched.forall₂ (f := fun p => p.1) (g := fun q => q.1) (fun _ _ hpq => hpq.1)
    live.byKey.sorted (Shelf.byKey _).sorted

end Records

/-! ## Points -/

/-- What a row of the table of points is to the resident point it was loaded from. -/
structure LoadedSlot (loaded : EntityId × Nat × MetricPoint × StreamIdentity)
    (p : AdmissionKey × PointSlot) : Prop where
  entity : loaded.1 = p.1.entity
  nano : loaded.2.1 = p.1.admittedAt.unixNano
  point : loaded.2.2.1 = p.2.point.val
  stream : (loaded.2.2.2 == p.2.stream) = true
  size : accountedU64 loaded.2.2.2 = accountedU64 p.2.stream

/-- The same point, of an equal stream charged alike. -/
structure SameSlot (a b : PointSlot) : Prop where
  point : a.point.val = b.point.val
  stream : (a.stream == b.stream) = true
  size : accountedU64 a.stream = accountedU64 b.stream

/-- Two shelves list the same points in the same order. -/
def SameSlots (shelf shelf' : Shelf PointSlot) : Prop :=
  List.Forall₂ (fun p q => p.1 = q.1 ∧ SameSlot p.2 q.2) shelf.entries shelf'.entries

/-- The rows of a mirrored table of points decode, each to a resident point. -/
theorem loadPointRows_ok {decoder : RowDecoder} {table : ContentMap EntityId PointRow}
    {live : Shelf PointSlot} (h : Mirrored (SlotRow decoder) table live)
    {rows : List (EntityId × PointRow)} (hrows : table.entries.Perm rows) :
    ∃ loaded, rows.mapM (loadPointRow decoder) = .ok loaded ∧
      Matched LoadedSlot loaded live.entries := by
  have hmatched := Matched.perm_left h hrows.symm
  have hload : ∀ {row : EntityId × PointRow} {p : AdmissionKey × PointSlot},
      row.1 = p.1.entity → SlotRow decoder row.2 p →
        ∃ l, loadPointRow decoder row = .ok l ∧ LoadedSlot l p := by
    intro row p hentity hrow
    obtain ⟨stream, hstream, hequal, hsize⟩ := hrow.stream
    refine ⟨(row.1, row.2.admissionNano, p.2.point.val, stream), ?_,
      ⟨hentity, hrow.nano, rfl, hequal, hsize⟩⟩
    unfold loadPointRow
    rw [hrow.point, hstream]
    rfl
  obtain ⟨loaded, hok, hrel⟩ := @mapM_ok_forall₂ _ _ _ (loadPointRow decoder) rows
    fun row hrow => by
      obtain ⟨p, -, hentity, hholds⟩ := hmatched.exists_right hrow
      obtain ⟨l, hl, -⟩ := hload hentity hholds
      exact ⟨l, hl⟩
  refine ⟨loaded, hok, (Matched.of_forall₂ hrel).flip.trans hmatched ?_⟩
  rintro l row p hl ⟨hentity, hholds⟩
  obtain ⟨l', hl', hloaded⟩ := hload hentity hholds
  rw [hl] at hl'
  obtain rfl := Except.ok.inj hl'
  exact hloaded

/-! ## Streams -/

/-- The rows with every stream resolved to the handle interned for it. -/
def resolveAll : ContentMap StreamIdentity StreamIdentity →
    List (EntityId × Nat × MetricPoint × StreamIdentity) →
    List (EntityId × Nat × MetricPoint × StreamIdentity)
  | _, [] => []
  | interned, row :: rows =>
    let resolved := resolveStream interned row.2.2.2
    (row.1, row.2.1, row.2.2.1, resolved.1) :: resolveAll resolved.2 rows

/-- Interning answers an equal stream, of the same charge where equal streams are charged alike. -/
theorem resolveStream_spec {interned : ContentMap StreamIdentity StreamIdentity}
    {stream : StreamIdentity} (hself : ∀ e ∈ interned.entries, e.2 = e.1)
    (hsize : ∀ e ∈ interned.entries, e.1 == stream → accountedU64 e.1 = accountedU64 stream) :
    ((resolveStream interned stream).1 == stream) = true ∧
      accountedU64 (resolveStream interned stream).1 = accountedU64 stream ∧
      ∀ e ∈ (resolveStream interned stream).2.entries, e.2 = e.1 ∧
        (e ∈ interned.entries ∨ e.1 = stream) := by
  unfold resolveStream
  cases hget : interned.get? stream with
  | some known =>
    obtain ⟨k, hmem, hk⟩ := ContentMap.get?_eq_some_iff.mp hget
    obtain rfl : known = k := hself _ hmem
    have hknown := hsize (known, known) hmem hk
    exact ⟨hk, hknown, fun e he => ⟨hself e he, Or.inl he⟩⟩
  | none =>
    refine ⟨BEq.rfl, rfl, fun e he => ?_⟩
    have hnone : interned.getPair? stream = none := by simpa [ContentMap.get?] using hget
    rcases List.mem_cons.mp ((ContentMap.insert_perm_of_none hnone).mem_iff.mp he) with rfl | he
    · exact ⟨rfl, Or.inr rfl⟩
    · exact ⟨hself e he, Or.inl he⟩

/-- **Interning changes no row but the handle**, for one equal to it and charged alike. -/
theorem resolveAll_same : ∀ (rows : List (EntityId × Nat × MetricPoint × StreamIdentity))
    {interned : ContentMap StreamIdentity StreamIdentity},
    (∀ e ∈ interned.entries, e.2 = e.1) →
    (∀ a ∈ interned.entries.map (·.1) ++ rows.map (·.2.2.2), ∀ b ∈ rows.map (·.2.2.2),
      a == b → accountedU64 a = accountedU64 b) →
    List.Forall₂ (fun row row' => row'.1 = row.1 ∧ row'.2.1 = row.2.1 ∧ row'.2.2.1 = row.2.2.1 ∧
        (row'.2.2.2 == row.2.2.2) = true ∧ accountedU64 row'.2.2.2 = accountedU64 row.2.2.2)
      rows (resolveAll interned rows) := by
  intro rows
  induction rows with
  | nil => intro interned _ _; exact List.Forall₂.nil
  | cons row rows ih =>
    intro interned hself hsizes
    have hhead : ∀ e ∈ interned.entries, e.1 == row.2.2.2 →
        accountedU64 e.1 = accountedU64 row.2.2.2 := fun e he =>
      hsizes _ (List.mem_append_left _ (List.mem_map_of_mem he)) _ (by simp)
    obtain ⟨hequal, hsize, hinterned⟩ := resolveStream_spec hself hhead
    refine List.Forall₂.cons ⟨rfl, rfl, rfl, hequal, hsize⟩
      (ih (fun e he => (hinterned e he).1) fun a ha b hb => ?_)
    refine hsizes a ?_ b (by rw [List.map_cons]; exact List.mem_cons_of_mem _ hb)
    rcases List.mem_append.mp ha with ha | ha
    · obtain ⟨e, he, rfl⟩ := List.mem_map.mp ha
      rcases (hinterned e he).2 with he | he
      · exact List.mem_append_left _ (List.mem_map_of_mem he)
      · exact List.mem_append_right _ (by rw [he]; simp)
    · exact List.mem_append_right _ (by rw [List.map_cons]; exact List.mem_cons_of_mem _ ha)

/-- The point a resolved row enters. -/
def slotOf (address : EntityId → Nat) (row : EntityId × Nat × MetricPoint × StreamIdentity) :
    Admitted PointSlot :=
  ⟨row.1, ⟨row.2.1⟩, ⟨⟨address row.1, row.2.2.1⟩, row.2.2.2⟩⟩

namespace InMemoryStore

/-- The live entry of one point. -/
def enterPoint (s : InMemoryStore) (admitted : Admitted PointSlot) : InMemoryStore :=
  s.enter ⟨admitted.admittedAt, admitted.entity⟩ (.point admitted.record)

/-- **The walk over the points is the live entry of each in turn.** -/
theorem rehydratePoints_eq (address : EntityId → Nat) :
    ∀ (rows : List (EntityId × Nat × MetricPoint × StreamIdentity)) (s : InMemoryStore)
      (interned : ContentMap StreamIdentity StreamIdentity),
    let walked := rows.foldl (rehydratePoint address)
      ⟨s.points, s.series, s.identityAccountedBytes, interned⟩
    { s with
      points := walked.points
      series := walked.series
      identityAccountedBytes := walked.identityAccountedBytes } =
    ((resolveAll interned rows).map (slotOf address)).foldl enterPoint s := by
  intro rows
  induction rows with
  | nil => intro s interned; rfl
  | cons row rows ih =>
    intro s interned
    have hrest := ih (s.enterPoint (slotOf address
      (row.1, row.2.1, row.2.2.1, (resolveStream interned row.2.2.2).1)))
      (resolveStream interned row.2.2.2).2
    exact hrest

/-- Points entered one by one, their streams among pairwise different ones whose charges fit
together, leave the accounts exact. -/
theorem Audited.enterPoints {reps : List StreamIdentity}
    (hdistinct : reps.Pairwise (fun a b => (a == b) = false))
    (hword : (reps.map accountedU64).sum ≤ u64Max) :
    ∀ (todo : List (Admitted PointSlot)) {s : InMemoryStore}, s.Audited →
      (todo.map (·.entity)).Nodup → (∀ a ∈ todo, s.points.contains a.entity = false) →
      s.points.recordSum + (todo.map fun a => accountedU64 a.record).sum ≤ u64Max →
      (∀ k ∈ s.series.entries.map (·.1) ++ todo.map (·.record.stream),
        ∃ r ∈ reps, r == k ∧ accountedU64 r = accountedU64 k) →
      (todo.foldl enterPoint s).Audited ∧
        (todo.foldl enterPoint s).points = todo.foldl Shelf.insert s.points ∧
        (todo.foldl enterPoint s).spans = s.spans ∧ (todo.foldl enterPoint s).logs = s.logs := by
  intro todo
  induction todo with
  | nil => intro s h _ _ _ _; exact ⟨h, rfl, rfl, rfl⟩
  | cons a rest ih =>
    intro s h hnodup hfresh hfits hcover
    obtain ⟨ha, hrest⟩ := List.nodup_cons.mp hnodup
    rw [List.map_cons, List.sum_cons] at hfits
    have hnew := hfresh a List.mem_cons_self
    have hstream : ∃ r ∈ reps, r == a.record.stream ∧
        accountedU64 r = accountedU64 a.record.stream := hcover _ (by simp)
    have hbytes : s.points.accountedBytes = s.points.recordSum := h.bytes .point
    have hentered : (s.enterPoint a).Audited := by
      refine h.enter hnew ?_ fun stream hs => ?_
      · change s.points.accountedBytes + accountedU64 a.record ≤ u64Max
        omega
      · obtain rfl := Option.some.inj hs
        obtain ⟨r, hr, hra, hsize⟩ := hstream
        refine ⟨fun e he heq => ?_, fun hfree => ?_⟩
        · -- the standing key and the stream are stood for by one of the representatives
          obtain ⟨q, hq, hqe, hqsize⟩ := hcover e.1
            (List.mem_append_left _ (List.mem_map_of_mem he))
          have hqr : q = r := by
            by_contra hne
            have hsymm : Std.Symm (fun a b : StreamIdentity => (a == b) = false) :=
              ⟨fun _ _ h => by rw [BEq.comm, h]⟩
            have := hdistinct.forall hq hr hne
            rw [BEq.trans (BEq.trans hqe heq) (BEq.symm hra)] at this
            exact absurd this (by simp)
          rw [← hqsize, hqr, hsize]
        · have hkeys : (s.series.entries.map (·.1) ++ [a.record.stream]).Pairwise
              (fun a b => (a == b) = false) := by
            refine List.pairwise_append.mpr
              ⟨ContentMap.pairwise_fst.mp s.series.distinct, List.pairwise_singleton _ _, ?_⟩
            intro k hk b hb
            obtain ⟨e, he, rfl⟩ := List.mem_map.mp hk
            obtain rfl := List.mem_singleton.mp hb
            exact ContentMap.contains_eq_false_iff.mp hfree e he
          have hle := @sum_le_of_cover _ _ accountedU64 _ _ _ hkeys fun k hk => hcover k (by
            rcases List.mem_append.mp hk with hk | hk
            · exact List.mem_append_left _ hk
            · obtain rfl := List.mem_singleton.mp hk
              exact List.mem_append_right _ (by simp))
          rw [List.map_append, List.sum_append, List.map_map] at hle
          have htotal : s.identityAccountedBytes =
              (s.series.entries.map (accountedU64 ∘ (·.1))).sum := h.charged.total
          have hsingle : ([a.record.stream].map accountedU64).sum = accountedU64 a.record.stream := by
            simp
          omega
    have hsum : (s.enterPoint a).points.recordSum = s.points.recordSum + accountedU64 a.record :=
      @Shelf.recordSum_insert _ _ _ h.tallied.points a hnew
    have hothers : ∀ b ∈ rest, (s.enterPoint a).points.contains b.entity = false := fun b hb =>
      @Shelf.contains_insert_of_ne _ _ _ a _
        (fun heq => ha (List.mem_map.mpr ⟨b, hb, heq.symm⟩)) (hfresh b (List.mem_cons_of_mem _ hb))
    obtain ⟨haudited, hpoints, hspans, hlogs⟩ := ih hentered hrest hothers (by omega) (by
      intro k hk
      rcases List.mem_append.mp hk with hk | hk
      · rcases ContentMap.mem_keys_insert hk with hk | rfl
        · exact hcover k (List.mem_append_left _ hk)
        · exact hstream
      · exact hcover k (List.mem_append_right _ (by rw [List.map_cons]; exact List.mem_cons_of_mem _ hk)))
    exact ⟨haudited, hpoints, hspans, hlogs⟩

/-- The resident handles of one stream are charged alike. -/
theorem Audited.slot_sizes {s : InMemoryStore} (h : s.Audited) {p q : AdmissionKey × PointSlot}
    (hp : p ∈ s.points.entries) (hq : q ∈ s.points.entries) (heq : p.2.stream == q.2.stream) :
    accountedU64 p.2.stream = accountedU64 q.2.stream := by
  obtain ⟨e, he, hep⟩ := h.tallied.standing_of_mem hp
  rw [← h.charged.sized e he p hp hep, h.charged.sized e he q hq (BEq.trans hep heq)]

/-- **Points are rebuilt as they stood**, with their streams' counts and charges. -/
theorem Audited.rebuilt_points {live s : InMemoryStore} (h : live.Audited) (hs : s.Audited)
    (hnone : s.points = Shelf.new) (hseries : s.series = ContentMap.empty)
    {loaded : List (EntityId × Nat × MetricPoint × StreamIdentity)}
    (hm : Matched LoadedSlot loaded live.points.entries) (address : EntityId → Nat) :
    let rebuilt := ((resolveAll ContentMap.empty loaded).map (slotOf address)).foldl enterPoint s
    rebuilt.Audited ∧ SameSlots live.points rebuilt.points ∧ rebuilt.spans = s.spans ∧
      rebuilt.logs = s.logs := by
  have hsizes : ∀ a ∈ loaded.map (·.2.2.2), ∀ b ∈ loaded.map (·.2.2.2), a == b →
      accountedU64 a = accountedU64 b := by
    intro a ha b hb heq
    obtain ⟨row, hrow, rfl⟩ := List.mem_map.mp ha
    obtain ⟨row', hrow', rfl⟩ := List.mem_map.mp hb
    obtain ⟨p, hp, hloaded⟩ := hm.exists_right hrow
    obtain ⟨q, hq, hloaded'⟩ := hm.exists_right hrow'
    rw [hloaded.size, hloaded'.size]
    exact h.slot_sizes hp hq
      (BEq.trans (BEq.symm hloaded.stream) (BEq.trans heq hloaded'.stream))
  have hsame := @resolveAll_same loaded ContentMap.empty
    (fun e he => absurd he (by simp [ContentMap.empty])) fun a ha b hb => hsizes a ha b hb
  have hresolved : Matched LoadedSlot (resolveAll ContentMap.empty loaded) live.points.entries := by
    refine (Matched.of_forall₂ hsame).flip.trans hm ?_
    rintro row' row p ⟨hentity, hnano, hpoint, hstream, hsize⟩ hloaded
    exact ⟨hentity.trans hloaded.entity, hnano.trans hloaded.nano, hpoint.trans hloaded.point,
      BEq.trans hstream hloaded.stream, hsize.trans hloaded.size⟩
  set todo := (resolveAll ContentMap.empty loaded).map (slotOf address) with htodo
  have hexact : live.points.accountedBytes = live.points.recordSum := h.bytes .point
  have hnodup : (todo.map (·.entity)).Nodup := by
    rw [htodo, List.map_map]
    refine (hresolved.map_perm (f := fun row => (slotOf address row).entity)
      (g := fun p => p.1.entity) fun row p hl => ?_).nodup_iff.mpr
        h.tallied.points.nodup_entities
    exact hl.entity
  have hfresh : ∀ a ∈ todo, s.points.contains a.entity = false := fun _ _ => by rw [hnone]; rfl
  have hsum : (todo.map fun a => accountedU64 a.record).sum = live.points.recordSum := by
    rw [htodo, List.map_map]
    refine (hresolved.map_perm (f := fun row => accountedU64 (slotOf address row).record)
      (g := fun p => accountedU64 p.2) fun row p hl => ?_).sum_eq
    change accountedU64 row.2.2.1 = accountedU64 p.2.point.val
    rw [hl.point]
  have hfits : s.points.recordSum + (todo.map fun a => accountedU64 a.record).sum ≤ u64Max := by
    rw [hsum, hnone, ← hexact]
    exact (Nat.zero_add _).trans_le (h.words.1 .point)
  have hreps : (live.series.entries.map (·.1)).Pairwise (fun a b => (a == b) = false) :=
    ContentMap.pairwise_fst.mp live.series.distinct
  have hword : ((live.series.entries.map (·.1)).map accountedU64).sum ≤ u64Max := by
    rw [List.map_map]
    exact h.charged.total.symm.trans_le h.words.2
  obtain ⟨haudited, hpoints, hspans, hlogs⟩ := Audited.enterPoints hreps hword todo hs hnodup hfresh
    hfits (by
      intro k hk
      rw [hseries, htodo, List.map_map] at hk
      have hk : k ∈ (resolveAll ContentMap.empty loaded).map
          ((·.record.stream) ∘ slotOf address) := hk
      obtain ⟨row, hrow, rfl⟩ := List.mem_map.mp hk
      obtain ⟨p, hp, hloaded⟩ := hresolved.exists_right hrow
      obtain ⟨e, he, hep⟩ := h.tallied.standing_of_mem hp
      exact ⟨e.1, List.mem_map_of_mem he, BEq.trans hep (BEq.symm hloaded.stream),
        (h.charged.sized e he p hp hep).trans hloaded.size.symm⟩)
  refine ⟨haudited, ?_, hspans, hlogs⟩
  rw [SameSlots, hpoints, hnone]
  obtain ⟨-, -, hperm⟩ := Shelf.foldl_insert todo Shelf.Indexed.new
    (show (Shelf.new : Shelf PointSlot).Exact from rfl) hnodup (fun _ _ => rfl)
    (by rw [hnone] at hfits; exact hfits)
  have hmatched : Matched (fun (p q : AdmissionKey × PointSlot) => p.1 = q.1 ∧ SameSlot p.2 q.2)
      live.points.entries (todo.foldl Shelf.insert Shelf.new).entries := by
    refine (hresolved.flip.map_right (f := fun row => (slotOf address row).entry) ?_).perm_right ?_
    · rintro ⟨⟨nano, entity⟩, slot⟩ row hloaded
      refine ⟨?_, hloaded.point.symm, BEq.symm hloaded.stream, hloaded.size.symm⟩
      simp only [slotOf, Admitted.entry, hloaded.entity, hloaded.nano]
    · refine (hperm.trans ?_).symm
      rw [htodo, List.map_map, show (Shelf.new : Shelf PointSlot).entries = [] from rfl,
        List.append_nil]
      rfl
  exact hmatched.forall₂ (f := fun p => p.1) (g := fun q => q.1) (fun _ _ hpq => hpq.1)
    live.points.byKey.sorted (Shelf.byKey _).sorted

end InMemoryStore

end RuntimeTrail
