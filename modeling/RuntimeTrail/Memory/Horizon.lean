import RuntimeTrail.Memory.Coherence

/-!
# How far retention has got

Retention takes records from the front of the residency order, and what it has
taken tells the rest apart by place alone: whatever is kept meanwhile, a record
that stood is still resident exactly while every record taken comes before it.

* **the order** — `Entry.Before`, the tie between kinds included; no two residents
  share a place in it (`merged_before`);
* **what is taken** — `evictedBy`: as many of the oldest as the store reports;
* **one operation** — `order_of_apply`, and the horizon it moves,
  `mem_merged_apply_iff`.
-/

namespace RuntimeTrail

open Library

/-! ## Places in the residency order -/

/-- Where a kind stands when several have the same key: the span leaves first, then the log. -/
def RecordKind.rank : RecordKind → Nat
  | .span => 0
  | .log => 1
  | .point => 2

/-- One entry leaves before another. -/
def Entry.Before (a b : Entry) : Prop :=
  a.1 < b.1 ∨ a.1 = b.1 ∧ a.2.kind.rank < b.2.kind.rank

namespace Entry

theorem Before.irrefl (e : Entry) : ¬ e.Before e := by
  rintro (h | ⟨-, h⟩)
  · exact lt_irrefl _ h
  · exact Nat.lt_irrefl _ h

theorem Before.trans {a b c : Entry} (hab : a.Before b) (hbc : b.Before c) : a.Before c := by
  rcases hab with hab | ⟨hab, hrank⟩
  · rcases hbc with hbc | ⟨hbc, -⟩
    · exact Or.inl (hab.trans hbc)
    · exact Or.inl (hbc ▸ hab)
  · rcases hbc with hbc | ⟨hbc, hrank'⟩
    · exact Or.inl (hab ▸ hbc)
    · exact Or.inr ⟨hab.trans hbc, hrank.trans hrank'⟩

end Entry

/-- Merging two lists of which the first wins every tie keeps each entry before those after it. -/
theorem pairwise_merge_before {xs ys : List Entry} (hxs : xs.Pairwise Entry.Before)
    (hys : ys.Pairwise Entry.Before) (hrank : ∀ x ∈ xs, ∀ y ∈ ys, x.2.kind.rank < y.2.kind.rank) :
    (List.merge xs ys Entry.le).Pairwise Entry.Before := by
  induction xs generalizing ys with
  | nil => simpa using hys
  | cons x xs ihx =>
    obtain ⟨hx, hxs'⟩ := List.pairwise_cons.mp hxs
    induction ys with
    | nil => simpa using hxs
    | cons y ys ihy =>
      obtain ⟨hy, hys'⟩ := List.pairwise_cons.mp hys
      by_cases hle : Entry.le x y = true
      · have hxy : x.Before y := by
          rcases (of_decide_eq_true hle).lt_or_eq with hlt | heq
          · exact Or.inl hlt
          · exact Or.inr ⟨heq, hrank x List.mem_cons_self y List.mem_cons_self⟩
        rw [List.cons_merge_cons_pos _ _ _ hle, List.pairwise_cons]
        refine ⟨fun z hz => ?_, ihx hxs' hys fun x' hx' => hrank x' (List.mem_cons_of_mem _ hx')⟩
        rcases List.mem_merge.mp hz with hz | hz
        · exact hx z hz
        · rcases List.mem_cons.mp hz with rfl | hz
          · exact hxy
          · exact hxy.trans (hy z hz)
      · have hyx : y.Before x := Or.inl (not_le.mp fun h => hle (decide_eq_true h))
        rw [List.cons_merge_cons_neg _ _ _ (by simpa using hle), List.pairwise_cons]
        refine ⟨fun z hz => ?_, ihy hys' fun x' hx' y' hy' =>
          hrank x' hx' y' (List.mem_cons_of_mem _ hy')⟩
        rcases List.mem_merge.mp hz with hz | hz
        · rcases List.mem_cons.mp hz with rfl | hz
          · exact hyx
          · exact hyx.trans (hx z hz)
        · exact hy z hz

/-- A shelf lists its records in their places. -/
theorem Shelf.tagged_before {R : Type} (shelf : Shelf R) (tag : R → Resident) :
    (shelf.tagged tag).Pairwise Entry.Before := by
  rw [tagged, List.pairwise_map]
  exact shelf.byKey.sorted.imp Or.inl

/-- A shelf's entries are all of the kind it tags them with. -/
theorem Shelf.kind_of_mem_tagged {R : Type} {shelf : Shelf R} (tag : R → Resident)
    {kind : RecordKind} (htag : ∀ record, (tag record).kind = kind) {e : Entry}
    (he : e ∈ shelf.tagged tag) : e.2.kind = kind := by
  obtain ⟨p, -, rfl⟩ := List.mem_map.mp he
  exact htag p.2

namespace InMemoryStore

/-- **No two residents share a place**, and the merged order is that of their places. -/
theorem merged_before (s : InMemoryStore) : s.merged.Pairwise Entry.Before := by
  have hspan : ∀ e ∈ s.spans.tagged .span, e.2.kind = .span := fun _ he =>
    Shelf.kind_of_mem_tagged Resident.span (fun _ => rfl) he
  have hlog : ∀ e ∈ s.logs.tagged .log, e.2.kind = .log := fun _ he =>
    Shelf.kind_of_mem_tagged Resident.log (fun _ => rfl) he
  have hpoint : ∀ e ∈ s.points.tagged .point, e.2.kind = .point := fun _ he =>
    Shelf.kind_of_mem_tagged Resident.point (fun _ => rfl) he
  refine pairwise_merge_before (pairwise_merge_before (s.spans.tagged_before _)
    (s.logs.tagged_before _) fun x hx y hy => ?_) (s.points.tagged_before _) fun x hx y hy => ?_
  · rw [hspan x hx, hlog y hy]
    decide
  · rw [hpoint y hy]
    rcases List.mem_merge.mp hx with hx | hx
    · rw [hspan x hx]
      decide
    · rw [hlog x hx]
      decide

end InMemoryStore

/-! ## What an operation takes -/

/-- How many records an operation reports evicted. -/
def StoreReply.evictions : StoreReply → Nat
  | .keep (.kept n) => n
  | .evicted n => n
  | _ => 0

namespace InMemoryStore

/-- The residency order an operation's retention pass starts from: a record offered has entered. -/
def offered (s : InMemoryStore) (op : StoreOp) : List Entry :=
  match op.offer with
  | some (key, r) => (s.enter key r).merged
  | none => s.merged

/-- The records an operation evicts: the oldest ones, as many as it reports. -/
def evictedBy (s : InMemoryStore) (op : StoreOp) : List Entry :=
  (s.offered op).take (s.apply op).2.1.evictions

/-- A pass takes the records it counts from the front. -/
theorem merged_of_pass (s : InMemoryStore) (now : AdmissionTime) :
    s.merged.take (s.enforceAgainst now).evicted ++ (s.enforceAgainst now).store.merged =
      s.merged := by
  obtain ⟨removed, hmerged, hevicted⟩ := (passLoop now).run_invariant
    (I := fun pass => ∃ removed, s.merged = removed ++ pass.store.merged ∧
      pass.evicted = removed.length)
    (fun pass pass' hp hstep => by
      obtain ⟨removed, hmerged, hevicted⟩ := hp
      obtain ⟨cause, key, r, released, s', -, hhead, -, rfl⟩ := evictOne_spec hstep
      refine ⟨removed ++ [(key, r)], ?_, ?_⟩
      · rw [hmerged, hhead, List.append_assoc]
        rfl
      · rw [List.length_append, List.length_singleton, ← hevicted])
    (s := ⟨s, 0, []⟩) ⟨[], rfl, rfl⟩
  change s.merged.take ((passLoop now).run ⟨s, 0, []⟩).evicted ++ _ = _
  rw [hevicted]
  exact (by rw [hmerged, List.take_left] :
    s.merged.take removed.length ++ ((passLoop now).run ⟨s, 0, []⟩).store.merged = s.merged)

/-- **An operation takes from the front.**  What it evicts and what it leaves are, in this order,
one order of places, and beside what was resident only the record it offers is in it. -/
theorem order_of_apply {s : InMemoryStore} (hc : s.Tallied) (op : StoreOp) :
    (s.evictedBy op ++ (s.apply op).1.merged).Pairwise Entry.Before ∧
      (∀ e ∈ s.merged, e ∈ s.evictedBy op ++ (s.apply op).1.merged) ∧
      ∀ e ∈ s.evictedBy op ++ (s.apply op).1.merged, e ∈ s.merged ∨ op.offer = some e := by
  have hkeeps : ∀ {order : List Entry}, order = s.merged →
      order.Pairwise Entry.Before ∧ (∀ e ∈ s.merged, e ∈ order) ∧
        ∀ e ∈ order, e ∈ s.merged ∨ op.offer = some e := by
    rintro order rfl
    exact ⟨s.merged_before, fun _ he => he, fun _ he => Or.inl he⟩
  rcases apply_cases s op with ⟨key, r, -, outcome, hr, heq⟩ | ⟨key, r, hoffer, hr, heq⟩ |
    ⟨now, rfl, heq⟩ | ⟨hoffer, hsweep, anomalies, reply, hreply, heq⟩
  · refine hkeeps ?_
    have hnone : (StoreReply.keep outcome).evictions = 0 := by
      cases outcome with
      | kept n => exact absurd hr refusal_ne_kept
      | _ => rfl
    rw [evictedBy, heq, hnone, List.take_zero, List.nil_append, merged_refuse]
  · have horder : s.evictedBy op ++ (s.apply op).1.merged = (s.enter key r).merged := by
      rw [evictedBy, offered, hoffer, heq]
      exact merged_of_pass (s.enter key r) key.admittedAt
    have hperm := hc.merged_enter (not_holds_of_refusal hr)
    rw [horder]
    refine ⟨merged_before _, fun e he => hperm.mem_iff.mpr (List.mem_cons_of_mem _ he),
      fun e he => ?_⟩
    rcases List.mem_cons.mp (hperm.mem_iff.mp he) with rfl | he
    · exact Or.inr hoffer
    · exact Or.inl he
  · refine hkeeps ?_
    rw [evictedBy, heq]
    exact s.merged_of_pass now
  · refine hkeeps ?_
    have hnone : (s.apply op).2.1.evictions = 0 := by
      cases op with
      | enforceRetention now => exact absurd rfl (hsweep now)
      | keepSpan a => exact absurd hoffer (by simp [StoreOp.offer])
      | keepLogRecord a => exact absurd hoffer (by simp [StoreOp.offer])
      | keepMetricPoint a stream => exact absurd hoffer (by simp [StoreOp.offer])
      | _ => rfl
    rw [evictedBy, hnone, List.take_zero, List.nil_append, heq]
    rfl

/-- **The horizon of one operation.**  A record it does not offer is resident afterwards exactly
when it was before and everything evicted comes before it. -/
theorem mem_merged_apply_iff {s : InMemoryStore} (hc : s.Tallied) {op : StoreOp} {e : Entry}
    (hoffer : op.offer ≠ some e) :
    e ∈ (s.apply op).1.merged ↔ e ∈ s.merged ∧ ∀ gone ∈ s.evictedBy op, gone.Before e := by
  obtain ⟨hplaces, hkept, hnew⟩ := order_of_apply hc op
  constructor
  · intro he
    exact ⟨(hnew e (List.mem_append_right _ he)).resolve_right hoffer,
      fun gone hgone => (List.pairwise_append.mp hplaces).2.2 gone hgone e he⟩
  · rintro ⟨he, hahead⟩
    rcases List.mem_append.mp (hkept e he) with hgone | hleft
    · exact absurd (hahead e hgone) (Entry.Before.irrefl e)
    · exact hleft

end InMemoryStore

end RuntimeTrail
