import RuntimeTrail.Investigation.Gathered

/-!
# Identity recovery

The two recovery walks name the selected log records, then the selected points,
by scanning the store for their allocations, on one account of examinations.  The
store may keep and evict between any two of the scan calls.

* **one walk as a loop** — `Naming.recover_induct`: what holds at every turn holds
  at the end; `Naming.recover_isSome`: an examination a turn;
* **the account** — `Naming.recover_within`;
* **the names** — `Naming.recover_named`: an id the allocation was resident under
  at a call of the walk;
* **a fixed store** — `Naming.Tracks`: every selected allocation is named, or
  wanted and still ahead;
* **the law** — `RuntimeTrail.identity_recovery_exact`.
-/

namespace RuntimeTrail

open Library

namespace Naming

variable {R : Type} {ceiling : Nat} {selected : List Nat} {addrOf : R → Nat}
  {scan : Nat → Option AdmissionKey → Nat → ScanPage R}

/-! ## One walk as a loop -/

/-- The walk after one page. -/
def turned (ceiling : Nat) (selected : List Nat) (addrOf : R → Nat)
    (scan : Nat → Option AdmissionKey → Nat → ScanPage R) (after : Option AdmissionKey)
    (n : Naming) : Naming :=
  examinePage ceiling selected addrOf { n with scans := n.scans + 1 }
    (scan n.scans after recoveryScanSlice).items

/-- **The induction of a recovery walk**: what every page keeps holds of the walk's end. -/
theorem recover_induct {I : Option AdmissionKey → Naming → Prop} {Q : Naming → Prop}
    (hend : ∀ after n, I after n → n.ends ceiling = true → Q n)
    (hturn : ∀ after n, I after n → n.ends ceiling = false →
      (∀ cursor, (scan n.scans after recoveryScanSlice).cursor = some cursor →
        I (some cursor) (turned ceiling selected addrOf scan after n)) ∧
      ((scan n.scans after recoveryScanSlice).cursor = none →
        Q (turned ceiling selected addrOf scan after n)))
    {fuel : Nat} {after : Option AdmissionKey} {n n' : Naming} (h : I after n)
    (hrecover : recover ceiling selected addrOf scan fuel after n = some n') : Q n' := by
  induction fuel generalizing after n with
  | zero => exact absurd hrecover (by simp [recover])
  | succ fuel ih =>
    rw [recover] at hrecover
    cases hends : n.ends ceiling with
    | true =>
      rw [hends, if_pos rfl] at hrecover
      exact Option.some.inj hrecover ▸ hend after n h hends
    | false =>
      rw [hends, if_neg Bool.false_ne_true] at hrecover
      obtain ⟨hgoes, hstops⟩ := hturn after n h hends
      dsimp only at hrecover
      split at hrecover
      · rename_i cursor hcursor
        exact ih (hgoes cursor hcursor) hrecover
      · rename_i hcursor
        exact Option.some.inj hrecover ▸ hstops hcursor

/-! ## The account -/

@[simp] theorem scans_examined (n : Naming) (addr : Nat) (entity : EntityId) :
    (n.examined selected addr entity).scans = n.scans := by
  unfold examined
  dsimp only
  split <;> rfl

@[simp] theorem examinations_examined (n : Naming) (addr : Nat) (entity : EntityId) :
    (n.examined selected addr entity).examinations = n.examinations + 1 := by
  unfold examined
  dsimp only
  split <;> rfl

/-- A page spends at most an examination for each item, within the ceiling, and one at least when the
walk had not ended. -/
theorem examinations_examinePage (items : List (ScanItem R)) (n : Naming) :
    let n' := examinePage ceiling selected addrOf n items
    n'.scans = n.scans ∧ n.examinations ≤ n'.examinations ∧
      n'.examinations ≤ n.examinations + items.length ∧
      (n.examinations ≤ ceiling → n'.examinations ≤ ceiling) ∧
      (items ≠ [] → n.ends ceiling = false → n.examinations < n'.examinations) := by
  induction items generalizing n with
  | nil => exact ⟨rfl, Nat.le_refl _, Nat.le_refl _, id, fun h => absurd rfl h⟩
  | cons item rest ih =>
    rw [examinePage]
    cases hends : n.ends ceiling with
    | true =>
      rw [if_pos rfl]
      exact ⟨rfl, Nat.le_refl _, by omega, id, fun _ h => absurd h (by simp)⟩
    | false =>
      have hroom : n.examinations < ceiling := by
        unfold ends at hends
        simp only [Bool.or_eq_false_iff, decide_eq_false_iff_not] at hends
        omega
      obtain ⟨hscans, hle, hlength, hwithin, -⟩ :=
        ih (n.examined selected (addrOf item.record) item.key.entity)
      rw [scans_examined] at hscans
      rw [examinations_examined] at hle hlength hwithin
      rw [if_neg Bool.false_ne_true, List.length_cons]
      exact ⟨hscans, by omega, by omega, fun _ => hwithin (by omega), fun _ _ => by omega⟩

theorem scans_turned (after : Option AdmissionKey) (n : Naming) :
    (turned ceiling selected addrOf scan after n).scans = n.scans + 1 :=
  (examinations_examinePage _ _).1

/-- **The account of a walk**: it only grows, and never past the ceiling. -/
theorem recover_within {fuel : Nat} {after : Option AdmissionKey} {n n' : Naming}
    (h : n.examinations ≤ ceiling)
    (hrecover : recover ceiling selected addrOf scan fuel after n = some n') :
    n'.examinations ≤ ceiling ∧ n.scans ≤ n'.scans := by
  refine recover_induct (I := fun _ m => m.examinations ≤ ceiling ∧ n.scans ≤ m.scans)
    (fun _ _ hm _ => hm) (fun after m hm _ => ?_) ⟨h, Nat.le_refl _⟩ hrecover
  obtain ⟨hscans, -, -, hwithin, -⟩ := @examinations_examinePage R ceiling selected addrOf
    (scan m.scans after recoveryScanSlice).items { m with scans := m.scans + 1 }
  have hnext : (turned ceiling selected addrOf scan after m).examinations ≤ ceiling ∧
      n.scans ≤ (turned ceiling selected addrOf scan after m).scans :=
    ⟨hwithin hm.1, by rw [scans_turned]; exact Nat.le_succ_of_le hm.2⟩
  exact ⟨fun _ _ => hnext, fun _ => hnext⟩

/-- **A recovery walk ends** over any store that serves its scans: every page of a walk that goes on
spends an examination. -/
theorem recover_isSome {residents : Nat → SortedMap AdmissionKey R}
    (hserves : ∀ call, ScansOver (scan call) (residents call)) {fuel : Nat}
    {after : Option AdmissionKey} {n : Naming} (h : ceiling - n.examinations < fuel) :
    (recover ceiling selected addrOf scan fuel after n).isSome = true := by
  induction fuel generalizing after n with
  | zero => exact absurd h (Nat.not_lt_zero _)
  | succ fuel ih =>
    rw [recover]
    cases hends : n.ends ceiling with
    | true => rfl
    | false =>
      rw [if_neg Bool.false_ne_true]
      dsimp only
      split
      · rename_i cursor hcursor
        refine ih ?_
        -- a page that goes on has examined its first item
        have hitems : (scan n.scans after recoveryScanSlice).items ≠ [] := by
          rw [hserves] at hcursor ⊢
          intro hnil
          rw [ScanPage.ahead_eq_nil (show 0 < recoveryScanSlice by decide) hnil] at hcursor
          exact absurd hcursor (by simp [ScanPage.ofAhead])
        have hspent := (@examinations_examinePage R ceiling selected addrOf
          (scan n.scans after recoveryScanSlice).items
          { n with scans := n.scans + 1 }).2.2.2.2 hitems hends
        have hroom : n.examinations < ceiling := by
          unfold ends at hends
          simp only [Bool.or_eq_false_iff, decide_eq_false_iff_not] at hends
          omega
        dsimp only at hspent
        omega
      · rfl

/-! ## The names -/

/-- **The names of a walk**: each is an id its record's address was scanned under at a call the walk
made, at the record's first place in the selection. -/
theorem recover_named {held : Nat → Nat → EntityId → Prop}
    (hscan : ∀ call after limit, ∀ item ∈ (scan call after limit).items,
      held call (addrOf item.record) item.key.entity)
    {fuel : Nat} {after : Option AdmissionKey} {n n' : Naming}
    (h : ∀ name ∈ n.names, name = none)
    (hrecover : recover ceiling selected addrOf scan fuel after n = some n') :
    Scanned (fun addr entity => ∃ call, n.scans ≤ call ∧ call < n'.scans ∧ held call addr entity)
      selected n'.names := by
  refine recover_induct (I := fun _ m => n.scans ≤ m.scans ∧
      Scanned (fun addr entity => ∃ call, n.scans ≤ call ∧ call < m.scans ∧ held call addr entity)
        selected m.names)
    (fun _ _ hm _ => hm.2) (fun after m hm _ => ?_)
    ⟨Nat.le_refl _, fun i entity hfound => ?_⟩ hrecover
  · have hnext : Scanned (fun addr entity => ∃ call, n.scans ≤ call ∧
        call < (turned ceiling selected addrOf scan after m).scans ∧ held call addr entity)
          selected (turned ceiling selected addrOf scan after m).names := by
      refine Scanned.examinePage (fun item hitem => ?_) fun i entity hfound => ?_
      · rw [scans_turned]
        exact ⟨m.scans, hm.1, Nat.lt_succ_self _, hscan _ _ _ item hitem⟩
      · obtain ⟨addr, ⟨call, hfirst, hlast, hheld⟩, hi⟩ := hm.2 i entity hfound
        rw [scans_turned]
        exact ⟨addr, ⟨call, hfirst, Nat.lt_succ_of_lt hlast, hheld⟩, hi⟩
    exact ⟨fun _ _ => ⟨by rw [scans_turned]; exact Nat.le_succ_of_le hm.1, hnext⟩, fun _ => hnext⟩
  · exact absurd (h _ (List.mem_of_getElem? hfound)) (by simp)

/-! ## A fixed store -/

/-- Every selected address is wanted, or named at its first place. -/
structure Tracks (selected : List Nat) (n : Naming) : Prop where
  nodup : n.wanted.Nodup
  subset : n.wanted ⊆ selected
  length : n.names.length = selected.length
  covered : ∀ addr ∈ selected, addr ∈ n.wanted ∨
    ∃ entity, n.names[selected.idxOf addr]? = some (some entity)

theorem Tracks.examined {n : Naming} (h : n.Tracks selected) (addr : Nat) (entity : EntityId) :
    (n.examined selected addr entity).Tracks selected ∧
      ∀ other ∈ (n.examined selected addr entity).wanted, other ∈ n.wanted ∧ addr ≠ other := by
  unfold Naming.examined
  dsimp only
  by_cases hwanted : n.wanted.contains addr = true
  · rw [if_pos hwanted]
    have hmem : addr ∈ n.wanted := List.contains_iff_mem.mp hwanted
    have herase : ∀ other, other ∈ n.wanted.erase addr ↔ other ≠ addr ∧ other ∈ n.wanted :=
      fun other => h.nodup.mem_erase_iff
    have hplace : selected.idxOf addr < n.names.length := by
      rw [h.length]
      exact List.idxOf_lt_length_of_mem (h.subset hmem)
    refine ⟨⟨h.nodup.erase _, fun other hother => h.subset ((herase other).mp hother).2,
      (List.length_set ..).trans h.length, fun other hother => ?_⟩,
      fun other hother => ⟨((herase other).mp hother).2, ((herase other).mp hother).1.symm⟩⟩
    by_cases hsame : other = addr
    · subst hsame
      exact Or.inr ⟨entity, List.getElem?_set_self hplace⟩
    · refine (h.covered other hother).imp (fun hwant => (herase other).mpr ⟨hsame, hwant⟩) ?_
      rintro ⟨name, hname⟩
      by_cases hindex : selected.idxOf addr = selected.idxOf other
      · rw [← hindex]
        exact ⟨entity, List.getElem?_set_self hplace⟩
      · rw [List.getElem?_set_ne hindex]
        exact ⟨name, hname⟩
  · rw [if_neg hwanted]
    refine ⟨⟨h.nodup, h.subset, h.length, h.covered⟩, fun other hother => ⟨hother, ?_⟩⟩
    rintro rfl
    exact hwanted (List.contains_iff_mem.mpr hother)

/-- With room for a page, the walk ends inside it with nothing wanted, or examines it whole and wants
nothing of it. -/
theorem Tracks.examinePage {items : List (ScanItem R)} {n : Naming} (h : n.Tracks selected)
    (hroom : n.examinations + items.length ≤ ceiling) :
    let n' := Naming.examinePage ceiling selected addrOf n items
    n'.Tracks selected ∧ (n'.wanted = [] ∨
      n'.examinations = n.examinations + items.length ∧ ∀ addr ∈ n'.wanted,
        addr ∈ n.wanted ∧ ∀ item ∈ items, addrOf item.record ≠ addr) := by
  induction items generalizing n with
  | nil => exact ⟨h, Or.inr ⟨rfl, fun _ haddr => ⟨haddr, fun _ hitem => absurd hitem (by simp)⟩⟩⟩
  | cons item rest ih =>
    rw [Naming.examinePage, List.length_cons] at *
    cases hends : n.ends ceiling with
    | true =>
      rw [if_pos rfl]
      refine ⟨h, Or.inl ?_⟩
      unfold ends at hends
      rw [Bool.or_eq_true, List.isEmpty_iff, decide_eq_true_eq] at hends
      exact hends.resolve_right (by omega)
    | false =>
      obtain ⟨htracks, hwanted⟩ := h.examined (addrOf item.record) item.key.entity
      obtain ⟨htracks', hrest⟩ := ih htracks (by rw [examinations_examined]; omega)
      rw [if_neg Bool.false_ne_true]
      refine ⟨htracks', hrest.imp_right fun hwhole => ⟨?_, fun addr haddr => ?_⟩⟩
      · rw [hwhole.1, examinations_examined]
        omega
      · obtain ⟨hbefore, hnone⟩ := hwhole.2 addr haddr
        obtain ⟨hwant, hne⟩ := hwanted addr hbefore
        exact ⟨hwant, List.forall_mem_cons.mpr ⟨hne, hnone⟩⟩

/-- A walk in progress over a fixed store: the account has room for everything ahead, and everything
wanted is ahead. -/
structure Sought (residents : SortedMap AdmissionKey R) (addrOf : R → Nat) (selected : List Nat)
    (bound : Nat) (after : Option AdmissionKey) (n : Naming) : Prop where
  tracks : n.Tracks selected
  room : n.examinations + (residents.entries.filter fun p => p.1.follows after).length ≤ bound
  wanted : ∀ addr ∈ n.wanted,
    ∃ p ∈ residents.entries.filter fun p => p.1.follows after, addrOf p.2 = addr

section Sought

variable {residents : SortedMap AdmissionKey R} {bound : Nat} {after : Option AdmissionKey}
  {n : Naming}

/-- Where the walk ends, nothing is wanted: at the ceiling nothing is ahead. -/
theorem Sought.wanted_eq_nil (h : n.Sought residents addrOf selected bound after)
    (hceiling : bound ≤ ceiling) (hends : n.ends ceiling = true) : n.wanted = [] := by
  unfold ends at hends
  rw [Bool.or_eq_true, List.isEmpty_iff, decide_eq_true_eq] at hends
  rcases hends with hnone | hfull
  · exact hnone
  · refine List.eq_nil_iff_forall_not_mem.mpr fun addr haddr => ?_
    obtain ⟨p, hp, -⟩ := h.wanted addr haddr
    have := List.length_pos_of_mem hp
    have := h.room
    omega

/-- Examining a front of what is ahead leaves room for the rest, and the rest has what is still
wanted. -/
theorem Sought.examinePage (h : n.Sought residents addrOf selected bound after)
    (hceiling : bound ≤ ceiling) {front back : List (AdmissionKey × R)}
    (hsplit : (residents.entries.filter fun p => p.1.follows after) = front ++ back) :
    let n' := Naming.examinePage ceiling selected addrOf { n with scans := n.scans + 1 }
      (front.map ScanItem.ofEntry)
    n'.Tracks selected ∧ n'.examinations + back.length ≤ bound ∧
      ∀ addr ∈ n'.wanted, ∃ p ∈ back, addrOf p.2 = addr := by
  intro n'
  have hroom := h.room
  rw [hsplit, List.length_append] at hroom
  have hlength : (front.map ScanItem.ofEntry).length = front.length := List.length_map _
  obtain ⟨htracks, hleft⟩ := @Tracks.examinePage R ceiling selected addrOf
    (front.map ScanItem.ofEntry) { n with scans := n.scans + 1 }
    ⟨h.tracks.nodup, h.tracks.subset, h.tracks.length, h.tracks.covered⟩ (by
      rw [hlength]
      dsimp only
      omega)
  have hgrown : n'.examinations ≤ n.examinations + (front.map ScanItem.ofEntry).length :=
    (@examinations_examinePage R ceiling selected addrOf (front.map ScanItem.ofEntry)
      { n with scans := n.scans + 1 }).2.2.1
  refine ⟨htracks, by omega, fun addr haddr => ?_⟩
  rcases hleft with hnone | ⟨-, hleft⟩
  · rw [hnone] at haddr
    exact absurd haddr List.not_mem_nil
  · -- what was wanted and not met in the front lies behind it
    obtain ⟨hbefore, hmissed⟩ := hleft addr haddr
    obtain ⟨p, hp, hat⟩ := h.wanted addr hbefore
    rw [hsplit] at hp
    rcases List.mem_append.mp hp with hp | hp
    · exact absurd hat (hmissed _ (List.mem_map_of_mem hp))
    · exact ⟨p, hp, hat⟩

/-- A page that goes on leaves the walk sought for behind its cursor; one that does not leaves
nothing wanted. -/
theorem Sought.turned (hserves : ∀ call, ScansOver (scan call) residents)
    (h : n.Sought residents addrOf selected bound after) (hceiling : bound ≤ ceiling) :
    (∀ cursor, (scan n.scans after recoveryScanSlice).cursor = some cursor →
        (turned ceiling selected addrOf scan after n).Sought residents addrOf selected bound
          (some cursor)) ∧
      ((scan n.scans after recoveryScanSlice).cursor = none →
        (turned ceiling selected addrOf scan after n).Tracks selected ∧
          (turned ceiling selected addrOf scan after n).wanted = [] ∧
          (turned ceiling selected addrOf scan after n).examinations ≤ bound) := by
  rw [Naming.turned, hserves n.scans after recoveryScanSlice]
  rcases ScanPage.ofAhead_cases (show 0 < recoveryScanSlice by decide)
    (residents.entries.filter fun p => p.1.follows after) with
    ⟨hcursor, hitems⟩ | ⟨front, last, back, hsplit, -, hitems, hcursor⟩
  · rw [hcursor, hitems]
    obtain ⟨htracks, hroom, hwanted⟩ := h.examinePage hceiling (List.append_nil _).symm
    refine ⟨fun cursor hsome => absurd hsome (by simp), fun _ => ⟨htracks, ?_, hroom⟩⟩
    refine List.eq_nil_iff_forall_not_mem.mpr fun addr haddr => ?_
    obtain ⟨p, hp, -⟩ := hwanted addr haddr
    exact absurd hp List.not_mem_nil
  · have hrest := aheadEntries_of_cut hsplit
    rw [hcursor, hitems]
    obtain ⟨htracks, hroom, hwanted⟩ := h.examinePage hceiling
      (show _ = (front ++ [last]) ++ back by rw [hsplit, List.append_assoc]; rfl)
    refine ⟨fun cursor hsome => ?_, fun hnone => absurd hnone (by simp)⟩
    obtain rfl := Option.some.inj hsome
    exact ⟨htracks, by rw [hrest]; exact hroom, by rw [hrest]; exact hwanted⟩

end Sought

/-- **A fixed store with room for all of it**: every selected address that is resident is named, and
the account grows by the residents at most. -/
theorem recover_complete {residents : SortedMap AdmissionKey R}
    (hserves : ∀ call, ScansOver (scan call) residents)
    (hresident : ∀ addr ∈ selected, ∃ p ∈ residents.entries, addrOf p.2 = addr)
    {spent : Nat} (hceiling : spent + residents.entries.length ≤ ceiling)
    {fuel : Nat} {n n' : Naming} (h : n.Tracks selected) (hspent : n.examinations = spent)
    (hrecover : recover ceiling selected addrOf scan fuel none n = some n') :
    (∀ addr ∈ selected, ∃ entity, n'.names[selected.idxOf addr]? = some (some entity)) ∧
      n'.examinations ≤ spent + residents.entries.length := by
  have hstart : n.Sought residents addrOf selected (spent + residents.entries.length) none := by
    refine ⟨h, ?_, fun addr haddr => ?_⟩
    · rw [hspent]
      exact Nat.add_le_add_left (List.length_filter_le _ _) _
    · obtain ⟨p, hp, hat⟩ := hresident addr (h.subset haddr)
      exact ⟨p, List.mem_filter.mpr ⟨hp, rfl⟩, hat⟩
  obtain ⟨htracks, hnone, hspent'⟩ := recover_induct
    (I := Sought residents addrOf selected (spent + residents.entries.length))
    (Q := fun m => m.Tracks selected ∧ m.wanted = [] ∧
      m.examinations ≤ spent + residents.entries.length)
    (fun after m hm hends =>
      ⟨hm.tracks, hm.wanted_eq_nil hceiling hends, (Nat.le_add_right _ _).trans hm.room⟩)
    (fun after m hm _ => hm.turned hserves hceiling) hstart hrecover
  exact ⟨fun addr haddr => (htracks.covered addr haddr).resolve_left
    (by rw [hnone]; exact List.not_mem_nil), hspent'⟩

end Naming

/-! ## The two walks -/

theorem nodup_eraseDups (l : List Nat) : l.eraseDups.Nodup := by
  induction hn : l.length using Nat.strong_induction_on generalizing l with
  | _ n ih =>
    cases l with
    | nil => exact List.nodup_nil
    | cons a rest =>
      rw [List.eraseDups_cons]
      refine List.nodup_cons.mpr ⟨fun hmem => ?_, ih _ ?_ _ rfl⟩
      · have hkept := (List.mem_filter.mp (List.mem_eraseDups.mp hmem)).2
        simp at hkept
      · rw [← hn]
        exact Nat.lt_succ_of_le (List.length_filter_le ..)

/-- A walk that starts with everything selected wanted and nothing named. -/
theorem Naming.tracks_start (selected : List Nat) (examinations scans : Nat) :
    Naming.Tracks selected
      ⟨selected.eraseDups, List.replicate selected.length none, examinations, scans⟩ where
  nodup := nodup_eraseDups _
  subset _ h := List.mem_eraseDups.mp h
  length := List.length_replicate ..
  covered _ h := Or.inl (List.mem_eraseDups.mpr h)

section Walk

variable {R : Type} {scan : Nat → Option AdmissionKey → Nat → ScanPage R} {addrOf : R → Nat}
  {selected : List Nat} {walk walk' : WalkState} {names : List (Option EntityId)} {fuel : Nat}

theorem nameIdentities_isSome {residents : Nat → SortedMap AdmissionKey R}
    (hserves : ∀ call, ScansOver (scan call) (residents call))
    (h : walk.chain.maxIdentityExaminations - walk.examinations < fuel) :
    ∃ names walk', nameIdentities fuel scan addrOf selected walk = some (names, walk') := by
  obtain ⟨n, hn⟩ := Option.isSome_iff_exists.mp (@Naming.recover_isSome R
    walk.chain.maxIdentityExaminations selected addrOf scan residents hserves fuel none
    ⟨selected.eraseDups, List.replicate selected.length none, walk.examinations, walk.scans⟩ h)
  exact ⟨n.names, _, by rw [nameIdentities, hn]⟩

theorem nameIdentities_within
    (hwalk : walk.examinations ≤ walk.chain.maxIdentityExaminations)
    (h : nameIdentities fuel scan addrOf selected walk = some (names, walk')) :
    walk'.chain = walk.chain ∧ walk'.examinations ≤ walk'.chain.maxIdentityExaminations ∧
      walk.scans ≤ walk'.scans := by
  unfold nameIdentities at h
  split at h
  · exact absurd h (by simp)
  · rename_i n hrecover
    obtain ⟨-, rfl⟩ := Prod.mk.inj (Option.some.inj h)
    obtain ⟨hwithin, hscans⟩ := Naming.recover_within hwalk hrecover
    exact ⟨rfl, hwithin, hscans⟩

/-- A name stands at a place of the selection, for its allocation, as scanned by the walk. -/
theorem nameIdentities_named {held : Nat → Nat → EntityId → Prop}
    (hscan : ∀ call after limit, ∀ item ∈ (scan call after limit).items,
      held call (addrOf item.record) item.key.entity)
    (h : nameIdentities fuel scan addrOf selected walk = some (names, walk')) :
    Naming.Scanned (fun addr entity => ∃ call, walk.scans ≤ call ∧ call < walk'.scans ∧
      held call addr entity) selected names := by
  unfold nameIdentities at h
  split at h
  · exact absurd h (by simp)
  · rename_i n hrecover
    obtain ⟨rfl, rfl⟩ := Prod.mk.inj (Option.some.inj h)
    exact Naming.recover_named hscan (fun _ hname => List.eq_of_mem_replicate hname) hrecover

theorem nameIdentities_complete {residents : SortedMap AdmissionKey R}
    (hserves : ∀ call, ScansOver (scan call) residents)
    (hresident : ∀ addr ∈ selected, ∃ p ∈ residents.entries, addrOf p.2 = addr)
    (hroom : walk.examinations + residents.entries.length ≤ walk.chain.maxIdentityExaminations)
    (h : nameIdentities fuel scan addrOf selected walk = some (names, walk')) :
    (∀ addr ∈ selected, ∃ entity, names[selected.idxOf addr]? = some (some entity)) ∧
      walk'.examinations ≤ walk.examinations + residents.entries.length := by
  unfold nameIdentities at h
  split at h
  · exact absurd h (by simp)
  · rename_i n hrecover
    obtain ⟨rfl, rfl⟩ := Prod.mk.inj (Option.some.inj h)
    exact Naming.recover_complete hserves hresident hroom (Naming.tracks_start _ _ _) rfl hrecover

end Walk

/-- Both walks, log records before points; the page walk between them spends no examination. -/
def recoverIdentities (fuel : Nat) (reads : FlowReads) (logs : List (Arc LogRecord))
    (points : List (Arc MetricPoint)) (walk : WalkState) :
    Option (List (Option EntityId) × List (Option EntityId) × WalkState) :=
  (nameLogIdentities fuel reads logs walk).bind fun named =>
    (namePointIdentities fuel reads points named.2).map fun pointsNamed =>
      (named.1, pointsNamed.1, pointsNamed.2)

/-- A log record's allocation is resident under the id. -/
def Residency.LogAt (residency : Residency) (addr : Nat) (entity : EntityId) : Prop :=
  ∃ p ∈ residency.logRecords.entries, p.1.entity = entity ∧ p.2.addr = addr

/-- A point's allocation is resident under the id. -/
def Residency.PointAt (residency : Residency) (addr : Nat) (entity : EntityId) : Prop :=
  ∃ p ∈ residency.metricPoints.entries, p.1.entity = entity ∧ p.2.point.addr = addr

/-- A driver that shares payload allocations: at no call is one allocation resident under two
ids. -/
structure SharesPayloads (residencies : Nat → Residency) : Prop where
  logId : ∀ call addr a b, (residencies call).LogAt addr a → (residencies call).LogAt addr b → a = b
  pointId : ∀ call addr a b, (residencies call).PointAt addr a →
    (residencies call).PointAt addr b → a = b

/-- Over these calls no id stands for two allocations, of one kind or of both. -/
structure IdsApart (residencies : Nat → Residency) (first last : Nat) : Prop where
  log : ∀ i j a b entity, first ≤ i → i < last → first ≤ j → j < last →
    (residencies i).LogAt a entity → (residencies j).LogAt b entity → a = b
  point : ∀ i j a b entity, first ≤ i → i < last → first ≤ j → j < last →
    (residencies i).PointAt a entity → (residencies j).PointAt b entity → a = b
  kinds : ∀ i j a b entity, first ≤ i → i < last → first ≤ j → j < last →
    (residencies i).LogAt a entity → ¬ (residencies j).PointAt b entity

/-- Every name is the one id its record's allocation was resident under when it was scanned. -/
def NamedAsScanned (held : Nat → Nat → EntityId → Prop) (first last : Nat) (selected : List Nat)
    (names : List (Option EntityId)) : Prop :=
  ∀ (i : Nat) (entity : EntityId), names[i]? = some (some entity) →
    ∃ addr call, selected[i]? = some addr ∧ first ≤ call ∧ call < last ∧
      ∀ other, held call addr other ↔ other = entity

/-- Every selected allocation is named, at a place it was selected at. -/
def NamesAll (selected : List Nat) (names : List (Option EntityId)) : Prop :=
  ∀ addr ∈ selected, ∃ (i : Nat) (entity : EntityId), selected[i]? = some addr ∧
    names[i]? = some (some entity)

/-- A selection without repeats that is named throughout leaves no hole. -/
theorem NamesAll.holesOf {selected : List Nat} {names : List (Option EntityId)}
    (h : NamesAll selected names) (hlength : names.length = selected.length)
    (hnodup : selected.Nodup) : holesOf names = 0 := by
  rw [RuntimeTrail.holesOf, List.countP_eq_zero]
  intro name hname
  obtain ⟨i, hi⟩ := List.mem_iff_getElem?.mp hname
  obtain ⟨hlt, -⟩ := List.getElem?_eq_some_iff.mp hi
  have hat := List.getElem?_eq_getElem (show i < selected.length by omega)
  obtain ⟨j, entity, hj, hname'⟩ := h _ (List.mem_of_getElem? hat)
  obtain rfl : j = i := (List.getElem?_inj (show j < selected.length from
    (List.getElem?_eq_some_iff.mp hj).1) hnodup).mp (hj.trans hat.symm)
  rw [hi] at hname'
  rw [Option.some.inj hname']
  exact Bool.false_ne_true

section Law

variable {residencies : Nat → Residency}

/-- A scan of a served store yields what is resident at the call. -/
theorem logAt_of_scanned {reads : FlowReads}
    (hserves : ∀ call, (reads.naming call).Serves (residencies call)) (call : Nat)
    (after : Option AdmissionKey) (limit : Nat) (item : ScanItem (Arc LogRecord))
    (hitem : item ∈ ((reads.naming call).scanLogRecords after limit).items) :
    (residencies call).LogAt item.record.addr item.key.entity :=
  ⟨_, (hserves call).scanLogRecords.mem_items hitem, rfl, rfl⟩

theorem pointAt_of_scanned {reads : FlowReads}
    (hserves : ∀ call, (reads.naming call).Serves (residencies call)) (call : Nat)
    (after : Option AdmissionKey) (limit : Nat) (item : ScanItem PointView)
    (hitem : item ∈ ((reads.naming call).scanMetricPoints after limit).items) :
    (residencies call).PointAt item.record.point.addr item.key.entity :=
  ⟨_, (hserves call).scanMetricPoints.mem_items hitem, rfl, rfl⟩

/-- Where no allocation is resident under two ids, a name is the one id of its record. -/
theorem Naming.Scanned.exactly {held : Nat → Nat → EntityId → Prop}
    (honce : ∀ call addr a b, held call addr a → held call addr b → a = b) {selected : List Nat}
    {names : List (Option EntityId)} {first first' last last' : Nat} (hfirst : first' ≤ first)
    (hlast : last ≤ last') (hlength : names.length = selected.length)
    (h : Naming.Scanned (fun addr entity => ∃ call, first ≤ call ∧ call < last ∧
      held call addr entity) selected names) :
    NamedAsScanned held first' last' selected names := by
  intro i entity hi
  obtain ⟨addr, ⟨call, hcall, hcall', hheld⟩, rfl⟩ := h i entity hi
  obtain ⟨hlt, -⟩ := List.getElem?_eq_some_iff.mp hi
  rw [hlength] at hlt
  refine ⟨addr, call, ?_, hfirst.trans hcall, hcall'.trans_le hlast, fun other =>
    ⟨fun hother => honce _ _ _ _ hother hheld, fun hother => hother ▸ hheld⟩⟩
  rw [List.getElem?_eq_getElem hlt, List.getElem_idxOf]

theorem namesAll_of_idxOf {selected : List Nat} {names : List (Option EntityId)}
    (h : ∀ addr ∈ selected, ∃ entity, names[selected.idxOf addr]? = some (some entity)) :
    NamesAll selected names := by
  intro addr haddr
  obtain ⟨entity, hentity⟩ := h addr haddr
  refine ⟨selected.idxOf addr, entity, ?_, hentity⟩
  rw [List.getElem?_eq_getElem (List.idxOf_lt_length_of_mem haddr), List.getElem_idxOf]

/-- Where no id stands for two allocations over the calls of the two walks, no two of the names they
gave are alike. -/
theorem IdsApart.names_nodup {logs points : List Nat} {logNames pointNames : List (Option EntityId)}
    {first between last : Nat} (hfirst : first ≤ between) (hlast : between ≤ last)
    (hlogs : Naming.Scanned (fun addr entity => ∃ call, first ≤ call ∧ call < between ∧
      (residencies call).LogAt addr entity) logs logNames)
    (hpoints : Naming.Scanned (fun addr entity => ∃ call, between ≤ call ∧ call < last ∧
      (residencies call).PointAt addr entity) points pointNames)
    (hapart : IdsApart residencies first last) :
    ((logNames ++ pointNames).filterMap id).Nodup := by
  rw [List.filterMap_append]
  refine List.nodup_append.mpr ⟨nodup_of_own fun hi hj => hlogs.own ?_ hi hj,
    nodup_of_own fun hi hj => hpoints.own ?_ hi hj, ?_⟩
  · rintro a b entity ⟨i, hi, hi', ha⟩ ⟨j, hj, hj', hb⟩
    exact hapart.log i j a b entity hi (hi'.trans_le hlast) hj (hj'.trans_le hlast) ha hb
  · rintro a b entity ⟨i, hi, hi', ha⟩ ⟨j, hj, hj', hb⟩
    exact hapart.point i j a b entity (hfirst.trans hi) hi' (hfirst.trans hj) hj' ha hb
  · rintro entity hlog _ hpoint rfl
    obtain ⟨name, hname, rfl : name = some entity⟩ := List.mem_filterMap.mp hlog
    obtain ⟨name', hname', rfl : name' = some entity⟩ := List.mem_filterMap.mp hpoint
    obtain ⟨i, hi⟩ := List.mem_iff_getElem?.mp hname
    obtain ⟨j, hj⟩ := List.mem_iff_getElem?.mp hname'
    obtain ⟨a, ⟨call, hcall, hcall', ha⟩, -⟩ := hlogs i entity hi
    obtain ⟨b, ⟨call', hat, hat', hb⟩, -⟩ := hpoints j entity hj
    exact hapart.kinds call call' a b entity hcall (hcall'.trans_le hlast) (hfirst.trans hat) hat'
      ha hb

/-- Both walks end: what the first leaves of the examination ceiling is fuel enough for the second. -/
theorem recoverIdentities_isSome {reads : FlowReads}
    (hserves : ∀ call, (reads.naming call).Serves (residencies call)) {logs : List (Arc LogRecord)}
    {points : List (Arc MetricPoint)} {walk : WalkState}
    (hwalk : walk.examinations ≤ walk.chain.maxIdentityExaminations) {fuel : Nat}
    (hfuel : walk.chain.maxIdentityExaminations < fuel) :
    (recoverIdentities fuel reads logs points walk).isSome = true := by
  obtain ⟨logNames, walk₁, hlogs⟩ := @nameIdentities_isSome _ _ Arc.addr (logs.map Arc.addr) walk
    fuel _ (fun call => (hserves call).scanLogRecords) (by omega)
  obtain ⟨hchain, -, -⟩ := nameIdentities_within hwalk hlogs
  obtain ⟨pointNames, walk₂, hpoints⟩ := @nameIdentities_isSome _ _
    (fun view : PointView => view.point.addr) (points.map Arc.addr) walk₁ fuel _
    (fun call => (hserves call).scanMetricPoints) (by rw [hchain]; omega)
  rw [recoverIdentities, show nameLogIdentities fuel reads logs walk = _ from hlogs,
    Option.bind_some, show namePointIdentities fuel reads points walk₁ = _ from hpoints]
  rfl

end Law

/-- What the two recovery walks of a selection come to. -/
structure RecoveredExactly (residencies : Nat → Residency) (logs : List (Arc LogRecord))
    (points : List (Arc MetricPoint)) (walk : WalkState)
    (logNames pointNames : List (Option EntityId)) (walk' : WalkState) : Prop where
  namedLogs : NamedAsScanned (fun call => (residencies call).LogAt) walk.scans walk'.scans
    (logs.map Arc.addr) logNames
  namedPoints : NamedAsScanned (fun call => (residencies call).PointAt) walk.scans walk'.scans
    (points.map Arc.addr) pointNames
  distinct : IdsApart residencies walk.scans walk'.scans →
    ((logNames ++ pointNames).filterMap id).Nodup
  within : walk'.examinations ≤ walk.chain.maxIdentityExaminations
  /-- Over one residency with room for all of it, of which the records were selected. -/
  complete : ∀ residency : Residency, (∀ call, residencies call = residency) →
    walk.examinations + (residency.logRecords.entries.length +
      residency.metricPoints.entries.length) ≤ walk.chain.maxIdentityExaminations →
    (∀ record ∈ logs, ∃ entity, residency.LogAt record.addr entity) →
    (∀ record ∈ points, ∃ entity, residency.PointAt record.addr entity) →
    NamesAll (logs.map Arc.addr) logNames ∧ NamesAll (points.map Arc.addr) pointNames ∧
      ((logs.map Arc.addr).Nodup → holesOf logNames = 0) ∧
      ((points.map Arc.addr).Nodup → holesOf pointNames = 0)

/-- **Identity recovery is exact.**  Whatever is kept and evicted between the scan calls, both walks
end; each name is the id its record's own allocation was resident under when it was scanned; no two
records are named alike where no id stood for two of them; the two walks together stay within the
examination ceiling; and over a fixed store with room for every resident log record and point no
selected record is left unnamed. -/
theorem identity_recovery_exact (residencies : Nat → Residency) (reads : FlowReads)
    (hserves : ∀ call, (reads.naming call).Serves (residencies call))
    (hshares : SharesPayloads residencies) (logs : List (Arc LogRecord))
    (points : List (Arc MetricPoint)) (walk : WalkState)
    (hwalk : walk.examinations ≤ walk.chain.maxIdentityExaminations) :
    (∀ fuel, walk.chain.maxIdentityExaminations < fuel →
      (recoverIdentities fuel reads logs points walk).isSome = true) ∧
    ∀ fuel logNames pointNames walk',
      recoverIdentities fuel reads logs points walk = some (logNames, pointNames, walk') →
        RecoveredExactly residencies logs points walk logNames pointNames walk' := by
  refine ⟨fun fuel hfuel => recoverIdentities_isSome hserves hwalk hfuel,
    fun fuel logNames pointNames walk' h => ?_⟩
  obtain ⟨named, hlogs, h⟩ := Option.bind_eq_some_iff.mp h
  obtain ⟨pointsNamed, hpoints, h⟩ := Option.map_eq_some_iff.mp h
  obtain ⟨logNames', walk₁⟩ := named
  obtain ⟨pointNames', walk₂⟩ := pointsNamed
  simp only [Prod.mk.injEq] at h hpoints
  obtain ⟨rfl, rfl, rfl⟩ := h
  obtain ⟨hchain, hwithin, hscans⟩ := nameIdentities_within hwalk hlogs
  obtain ⟨hchain', hwithin', hscans'⟩ := nameIdentities_within hwithin hpoints
  have hlogLength := (nameIdentities_frame hlogs).1
  have hpointLength := (nameIdentities_frame hpoints).1
  have hlogNamed : Naming.Scanned (fun addr entity => ∃ call, walk.scans ≤ call ∧
      call < walk₁.scans ∧ (residencies call).LogAt addr entity) _ _ :=
    nameIdentities_named (logAt_of_scanned hserves) hlogs
  have hpointNamed : Naming.Scanned (fun addr entity => ∃ call, walk₁.scans ≤ call ∧
      call < walk₂.scans ∧ (residencies call).PointAt addr entity) _ _ :=
    nameIdentities_named (pointAt_of_scanned hserves) hpoints
  refine ⟨hlogNamed.exactly hshares.logId le_rfl hscans' hlogLength,
    hpointNamed.exactly hshares.pointId hscans le_rfl hpointLength,
    IdsApart.names_nodup hscans hscans' hlogNamed hpointNamed, ?_, ?_⟩
  · rw [← hchain, ← hchain']
    exact hwithin'
  · intro residency hfixed hroom hlogAll hpointAll
    obtain ⟨hallLogs, hspent⟩ := nameIdentities_complete
      (fun call => hfixed call ▸ (hserves call).scanLogRecords) (fun addr haddr => by
        obtain ⟨record, hrecord, rfl⟩ := List.mem_map.mp haddr
        obtain ⟨entity, p, hp, -, hat⟩ := hlogAll record hrecord
        exact ⟨p, hp, hat⟩) (by omega) hlogs
    obtain ⟨hallPoints, -⟩ := nameIdentities_complete
      (fun call => hfixed call ▸ (hserves call).scanMetricPoints) (fun addr haddr => by
        obtain ⟨record, hrecord, rfl⟩ := List.mem_map.mp haddr
        obtain ⟨entity, p, hp, -, hat⟩ := hpointAll record hrecord
        exact ⟨p, hp, hat⟩) (by rw [hchain]; omega) hpoints
    have hlogsNamed := namesAll_of_idxOf hallLogs
    have hpointsNamed := namesAll_of_idxOf hallPoints
    exact ⟨hlogsNamed, hpointsNamed, hlogsNamed.holesOf hlogLength,
      hpointsNamed.holesOf hpointLength⟩

/-- A log record under one serial and a point under another, or under the same. -/
def logAndPoint (log point : Nat) : Residency where
  spans := SortedMap.empty
  logRecords := ⟨[(⟨⟨1⟩, .serial log⟩, ⟨1, .bare none none⟩)], List.pairwise_singleton _ _⟩
  metricPoints := ⟨[(⟨⟨2⟩, .serial point⟩, ⟨⟨2, .bare 15⟩, .bare "m" none⟩)],
    List.pairwise_singleton _ _⟩

/-- A session that reopens its file starts its serials again: it keeps such a point beside a log
record of an earlier session. -/
def keptLogAndPoint (log point : Nat) : FixedStore where
  driver := (logAndPoint log point).driver noStats
  residency := logAndPoint log point
  serves := Residency.serves
    (fun _ h => absurd h (by simp [logAndPoint, SortedMap.empty]))
    (fun p hp q hq _ => (List.mem_singleton.mp hp).trans (List.mem_singleton.mp hq).symm)
    (fun p hp q hq _ => (List.mem_singleton.mp hp).trans (List.mem_singleton.mp hq).symm) noStats

/-- Both records are selected, under a ceiling of two examinations. -/
def recoverLogAndPoint (log point : Nat) :
    Option (List (Option EntityId) × List (Option EntityId) × WalkState) :=
  recoverIdentities 3 ((keptLogAndPoint log point).reads fun _ => still) [⟨1, .bare none none⟩]
    [⟨2, .bare 15⟩] (.start (tracedRequest 100).budget ⟨16, 100, 2⟩)

section LogAndPoint

variable {log point addr : Nat} {entity : EntityId}

theorem logAt_keptLogAndPoint (h : (keptLogAndPoint log point).residency.LogAt addr entity) :
    addr = 1 ∧ entity = .serial log := by
  obtain ⟨p, hp, rfl, rfl⟩ := h
  obtain rfl := List.mem_singleton.mp hp
  exact ⟨rfl, rfl⟩

theorem pointAt_keptLogAndPoint (h : (keptLogAndPoint log point).residency.PointAt addr entity) :
    addr = 2 ∧ entity = .serial point := by
  obtain ⟨p, hp, rfl, rfl⟩ := h
  obtain rfl := List.mem_singleton.mp hp
  exact ⟨rfl, rfl⟩

/-- Neither allocation is resident under two ids, whether or not the two serials are one. -/
theorem sharesPayloads_keptLogAndPoint :
    SharesPayloads fun _ => (keptLogAndPoint log point).residency where
  logId _ _ _ _ ha hb := (logAt_keptLogAndPoint ha).2.trans (logAt_keptLogAndPoint hb).2.symm
  pointId _ _ _ _ ha hb :=
    (pointAt_keptLogAndPoint ha).2.trans (pointAt_keptLogAndPoint hb).2.symm

end LogAndPoint

/-- Two serials: both records are named, and not alike. -/
theorem identity_recovery_exact_logAndPoint : ∃ walk',
    recoverLogAndPoint 1 2 = some ([some (.serial 1)], [some (.serial 2)], walk') ∧
    RecoveredExactly (fun _ => (keptLogAndPoint 1 2).residency) [⟨1, .bare none none⟩]
      [⟨2, .bare 15⟩] (.start (tracedRequest 100).budget ⟨16, 100, 2⟩) [some (.serial 1)]
      [some (.serial 2)] walk' ∧
    IdsApart (fun _ => (keptLogAndPoint 1 2).residency) 0 walk'.scans := by
  have hrun := identity_recovery_exact (fun _ => (keptLogAndPoint 1 2).residency)
    ((keptLogAndPoint 1 2).reads fun _ => still) (fun _ => (keptLogAndPoint 1 2).serves)
    sharesPayloads_keptLogAndPoint [⟨1, .bare none none⟩] [⟨2, .bare 15⟩]
    (.start (tracedRequest 100).budget ⟨16, 100, 2⟩) (by decide)
  obtain ⟨⟨logNames, pointNames, walk'⟩, h⟩ := Option.isSome_iff_exists.mp (hrun.1 3 (by decide))
  have hnames : (recoverLogAndPoint 1 2).map (fun r => (r.1, r.2.1)) =
      some ([some (.serial 1)], [some (.serial 2)]) := by decide +kernel
  rw [recoverLogAndPoint, h] at hnames
  obtain ⟨rfl, rfl⟩ := Prod.mk.inj (Option.some.inj hnames)
  refine ⟨walk', h, hrun.2 3 _ _ _ h, ?_, ?_, ?_⟩
  · intro _ _ _ _ _ _ _ _ _ ha hb
    exact (logAt_keptLogAndPoint ha).1.trans (logAt_keptLogAndPoint hb).1.symm
  · intro _ _ _ _ _ _ _ _ _ ha hb
    exact (pointAt_keptLogAndPoint ha).1.trans (pointAt_keptLogAndPoint hb).1.symm
  · intro _ _ _ _ _ _ _ _ _ ha hb
    exact absurd ((logAt_keptLogAndPoint ha).2.symm.trans (pointAt_keptLogAndPoint hb).2)
      (by decide)

/-- One serial for both: a log record and a point, each allocation resident under one id, are both
named by it. -/
theorem not_identity_recovery_exact : ¬ ∀ (residencies : Nat → Residency) (reads : FlowReads),
    (∀ call, (reads.naming call).Serves (residencies call)) → SharesPayloads residencies →
    ∀ (logs : List (Arc LogRecord)) (points : List (Arc MetricPoint)) (walk : WalkState) (fuel : Nat)
      (logNames pointNames : List (Option EntityId)) (walk' : WalkState),
      recoverIdentities fuel reads logs points walk = some (logNames, pointNames, walk') →
        ((logNames ++ pointNames).filterMap id).Nodup := by
  intro hclaim
  obtain ⟨⟨logNames, pointNames, walk'⟩, h, hnames⟩ : ∃ r, recoverLogAndPoint 1 1 = some r ∧
      decide (r.1 = [some (.serial 1)] ∧ r.2.1 = [some (.serial 1)]) = true :=
    (Option.any_eq_true _ _).mp (by decide +kernel)
  obtain ⟨rfl, rfl⟩ := of_decide_eq_true hnames
  have halike := hclaim (fun _ => (keptLogAndPoint 1 1).residency)
    ((keptLogAndPoint 1 1).reads fun _ => still) (fun _ => (keptLogAndPoint 1 1).serves)
    sharesPayloads_keptLogAndPoint _ _ _ 3 _ _ walk' h
  exact absurd halike (by decide)

end RuntimeTrail
