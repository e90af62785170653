import RuntimeTrail.Investigation.Reach
import RuntimeTrail.Query.Paged

/-!
# The pages of a part

A part no ceiling of the chain stops has run the pages of its kind to their end, one
cursor after another.

* **to the end** — `PagesOut`, which knows no ceiling, and `WalksPages.pagesOut`,
  `PagesOut.walks`: a walk runs just these pages where its ceilings have room;
* **a fixed store** — `FixedStore.pagesOut`: there they are the pages the budget of a
  page makes of the residents.
-/

namespace RuntimeTrail

open Library

/-! ## To the end -/

/-- Pages of a kind from one on, following their cursors to the last: how many there are, and what
they deliver. -/
inductive PagesOut (reads : FlowReads) (query : RecordsQuery) (budget : QueryBudget) :
    Nat → Option (List UInt8) → Nat → List RecordView → Prop
  | ended {k : Nat} {cursor : Option (List UInt8)} {page : Page RecordView}
      (answered : records (reads.pages k) query budget (reads.clocks k) cursor = .ok page)
      (ends : page.nextCursor = none ∨ page.nextCursor = cursor) :
      PagesOut reads query budget k cursor 1 page.items
  | onward {k n : Nat} {cursor : Option (List UInt8)} {page : Page RecordView} {next : List UInt8}
      {items : List RecordView}
      (answered : records (reads.pages k) query budget (reads.clocks k) cursor = .ok page)
      (continues : page.nextCursor = some next) (advances : cursor ≠ some next)
      (behind : PagesOut reads query budget (k + 1) (some next) n items) :
      PagesOut reads query budget k cursor (n + 1) (page.items ++ items)

theorem PagesOut.pos {reads : FlowReads} {query : RecordsQuery} {budget : QueryBudget} {k n : Nat}
    {cursor : Option (List UInt8)} {items : List RecordView}
    (h : PagesOut reads query budget k cursor n items) : 0 < n := by
  cases h <;> exact Nat.zero_lt_succ _

/-- A page that ends a part is not one that goes on. -/
theorem not_onward_of_ends {page : Page RecordView} {cursor : Option (List UInt8)}
    {next : List UInt8} (ends : page.nextCursor = none ∨ page.nextCursor = cursor)
    (continues : page.nextCursor = some next) (advances : cursor ≠ some next) : False := by
  rw [continues] at ends
  rcases ends with hnone | hsame
  · exact absurd hnone (by simp)
  · exact advances hsame.symm

section Walks

variable {reads : FlowReads} {query : RecordsQuery} {left : Nat} {walk walk' : WalkState}
  {cursor : Option (List UInt8)} {items : List RecordView} {runs : List RunFacts}

/-- A walk that was not stopped has run the pages to their end. -/
theorem WalksPages.pagesOut (h : WalksPages reads query left walk cursor items runs walk')
    (hstopped : walk'.stopped = none) :
    ∃ n, PagesOut reads query walk.budget.perPage walk.pages cursor n items ∧ n ≤ left ∧
      walk.entities < walk.chain.maxTotalEntities ∧ walk'.pages = walk.pages + n := by
  induction h with
  | stopped spent => exact absurd hstopped (by simp)
  | ended answered mirrored room ends =>
    exact ⟨1, .ended answered ends, Nat.le_add_left _ _, room, rfl⟩
  | @onward left walk _ _ _ _ _ _ _ answered mirrored room continues advances _ ih =>
    obtain ⟨n, hbehind, hleft, -, hpages⟩ := ih hstopped
    refine ⟨n + 1, .onward answered continues advances hbehind, Nat.succ_le_succ hleft, room, ?_⟩
    rw [hpages, WalkState.paged, Nat.add_right_comm]
    rfl

/-- A walk whose ceilings have room for the pages to their end runs them, and is not stopped. -/
theorem PagesOut.walks {n : Nat} {delivered : List RecordView}
    (hwalk : WalksPages reads query left walk cursor items runs walk')
    (h : PagesOut reads query walk.budget.perPage walk.pages cursor n delivered) (hleft : n ≤ left)
    (hroom : walk.entities < walk.chain.maxTotalEntities) :
    items = delivered ∧ walk'.pages = walk.pages + n ∧ walk'.stopped = walk.stopped := by
  induction hwalk generalizing n delivered with
  | stopped spent =>
    rcases spent with rfl | hspent
    · cases h with
      | ended => exact absurd hleft (by simp)
      | onward => exact absurd hleft (by simp)
    · exact absurd hroom (Nat.not_lt.mpr hspent)
  | ended answered mirrored room ends =>
    cases h with
    | ended answered' ends' =>
      obtain rfl := Except.ok.inj (answered.symm.trans answered')
      exact ⟨rfl, rfl, rfl⟩
    | onward answered' continues advances =>
      obtain rfl := Except.ok.inj (answered.symm.trans answered')
      exact (not_onward_of_ends ends continues advances).elim
  | onward answered mirrored room continues advances _ ih =>
    cases h with
    | ended answered' ends =>
      obtain rfl := Except.ok.inj (answered.symm.trans answered')
      exact (not_onward_of_ends ends continues advances).elim
    | onward answered' continues' advances' behind' =>
      obtain rfl := Except.ok.inj (answered.symm.trans answered')
      obtain rfl := Option.some.inj (continues.symm.trans continues')
      obtain ⟨rfl, hpages, hstopped⟩ := ih behind' (Nat.succ_le_succ_iff.mp hleft) room
      refine ⟨rfl, ?_, hstopped⟩
      rw [hpages, WalkState.paged, Nat.add_right_comm]
      rfl

/-- A part left unstopped ran the pages of its kind to their end, within the ceilings. -/
theorem walkPages_ran {part : PartName} {group : RunGroup}
    (h : walkPages reads query part walk = .ok (items, group, walk'))
    (hstopped : walk'.stopped = none) :
    ∃ n, PagesOut reads query walk.budget.perPage walk.pages none n items ∧
      walk'.pages = walk.pages + n ∧ walk'.pages ≤ walk.chain.maxTotalPages ∧
      walk.entities < walk.chain.maxTotalEntities := by
  obtain ⟨n, hout, hleft, hroom, hpages⟩ :=
    (walksPages_of_ok (walkPages_eq_ok h).1).pagesOut hstopped
  have hpos := hout.pos
  exact ⟨n, hout, hpages, by omega, hroom⟩

/-- A part whose kind's pages fit the ceilings to their end runs them, and is not stopped. -/
theorem walkPages_runs {part : PartName} {group : RunGroup}
    (h : walkPages reads query part walk = .ok (items, group, walk')) {n : Nat}
    {delivered : List RecordView}
    (hout : PagesOut reads query walk.budget.perPage walk.pages none n delivered)
    (hfit : walk.pages + n ≤ walk.chain.maxTotalPages)
    (hroom : walk.entities < walk.chain.maxTotalEntities) :
    items = delivered ∧ walk'.pages = walk.pages + n ∧ walk'.stopped = walk.stopped :=
  hout.walks (walksPages_of_ok (walkPages_eq_ok h).1) (by omega) hroom

end Walks

/-- Following cursors is determined. -/
theorem PagesOut.unique {reads : FlowReads} {query : RecordsQuery} {budget : QueryBudget}
    {k n n' : Nat} {cursor : Option (List UInt8)} {items items' : List RecordView}
    (h : PagesOut reads query budget k cursor n items)
    (h' : PagesOut reads query budget k cursor n' items') : n = n' ∧ items = items' := by
  induction h generalizing n' items' with
  | ended answered ends =>
    cases h' with
    | ended answered' ends' =>
      obtain rfl := Except.ok.inj (answered.symm.trans answered')
      exact ⟨rfl, rfl⟩
    | onward answered' continues advances =>
      obtain rfl := Except.ok.inj (answered.symm.trans answered')
      exact (not_onward_of_ends ends continues advances).elim
  | onward answered continues advances _ ih =>
    cases h' with
    | ended answered' ends =>
      obtain rfl := Except.ok.inj (answered.symm.trans answered')
      exact (not_onward_of_ends ends continues advances).elim
    | onward answered' continues' advances' behind' =>
      obtain rfl := Except.ok.inj (answered.symm.trans answered')
      obtain rfl := Option.some.inj (continues.symm.trans continues')
      obtain ⟨rfl, rfl⟩ := ih behind'
      exact ⟨rfl, rfl⟩

/-! ## A fixed store -/

section Fixed

variable {store : FixedStore} {clocks : Nat → Clock} {query : RecordsQuery} {budget : QueryBudget}

/-- The window behind a first page's cursor ends with the batch the page stopped in: its frontier is
the boundary the cursor keeps. -/
theorem windowOf_behindFirst (hall : ∀ view, query.filters.matchesView view = true)
    {stores : Nat → TelemetryStore} {clock : Clock} {session : BudgetSession}
    {residents examined delivered counted rest : List Yield} {page : Page RecordView}
    {next : CursorPayload} {anchor : AdmissionKey} (hkeyed : Keyed Yield.key residents)
    (hpage : PageOf (walkInput stores query clock none) session residents examined delivered counted
      rest page)
    (hcontinues : PageOf.Continues (walkInput stores query clock none) residents none
      ⟨delivered, counted⟩ next)
    (hmint : next = (walkInput stores query clock none).mint
      (Walk.frontierAt residents examined.length) anchor)
    (hlength : examined.length = budget.accounted residents) (hne : residents ≠ []) :
    windowOf residents (some next) = budget.behindFirst residents := by
  have haccount : PageAccount.all ⟨delivered, counted⟩ = examined :=
    hpage.matched.symm.trans (List.filter_eq_self.mpr fun y _ => hall y.record)
  have hsplit := @window_split query hall stores clock none residents _ next hcontinues
  rw [haccount, Option.map_none, aheadOf_none] at hsplit
  obtain ⟨f, -, hfrontier, -⟩ := Walk.frontierAt_covers hkeyed hpage.split hne
  have hsnapshot : Walk.frontierAt residents examined.length = some next.snapshot := by
    rw [hmint, WalkInput.mint, hfrontier]
    rfl
  rw [filter_upto_frontier hkeyed hsnapshot, hlength] at hsplit
  rw [QueryBudget.behindFirst, hsplit, ← hlength, List.drop_left]

/-- The window behind a later page's cursor is what is left of the page's own: the boundary stays. -/
theorem windowOf_behind (hall : ∀ view, query.filters.matchesView view = true)
    {stores : Nat → TelemetryStore} {clock : Clock} {residents : List Yield} {account : PageAccount}
    {payload next : CursorPayload}
    (hcontinues : PageOf.Continues (walkInput stores query clock (some payload)) residents
      (some payload.anchor) account next) :
    windowOf residents (some next) = (windowOf residents (some payload)).drop account.all.length := by
  have hsplit := @window_split query hall stores clock (some payload) residents _ next hcontinues
  rw [hcontinues.boundary payload.snapshot rfl] at hsplit
  change windowOf residents (some payload) = _ at hsplit
  rw [hsplit, List.drop_left]

/-- One page of a kind, first or behind a cursor: it delivers what is afforded of its window, ends the
pages where that is all of it, and else leaves to the next what it has not accounted for. -/
theorem FixedStore.page_unfiltered (hall : ∀ view, query.filters.matchesView view = true)
    (hpositive : budget.Positive) (hlive : ∀ k n, clocks k n - clocks k 0 < budget.deadline)
    (hwords : ∀ y ∈ store.residency.yields query.kind, y.key.InRange) (k : Nat)
    (presented : Option CursorPayload) (hrange : ∀ payload, presented = some payload →
      payload.InRange ∧ payload.fingerprint = fingerprint query.canonicalBytes) :
    let residents := store.residency.yields query.kind
    let window := windowOf residents presented
    ∃ page, records ((store.reads clocks).pages k) query budget ((store.reads clocks).clocks k)
        (presented.map CursorPayload.encode) = .ok page ∧
      page.items = (window.take (budget.afforded window)).map Yield.record ∧
      (budget.afforded window = window.length → page.nextCursor = none) ∧
      (budget.afforded window ≠ window.length → ∃ next : CursorPayload,
        page.nextCursor = some next.encode ∧ next.InRange ∧
        next.fingerprint = fingerprint query.canonicalBytes ∧
        next.anchor.follows (presented.map CursorPayload.anchor) = true ∧
        windowOf residents (some next) =
          if presented.isSome then window.drop (budget.accounted window)
          else budget.behindFirst residents) := by
  intro residents window
  have hkeyed : Keyed Yield.key residents := store.residency.keyed_yields query.kind
  obtain ⟨examined, delivered, counted, rest, hpage⟩ :=
    store.answer_page query hpositive (hlive k) presented
  have hwindow : window = (Walk.aheadOf residents (presented.map CursorPayload.anchor)).filter
      fun y => !(walkInput (fun _ => store.driver) query (clocks k) presented).pastBound y.key := by
    simp only [not_pastBound]
    rfl
  obtain ⟨hexamined, hdelivered, hlast⟩ := hpage.afforded_unfiltered (hkeyed.filter _) hall hwindow
  obtain ⟨-, hends⟩ := hpage.step hkeyed hwords fun bound hbound => by
    obtain ⟨payload, hpayload, rfl⟩ := Option.map_eq_some_iff.mp hbound
    exact (hrange payload hpayload).1.snapshot
  refine ⟨answer (fun _ => store.driver) query budget (clocks k) presented,
    records_presented _ query budget (clocks k) hrange, ?_, hlast.mpr, fun hmore => ?_⟩
  · rw [hpage.items, hdelivered]
  · rcases hends with ⟨hnone, -⟩ | ⟨next, hnext, hcontinues, anchor, hmint⟩
    · exact absurd (hlast.mp hnone) hmore
    · refine ⟨next, hnext, hcontinues.inRange, hcontinues.own, hcontinues.advances, ?_⟩
      have hlength : examined.length = budget.accounted window := by
        rw [← hexamined, List.length_take, min_eq_left (budget.accounted_le_length window)]
      cases presented with
      | some payload =>
        have haccount : PageAccount.all ⟨delivered, counted⟩ = examined :=
          hpage.matched.symm.trans (List.filter_eq_self.mpr fun y _ => hall y.record)
        rw [Option.isSome_some, if_pos rfl, windowOf_behind hall hcontinues, haccount, hlength]
      | none =>
        have hwhole : window = residents := by
          rw [hwindow]
          exact (List.filter_eq_self.mpr fun _ _ => rfl).trans (aheadOf_none residents)
        have hne : residents ≠ [] := by
          rintro hnil
          rw [hwhole, hnil] at hmore
          exact hmore (by simp [QueryBudget.afforded, QueryBudget.affordedWithin])
        rw [Option.map_none, aheadOf_none] at hpage hmint
        rw [hwhole] at hlength
        rw [Option.isSome_none, if_neg Bool.false_ne_true]
        exact windowOf_behindFirst hall hkeyed hpage hcontinues hmint hlength hne

/-- The pages behind a cursor are those its window makes. -/
theorem FixedStore.pagesOut_behind (hall : ∀ view, query.filters.matchesView view = true)
    (hpositive : budget.Positive) (hlive : ∀ k n, clocks k n - clocks k 0 < budget.deadline)
    (hwords : ∀ y ∈ store.residency.yields query.kind, y.key.InRange) {fuel k : Nat}
    {payload : CursorPayload} (hrange : payload.InRange)
    (hown : payload.fingerprint = fingerprint query.canonicalBytes)
    (hfuel : (windowOf (store.residency.yields query.kind) (some payload)).length < fuel) :
    let behind := budget.pagesBehind fuel
      (windowOf (store.residency.yields query.kind) (some payload))
    PagesOut (store.reads clocks) query budget k (some payload.encode) behind.1
      (behind.2.map Yield.record) := by
  -- the induction is on the fuel: every page leaves a shorter window
  induction fuel generalizing k payload with
  | zero => exact absurd hfuel (Nat.not_lt_zero _)
  | succ fuel ih =>
    obtain ⟨page, hpage, hitems, hends, hgoes⟩ := store.page_unfiltered hall hpositive hlive hwords k
      (some payload) fun _ hsome => Option.some.inj hsome ▸ ⟨hrange, hown⟩
    generalize hwindow : windowOf (store.residency.yields query.kind) (some payload) = window at *
    rw [QueryBudget.pagesBehind]
    by_cases hwhole : budget.afforded window = window.length
    · rw [if_pos hwhole]
      rw [hwhole, List.take_length] at hitems
      dsimp only
      rw [← hitems]
      exact .ended hpage (Or.inl (hends hwhole))
    · have hless : budget.afforded window < window.length :=
        lt_of_le_of_ne (budget.afforded_le_length window) hwhole
      have hshort := QueryBudget.accounted_pos hpositive hless
      obtain ⟨next, hnext, hnextRange, hnextOwn, hadvances, hbehind⟩ := hgoes hwhole
      have hmoves : some payload.encode ≠ some next.encode := fun hsame => by
        have hdecoded := CursorPayload.decode_encode hrange
        rw [Option.some.inj hsame, CursorPayload.decode_encode hnextRange] at hdecoded
        rw [Except.ok.inj hdecoded] at hadvances
        exact absurd (of_decide_eq_true hadvances) (lt_irrefl _)
      rw [Option.isSome_some, if_pos rfl] at hbehind
      have hrest := @ih (k + 1) next hnextRange hnextOwn (by
        rw [hbehind, List.length_drop]
        omega)
      rw [hbehind] at hrest
      rw [if_neg hwhole]
      dsimp only at hrest ⊢
      rw [List.map_append, ← hitems]
      exact .onward hpage hnext hmoves hrest

/-- **The pages of a kind over a fixed store**: those the budget makes of its residents. -/
theorem FixedStore.pagesOut (hall : ∀ view, query.filters.matchesView view = true)
    (hpositive : budget.Positive) (hlive : ∀ k n, clocks k n - clocks k 0 < budget.deadline)
    (hwords : ∀ y ∈ store.residency.yields query.kind, y.key.InRange) (k : Nat) :
    let pages := budget.pagesOf (store.residency.yields query.kind)
    PagesOut (store.reads clocks) query budget k none pages.1 (pages.2.map Yield.record) := by
  obtain ⟨page, hpage, hitems, hends, hgoes⟩ := store.page_unfiltered hall hpositive hlive hwords k
    none fun _ hnone => absurd hnone (by simp)
  have hwindow : windowOf (store.residency.yields query.kind) none =
      store.residency.yields query.kind := by
    rw [windowOf, Option.map_none, Option.map_none, aheadOf_none]
    exact List.filter_eq_self.mpr fun _ _ => rfl
  rw [hwindow] at hitems hends hgoes
  intro pages
  by_cases hwhole : budget.afforded (store.residency.yields query.kind) =
      (store.residency.yields query.kind).length
  · have hpages : pages = (1, store.residency.yields query.kind) := if_pos hwhole
    rw [hwhole, List.take_length] at hitems
    rw [hpages, ← hitems]
    exact .ended hpage (Or.inl (hends hwhole))
  · obtain ⟨next, hnext, hnextRange, hnextOwn, -, hbehind⟩ := hgoes hwhole
    rw [Option.isSome_none, if_neg Bool.false_ne_true] at hbehind
    have hrest := @FixedStore.pagesOut_behind store clocks query budget hall hpositive hlive hwords
      ((store.residency.yields query.kind).length + 1) (k + 1) next hnextRange hnextOwn (by
        rw [hbehind, QueryBudget.behindFirst, List.length_drop, List.length_take]
        omega)
    rw [hbehind] at hrest
    have hpages : pages = _ := if_neg hwhole
    rw [hpages, List.map_append, ← hitems]
    exact .onward hpage hnext (by simp) hrest

end Fixed

end RuntimeTrail
