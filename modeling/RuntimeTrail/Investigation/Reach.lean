import RuntimeTrail.Investigation.Flow
import RuntimeTrail.Query.Paging

/-!
# What a walk of the flow reaches

Over a fixed store, before every deadline, a part whose pages report no byte
truncation and whose last page is complete has walked the residents of its kind
up to the snapshot boundary its first page fixed: the end of the batch in which
that page's results or scan ceiling was spent.

* **one page** — `PageOf.unfiltered`: without a filter a page delivers what it
  examined, all of its window or up to a spent ceiling;
* **the chain** — `walkPagesFrom_rest`: by induction on the pages left, what the
  pages behind a cursor deliver is the rest of its window;
* **the part** — `walkPages_reached`.
-/

namespace RuntimeTrail

open Library

/-! ## What a part reports -/

/-- Whether the page was truncated on a dimension. -/
def RunFacts.cutOn (run : RunFacts) (dimension : Dimension) : Bool :=
  match run.outcome with
  | .degraded truncation => decide (truncation.dimension = dimension)
  | _ => false

/-- No page of a part was truncated on bytes, and the last one is complete. -/
structure Finished (runs : List RunFacts) : Prop where
  uncut : ∀ run ∈ runs, run.cutOn .bytes = false
  last : runs.getLast?.map RunFacts.outcome = some .complete

instance (runs : List RunFacts) : Decidable (Finished runs) :=
  decidable_of_iff ((∀ run ∈ runs, run.cutOn .bytes = false) ∧
    runs.getLast?.map RunFacts.outcome = some .complete) ⟨fun h => ⟨h.1, h.2⟩, fun h => ⟨h.1, h.2⟩⟩

theorem Finished.tail {run : RunFacts} {runs : List RunFacts} (h : Finished (run :: runs))
    (hne : runs ≠ []) : Finished runs := by
  obtain ⟨huncut, hlast⟩ := h
  refine ⟨fun later hlater => huncut later (List.mem_cons_of_mem _ hlater), ?_⟩
  rw [List.getLast?_cons] at hlast
  obtain ⟨front, last, rfl⟩ : ∃ front last, runs = front ++ [last] :=
    ⟨_, _, (List.dropLast_append_getLast hne).symm⟩
  simpa using hlast

/-! ## One page -/

namespace PageOf

variable {input : WalkInput} {session : BudgetSession}
  {whole examined delivered counted rest : List Yield} {page : Page RecordView}

/-- A page without a filter, not truncated on bytes, delivers what it examined: its whole window, or
the records up to where the results or the scan ceiling was spent. -/
theorem unfiltered (h : PageOf input session whole examined delivered counted rest page)
    (hall : ∀ view, input.filters.matchesView view = true) {outcome : PartOutcome}
    (hparts : page.execution.parts = [outcome])
    (huncut : ∀ truncation, outcome = .degraded truncation → truncation.dimension ≠ .bytes) :
    delivered = examined ∧ counted = [] ∧ page.nextCursor = outcome.nextCursor ∧
      (outcome = .complete ∧ input.drained rest = true ∨
        ∃ front last, examined = front ++ [last] ∧
          examined.length = min session.ledger.results.remaining session.ledger.scan.remaining ∧
          outcome.nextCursor =
            some (input.mint (Walk.frontierAt whole examined.length) last.key).encode) := by
  have hmatched : examined = delivered ++ counted := by
    have hself : Walk.matching input examined = examined :=
      List.filter_eq_self.mpr fun y _ => hall y.record
    rw [← h.matched, hself]
  obtain ⟨answered, tails, hanswered, hnext, -, hverdict⟩ := h.answered
  obtain rfl : outcome = answered := by
    rw [hparts] at hanswered
    exact (List.cons.inj hanswered).1
  have hscanned := h.scanned
  have hfits := h.fits.1
  cases hverdict with
  | complete drained uncounted =>
    rw [uncounted, List.append_nil] at hmatched
    exact ⟨hmatched.symm, uncounted, hnext, Or.inl ⟨rfl, drained⟩⟩
  | counted drained counting => exact absurd rfl (huncut _ rfl)
  | cut more ceiling counting => exact absurd rfl (huncut _ rfl)
  | scan more ceiling uncounted spent =>
    rw [uncounted, List.append_nil] at hmatched
    obtain ⟨front, hfront⟩ := List.getLast?_eq_some_iff.mp spent
    refine ⟨hmatched.symm, uncounted, hnext, Or.inr ⟨front, _, hfront, ?_, rfl⟩⟩
    rw [← hmatched] at hfits
    omega
  | results next within matched room ceiling uncounted spent =>
    rw [uncounted, List.append_nil] at hmatched
    obtain ⟨front, hfront⟩ := List.getLast?_eq_some_iff.mp spent
    refine ⟨hmatched.symm, uncounted, hnext, Or.inr ⟨front, _, hmatched.trans hfront, ?_, rfl⟩⟩
    rw [← hmatched] at ceiling
    omega

end PageOf

/-! ## One turn of the page loop -/

/-- A walk is stopped by a ceiling before its first page, or runs a page, and ends with it or goes on
from its cursor. -/
theorem walkPagesFrom_cases {reads : FlowReads} {query : RecordsQuery} {left : Nat}
    {walk walk' : WalkState} {cursor : Option (List UInt8)} {items : List RecordView}
    {runs : List RunFacts}
    (h : walkPagesFrom reads query left walk cursor = .ok (items, runs, walk')) :
    (∃ basis, items = [] ∧ runs = [] ∧ walk' = { walk with stopped := some basis } ∧
        (left = 0 ∨ walk.chain.maxTotalEntities ≤ walk.entities)) ∨
      ∃ behind page run, left = behind + 1 ∧
        records (reads.pages walk.pages) query walk.budget.perPage (reads.clocks walk.pages) cursor =
          .ok page ∧ mirrorPage page = .ok run ∧ walk.entities < walk.chain.maxTotalEntities ∧
        ((page.nextCursor = none ∨ page.nextCursor = cursor) ∧
            items = page.items ∧ runs = [run] ∧ walk' = walk.paged ∨
          ∃ next items' runs', page.nextCursor = some next ∧ cursor ≠ some next ∧
            items = page.items ++ items' ∧ runs = run :: runs' ∧
            walkPagesFrom reads query behind walk.paged (some next) =
              .ok (items', runs', walk')) := by
  cases left with
  | zero =>
    obtain ⟨rfl, rfl, rfl⟩ : [] = items ∧ [] = runs ∧ _ = walk' := by
      simpa [walkPagesFrom] using h
    exact Or.inl ⟨_, rfl, rfl, rfl, Or.inl rfl⟩
  | succ behind =>
    rw [walkPagesFrom] at h
    split at h
    · rename_i hspent
      obtain ⟨rfl, rfl, rfl⟩ : [] = items ∧ [] = runs ∧ _ = walk' := by simpa using h
      exact Or.inl ⟨_, rfl, rfl, rfl, Or.inr hspent⟩
    · rename_i hroom
      cases hpage : records (reads.pages walk.pages) query walk.budget.perPage
          (reads.clocks walk.pages) cursor with
      | error error => simp [hpage] at h
      | ok page =>
        simp only [hpage] at h
        cases hrun : mirrorPage page with
        | error error => simp [hrun] at h
        | ok run =>
          simp only [hrun] at h
          refine Or.inr ⟨behind, page, run, rfl, rfl, hrun, not_le.mp hroom, ?_⟩
          cases hnext : page.nextCursor with
          | none =>
            obtain ⟨rfl, rfl, rfl⟩ : page.items = items ∧ [run] = runs ∧ _ = walk' := by
              simpa [hnext] using h
            exact Or.inl ⟨Or.inl rfl, rfl, rfl, rfl⟩
          | some next =>
            simp only [hnext] at h
            by_cases hsame : cursor = some next
            · obtain ⟨rfl, rfl, rfl⟩ : page.items = items ∧ [run] = runs ∧ _ = walk' := by
                simpa [hsame] using h
              exact Or.inl ⟨Or.inr hsame.symm, rfl, rfl, rfl⟩
            · simp only [hsame, if_false] at h
              cases hrest : walkPagesFrom reads query behind walk.paged (some next) with
              | error error => simp [hrest] at h
              | ok answered =>
                obtain ⟨items', runs', last⟩ := answered
                simp only [hrest, Except.ok.injEq, Prod.mk.injEq] at h
                obtain ⟨rfl, rfl, rfl⟩ := h
                exact Or.inr ⟨next, items', runs', rfl, hsame, rfl, rfl, hrest⟩

/-- A run of the page loop: a ceiling stops it before a page, a page ends it, or it goes on from the
page's cursor. -/
inductive WalksPages (reads : FlowReads) (query : RecordsQuery) :
    Nat → WalkState → Option (List UInt8) → List RecordView → List RunFacts → WalkState → Prop
  | stopped {left : Nat} {walk : WalkState} {cursor : Option (List UInt8)} {basis}
      (spent : left = 0 ∨ walk.chain.maxTotalEntities ≤ walk.entities) :
      WalksPages reads query left walk cursor [] [] { walk with stopped := some basis }
  | ended {left : Nat} {walk : WalkState} {cursor : Option (List UInt8)} {page : Page RecordView}
      {run : RunFacts}
      (answered : records (reads.pages walk.pages) query walk.budget.perPage
        (reads.clocks walk.pages) cursor = .ok page)
      (mirrored : mirrorPage page = .ok run)
      (room : walk.entities < walk.chain.maxTotalEntities)
      (ends : page.nextCursor = none ∨ page.nextCursor = cursor) :
      WalksPages reads query (left + 1) walk cursor page.items [run] walk.paged
  | onward {left : Nat} {walk walk' : WalkState} {cursor : Option (List UInt8)}
      {page : Page RecordView} {run : RunFacts} {next : List UInt8} {items : List RecordView}
      {runs : List RunFacts}
      (answered : records (reads.pages walk.pages) query walk.budget.perPage
        (reads.clocks walk.pages) cursor = .ok page)
      (mirrored : mirrorPage page = .ok run)
      (room : walk.entities < walk.chain.maxTotalEntities)
      (continues : page.nextCursor = some next) (advances : cursor ≠ some next)
      (behind : WalksPages reads query left walk.paged (some next) items runs walk') :
      WalksPages reads query (left + 1) walk cursor (page.items ++ items) (run :: runs) walk'

theorem walksPages_of_ok {reads : FlowReads} {query : RecordsQuery} {left : Nat}
    {walk walk' : WalkState} {cursor : Option (List UInt8)} {items : List RecordView}
    {runs : List RunFacts}
    (h : walkPagesFrom reads query left walk cursor = .ok (items, runs, walk')) :
    WalksPages reads query left walk cursor items runs walk' := by
  -- the induction is on the pages the chain's ceiling leaves
  induction left generalizing walk cursor items runs with
  | zero =>
    rcases walkPagesFrom_cases h with ⟨basis, rfl, rfl, rfl, hspent⟩ | ⟨_, _, _, hzero, -⟩
    · exact .stopped hspent
    · exact absurd hzero (by simp)
  | succ left ih =>
    rcases walkPagesFrom_cases h with ⟨basis, rfl, rfl, rfl, hspent⟩ |
      ⟨behind, page, run, hleft, hpage, hrun, hroom, hturn⟩
    · exact .stopped hspent
    · obtain rfl : left = behind := Nat.succ.inj hleft
      rcases hturn with ⟨hends, rfl, rfl, rfl⟩ |
        ⟨next, items', runs', hnext, hmoves, rfl, rfl, hrest⟩
      · exact .ended hpage hrun hroom hends
      · exact .onward hpage hrun hroom hnext hmoves (ih hrest)

/-- A walk no ceiling stopped has run a page, and ends with it or goes on from its cursor. -/
theorem walkPagesFrom_turn {reads : FlowReads} {query : RecordsQuery} {left : Nat}
    {walk walk' : WalkState} {cursor : Option (List UInt8)} {items : List RecordView}
    {runs : List RunFacts}
    (h : walkPagesFrom reads query left walk cursor = .ok (items, runs, walk'))
    (hstopped : walk'.stopped = none) :
    ∃ behind page run, left = behind + 1 ∧
      records (reads.pages walk.pages) query walk.budget.perPage (reads.clocks walk.pages) cursor =
        .ok page ∧ mirrorPage page = .ok run ∧
      (items = page.items ∧ runs = [run] ∧ walk' = walk.paged ∨
        ∃ next items' runs', page.nextCursor = some next ∧ items = page.items ++ items' ∧
          runs = run :: runs' ∧
          walkPagesFrom reads query behind walk.paged (some next) = .ok (items', runs', walk')) := by
  rcases walkPagesFrom_cases h with ⟨basis, -, -, rfl, -⟩ | hpaged
  · exact absurd hstopped (by simp)
  · obtain ⟨behind, page, run, hleft, hpage, hrun, -, hturn⟩ := hpaged
    refine ⟨behind, page, run, hleft, hpage, hrun, ?_⟩
    rcases hturn with ⟨-, hends⟩ | ⟨next, items', runs', hnext, -, hrest⟩
    · exact Or.inl hends
    · exact Or.inr ⟨next, items', runs', hnext, hrest⟩

/-- A walk no ceiling stopped came to it unstopped, and leaves its budget. -/
theorem walkPagesFrom_frame {reads : FlowReads} {query : RecordsQuery} {left : Nat}
    {walk walk' : WalkState} {cursor : Option (List UInt8)} {items : List RecordView}
    {runs : List RunFacts}
    (h : walkPagesFrom reads query left walk cursor = .ok (items, runs, walk'))
    (hstopped : walk'.stopped = none) : walk'.budget = walk.budget ∧ walk.stopped = none := by
  replace h := walksPages_of_ok h
  induction h with
  | stopped spent => exact absurd hstopped (by simp)
  | ended answered mirrored room ends => exact ⟨rfl, hstopped⟩
  | onward answered mirrored room continues advances behind ih => exact ih hstopped

theorem walkPages_frame {reads : FlowReads} {query : RecordsQuery} {part : PartName}
    {walk walk' : WalkState} {items : List RecordView} {group : RunGroup}
    (h : walkPages reads query part walk = .ok (items, group, walk'))
    (hstopped : walk'.stopped = none) : walk'.budget = walk.budget ∧ walk.stopped = none := by
  exact walkPagesFrom_frame (walkPages_eq_ok h).1 hstopped

/-! ## A part over a fixed store -/

/-- What a flow reads over a fixed store. -/
def FixedStore.reads (store : FixedStore) (clocks : Nat → Clock) : FlowReads where
  stats := store.driver.stats
  span := store.driver.span
  pages _ _ := store.driver
  clocks := clocks
  naming _ := store.driver

/-- The residents of a kind a part reaches: up to the end of the batch in which its first page's
results or scan ceiling is spent. -/
def InvestigationBudget.reached {α : Type} (budget : InvestigationBudget) (residents : List α) :
    List α :=
  residents.take (scanBatch * (min budget.maxResults budget.maxScan / scanBatch + 1))

/-- A first page has every resident ahead of it. -/
theorem aheadOf_none (residents : List Yield) : Walk.aheadOf residents none = residents :=
  List.filter_eq_self.mpr fun _ _ => rfl

/-- Up to the frontier of a page lie the batches pulled for it. -/
theorem filter_upto_frontier {residents : List Yield} (hkeyed : Keyed Yield.key residents)
    {examined : Nat} {frontier : AdmissionKey}
    (h : Walk.frontierAt residents examined = some frontier) :
    residents.filter (fun y => atOrBefore (some frontier) y.key) =
      residents.take (scanBatch * (examined / scanBatch + 1)) := by
  unfold Walk.frontierAt at h
  generalize scanBatch * (examined / scanBatch + 1) = n at h ⊢
  obtain ⟨last, hlast, rfl⟩ := Option.map_eq_some_iff.mp h
  obtain ⟨front, hfront⟩ := List.getLast?_eq_some_iff.mp hlast
  have hsplit : residents = front ++ last :: residents.drop n := by
    conv_lhs => rw [← List.take_append_drop n residents, hfront]
    simp
  rw [hsplit] at hkeyed
  rw [hfront]
  conv_lhs => rw [hsplit]
  exact hkeyed.filter_upto_cut

section Fixed

variable {store : FixedStore} {clocks : Nat → Clock} {query : RecordsQuery}
  {walk walk' : WalkState} {items : List RecordView} {runs : List RunFacts}

/-- The records between a resume point and a boundary. -/
def windowOf (residents : List Yield) (presented : Option CursorPayload) : List Yield :=
  (Walk.aheadOf residents (presented.map CursorPayload.anchor)).filter
    fun y => atOrBefore (presented.map CursorPayload.snapshot) y.key

/-- A run states the outcome of the page it mirrors. -/
theorem mirrorPage_outcome {page : Page RecordView} {run : RunFacts} {outcome : PartOutcome}
    (hparts : page.execution.parts = [outcome]) (h : mirrorPage page = .ok run) :
    run.outcome = outcome := by
  simp only [mirrorPage, hparts, List.head?_cons, Except.ok.injEq] at h
  rw [← h]

/-- No run of a finished part was cut on bytes. -/
theorem Finished.uncut_outcome (h : Finished runs) {run : RunFacts} (hmem : run ∈ runs)
    (truncation : Truncation) (houtcome : run.outcome = .degraded truncation) :
    truncation.dimension ≠ .bytes := by
  have huncut := h.uncut run hmem
  rw [RunFacts.cutOn, houtcome] at huncut
  exact of_decide_eq_false huncut

/-- A page that ran out of records within its boundary has examined its whole window. -/
theorem PageOf.window_eq {stores : Nat → TelemetryStore} {clock : Clock}
    {presented : Option CursorPayload} {session : BudgetSession} {residents : List Yield}
    {examined delivered counted rest : List Yield} {page : Page RecordView}
    (h : PageOf (walkInput stores query clock presented) session
      (Walk.aheadOf residents (presented.map CursorPayload.anchor)) examined delivered counted rest
      page)
    (hkeyed : Keyed Yield.key residents)
    (hdrained : (walkInput stores query clock presented).drained rest = true) :
    windowOf residents presented = examined := by
  have hupTo := h.upTo_eq
  rw [h.rest_within (hkeyed.filter _) hdrained, List.append_nil] at hupTo
  simp only [not_pastBound] at hupTo
  exact hupTo

/-- One turn of a finished part: its page delivers the whole window, or what it examined and leaves
the rest of the window to the turns behind it. -/
theorem walkPagesFrom_page (hall : ∀ view, query.filters.matchesView view = true)
    (hpositive : walk.budget.perPage.Positive)
    (hlive : ∀ k n, clocks k n - clocks k 0 < walk.budget.deadline)
    (hwords : ∀ y ∈ store.residency.yields query.kind, y.key.InRange) {left : Nat}
    (presented : Option CursorPayload) (hrange : ∀ payload, presented = some payload →
      payload.InRange ∧ payload.fingerprint = fingerprint query.canonicalBytes)
    (h : walkPagesFrom (store.reads clocks) query left walk
      (presented.map CursorPayload.encode) = .ok (items, runs, walk'))
    (hstopped : walk'.stopped = none) (hfinished : Finished runs) :
    ∃ examined : List Yield, examined.length ≤ min walk.budget.maxResults walk.budget.maxScan ∧
      (items = examined.map Yield.record ∧
          examined = windowOf (store.residency.yields query.kind) presented ∨
        ∃ behind payload items' runs', left = behind + 1 ∧
          items = examined.map Yield.record ++ items' ∧
          PageOf.Continues
            (walkInput (fun _ => store.driver) query (clocks walk.pages) presented)
            (store.residency.yields query.kind) (presented.map CursorPayload.anchor) ⟨examined, []⟩
            payload ∧
          examined.length = min walk.budget.maxResults walk.budget.maxScan ∧
          (presented = none →
            Walk.frontierAt (store.residency.yields query.kind) examined.length = some payload.snapshot) ∧
          Finished runs' ∧
          walkPagesFrom (store.reads clocks) query behind walk.paged
            (some payload.encode) = .ok (items', runs', walk')) := by
  obtain ⟨behind, page, run, rfl, hrecords, hmirror, hturn⟩ := walkPagesFrom_turn h hstopped
  obtain ⟨examined, delivered, counted, rest, hpage⟩ := store.answer_page query hpositive
    (hlive walk.pages) presented
  have hpageEq : page = answer (fun _ => store.driver) query walk.budget.perPage (clocks walk.pages)
      presented := Except.ok.inj (hrecords.symm.trans (records_presented _ _ _ _ hrange))
  rw [← hpageEq] at hpage
  obtain ⟨outcome, -, hparts, -⟩ := hpage.answered
  have hrun : run.outcome = outcome := mirrorPage_outcome hparts hmirror
  have hmem : run ∈ runs := by
    rcases hturn with ⟨-, rfl, -⟩ | ⟨_, _, _, -, -, rfl, -⟩ <;> simp
  have huncut : ∀ truncation, outcome = .degraded truncation → truncation.dimension ≠ .bytes :=
    hrun ▸ hfinished.uncut_outcome hmem
  obtain ⟨rfl, rfl, hnext, hends⟩ := hpage.unfiltered hall hparts huncut
  have hlength : delivered.length ≤ min walk.budget.maxResults walk.budget.maxScan :=
    le_min hpage.fits.1 hpage.scanned
  refine ⟨delivered, hlength, ?_⟩
  rcases hends with ⟨rfl, hdrained⟩ | ⟨front, last, hfront, hceiling, hcursor⟩
  · -- the page is complete: its window was examined to the end
    have hwindow := hpage.window_eq (store.residency.keyed_yields query.kind) hdrained
    rcases hturn with ⟨rfl, -, -⟩ | ⟨next, _, _, hsome, -⟩
    · exact Or.inl ⟨hpage.items, hwindow.symm⟩
    · rw [hnext] at hsome
      exact absurd hsome (by simp [PartOutcome.nextCursor])
  · -- the last page of a finished part is complete, and this one hands back a cursor
    have hmore : runs ≠ [run] := by
      rintro rfl
      have hcomplete : run.outcome = .complete := by simpa using hfinished.last
      rw [← hrun, hcomplete] at hcursor
      exact absurd hcursor (by simp [PartOutcome.nextCursor])
    rcases hturn with ⟨-, hlast, -⟩ | ⟨next, items', runs', hsome, rfl, rfl, hrest⟩
    · exact absurd hlast hmore
    · have hahead : Walk.aheadOf (store.residency.yields query.kind)
          (presented.map CursorPayload.anchor) = front ++ last :: rest := by
        rw [hpage.split, hfront, List.append_assoc]
        rfl
      have hmatched : Walk.matching (walkInput (fun _ => store.driver) query (clocks walk.pages)
          presented) (front ++ [last]) = delivered ++ [] := by
        rw [← hfront]
        exact hpage.matched
      have hcontinues := hpage.continues_of_cut (store.residency.keyed_yields query.kind) hwords
        (fun bound hbound => by
          obtain ⟨payload, hpayload, rfl⟩ := Option.map_eq_some_iff.mp hbound
          exact (hrange payload hpayload).1.snapshot)
        hahead (fun y hy => hfront ▸ hy) hmatched
      rw [hnext, hcursor] at hsome
      obtain rfl := Option.some.inj hsome
      refine Or.inr ⟨behind, _, items', runs', rfl, by rw [hpage.items], hcontinues, hceiling,
        fun hnone => ?_, hfinished.tail fun hnil => hmore (by rw [hnil]), hrest⟩
      subst hnone
      have hkeyed := store.residency.keyed_yields query.kind
      rw [Option.map_none, aheadOf_none] at hahead hpage ⊢
      obtain ⟨f, -, hfrontier, -⟩ := Walk.frontierAt_covers hkeyed hpage.split
        (by rw [hahead]; simp)
      rw [hfrontier]
      rfl

/-- A page that goes on has accounted for the front of its window, up to the boundary its cursor
keeps. -/
theorem window_split (hall : ∀ view, query.filters.matchesView view = true)
    {stores : Nat → TelemetryStore} {clock : Clock} {presented : Option CursorPayload}
    {residents : List Yield} {account : PageAccount} {payload : CursorPayload}
    (h : PageOf.Continues (walkInput stores query clock presented) residents
      (presented.map CursorPayload.anchor) account payload) :
    (Walk.aheadOf residents (presented.map CursorPayload.anchor)).filter
        (fun y => atOrBefore (some payload.snapshot) y.key) =
      account.all ++ windowOf residents (some payload) := by
  have hself : ∀ records, Walk.matching (walkInput stores query clock presented) records =
      records := fun records => List.filter_eq_self.mpr fun y _ => hall y.record
  have hrest := h.rest
  rw [hself, hself] at hrest
  exact hrest

/-- **The pages behind a cursor** of a finished part deliver what is left of its window. -/
theorem walkPagesFrom_rest (hall : ∀ view, query.filters.matchesView view = true)
    (hpositive : walk.budget.perPage.Positive)
    (hlive : ∀ k n, clocks k n - clocks k 0 < walk.budget.deadline)
    (hwords : ∀ y ∈ store.residency.yields query.kind, y.key.InRange) (left : Nat)
    {payload : CursorPayload} (hrange : payload.InRange)
    (hown : payload.fingerprint = fingerprint query.canonicalBytes)
    (h : walkPagesFrom (store.reads clocks) query left walk (some payload.encode) =
      .ok (items, runs, walk'))
    (hstopped : walk'.stopped = none) (hfinished : Finished runs) :
    items = (windowOf (store.residency.yields query.kind) (some payload)).map Yield.record := by
  -- the induction is on the pages the chain's ceiling leaves
  induction left generalizing walk payload items runs with
  | zero =>
    obtain ⟨_, _, _, hzero, -⟩ := walkPagesFrom_turn h hstopped
    exact absurd hzero (by simp)
  | succ left ih =>
    obtain ⟨examined, -, hends⟩ := walkPagesFrom_page hall hpositive hlive hwords (some payload)
      (fun _ hsome => Option.some.inj hsome ▸ ⟨hrange, hown⟩) h hstopped hfinished
    rcases hends with ⟨rfl, rfl⟩ |
      ⟨behind, next, items', runs', hleft, rfl, hcontinues, -, -, hfinished', hrest⟩
    · rfl
    · obtain rfl : left = behind := Nat.succ.inj hleft
      have hsplit := window_split hall hcontinues
      rw [hcontinues.boundary payload.snapshot rfl, PageAccount.all, List.append_nil] at hsplit
      rw [@ih walk.paged _ _ hpositive hlive _ hcontinues.inRange hcontinues.own hrest hfinished',
        ← List.map_append, ← hsplit]
      rfl

/-- **What a finished part has walked**: the residents of its kind up to the end of the batch in
which its first page's results or scan ceiling was spent. -/
theorem walkPages_reached (hall : ∀ view, query.filters.matchesView view = true)
    (hpositive : walk.budget.perPage.Positive)
    (hlive : ∀ k n, clocks k n - clocks k 0 < walk.budget.deadline)
    (hwords : ∀ y ∈ store.residency.yields query.kind, y.key.InRange) {part : PartName}
    {group : RunGroup}
    (h : walkPages (store.reads clocks) query part walk = .ok (items, group, walk'))
    (hstopped : walk'.stopped = none) (hfinished : Finished group.runs) :
    items = (walk.budget.reached (store.residency.yields query.kind)).map Yield.record := by
  have hkeyed := store.residency.keyed_yields query.kind
  obtain ⟨examined, hlength, hends⟩ := walkPagesFrom_page hall hpositive hlive hwords none
    (fun _ hsome => absurd hsome (by simp)) (walkPages_eq_ok h).1 hstopped hfinished
  rcases hends with ⟨rfl, hexamined⟩ |
    ⟨behind, payload, items'', runs', -, rfl, hcontinues, hceiling, hfrontier, hfinished', hrest⟩
  · -- the first page was complete, so every resident fits its ceilings
    have hwhole : examined = store.residency.yields query.kind := by
      simp only [hexamined, windowOf, Option.map_none, aheadOf_none]
      exact List.filter_eq_self.mpr fun _ _ => rfl
    rw [← hwhole, InvestigationBudget.reached, List.take_of_length_le]
    rw [scanBatch]
    omega
  · have hsplit := window_split hall hcontinues
    rw [Option.map_none, aheadOf_none, filter_upto_frontier hkeyed (hfrontier rfl), hceiling,
      PageAccount.all, List.append_nil] at hsplit
    rw [@walkPagesFrom_rest store clocks query walk.paged _ _ _ hall hpositive hlive
      hwords behind _ hcontinues.inRange hcontinues.own hrest hstopped hfinished',
      ← List.map_append, ← hsplit]
    rfl

end Fixed

end RuntimeTrail
