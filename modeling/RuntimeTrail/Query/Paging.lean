import RuntimeTrail.Query.Chain

/-!
# Paging through a fixed store

Over a store that does not change, the pages of a chain share the matching
records up to its boundary out among them, without loss and without doubling.

* **one page** — `PageOf.step`: it leaves nothing of its window, or a cursor
  behind which lies exactly what it has not accounted for;
* **the chain** — `chain_from`: by induction on the records still ahead;
* **the law** — `paging_exact`.
-/

namespace RuntimeTrail

open Library

/-! ## What a page accounts for -/

/-- Whether a key is at or before a boundary; without one, every key is. -/
def atOrBefore (boundary : Option AdmissionKey) (key : AdmissionKey) : Bool :=
  boundary.all fun bound => decide (key ≤ bound)

theorem not_pastBound (input : WalkInput) (key : AdmissionKey) :
    (!input.pastBound key) = atOrBefore input.snapshotBound key := by
  unfold WalkInput.pastBound atOrBefore
  cases input.snapshotBound with
  | none => rfl
  | some bound =>
    by_cases h : bound < key
    · simp [h]
    · simp [h, not_lt.mp h]

/-- The records a page delivered, and those it counted. -/
structure PageAccount where
  delivered : List Yield
  counted : List Yield

namespace PageAccount

def all (a : PageAccount) : List Yield := a.delivered ++ a.counted

/-- The omissions a page reports. -/
def omittedOf (page : Page RecordView) : Nat :=
  match page.execution.parts with
  | [.degraded truncation] => truncation.omitted
  | _ => 0

/-- The account of a page: its items are the delivered records, its omissions number the counted. -/
structure Of (a : PageAccount) (page : Page RecordView) : Prop where
  items : page.items = a.delivered.map Yield.record
  omitted : omittedOf page = a.counted.length

end PageAccount

/-! ## One page -/

namespace Walk

/-- The frontier covers what was examined. -/
theorem frontierAt_covers {whole examined rest : List Yield} (hkeyed : Keyed Yield.key whole)
    (hsplit : whole = examined ++ rest) (hne : whole ≠ []) :
    ∃ f ∈ whole, frontierAt whole examined.length = some f.key ∧ ∀ y ∈ examined, y.key ≤ f.key := by
  generalize hturn : scanBatch * (examined.length / scanBatch + 1) = n
  have hlt : examined.length < n := by
    rw [scanBatch] at hturn
    omega
  have htake : whole.take n ≠ [] := by
    rw [Ne, List.take_eq_nil_iff]
    rintro (hzero | hnil)
    · omega
    · exact hne hnil
  obtain ⟨front, f, hfront⟩ : ∃ front f, whole.take n = front ++ [f] :=
    ⟨_, _, (List.dropLast_append_getLast htake).symm⟩
  have hwhole : whole = front ++ f :: whole.drop n := by
    conv_lhs => rw [← List.take_append_drop n whole, hfront]
    simp
  refine ⟨f, by rw [hwhole]; simp, by rw [frontierAt, hturn, hfront]; simp, fun y hy => ?_⟩
  have hmem : y ∈ front ++ [f] := by
    rw [← hfront, hsplit, List.take_append, List.take_of_length_le hlt.le]
    exact List.mem_append_left _ hy
  rcases List.mem_append.mp hmem with hmem | hmem
  · rw [hwhole] at hkeyed
    exact (hkeyed.lt_of_mem_front hmem).le
  · rw [List.mem_singleton.mp hmem]

end Walk

namespace PageOf

variable {input : WalkInput} {session : BudgetSession}
  {residents examined delivered counted rest : List Yield} {after : Option AdmissionKey}
  {page : Page RecordView}

/-- What a cursor leaves to the pages behind it: it advances, it keeps the boundary, and of the
window up to its snapshot the page has accounted for everything but what lies past the cursor. -/
structure Continues (input : WalkInput) (residents : List Yield) (after : Option AdmissionKey)
    (account : PageAccount) (payload : CursorPayload) : Prop where
  inRange : payload.InRange
  own : payload.fingerprint = input.fingerprint
  boundary : ∀ bound, input.snapshotBound = some bound → payload.snapshot = bound
  advances : payload.anchor.follows after = true
  shorter : (Walk.aheadOf residents (some payload.anchor)).length <
    (Walk.aheadOf residents after).length
  rest : Walk.matching input ((Walk.aheadOf residents after).filter
      fun y => atOrBefore (some payload.snapshot) y.key) =
    account.all ++ Walk.matching input ((Walk.aheadOf residents (some payload.anchor)).filter
      fun y => atOrBefore (some payload.snapshot) y.key)

section Step

variable (h : PageOf input session (Walk.aheadOf residents after) examined delivered counted rest page)
  (hkeyed : Keyed Yield.key residents) (hwords : ∀ y ∈ residents, y.key.InRange)
  (hbound : ∀ bound, input.snapshotBound = some bound → bound.InRange)

include h hkeyed hwords hbound

/-- A cursor minted at an examined record, all matching records up to which are accounted for. -/
theorem continues_of_cut {front back : List Yield} {last : Yield}
    (hsplit : Walk.aheadOf residents after = front ++ last :: back)
    (hexamined : ∀ y ∈ front ++ [last], y ∈ examined)
    (hmatched : Walk.matching input (front ++ [last]) = delivered ++ counted) :
    Continues input residents after ⟨delivered, counted⟩
      (input.mint (Walk.frontierAt (Walk.aheadOf residents after) examined.length) last.key) := by
  have hahead : Keyed Yield.key (Walk.aheadOf residents after) := hkeyed.filter _
  have hmem : ∀ y ∈ Walk.aheadOf residents after, y ∈ residents ∧ y.key.follows after = true :=
    fun y hy => List.mem_filter.mp hy
  have hlast : last ∈ Walk.aheadOf residents after := by rw [hsplit]; simp
  obtain ⟨f, hf, hfrontier, hcovers⟩ :=
    Walk.frontierAt_covers hahead h.split (List.ne_nil_of_mem hlast)
  -- the snapshot is the chain's boundary, or this first page's frontier
  obtain ⟨snapshot, hsnapshot, hrange, hupto, hkept⟩ : ∃ snapshot,
      (input.mint (Walk.frontierAt (Walk.aheadOf residents after) examined.length)
        last.key).snapshot = snapshot ∧ snapshot.InRange ∧ (∀ y ∈ examined, y.key ≤ snapshot) ∧
          ∀ bound, input.snapshotBound = some bound → snapshot = bound := by
    rw [hfrontier, WalkInput.mint]
    cases hsome : input.snapshotBound with
    | none =>
      exact ⟨f.key, rfl, hwords f (hmem f hf).1, hcovers, fun _ h => absurd h (by simp)⟩
    | some bound =>
      refine ⟨bound, rfl, hbound bound hsome, fun y hy => ?_, fun _ h => Option.some.inj h⟩
      have hwithin := not_pastBound input y.key
      rw [h.within y hy, hsome] at hwithin
      exact of_decide_eq_true hwithin.symm
  have hpast : Walk.aheadOf residents (some last.key) = back :=
    hkeyed.filter_past_of_filter_eq AdmissionKey.follows_of_lt hsplit
  generalize hmint : input.mint (Walk.frontierAt (Walk.aheadOf residents after) examined.length)
    last.key = payload at hsnapshot ⊢
  have hanchor : payload.anchor = last.key := by rw [← hmint]; rfl
  have hword := hwords last (hmem last hlast).1
  refine ⟨⟨?_, ?_, ?_⟩, by rw [← hmint]; rfl, ?_, ?_, ?_, ?_⟩
  · rw [← hmint]; exact hword.time
  · rw [← hmint]; exact hword.entity
  · rw [hsnapshot]; exact hrange
  · rw [hsnapshot]; exact hkept
  · rw [hanchor]; exact (hmem last hlast).2
  · rw [hanchor, hpast, hsplit, List.length_append, List.length_cons]
    omega
  · have hfront : (front ++ [last]).filter (fun y => atOrBefore (some payload.snapshot) y.key) =
        front ++ [last] :=
      List.filter_eq_self.mpr fun y hy => by
        rw [hsnapshot]
        exact decide_eq_true (hupto y (hexamined y hy))
    rw [hanchor, hpast, hsplit, show front ++ last :: back = (front ++ [last]) ++ back by simp,
      List.filter_append, hfront, Walk.matching_append, hmatched]
    rfl

/-- **How a page ends.**  It mints no cursor and has accounted for its whole window, or it mints one
that leaves to the pages behind it what it has not accounted for. -/
theorem step : PageAccount.Of ⟨delivered, counted⟩ page ∧
    (page.nextCursor = none ∧ delivered ++ counted = Walk.matching input
        ((Walk.aheadOf residents after).filter fun y => atOrBefore input.snapshotBound y.key) ∨
      ∃ payload, page.nextCursor = some payload.encode ∧
        Continues input residents after ⟨delivered, counted⟩ payload ∧
        ∃ anchor, payload = input.mint
          (Walk.frontierAt (Walk.aheadOf residents after) examined.length) anchor) := by
  obtain ⟨outcome, tails, hparts, hnext, -, hverdict⟩ := h.answered
  have hcut : ∀ {front back : List Yield} {last : Yield},
      examined = front ++ last :: back →
      Walk.matching input (front ++ [last]) = delivered ++ counted →
      page.nextCursor = some (input.mint (Walk.frontierAt (Walk.aheadOf residents after)
        examined.length) last.key).encode →
      ∃ payload, page.nextCursor = some payload.encode ∧
        Continues input residents after ⟨delivered, counted⟩ payload ∧
        ∃ anchor, payload = input.mint
          (Walk.frontierAt (Walk.aheadOf residents after) examined.length) anchor := by
    intro front back last hexamined hmatched hcursor
    have hsplit : Walk.aheadOf residents after = front ++ last :: (back ++ rest) := by
      rw [h.split, hexamined]
      simp
    refine ⟨_, hcursor, h.continues_of_cut hkeyed hwords hbound hsplit (fun y hy => ?_) hmatched,
      last.key, rfl⟩
    rw [hexamined]
    rcases List.mem_append.mp hy with hy | hy
    · exact List.mem_append_left _ hy
    · simp [List.mem_singleton.mp hy]
  have hlast : ∀ {last : Yield}, (delivered ++ counted).getLast? = some last →
      page.nextCursor = some (input.mint (Walk.frontierAt (Walk.aheadOf residents after)
        examined.length) last.key).encode →
      ∃ payload, page.nextCursor = some payload.encode ∧
        Continues input residents after ⟨delivered, counted⟩ payload ∧
        ∃ anchor, payload = input.mint
          (Walk.frontierAt (Walk.aheadOf residents after) examined.length) anchor := by
    intro last hget hcursor
    rw [← h.matched] at hget
    obtain ⟨front, back, hexamined, hfront, -⟩ := exists_cut_at_last hget
    exact hcut hexamined (hfront.symm.trans h.matched) hcursor
  cases hverdict with
  | complete drained uncounted =>
    refine ⟨⟨h.items, by simp [PageAccount.omittedOf, hparts, uncounted]⟩, Or.inl ⟨hnext, ?_⟩⟩
    have hupTo := h.upTo_eq
    rw [h.rest_within (hkeyed.filter _) drained, List.append_nil] at hupTo
    simp only [not_pastBound] at hupTo
    rw [hupTo, h.matched]
  | @counted last drained counting =>
    refine ⟨⟨h.items, by simp [PageAccount.omittedOf, hparts]⟩, Or.inr (hlast ?_ hnext)⟩
    rw [List.getLast?_append, counting]
    rfl
  | @cut last more ceiling counting =>
    refine ⟨⟨h.items, by simp [PageAccount.omittedOf, hparts]⟩, Or.inr (hlast ?_ hnext)⟩
    rw [List.getLast?_append, counting]
    rfl
  | @scan last more ceiling uncounted spent =>
    refine ⟨⟨h.items, by simp [PageAccount.omittedOf, hparts, uncounted]⟩, Or.inr ?_⟩
    obtain ⟨front, hfront⟩ := List.getLast?_eq_some_iff.mp spent
    exact hcut hfront (by rw [← hfront, h.matched]) hnext
  | @results last yielded behind next within matched room ceiling uncounted spent =>
    refine ⟨⟨h.items, by simp [PageAccount.omittedOf, hparts, uncounted]⟩, Or.inr (hlast ?_ hnext)⟩
    rw [uncounted, List.append_nil]
    exact spent

end Step

end PageOf

/-! ## The chain -/

/-- The payload of the cursor a page continues with. -/
def AnsweredPage.next? (p : AnsweredPage) : Option CursorPayload :=
  p.page.nextCursor.bind fun bytes =>
    match CursorPayload.decode bytes with
    | .ok payload => some payload
    | .error _ => none

/-- The matching residents at or before a boundary, strictly after a resume point. -/
def RecordsQuery.window (query : RecordsQuery) (residents : List Yield)
    (after boundary : Option AdmissionKey) : List Yield :=
  ((Walk.aheadOf residents after).filter fun y => atOrBefore boundary y.key).filter
    fun y => query.filters.matchesView y.record

/-- What the pages of a chain come to: the chain has ended, each page has its account, together they
are the window, and the cursors advance within one boundary. -/
structure ChainLaw (query : RecordsQuery) (residents : List Yield) (after boundary : Option AdmissionKey)
    (pages : List AnsweredPage) (accounts : List PageAccount) : Prop where
  ended : ∃ p, pages.getLast? = some p ∧ p.page.nextCursor = none
  each : List.Forall₂ (fun p a => PageAccount.Of a p.page) pages accounts
  whole : accounts.flatMap PageAccount.all = query.window residents after boundary
  advances : (pages.filterMap AnsweredPage.next?).Pairwise fun a b => a.anchor < b.anchor
  beyond : ∀ payload ∈ pages.filterMap AnsweredPage.next?, payload.anchor.follows after = true
  bounded : ∀ payload ∈ pages.filterMap AnsweredPage.next?, boundary = some payload.snapshot

namespace ChainLaw

variable {query : RecordsQuery} {residents : List Yield} {after boundary : Option AdmissionKey}

/-- A page that mints no cursor is a chain. -/
theorem single {p : AnsweredPage} {a : PageAccount} (hof : PageAccount.Of a p.page)
    (hlast : p.page.nextCursor = none) (hwhole : a.all = query.window residents after boundary) :
    ChainLaw query residents after boundary [p] [a] := by
  have hnext : [p].filterMap AnsweredPage.next? = [] := by
    simp [AnsweredPage.next?, hlast]
  refine ⟨⟨p, rfl, hlast⟩, .cons hof .nil, by simpa using hwhole, ?_, ?_, ?_⟩ <;>
    rw [hnext] <;> simp

/-- A page in front of the chain its cursor continues with. -/
theorem cons {p : AnsweredPage} {a : PageAccount} {payload : CursorPayload}
    {pages : List AnsweredPage} {accounts : List PageAccount}
    (hof : PageAccount.Of a p.page) (hnext : p.next? = some payload)
    (hadvances : payload.anchor.follows after = true)
    (hwhole : query.window residents after (some payload.snapshot) =
      a.all ++ query.window residents (some payload.anchor) (some payload.snapshot))
    (h : ChainLaw query residents (some payload.anchor) (some payload.snapshot) pages accounts) :
    ChainLaw query residents after (some payload.snapshot) (p :: pages) (a :: accounts) := by
  have hfilter : (p :: pages).filterMap AnsweredPage.next? =
      payload :: pages.filterMap AnsweredPage.next? := by
    rw [List.filterMap_cons, hnext]
  obtain ⟨last, hlast, hend⟩ := h.ended
  refine ⟨⟨last, by rw [List.getLast?_cons, hlast]; rfl, hend⟩, .cons hof h.each, ?_, ?_, ?_, ?_⟩
  · rw [List.flatMap_cons, h.whole, hwhole]
  · rw [hfilter]
    exact List.pairwise_cons.mpr
      ⟨fun later hlater => of_decide_eq_true (h.beyond later hlater), h.advances⟩
  · rw [hfilter]
    intro later hlater
    rcases List.mem_cons.mp hlater with rfl | hlater
    · exact hadvances
    · exact AdmissionKey.follows_of_lt hadvances (of_decide_eq_true (h.beyond later hlater))
  · rw [hfilter]
    intro later hlater
    rcases List.mem_cons.mp hlater with rfl | hlater
    · rfl
    · exact h.bounded later hlater

end ChainLaw

/-- One page of a chain over a fixed store, from its continuation. -/
theorem page_step (store : FixedStore) (query : RecordsQuery) (call : PageCall)
    (hpositive : call.budget.Positive)
    (hlive : ∀ n, call.clock n - call.clock 0 < call.budget.deadline)
    (hwords : ∀ y ∈ store.residency.yields query.kind, y.key.InRange)
    (presented : Option CursorPayload) (hrange : ∀ payload, presented = some payload →
      payload.InRange ∧ payload.fingerprint = fingerprint query.canonicalBytes) :
    let page := answer (fun _ => store.driver) query call.budget call.clock presented
    let input := walkInput (fun _ => store.driver) query call.clock presented
    records (fun _ => store.driver) query call.budget call.clock
        (presented.map CursorPayload.encode) = .ok page ∧
      ∃ account, PageAccount.Of account page ∧
        (page.nextCursor = none ∧ account.all = query.window (store.residency.yields query.kind)
            (presented.map CursorPayload.anchor) (presented.map CursorPayload.snapshot) ∨
          ∃ payload, page.nextCursor = some payload.encode ∧
            PageOf.Continues input (store.residency.yields query.kind)
              (presented.map CursorPayload.anchor) account payload) := by
  intro page input
  refine ⟨records_presented _ query call.budget call.clock hrange, ?_⟩
  · obtain ⟨examined, delivered, counted, rest, hpage⟩ :=
      store.answer_page query hpositive hlive presented
    obtain ⟨hof, hends⟩ := hpage.step (store.residency.keyed_yields query.kind) hwords
      fun bound hbound => by
        obtain ⟨payload, hpayload, rfl⟩ := Option.map_eq_some_iff.mp hbound
        exact (hrange payload hpayload).1.snapshot
    refine ⟨_, hof, hends.imp_right ?_⟩
    rintro ⟨payload, hnext, hcontinues, -⟩
    exact ⟨payload, hnext, hcontinues⟩

/-- The boundary of a chain: its continuation's, or the one its first page fixes. -/
def chainBoundary (presented : Option CursorPayload) (pages : List AnsweredPage) :
    Option AdmissionKey :=
  match presented with
  | some payload => some payload.snapshot
  | none => (pages.head?.bind AnsweredPage.next?).map CursorPayload.snapshot

theorem follow_cons {history : Nat → TelemetryStore} {query : RecordsQuery}
    {continuation : Option (List UInt8)} {calls : Nat → PageCall} {page : Page RecordView}
    (h : records (fun n => history ((calls 0).moments n)) query (calls 0).budget (calls 0).clock
      continuation = .ok page) (n : Nat) :
    follow history query continuation ((List.range (n + 1)).map calls) =
      ⟨continuation, calls 0, page⟩ ::
        match page.nextCursor with
        | some bytes => follow history query (some bytes) ((List.range n).map fun i => calls (i + 1))
        | none => [] := by
  rw [List.range_succ_eq_map, List.map_cons, List.map_map, follow, h]
  rfl

/-- What following `next_cursor` from the first page comes to. -/
structure PagedOut (query : RecordsQuery) (residents : List Yield) (pages : List AnsweredPage)
    (accounts : List PageAccount) : Prop where
  /-- The chain has ended. -/
  ended : ∃ p, pages.getLast? = some p ∧ p.page.nextCursor = none
  /-- Each cursor is past the one before it. -/
  advances : (pages.filterMap AnsweredPage.next?).Pairwise fun a b => a.anchor < b.anchor
  each : List.Forall₂ (fun p a => PageAccount.Of a p.page) pages accounts
  /-- What the pages delivered and counted is, in order, the matching residents at or before the
  boundary the first page fixes, or all of them if it mints no cursor. -/
  whole : accounts.flatMap PageAccount.all = query.window residents none
    ((pages.head?.bind AnsweredPage.next?).map CursorPayload.snapshot)
  /-- None of it twice. -/
  once : Keyed Yield.key (accounts.flatMap PageAccount.all)
  numbers : (pages.map fun p => p.page.items.length + PageAccount.omittedOf p.page).sum =
    (query.window residents none
      ((pages.head?.bind AnsweredPage.next?).map CursorPayload.snapshot)).length

theorem length_accounts {pages : List AnsweredPage} {accounts : List PageAccount}
    (h : List.Forall₂ (fun p a => PageAccount.Of a p.page) pages accounts) :
    (pages.map fun p => p.page.items.length + PageAccount.omittedOf p.page).sum =
      (accounts.flatMap PageAccount.all).length := by
  induction h with
  | nil => rfl
  | cons hof _ ih =>
    rw [List.map_cons, List.sum_cons, List.flatMap_cons, List.length_append, ih, hof.items,
      hof.omitted, PageAccount.all, List.length_append, List.length_map]

section Chain

variable (store : FixedStore) (query : RecordsQuery)
  (hwords : ∀ y ∈ store.residency.yields query.kind, y.key.InRange)

include hwords

/-- A page and the chain behind it, when there is one. -/
theorem chain_step (presented : Option CursorPayload) (hrange : ∀ payload, presented = some payload →
      payload.InRange ∧ payload.fingerprint = fingerprint query.canonicalBytes)
    (calls : Nat → PageCall) (hpositive : ∀ i, (calls i).budget.Positive)
    (hlive : ∀ i n, (calls i).clock n - (calls i).clock 0 < (calls i).budget.deadline)
    (hbehind : ∀ payload : CursorPayload, payload.InRange →
      payload.fingerprint = fingerprint query.canonicalBytes →
      (Walk.aheadOf (store.residency.yields query.kind) (some payload.anchor)).length <
        (Walk.aheadOf (store.residency.yields query.kind)
          (presented.map CursorPayload.anchor)).length →
      ∃ n accounts, ChainLaw query (store.residency.yields query.kind) (some payload.anchor)
        (some payload.snapshot) (follow (fun _ => store.driver) query (some payload.encode)
          ((List.range n).map fun i => calls (i + 1))) accounts) :
    ∃ n accounts,
      let pages := follow (fun _ => store.driver) query (presented.map CursorPayload.encode)
        ((List.range n).map calls)
      ChainLaw query (store.residency.yields query.kind) (presented.map CursorPayload.anchor)
        (chainBoundary presented pages) pages accounts := by
  obtain ⟨hpage, account, hof, hends⟩ := page_step store query (calls 0) (hpositive 0) (hlive 0)
    hwords presented hrange
  generalize answer (fun _ => store.driver) query (calls 0).budget (calls 0).clock presented = page
    at hpage hof hends
  rcases hends with ⟨hlast, hwhole⟩ | ⟨next, hnext, hcontinues⟩
  · -- the page ends the chain
    have hpages : follow (fun _ => store.driver) query (presented.map CursorPayload.encode)
        ((List.range 1).map calls) = [⟨presented.map CursorPayload.encode, calls 0, page⟩] := by
      rw [@follow_cons (fun _ => store.driver) query _ calls page hpage 0, hlast]
    have hboundary : chainBoundary presented
        [⟨presented.map CursorPayload.encode, calls 0, page⟩] =
          presented.map CursorPayload.snapshot := by
      cases presented with
      | none => simp [chainBoundary, AnsweredPage.next?, hlast]
      | some payload => rfl
    refine ⟨1, [account], ?_⟩
    rw [hpages]
    dsimp only
    rw [hboundary]
    exact ChainLaw.single hof hlast hwhole
  · obtain ⟨n, accounts, hchain⟩ := hbehind next hcontinues.inRange hcontinues.own
      hcontinues.shorter
    have hpages := @follow_cons (fun _ => store.driver) query _ calls page hpage n
    rw [hnext] at hpages
    dsimp only at hpages
    have hdecoded : AnsweredPage.next? ⟨presented.map CursorPayload.encode, calls 0, page⟩ =
        some next := by
      simp [AnsweredPage.next?, hnext, CursorPayload.decode_encode hcontinues.inRange]
    have hboundary : ∀ pages, chainBoundary presented
        (⟨presented.map CursorPayload.encode, calls 0, page⟩ :: pages) = some next.snapshot := by
      intro pages
      cases presented with
      | none => rw [chainBoundary, List.head?_cons, Option.bind_some, hdecoded, Option.map_some]
      | some payload => exact congrArg some (hcontinues.boundary payload.snapshot rfl).symm
    refine ⟨n + 1, account :: accounts, ?_⟩
    rw [hpages]
    dsimp only
    rw [hboundary]
    exact ChainLaw.cons hof hdecoded hcontinues.advances hcontinues.rest hchain

/-- **The chain behind a cursor.**  It ends, and accounts for the window from the cursor on. -/
theorem chain_from (k : Nat) (payload : CursorPayload) (hrange : payload.InRange)
    (hown : payload.fingerprint = fingerprint query.canonicalBytes)
    (hshort : (Walk.aheadOf (store.residency.yields query.kind) (some payload.anchor)).length ≤ k)
    (calls : Nat → PageCall) (hpositive : ∀ i, (calls i).budget.Positive)
    (hlive : ∀ i n, (calls i).clock n - (calls i).clock 0 < (calls i).budget.deadline) :
    ∃ n accounts, ChainLaw query (store.residency.yields query.kind) (some payload.anchor)
      (some payload.snapshot)
      (follow (fun _ => store.driver) query (some payload.encode) ((List.range n).map calls))
      accounts := by
  -- the induction is on the records still ahead: every cursor leaves fewer of them
  induction k using Nat.strongRecOn generalizing payload calls with
  | _ k ih =>
    refine chain_step store query hwords (some payload)
      (fun _ h => Option.some.inj h ▸ ⟨hrange, hown⟩) calls hpositive hlive ?_
    intro next hnext hnextOwn hshorter
    exact ih _ (hshorter.trans_le hshort) next hnext hnextOwn (Nat.le_refl _)
      (fun i => calls (i + 1)) (fun i => hpositive (i + 1)) (fun i => hlive (i + 1))

/-- **Paging.**  Over a fixed store whose keys are 64-bit words, for every records query and every
sequence of positive budgets with deadlines that never expire, the chain ends after finitely many
pages, which share the matching records up to its boundary out among them. -/
theorem paging_exact (calls : Nat → PageCall) (hpositive : ∀ i, (calls i).budget.Positive)
    (hlive : ∀ i n, (calls i).clock n - (calls i).clock 0 < (calls i).budget.deadline) :
    ∃ n accounts, PagedOut query (store.residency.yields query.kind)
      (follow (fun _ => store.driver) query none ((List.range n).map calls)) accounts := by
  obtain ⟨n, accounts, hlaw⟩ := chain_step store query hwords none (fun _ h => absurd h (by simp))
    calls hpositive hlive fun payload hrange hown _ =>
      chain_from store query hwords _ payload hrange hown (Nat.le_refl _) (fun i => calls (i + 1))
        (fun i => hpositive (i + 1)) (fun i => hlive (i + 1))
  refine ⟨n, accounts, hlaw.ended, hlaw.advances, hlaw.each, hlaw.whole, ?_,
    (length_accounts hlaw.each).trans (congrArg List.length hlaw.whole)⟩
  rw [hlaw.whole]
  exact (((store.residency.keyed_yields query.kind).filter _).filter _).filter _

end Chain

/-- Three logs, paged through one at a time. -/
theorem paging_exact_keptLogs : ∃ n accounts,
    PagedOut (.new .logRecords) ((keptLogs 3).residency.yields .logRecords)
      (follow (fun _ => (keptLogs 3).driver) (.new .logRecords) none
        ((List.range n).map fun _ => .single 0)) accounts :=
  paging_exact (keptLogs 3) (.new .logRecords) (by decide +kernel) (fun _ => .single 0)
    (fun _ => ⟨by decide, by decide, by decide⟩) (fun _ _ => Nat.zero_lt_one)

end RuntimeTrail
