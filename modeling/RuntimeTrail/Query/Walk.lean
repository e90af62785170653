import RuntimeTrail.Library.Keyed
import RuntimeTrail.Query.Engine

/-!
# What a walk accounts for

A walk that is still going has examined a sequence of records, and its fields
are the account of that sequence: the matching ones it delivered, then, behind a
byte wall, the matching ones it counted as omitted.

* **one examination** — `Walk.Accounts.examine`: before the deadline it extends
  the account by one record, or stops the walk with a verdict `Walk.Verdict`
  lists;
* **one page** — `Walk.run_feeds`: over a fixed store the batches are one
  sequence, the records ahead of the resume point in residency order, and the
  frontier is the tail of the last batch pulled.
-/

namespace RuntimeTrail

open Library

/-- Whether none of the records left is within the snapshot bound. -/
def WalkInput.drained (input : WalkInput) : List Yield → Bool
  | [] => true
  | yielded :: _ => input.pastBound yielded.key

namespace Walk

/-- The records a filter set lets through. -/
def matching (input : WalkInput) (records : List Yield) : List Yield :=
  records.filter fun y => input.filters.matchesView y.record

/-- The evidence bytes of a list of records. -/
def evidenceSum (records : List Yield) : Nat := (records.map fun y => evidenceOf y.record).sum

/-- The uncounted tails a coverage names are those listed. -/
def Tails (coverage listed : List CoverageEntry) : Prop :=
  ∀ after dimension, CoverageEntry.uncountedTail after dimension ∈ coverage ↔
    CoverageEntry.uncountedTail after dimension ∈ listed

/-- The account a walk still going keeps of the records it has examined. -/
structure Accounts (input : WalkInput) (session : BudgetSession) (w : Walk)
    (examined delivered counted : List Yield) : Prop where
  going : w.stopped = none
  uncut : Tails w.coverage []
  within : ∀ y ∈ examined, input.pastBound y.key = false
  budget : w.session.budget = session.budget
  admittedAt : w.session.admittedAt = session.admittedAt
  scan : w.scanLeft + examined.length = session.ledger.scan.remaining
  matched : matching input examined = delivered ++ counted
  items : w.items = delivered.map Yield.record
  lastExamined : w.lastExamined = examined.getLast?.map Yield.key
  lastIncluded : w.lastIncluded = delivered.getLast?.map Yield.key
  fits : delivered.length ≤ session.ledger.results.remaining ∧
    evidenceSum delivered ≤ session.ledger.bytes.remaining
  /-- While nothing is counted, the results and bytes spent are those of what was delivered. -/
  including : w.counting = none → counted = [] ∧
    w.session.ledger.results.remaining + delivered.length = session.ledger.results.remaining ∧
    w.session.ledger.bytes.remaining + evidenceSum delivered = session.ledger.bytes.remaining
  /-- Behind a byte wall, the count and its last key are those of what was counted, and the first
  of it did not fit. -/
  wall : ∀ counting, w.counting = some counting →
    counting.omitted = counted.length ∧ counted.getLast?.map Yield.key = some counting.last ∧
    delivered.length < session.ledger.results.remaining ∧
    ∃ first, counted.head? = some first ∧
      session.ledger.bytes.remaining < evidenceSum delivered + evidenceOf first.record

/-- Every reading of the clock is before the session's deadline. -/
def NeverExpires (input : WalkInput) (session : BudgetSession) : Prop :=
  ∀ n, session.Alive (input.clock n)

/-- What a walk answers, before the deadline, when it has examined some of the records ahead of it
and `rest` is left: its outcome, the cursors minted by `mint`, and the uncounted tail it names. -/
inductive Verdict (input : WalkInput) (session : BudgetSession) (mint : AdmissionKey → List UInt8)
    (examined delivered counted rest : List Yield) : PartOutcome → List CoverageEntry → Prop
  | complete (drained : input.drained rest = true) (uncounted : counted = []) :
      Verdict input session mint examined delivered counted rest .complete []
  | counted {last : Yield} (drained : input.drained rest = true)
      (counting : counted.getLast? = some last) :
      Verdict input session mint examined delivered counted rest
        (.degraded ⟨.bytes, .cursor (mint last.key), counted.length⟩) []
  | cut {last : Yield} (more : input.drained rest = false)
      (ceiling : examined.length = session.ledger.scan.remaining)
      (counting : counted.getLast? = some last) :
      Verdict input session mint examined delivered counted rest
        (.degraded ⟨.bytes, .cursor (mint last.key), counted.length⟩)
        [.uncountedTail last.key.entity .scan]
  | scan {last : Yield} (more : input.drained rest = false)
      (ceiling : examined.length = session.ledger.scan.remaining) (uncounted : counted = [])
      (spent : examined.getLast? = some last) :
      Verdict input session mint examined delivered counted rest
        (.degraded ⟨.scan, .cursor (mint last.key), 0⟩) []
  | results {last yielded : Yield} {behind : List Yield} (next : rest = yielded :: behind)
      (within : input.pastBound yielded.key = false)
      (matched : input.filters.matchesView yielded.record = true)
      (room : examined.length < session.ledger.scan.remaining)
      (ceiling : delivered.length = session.ledger.results.remaining) (uncounted : counted = [])
      (spent : delivered.getLast? = some last) :
      Verdict input session mint examined delivered counted rest
        (.degraded ⟨.results, .cursor (mint last.key), 0⟩) []

/-- How a walk that knows its outcome ends: what it delivered stays, and the verdict is its own. -/
def EndsWith (w w' : Walk) (verdict : PartOutcome → List CoverageEntry → Prop) : Prop :=
  ∃ outcome tails, w'.stopped = some outcome ∧ w'.items = w.items ∧ Tails w'.coverage tails ∧
    verdict outcome tails

section Examine

variable {input : WalkInput} {session : BudgetSession} {w : Walk}
  {examined delivered counted : List Yield} {yielded : Yield}

theorem matching_append (input : WalkInput) (front back : List Yield) :
    matching input (front ++ back) = matching input front ++ matching input back :=
  List.filter_append _ _

theorem matching_cons (input : WalkInput) {yielded : Yield}
    (h : input.filters.matchesView yielded.record = true) (rest : List Yield) :
    matching input (yielded :: rest) = yielded :: matching input rest :=
  List.filter_cons_of_pos h

theorem matching_concat (input : WalkInput) (examined : List Yield) (yielded : Yield) :
    matching input (examined ++ [yielded]) =
      if input.filters.matchesView yielded.record then matching input examined ++ [yielded]
      else matching input examined := by
  rw [matching, matching, List.filter_append, List.filter_cons]
  split
  · rfl
  · rw [List.filter_nil, List.append_nil]

theorem evidenceSum_concat (records : List Yield) (y : Yield) :
    evidenceSum (records ++ [y]) = evidenceSum records + evidenceOf y.record := by
  simp [evidenceSum]

theorem exists_getLast?_of_length_pos {records : List Yield} (h : 0 < records.length) :
    ∃ last, records.getLast? = some last :=
  ⟨records.getLast (List.ne_nil_of_length_pos h), List.getLast?_eq_some_getLast _⟩

/-- Settling the abandoned tail writes the session alone. -/
theorem finish_settle (w : Walk) (input : WalkInput) (units : Nat) :
    ((w.settle units).finishCountingOrComplete input).stopped =
        (w.finishCountingOrComplete input).stopped ∧
      ((w.settle units).finishCountingOrComplete input).items =
        (w.finishCountingOrComplete input).items ∧
      ((w.settle units).finishCountingOrComplete input).coverage =
        (w.finishCountingOrComplete input).coverage := by
  unfold finishCountingOrComplete
  rw [show (w.settle units).counting = w.counting from rfl]
  cases w.counting with
  | none => exact ⟨rfl, rfl, rfl⟩
  | some counting => exact ⟨rfl, rfl, rfl⟩

theorem stopIncluding_of_included {w₁ : Walk} {anchor key : AdmissionKey} {dimension : Dimension}
    {tail : Nat} (hincluded : w₁.lastIncluded = some anchor) (hfrontier : w₁.frontier = w.frontier) :
    (w₁.stopIncluding input dimension key tail).stopped =
      some (.degraded ⟨dimension, .cursor (w.cursorBytes input anchor), 0⟩) := by
  simp only [stopIncluding, includeAnchoredDegrade, settle, hincluded, cursorBytes, cursorPayload,
    hfrontier]

/-- The scan charge names a gap, if anything. -/
theorem tails_scanned {listed : List CoverageEntry} (h : Tails w.coverage listed)
    (session : BudgetSession) (key : AdmissionKey) :
    Tails (w.scanned session key).coverage listed := by
  intro after dimension
  rw [← h after dimension]
  unfold scanned
  cases hgap : w.pendingGap <;> simp [asked, hgap]

namespace Accounts

/-- The key the count ends at is the last counted record's. -/
theorem last_of_counting (h : w.Accounts input session examined delivered counted)
    {counting : Counting} (hcounting : w.counting = some counting) :
    ∃ last, counted.getLast? = some last ∧ counting = ⟨counted.length, last.key⟩ := by
  obtain ⟨homitted, hlast, -⟩ := h.wall counting hcounting
  obtain ⟨last, hget, hkey⟩ := Option.map_eq_some_iff.mp hlast
  exact ⟨last, hget, by cases counting; simp_all⟩

/-- The bound and the kind's end close an open count, or complete the part. -/
theorem finish (h : w.Accounts input session examined delivered counted) {rest : List Yield}
    (hdrained : input.drained rest = true) :
    w.EndsWith (w.finishCountingOrComplete input)
      (Verdict input session (w.cursorBytes input) examined delivered counted rest) := by
  unfold finishCountingOrComplete
  cases hcounting : w.counting with
  | none => exact ⟨_, _, rfl, rfl, h.uncut, .complete hdrained (h.including hcounting).1⟩
  | some counting =>
    obtain ⟨last, hlast, rfl⟩ := h.last_of_counting hcounting
    exact ⟨_, _, rfl, rfl, h.uncut, .counted hdrained hlast⟩

/-- A refused scan charge closes an open count at its last record, or stops at the last examined
one. -/
theorem stopBefore (h : w.Accounts input session examined delivered counted)
    (hexamined : 0 < examined.length) (after : BudgetSession) (units : Nat)
    {refusal : BudgetRefusal} (hrefusal : refusal.dimension = .scan) {rest : List Yield}
    (hmore : input.drained rest = false)
    (hceiling : examined.length = session.ledger.scan.remaining) :
    w.EndsWith (((w.asked after).settle units).stopBeforeExamining input refusal)
      (Verdict input session (w.cursorBytes input) examined delivered counted rest) := by
  obtain ⟨last, hlast⟩ := exists_getLast?_of_length_pos hexamined
  have hkey : w.lastExamined = some last.key := by rw [h.lastExamined, hlast]; rfl
  cases hcounting : w.counting with
  | none =>
    refine ⟨_, [], ?_, ?_, ?_, .scan hmore hceiling (h.including hcounting).1 hlast⟩
    · simp only [stopBeforeExamining, settle, asked, hcounting, hkey, hrefusal]
      rfl
    · simp only [stopBeforeExamining, settle, asked, hcounting, hkey]
    · simp only [stopBeforeExamining, settle, asked, hcounting, hkey]
      exact h.uncut
  | some counting =>
    obtain ⟨last, hlast, rfl⟩ := h.last_of_counting hcounting
    refine ⟨_, [.uncountedTail last.key.entity .scan], ?_, ?_, ?_, .cut hmore hceiling hlast⟩
    · simp only [stopBeforeExamining, settle, asked, hcounting]
      rfl
    · simp only [stopBeforeExamining, settle, asked, hcounting]
    · intro key dimension
      simp only [stopBeforeExamining, settle, asked, hcounting, hrefusal, List.mem_append,
        h.uncut key dimension]
      simp

/-- The scan charge, made against the account. -/
theorem scanCharge (h : w.Accounts input session examined delivered counted) {now : Instant}
    {granted : Nat} {after : BudgetSession}
    (hcharge : w.session.allowScan now 1 = (.exact granted, after)) :
    after.budget = session.budget ∧ after.admittedAt = session.admittedAt ∧
      after.ledger.scan.remaining + (examined.length + 1) = session.ledger.scan.remaining ∧
      after.ledger.results = w.session.ledger.results ∧
      after.ledger.bytes = w.session.ledger.bytes := by
  obtain ⟨hfit, rfl⟩ := BudgetSession.allowScan_exact hcharge
  refine ⟨h.budget, h.admittedAt, ?_, rfl, rfl⟩
  have hleft : w.session.ledger.scan.remaining + examined.length =
      session.ledger.scan.remaining := h.scan
  dsimp only
  omega

/-- What the examinations a walk goes on after have in common: the record is within the bound, it is
the last examined one, and the scan saw one charge. -/
theorem extend (h : w.Accounts input session examined delivered counted)
    (hwithin : input.pastBound yielded.key = false) {now : Instant} {granted : Nat}
    {after : BudgetSession} (hcharge : w.session.allowScan now 1 = (.exact granted, after))
    {w' : Walk} {delivered' counted' : List Yield}
    (hstopped : w'.stopped = (w.scanned after yielded.key).stopped)
    (hcoverage : w'.coverage = (w.scanned after yielded.key).coverage)
    (hexamined : w'.lastExamined = (w.scanned after yielded.key).lastExamined)
    (hbudget : w'.session.budget = after.budget)
    (hadmitted : w'.session.admittedAt = after.admittedAt)
    (hscan : w'.session.ledger.scan = after.ledger.scan)
    (hmatched : delivered ++ counted ++
        (if input.filters.matchesView yielded.record then [yielded] else []) =
      delivered' ++ counted')
    (hitems : w'.items = delivered'.map Yield.record)
    (hincluded : w'.lastIncluded = delivered'.getLast?.map Yield.key)
    (hfits : delivered'.length ≤ session.ledger.results.remaining ∧
      evidenceSum delivered' ≤ session.ledger.bytes.remaining)
    (hincluding : w'.counting = none → counted' = [] ∧
      w'.session.ledger.results.remaining + delivered'.length =
        session.ledger.results.remaining ∧
      w'.session.ledger.bytes.remaining + evidenceSum delivered' =
        session.ledger.bytes.remaining)
    (hwall : ∀ counting, w'.counting = some counting →
      counting.omitted = counted'.length ∧
      counted'.getLast?.map Yield.key = some counting.last ∧
      delivered'.length < session.ledger.results.remaining ∧
      ∃ first, counted'.head? = some first ∧
        session.ledger.bytes.remaining < evidenceSum delivered' + evidenceOf first.record) :
    w'.Accounts input session (examined ++ [yielded]) delivered' counted' := by
  obtain ⟨-, -, hlast, -, -, -, -, -, hgoing, -⟩ := w.scanned_frame after yielded.key
  obtain ⟨hbudgetAfter, hadmittedAfter, hleft, -, -⟩ := h.scanCharge hcharge
  exact
    { going := hstopped.trans (hgoing.trans h.going)
      uncut := by rw [hcoverage]; exact tails_scanned h.uncut _ _
      within := fun y hy => by
        rcases List.mem_append.mp hy with hy | hy
        · exact h.within y hy
        · rw [List.mem_singleton.mp hy]
          exact hwithin
      budget := hbudget.trans hbudgetAfter
      admittedAt := hadmitted.trans hadmittedAfter
      scan := by rw [scanLeft, hscan, List.length_append]; exact hleft
      matched := by
        rw [← hmatched, matching_concat, h.matched]
        split
        · rfl
        · rw [List.append_nil]
      items := hitems
      lastExamined := by rw [hexamined, hlast, List.getLast?_concat]; rfl
      lastIncluded := hincluded
      fits := hfits
      including := hincluding
      wall := hwall }

/-- A record the filters leave out. -/
theorem skip (h : w.Accounts input session examined delivered counted)
    (hwithin : input.pastBound yielded.key = false) {now : Instant} {granted : Nat}
    {after : BudgetSession} (hcharge : w.session.allowScan now 1 = (.exact granted, after))
    (hfiltered : input.filters.matchesView yielded.record = false) :
    (w.scanned after yielded.key).Accounts input session (examined ++ [yielded]) delivered
      counted := by
  obtain ⟨hsession, -, -, hitems, hcounting, hincluded, -⟩ := w.scanned_frame after yielded.key
  obtain ⟨-, -, -, hres, hbytes⟩ := h.scanCharge hcharge
  refine h.extend hwithin hcharge rfl rfl rfl (by rw [hsession]) (by rw [hsession])
    (by rw [hsession]) ?_ (hitems.trans h.items) (hincluded.trans h.lastIncluded) h.fits ?_ ?_
  · rw [if_neg (by simp [hfiltered]), List.append_nil]
  · intro hnone
    rw [hsession, hres, hbytes]
    exact h.including (hcounting ▸ hnone)
  · exact fun counting hsome => h.wall counting (hcounting ▸ hsome)

/-- Behind a byte wall, a matching record is counted. -/
theorem count (h : w.Accounts input session examined delivered counted)
    (hwithin : input.pastBound yielded.key = false) {now : Instant} {granted : Nat}
    {after : BudgetSession} (hcharge : w.session.allowScan now 1 = (.exact granted, after))
    (hmatching : input.filters.matchesView yielded.record = true) {counting : Counting}
    (hphase : w.counting = some counting) :
    Accounts input session { w.scanned after yielded.key with
      counting := some ⟨counting.omitted + 1, yielded.key⟩ } (examined ++ [yielded]) delivered
      (counted ++ [yielded]) := by
  obtain ⟨hsession, -, -, hitems, -, hincluded, -⟩ := w.scanned_frame after yielded.key
  obtain ⟨homitted, -, hroom, first, hfirst, hwall⟩ := h.wall counting hphase
  refine h.extend hwithin hcharge rfl rfl rfl (congrArg BudgetSession.budget hsession)
    (congrArg BudgetSession.admittedAt hsession) (congrArg (fun s => s.ledger.scan) hsession) ?_
    (hitems.trans h.items) (hincluded.trans h.lastIncluded) h.fits
    (fun hnone => absurd hnone (by simp)) ?_
  · rw [if_pos hmatching, List.append_assoc]
  · intro counting' hsome
    obtain rfl := Option.some.inj hsome
    refine ⟨by simp [homitted], by simp, hroom, first, ?_, hwall⟩
    rw [List.head?_append, hfirst]
    rfl

/-- The first matching record the bytes left do not hold raises the wall. -/
theorem raiseWall (h : w.Accounts input session examined delivered counted)
    (hwithin : input.pastBound yielded.key = false) {now now' : Instant} {granted granted' : Nat}
    {after after' : BudgetSession} (hcharge : w.session.allowScan now 1 = (.exact granted, after))
    (hmatching : input.filters.matchesView yielded.record = true) (hphase : w.counting = none)
    (hresults : after.allowResults now' 1 = (.exact granted', after'))
    (hunfit : after'.ledger.remainingBytes < evidenceOf yielded.record) :
    Accounts input session { (w.scanned after yielded.key).asked after' with
      counting := some ⟨1, yielded.key⟩ } (examined ++ [yielded]) delivered [yielded] := by
  obtain ⟨-, -, -, hitems, -, hincluded, -⟩ := w.scanned_frame after yielded.key
  obtain ⟨-, -, -, hres, hbytes⟩ := h.scanCharge hcharge
  obtain ⟨huncounted, hdelivered, hevidence⟩ := h.including hphase
  obtain ⟨hfit, rfl⟩ := BudgetSession.allowResults_exact hresults
  have hwall : w.session.ledger.bytes.remaining < evidenceOf yielded.record := by
    rw [← hbytes]
    exact hunfit
  refine h.extend hwithin hcharge rfl rfl rfl rfl rfl rfl ?_ (hitems.trans h.items)
    (hincluded.trans h.lastIncluded) h.fits (fun hnone => absurd hnone (by simp)) ?_
  · rw [if_pos hmatching, huncounted, List.append_nil]
  · intro counting hsome
    obtain rfl := Option.some.inj hsome
    refine ⟨rfl, rfl, ?_, yielded, rfl, by omega⟩
    rw [hres] at hfit
    omega

/-- A matching record all three ceilings hold is delivered. -/
theorem deliver (h : w.Accounts input session examined delivered counted)
    (hwithin : input.pastBound yielded.key = false) {now now' now'' : Instant}
    {granted granted' granted'' : Nat} {after after' after'' : BudgetSession}
    (hcharge : w.session.allowScan now 1 = (.exact granted, after))
    (hmatching : input.filters.matchesView yielded.record = true) (hphase : w.counting = none)
    (hresults : after.allowResults now' 1 = (.exact granted', after'))
    (hevidenced : after'.allowBytes now'' (evidenceOf yielded.record) =
      (.exact granted'', after'')) :
    Accounts input session { ((w.scanned after yielded.key).asked after').asked after'' with
      items := w.items ++ [yielded.record]
      lastIncluded := some yielded.key } (examined ++ [yielded]) (delivered ++ [yielded]) [] := by
  obtain ⟨-, -, -, -, hcounting, -⟩ := w.scanned_frame after yielded.key
  obtain ⟨-, -, -, hres, hbytes⟩ := h.scanCharge hcharge
  obtain ⟨huncounted, hdelivered, hevidence⟩ := h.including hphase
  obtain ⟨hfit, rfl⟩ := BudgetSession.allowResults_exact hresults
  obtain ⟨hfits, rfl⟩ := BudgetSession.allowBytes_exact hevidenced
  rw [hres] at hfit
  rw [hbytes] at hfits
  refine h.extend hwithin hcharge rfl rfl rfl rfl rfl rfl ?_ ?_ ?_ ?_ ?_ ?_
  · rw [if_pos hmatching, huncounted, List.append_nil, List.append_nil]
  · rw [h.items, List.map_append]
    rfl
  · rw [List.getLast?_concat]
    rfl
  · rw [List.length_append, List.length_singleton, evidenceSum_concat]
    exact ⟨by omega, by omega⟩
  · intro _
    refine ⟨rfl, ?_, ?_⟩
    · change _ - 1 + _ = _
      rw [hres, List.length_append, List.length_singleton]
      omega
    · change _ - _ + _ = _
      dsimp only
      rw [hbytes, evidenceSum_concat]
      omega
  · intro counting hsome
    change (w.scanned _ yielded.key).counting = some counting at hsome
    rw [hcounting, hphase] at hsome
    exact absurd hsome (by simp)

/-- A spent results ceiling stops a walk that counts nothing, at the last record it delivered. -/
theorem stopResults (h : w.Accounts input session examined delivered counted)
    (hresults : 0 < session.ledger.results.remaining)
    (hwithin : input.pastBound yielded.key = false) {now : Instant} {granted : Nat}
    {after : BudgetSession} (hcharge : w.session.allowScan now 1 = (.exact granted, after))
    (hmatching : input.filters.matchesView yielded.record = true) (hphase : w.counting = none)
    (hspent : after.ledger.remainingResults = 0) (behind : List Yield) (tail : Nat) :
    w.EndsWith ((w.scanned after yielded.key).stopIncluding input .results yielded.key tail)
      (Verdict input session (w.cursorBytes input) examined delivered counted
        (yielded :: behind)) := by
  obtain ⟨-, -, -, hitems, -, hincluded, hfrontier, -, -, -⟩ := w.scanned_frame after yielded.key
  obtain ⟨-, -, hleft, hres, -⟩ := h.scanCharge hcharge
  obtain ⟨huncounted, hdelivered, -⟩ := h.including hphase
  have hzero : w.session.ledger.results.remaining = 0 := by
    rw [← hres]
    exact hspent
  have hceiling : delivered.length = session.ledger.results.remaining := by omega
  obtain ⟨last, hlast⟩ := exists_getLast?_of_length_pos (show 0 < delivered.length by omega)
  have hkey : (w.scanned after yielded.key).lastIncluded = some last.key := by
    rw [hincluded, h.lastIncluded, hlast]
    rfl
  refine ⟨_, [], stopIncluding_of_included hkey hfrontier, hitems, tails_scanned h.uncut _ _,
    .results rfl hwithin hmatching ?_ hceiling huncounted hlast⟩
  omega

/-- **One examination, before the deadline.**  It extends the account by the record, or stops
the walk with a verdict on what is left, whatever lies behind the record. -/
theorem examine (h : w.Accounts input session examined delivered counted)
    (hlive : NeverExpires input session) (hscan : 0 < session.ledger.scan.remaining)
    (hresults : 0 < session.ledger.results.remaining) (yielded : Yield) (behind : List Yield)
    (tail : Nat) :
    (∃ delivered' counted', (w.examine input yielded tail).Accounts input session
        (examined ++ [yielded]) delivered' counted') ∨
      w.EndsWith (w.examine input yielded tail) (Verdict input session (w.cursorBytes input)
        examined delivered counted (yielded :: behind)) := by
  have alive : ∀ {s : BudgetSession}, s.budget = session.budget →
      s.admittedAt = session.admittedAt → ∀ n, s.Alive (input.clock n) := fun hb ha n => by
    rw [BudgetSession.Alive, hb, ha]
    exact hlive n
  have hall := w.examination input yielded tail
  generalize w.examine input yielded tail = w' at hall ⊢
  cases hall with
  | pastBound past =>
    obtain ⟨hstopped, hitems, hcoverage⟩ := w.finish_settle input (tail + 1)
    rw [EndsWith, hstopped, hitems, hcoverage]
    exact Or.inr (h.finish (show input.drained (yielded :: behind) = true from past))
  | unscanned hwithin scan =>
    obtain ⟨hspent, hrefusal⟩ :=
      BudgetSession.allowScan_short (alive h.budget h.admittedAt _) scan
    have hceiling : examined.length = session.ledger.scan.remaining := by
      have : w.session.ledger.scan.remaining + examined.length =
        session.ledger.scan.remaining := h.scan
      omega
    exact Or.inr (h.stopBefore (by omega) _ (tail + 1) hrefusal hwithin hceiling)
  | skipped hwithin scan filtered =>
    exact Or.inl ⟨delivered, counted, h.skip hwithin scan filtered⟩
  | counted hwithin scan matching phase =>
    exact Or.inl ⟨delivered, _, h.count hwithin scan matching phase⟩
  | resultsSpent hwithin scan matching phase spent =>
    exact Or.inr (h.stopResults hresults hwithin scan matching phase spent behind tail)
  | resultsRefused hwithin scan matching phase unspent results =>
    -- the ceiling holds one more, and the deadline is not over
    obtain ⟨hbudget, hadmitted, -⟩ := h.scanCharge scan
    exact absurd results (BudgetSession.allowResults_ne_short (alive hbudget hadmitted _)
      (Nat.pos_of_ne_zero unspent))
  | unfit hwithin scan matching phase unspent results wall =>
    exact Or.inl ⟨delivered, _, h.raiseWall hwithin scan matching phase results wall⟩
  | bytesRefused hwithin scan matching phase unspent results fits bytes =>
    obtain ⟨hbudget, hadmitted, -⟩ := h.scanCharge scan
    obtain ⟨-, rfl⟩ := BudgetSession.allowResults_exact results
    exact absurd bytes (BudgetSession.allowBytes_ne_short (alive hbudget hadmitted _) fits)
  | included hwithin scan matching phase unspent results fits bytes =>
    exact Or.inl ⟨_, [], h.deliver hwithin scan matching phase results bytes⟩

end Accounts

end Examine

/-! ## One batch -/

theorem finishCountingOrComplete_frame (w : Walk) (input : WalkInput) :
    (w.finishCountingOrComplete input).frontier = w.frontier ∧
      (w.finishCountingOrComplete input).after = w.after ∧
      (w.finishCountingOrComplete input).calls = w.calls := by
  unfold finishCountingOrComplete
  cases w.counting <;> exact ⟨rfl, rfl, rfl⟩

theorem stopBeforeExamining_frame (w : Walk) (input : WalkInput) (refusal : BudgetRefusal) :
    (w.stopBeforeExamining input refusal).frontier = w.frontier ∧
      (w.stopBeforeExamining input refusal).after = w.after ∧
      (w.stopBeforeExamining input refusal).calls = w.calls := by
  unfold stopBeforeExamining
  cases w.counting with
  | some counting => exact ⟨rfl, rfl, rfl⟩
  | none => cases w.lastExamined <;> exact ⟨rfl, rfl, rfl⟩

/-- An examination leaves the frontier, the resume point and the call count alone. -/
theorem examine_frame (w : Walk) (input : WalkInput) (yielded : Yield) (tail : Nat) :
    (w.examine input yielded tail).frontier = w.frontier ∧
      (w.examine input yielded tail).after = w.after ∧
      (w.examine input yielded tail).calls = w.calls := by
  have hscanned : ∀ session, (w.scanned session yielded.key).frontier = w.frontier ∧
      (w.scanned session yielded.key).after = w.after ∧
      (w.scanned session yielded.key).calls = w.calls := fun session =>
    ⟨(w.scanned_frame session yielded.key).2.2.2.2.2.2.1,
      (w.scanned_frame session yielded.key).2.2.2.2.2.2.2.1,
      (w.scanned_frame session yielded.key).2.2.2.2.2.2.2.2.2⟩
  have hall := w.examination input yielded tail
  generalize w.examine input yielded tail = w' at hall ⊢
  cases hall with
  | pastBound past => exact finishCountingOrComplete_frame _ _
  | unscanned within scan => exact stopBeforeExamining_frame _ _ _
  | skipped within scan filtered => exact hscanned _
  | counted within scan matching phase => exact hscanned _
  | resultsSpent within scan matching phase spent => exact hscanned _
  | resultsRefused within scan matching phase unspent results => exact hscanned _
  | unfit within scan matching phase unspent results wall => exact hscanned _
  | bytesRefused within scan matching phase unspent results fits bytes => exact hscanned _
  | included within scan matching phase unspent results fits bytes => exact hscanned _

/-- An examination the walk goes on after extends what holds of the records examined. -/
def Keeps (input : WalkInput) (I : Walk → List Yield → Prop) : Prop :=
  ∀ {w : Walk} {examined : List Yield} (yielded : Yield) (tail : Nat), I w examined →
    (w.examine input yielded tail).stopped = none →
      I (w.examine input yielded tail) (examined ++ [yielded])

/-- A batch is examined to its end, or up to the record the walk stops at. -/
theorem examineBatch_cases {input : WalkInput} {I : Walk → List Yield → Prop}
    (keeps : Keeps input I) (batch : List Yield) {w : Walk} {examined : List Yield}
    (hgoing : w.stopped = none) (h : I w examined) :
    ((examineBatch input w batch).stopped = none ∧
        I (examineBatch input w batch) (examined ++ batch) ∧
        (examineBatch input w batch).frontier = w.frontier ∧
        (examineBatch input w batch).calls = w.calls) ∨
      ∃ front yielded back w₁, batch = front ++ yielded :: back ∧ I w₁ (examined ++ front) ∧
        w₁.frontier = w.frontier ∧
        examineBatch input w batch = w₁.examine input yielded back.length ∧
        (w₁.examine input yielded back.length).stopped.isSome := by
  induction batch generalizing w examined with
  | nil => exact Or.inl ⟨hgoing, by rw [List.append_nil]; exact h, rfl, rfl⟩
  | cons yielded rest ih =>
    obtain ⟨hfrontier, -, hcalls⟩ := w.examine_frame input yielded rest.length
    rw [examineBatch]
    cases hstopped : (w.examine input yielded rest.length).stopped with
    | some outcome =>
      rw [if_pos (by rfl)]
      exact Or.inr ⟨[], yielded, rest, w, rfl, by simpa using h, rfl, rfl, by rw [hstopped]; rfl⟩
    | none =>
      rw [if_neg (by simp)]
      rcases ih hstopped (keeps yielded rest.length h hstopped) with
        ⟨hend, hI, hf, hc⟩ | ⟨front, y, back, w₁, rfl, hI, hf, heq, hstop⟩
      · exact Or.inl ⟨hend, by simpa using hI, hf.trans hfrontier, hc.trans hcalls⟩
      · exact Or.inr ⟨yielded :: front, y, back, w₁, rfl, by simpa using hI, hf.trans hfrontier,
          heq, hstop⟩

/-! ## One page over a fixed store -/

/-- The records still ahead of a resume point. -/
def aheadOf (yields : List Yield) (after : Option AdmissionKey) : List Yield :=
  yields.filter fun y => y.key.follows after

/-- Every scan of the walk pages over one sequence of records. -/
def FixedOver (input : WalkInput) (yields : List Yield) : Prop :=
  ∀ n after limit, (input.stores n).pull input.kind after limit =
    ((aheadOf yields after).take limit,
      if limit < (aheadOf yields after).length then
        ((aheadOf yields after).take limit).getLast?.map Yield.key
      else none)

/-- Resuming past the last record of a batch leaves what the batch left. -/
theorem aheadOf_batch {yields : List Yield} (hkeyed : Keyed Yield.key yields)
    {after : Option AdmissionKey} {n : Nat} {last : Yield}
    (hlast : ((aheadOf yields after).take n).getLast? = some last) :
    aheadOf yields (some last.key) = (aheadOf yields after).drop n := by
  obtain ⟨front, hfront⟩ := List.getLast?_eq_some_iff.mp hlast
  have hsplit : aheadOf yields after = front ++ last :: (aheadOf yields after).drop n := by
    conv_lhs => rw [← List.take_append_drop n (aheadOf yields after), hfront]
    simp
  exact hkeyed.filter_past_of_filter_eq AdmissionKey.follows_of_lt hsplit

/-- The tail of the last batch pulled, once `examined` records of `whole` were examined. -/
def frontierAt (whole : List Yield) (examined : Nat) : Option AdmissionKey :=
  (whole.take (scanBatch * (examined / scanBatch + 1))).getLast?.map Yield.key

/-- The records of a whole that a walk examined before it ended: all of them, or up to the one it
stopped at. -/
inductive Ends (input : WalkInput) (I : Walk → List Yield → Prop) (whole : List Yield) :
    Walk → Prop
  | exhausted {w : Walk} (holds : I w whole) (tail : w.frontier = frontierAt whole whole.length) :
      Ends input I whole (w.finishCountingOrComplete input)
  | stopped {w : Walk} {examined rest : List Yield} {yielded : Yield} {behind : Nat}
      (split : whole = examined ++ yielded :: rest) (holds : I w examined)
      (tail : w.frontier = frontierAt whole examined.length)
      (stops : (w.examine input yielded behind).stopped.isSome) :
      Ends input I whole (w.examine input yielded behind)

/-- Where the page loop stands between two turns: whole batches examined, the rest ahead. -/
structure Between (yields : List Yield) (I : Walk → List Yield → Prop) (whole : List Yield)
    (w : Walk) (examined : List Yield) : Prop where
  going : w.stopped = none
  holds : I w examined
  split : whole = examined ++ aheadOf yields w.after
  batches : examined.length % scanBatch = 0
  /-- A turn is taken only while something is ahead, or as the first one. -/
  more : aheadOf yields w.after = [] → examined = []

section Turns

variable {input : WalkInput} {yields : List Yield} {I : Walk → List Yield → Prop}
  {whole examined : List Yield} {w : Walk}

theorem frontierAt_of_le {n : Nat} (h : whole.length ≤ scanBatch * (n / scanBatch + 1)) :
    frontierAt whole n = whole.getLast?.map Yield.key := by
  rw [frontierAt, List.take_of_length_le h]

/-- Within the batch being examined, the frontier is that batch's last record. -/
theorem Between.frontierAt_eq (h : Between yields I whole w examined) {n : Nat}
    (hn : n < scanBatch) (hahead : aheadOf yields w.after ≠ []) :
    frontierAt whole (examined.length + n) =
      ((aheadOf yields w.after).take scanBatch).getLast?.map Yield.key := by
  have hbatches := h.batches
  have hturn : scanBatch * ((examined.length + n) / scanBatch + 1) =
      examined.length + scanBatch := by
    rw [scanBatch] at hbatches hn ⊢
    omega
  rw [frontierAt, hturn, h.split, List.take_append, List.take_of_length_le (by omega),
    Nat.add_sub_cancel_left, List.getLast?_append]
  have hne : (aheadOf yields w.after).take scanBatch ≠ [] := by
    rw [Ne, List.take_eq_nil_iff]
    rintro (hzero | hnil)
    · exact absurd hzero (by decide)
    · exact hahead hnil
  rw [List.getLast?_eq_some_getLast hne]
  rfl

/-- A full batch with more behind it: the walk stands behind the batch. -/
theorem Between.nextBatch (h : Between yields I whole w examined) (hkeyed : Keyed Yield.key yields)
    {last : Yield} (hlast : ((aheadOf yields w.after).take scanBatch).getLast? = some last)
    (hmore : scanBatch < (aheadOf yields w.after).length) {w' : Walk} (hgoing : w'.stopped = none)
    (hafter : w'.after = some last.key)
    (hholds : I w' (examined ++ (aheadOf yields w.after).take scanBatch)) :
    Between yields I whole w' (examined ++ (aheadOf yields w.after).take scanBatch) := by
  have hrest : aheadOf yields w'.after = (aheadOf yields w.after).drop scanBatch := by
    rw [hafter, aheadOf_batch hkeyed hlast]
  have hlen : ((aheadOf yields w.after).take scanBatch).length = scanBatch :=
    List.length_take_of_le hmore.le
  exact
    { going := hgoing
      holds := hholds
      split := by
        rw [hrest, List.append_assoc, List.take_append_drop]
        exact h.split
      batches := by
        rw [List.length_append, hlen, Nat.add_mod_right]
        exact h.batches
      more := fun hnil => by
        rw [hrest, List.drop_eq_nil_iff] at hnil
        omega }

/-- A batch with nothing behind it: the whole was examined, and the frontier is its last record. -/
theorem Between.lastBatch (h : Between yields I whole w examined) {last : Yield}
    (hlast : ((aheadOf yields w.after).take scanBatch).getLast? = some last)
    (hmore : ¬ scanBatch < (aheadOf yields w.after).length) {w' : Walk}
    (hfrontier : w'.frontier = some last.key)
    (hholds : I w' (examined ++ (aheadOf yields w.after).take scanBatch)) :
    Ends input I whole (w'.finishCountingOrComplete input) := by
  have hall : (aheadOf yields w.after).take scanBatch = aheadOf yields w.after :=
    List.take_of_length_le (not_lt.mp hmore)
  rw [hall, ← h.split] at hholds
  have hwhole : whole.getLast? = some last := by
    rw [h.split, List.getLast?_append, ← hall, hlast]
    rfl
  refine .exhausted hholds ?_
  rw [hfrontier, frontierAt_of_le (by rw [scanBatch]; omega), hwhole]
  rfl

/-- A batch whose examination stopped the walk at one of its records. -/
theorem Between.stopsWithin (h : Between yields I whole w examined) {last : Yield}
    (hlast : ((aheadOf yields w.after).take scanBatch).getLast? = some last)
    {front back : List Yield} {yielded : Yield}
    (hcut : (aheadOf yields w.after).take scanBatch = front ++ yielded :: back) {w' : Walk}
    (hfrontier : w'.frontier = some last.key) (hholds : I w' (examined ++ front))
    (hstops : (w'.examine input yielded back.length).stopped.isSome) :
    Ends input I whole (w'.examine input yielded back.length) := by
  have hahead : aheadOf yields w.after ≠ [] := by
    intro hnil
    rw [hnil] at hlast
    exact absurd hlast (by simp)
  have hlt : front.length < scanBatch := by
    have hlen := congrArg List.length hcut
    rw [List.length_take, List.length_append, List.length_cons] at hlen
    omega
  refine @Ends.stopped _ _ _ _ (examined ++ front) (back ++ (aheadOf yields w.after).drop scanBatch)
    _ _ ?_ hholds ?_ hstops
  · have hwhole := h.split
    rw [← List.take_append_drop scanBatch (aheadOf yields w.after), hcut] at hwhole
    simpa using hwhole
  · rw [hfrontier, List.length_append, h.frontierAt_eq hlt hahead, hlast]
    rfl

/-- One turn ends the walk, or examines one whole batch more. -/
theorem Between.turn (h : Between yields I whole w examined) (hfixed : FixedOver input yields)
    (hkeyed : Keyed Yield.key yields) (keeps : Keeps input I)
    (frame : ∀ {w : Walk} {examined : List Yield} (frontier after : Option AdmissionKey)
      (calls : Nat), I w examined →
        I { w with frontier := frontier, after := after, calls := calls } examined) :
    Ends input I whole (w.turn input 0).1 ∧ (w.turn input 0).1.stopped.isSome ∨
      (w.turn input 0).2 = 0 ∧ ∃ examined', Between yields I whole (w.turn input 0).1 examined' := by
  unfold Walk.turn
  rw [hfixed]
  dsimp only
  by_cases hahead : aheadOf yields w.after = []
  · -- nothing is resident ahead of the resume point
    obtain rfl := h.more hahead
    have hwhole : whole = [] := by rw [h.split, hahead]; rfl
    rw [hahead, hwhole]
    refine Or.inl ⟨.exhausted (frame _ w.after _ h.holds) rfl, ?_⟩
    exact finishCountingOrComplete_stopped _ _
  · obtain ⟨last, hlast⟩ : ∃ last, ((aheadOf yields w.after).take scanBatch).getLast? = some last := by
      refine exists_getLast?_of_length_pos ?_
      rw [List.length_take]
      have := List.length_pos_of_ne_nil hahead
      exact lt_min (by decide) this
    have hfrontier : (if scanBatch < (aheadOf yields w.after).length then
        ((aheadOf yields w.after).take scanBatch).getLast?.map Yield.key else none).or
          (((aheadOf yields w.after).take scanBatch).getLast?.map Yield.key) = some last.key := by
      rw [hlast]
      split <;> rfl
    have hbatch : ((aheadOf yields w.after).take scanBatch).isEmpty = false := by
      rw [List.isEmpty_eq_false_iff]
      rintro hnil
      rw [hnil] at hlast
      exact absurd hlast (by simp)
    rw [if_neg (by simp [hbatch]), hfrontier]
    have hstart := frame (some last.key) w.after (w.calls + 1) h.holds
    rcases examineBatch_cases keeps ((aheadOf yields w.after).take scanBatch)
        (w := { w with frontier := some last.key, calls := w.calls + 1 }) h.going hstart with
      ⟨hend, hI, hf, -⟩ | ⟨front, yielded, back, w₁, hcut, hI, hf, heq, hstop⟩
    · rw [if_neg (by rw [hend]; simp)]
      by_cases hmore : scanBatch < (aheadOf yields w.after).length
      · rw [if_pos hmore, hlast]
        exact Or.inr ⟨rfl, _, h.nextBatch hkeyed hlast hmore hend rfl (frame _ (some last.key) _ hI)⟩
      · rw [if_neg hmore]
        exact Or.inl ⟨h.lastBatch hlast hmore hf hI, finishCountingOrComplete_stopped _ _⟩
    · rw [heq, if_pos hstop]
      exact Or.inl ⟨h.stopsWithin hlast hcut hf hI hstop, hstop⟩

end Turns

/-- **One page over a fixed store.**  The batches feed the walk the records ahead of its resume
point, one after another in residency order, until it stops or none is left. -/
theorem run_feeds {input : WalkInput} {yields : List Yield} (hfixed : FixedOver input yields)
    (hkeyed : Keyed Yield.key yields) {I : Walk → List Yield → Prop} (keeps : Keeps input I)
    (frame : ∀ {w : Walk} {examined : List Yield} (frontier after : Option AdmissionKey)
      (calls : Nat), I w examined →
        I { w with frontier := frontier, after := after, calls := calls } examined)
    {w : Walk} (hgoing : w.stopped = none) (h : I w []) :
    Ends input I (aheadOf yields w.after) ((pages input).run (w, 0)).1 := by
  generalize hwhole : aheadOf yields w.after = whole
  have hbetween : Between yields I whole w [] :=
    ⟨hgoing, h, hwhole.symm, rfl, fun _ => rfl⟩
  refine (pages input).run_induct
    (P := fun s r => (s.2 = 0 ∧ ∃ examined, Between yields I whole s.1 examined) ∨
      Ends input I whole s.1 ∧ s.1.stopped.isSome → Ends input I whole r.1) ?_ ?_ (w, 0)
      (Or.inl ⟨rfl, [], hbetween⟩)
  · rintro ⟨w, emptyPages⟩ hnone hs
    rcases hs with ⟨-, examined, hbetween⟩ | ⟨hends, -⟩
    · change (if w.stopped.isSome then none else some (w.turn input emptyPages)) = none at hnone
      rw [if_neg (by rw [hbetween.going]; simp)] at hnone
      exact absurd hnone (by simp)
    · exact hends
  · rintro ⟨w, emptyPages⟩ t hstep ih hs
    change (if w.stopped.isSome then none else some (w.turn input emptyPages)) = some t at hstep
    rcases hs with ⟨hzero, examined, hbetween⟩ | ⟨-, hstopped⟩
    · obtain rfl : emptyPages = 0 := hzero
      rw [if_neg (by rw [hbetween.going]; simp)] at hstep
      obtain rfl := Option.some.inj hstep
      exact ih ((hbetween.turn hfixed hkeyed keeps frame).symm)
    · rw [if_pos hstopped] at hstep
      exact absurd hstep (by simp)

end Walk

end RuntimeTrail
