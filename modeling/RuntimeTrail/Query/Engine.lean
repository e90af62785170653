import RuntimeTrail.Library.Loop
import RuntimeTrail.Query.Budget
import RuntimeTrail.Query.Cursor
import RuntimeTrail.Query.Filters

/-!
# The records engine

One page of a records query: the walk pulls batches from the driver, examines
each yielded record in turn, and stops at the kind's end, at the snapshot bound,
or where a budget dimension expires.  What it stopped on is the page's outcome,
and where it stopped is the cursor the next page continues from.

A walk reads the store once for each batch it pulls and the clock once for each
charge it makes.  Both are sequences here, indexed by how many reads went before,
so that a store that changes between two scans and a clock that advances between
two charges are the general case; a fixed store is a constant sequence.

* **one record** — `Walk.examine`, and `Walk.examination` which lists everything
  an examination can do;
* **the loop ends** — `Walk.pages`, for any driver: a turn that goes on has spent
  a scan unit or one of the empty batches it tolerates;
* **the page** — `Walk.assemble`, `records`, `recordsLeased`.
-/

namespace RuntimeTrail

open Library

/-! ## The answer vocabulary -/

/-- Where a part stopped. -/
inductive TruncationPoint where
  | cursor (bytes : List UInt8)
  | lastExamined (entity : EntityId)
deriving DecidableEq

/-- A degraded part's truncation; zero `omitted` means uncounted. -/
structure Truncation where
  dimension : Dimension
  position : TruncationPoint
  omitted : Nat
deriving DecidableEq

/-- The fate of one part of an answer. -/
inductive PartOutcome where
  | complete
  | degraded (truncation : Truncation)
  | refused (refusal : BudgetRefusal)
  | stalled
deriving DecidableEq

/-- One named fact about what an answer did not cover. -/
inductive CoverageEntry where
  | evictionGap (after before : EntityId)
  | snapshotBoundary (admission : AdmissionKey)
  | uncountedTail (after : EntityId) (dimension : Dimension)
  | driverStall (after : EntityId)
deriving DecidableEq

/-- The run-fact block: one outcome per part, and the coverage over the whole answer. -/
structure PageExecution where
  parts : List PartOutcome
  coverage : List CoverageEntry
deriving DecidableEq

/-- One page of a query's answer. -/
structure Page (T : Type) where
  items : List T
  nextCursor : Option (List UInt8)
  execution : PageExecution

/-- Why a records query failed outright. -/
inductive QueryError where
  | cursor (error : CursorError)
deriving DecidableEq

/-! ## The walk -/

/-- Records pulled per driver scan. -/
def scanBatch : Nat := 64

/-- Consecutive empty driver pages with a successor cursor that end the walk. -/
def emptyPageStallLimit : Nat := 3

/-- The clock as its readings, in the order they are taken. -/
abbrev Clock := Nat → Instant

/-- One record the driver yielded: its residency key and the record view. -/
structure Yield where
  key : AdmissionKey
  record : RecordView

/-- One record view's evidence bytes; a point's stream is not part of them. -/
def evidenceOf : RecordView → Nat
  | .span record => accountedU64 record
  | .logRecord record => accountedU64 record
  | .metricPoint point _ => accountedU64 point

/-- The counting walk a byte-ceiling wall starts. -/
structure Counting where
  omitted : Nat
  last : AdmissionKey

/-- What one page's walk reads and never changes. -/
structure WalkInput where
  /-- The store as it stands at each of the walk's calls. -/
  stores : Nat → TelemetryStore
  clock : Clock
  kind : SignalKind
  fingerprint : UInt64
  filters : RecordsFilters
  /-- The continuation's inclusive upper bound. -/
  snapshotBound : Option AdmissionKey
  /-- The presented continuation, when the page resumes one. -/
  presented : Option CursorPayload

/-- One page's walk, as it accumulates from batch to batch and record to record. -/
structure Walk where
  session : BudgetSession
  items : List RecordView
  coverage : List CoverageEntry
  after : Option AdmissionKey
  frontier : Option AdmissionKey
  lastIncluded : Option AdmissionKey
  lastExamined : Option AdmissionKey
  counting : Option Counting
  pendingGap : Option EntityId
  stopped : Option PartOutcome
  /-- Store calls and clock readings made so far. -/
  calls : Nat
  readings : Nat

/-- One driver scan, normalized across the three kinds. -/
def TelemetryStore.pull (store : TelemetryStore) (kind : SignalKind)
    (after : Option AdmissionKey) (limit : Nat) : List Yield × Option AdmissionKey :=
  match kind with
  | .spans =>
    let page := store.scanSpans after limit
    (page.items.map fun item => ⟨item.key, .span item.record⟩, page.cursor)
  | .logRecords =>
    let page := store.scanLogRecords after limit
    (page.items.map fun item => ⟨item.key, .logRecord item.record⟩, page.cursor)
  | .metricPoints =>
    let page := store.scanMetricPoints after limit
    (page.items.map fun item => ⟨item.key, .metricPoint item.record.point item.record.stream⟩,
      page.cursor)

/-- Whether a key lies strictly past the snapshot bound. -/
def WalkInput.pastBound (input : WalkInput) (key : AdmissionKey) : Bool :=
  match input.snapshotBound with
  | none => false
  | some bound => decide (bound < key)

namespace Walk

/-- The payload a cursor minted at `anchor` carries: the chain's boundary, or this first page's
own pulled frontier. -/
def cursorPayload (w : Walk) (input : WalkInput) (anchor : AdmissionKey) : CursorPayload where
  position := anchor.admittedAt.unixNano
  lastEntity := anchor.entity
  fingerprint := input.fingerprint
  snapshot := (input.snapshotBound.or w.frontier).getD anchor

def cursorBytes (w : Walk) (input : WalkInput) (anchor : AdmissionKey) : List UInt8 :=
  (w.cursorPayload input anchor).encode

/-- The presented cursor, echoed byte for byte. -/
def presentedEcho (input : WalkInput) : Option TruncationPoint :=
  input.presented.map fun payload => .cursor payload.encode

/-- The degrade anchored at the last included record, else at the presented cursor, else at the
last examined record with no continuation. -/
def includeAnchoredDegrade (w : Walk) (input : WalkInput) (dimension : Dimension) (omitted : Nat)
    (lastExamined : EntityId) : PartOutcome :=
  let position :=
    match w.lastIncluded with
    | some anchor => .cursor (w.cursorBytes input anchor)
    | none =>
      match presentedEcho input with
      | some echo => echo
      | none => .lastExamined lastExamined
  .degraded ⟨dimension, position, omitted⟩

/-- The degrade anchored at the last counted record. -/
def countingDegrade (w : Walk) (input : WalkInput) (omitted : Nat) (lastCounted : AdmissionKey) :
    PartOutcome :=
  .degraded ⟨.bytes, .cursor (w.cursorBytes input lastCounted), omitted⟩

/-- The walk stops at a record whose scan charge was refused. -/
def stopBeforeExamining (w : Walk) (input : WalkInput) (refusal : BudgetRefusal) : Walk :=
  match w.counting with
  | some counting =>
    { w with
      counting := none
      coverage := w.coverage ++ [.uncountedTail counting.last.entity refusal.dimension]
      stopped := some (w.countingDegrade input counting.omitted counting.last) }
  | none =>
    match w.lastExamined with
    | some anchor =>
      { w with stopped := some (.degraded
          ⟨refusal.dimension, .cursor (w.cursorBytes input anchor), 0⟩) }
    | none => { w with stopped := some (.refused refusal) }

/-- The walk reached the snapshot bound or the kind's end. -/
def finishCountingOrComplete (w : Walk) (input : WalkInput) : Walk :=
  match w.counting with
  | some counting =>
    { w with
      counting := none
      stopped := some (w.countingDegrade input counting.omitted counting.last) }
  | none => { w with stopped := some .complete }

/-- Settles the batch tail a stop abandons. -/
def settle (w : Walk) (unexamined : Nat) : Walk :=
  { w with session := w.session.settleAbandonedScan unexamined }

/-- A charge was asked for: the session after it, one more reading taken. -/
def asked (w : Walk) (session : BudgetSession) : Walk :=
  { w with session := session, readings := w.readings + 1 }

/-- The scan charge stood: the record is examined, and a pending eviction gap has found its first
resident successor. -/
def scanned (w : Walk) (session : BudgetSession) (key : AdmissionKey) : Walk :=
  let w := { w.asked session with lastExamined := some key }
  match w.pendingGap with
  | some anchor =>
    { w with pendingGap := none, coverage := w.coverage ++ [.evictionGap anchor key.entity] }
  | none => w

/-- Stops on the include-anchored degrade, the batch tail settled. -/
def stopIncluding (w : Walk) (input : WalkInput) (dimension : Dimension) (key : AdmissionKey)
    (unexaminedAfter : Nat) : Walk :=
  let w := w.settle unexaminedAfter
  { w with stopped := some (w.includeAnchoredDegrade input dimension 0 key.entity) }

/-- What happens to an examined record: skipped, counted, or put to the results and bytes gates. -/
def select (w : Walk) (input : WalkInput) (yielded : Yield) (unexaminedAfter : Nat) : Walk :=
  if input.filters.matchesView yielded.record = false then w
  else
    match w.counting with
    | some counting => { w with counting := some ⟨counting.omitted + 1, yielded.key⟩ }
    | none =>
      if w.session.ledger.remainingResults = 0 then
        w.stopIncluding input .results yielded.key unexaminedAfter
      else
        match w.session.allowResults (input.clock w.readings) 1 with
        | (.short _ refusal, session) =>
          (w.asked session).stopIncluding input refusal.dimension yielded.key unexaminedAfter
        | (.exact _, session) =>
          let w := w.asked session
          let evidence := evidenceOf yielded.record
          -- the byte ceiling expires here: this record is the first that does not fit
          if w.session.ledger.remainingBytes < evidence then
            { w with counting := some ⟨1, yielded.key⟩ }
          else
            match w.session.allowBytes (input.clock w.readings) evidence with
            | (.short _ refusal, session) =>
              (w.asked session).stopIncluding input refusal.dimension yielded.key unexaminedAfter
            | (.exact _, session) =>
              { w.asked session with
                items := w.items ++ [yielded.record]
                lastIncluded := some yielded.key }

/-- Processes one yielded record; `unexaminedAfter` records are behind it in the batch. -/
def examine (w : Walk) (input : WalkInput) (yielded : Yield) (unexaminedAfter : Nat) : Walk :=
  if input.pastBound yielded.key then
    (w.settle (unexaminedAfter + 1)).finishCountingOrComplete input
  else
    match w.session.allowScan (input.clock w.readings) 1 with
    | (.short _ refusal, session) =>
      ((w.asked session).settle (unexaminedAfter + 1)).stopBeforeExamining input refusal
    | (.exact _, session) => (w.scanned session yielded.key).select input yielded unexaminedAfter

/-- Examines a batch, record by record, until the walk stops. -/
def examineBatch (input : WalkInput) : Walk → List Yield → Walk
  | w, [] => w
  | w, yielded :: rest =>
    let w := w.examine input yielded rest.length
    if w.stopped.isSome then w else examineBatch input w rest

/-- One turn of the page loop; the second component counts consecutive empty batches. -/
def turn (input : WalkInput) (w : Walk) (emptyPages : Nat) : Walk × Nat :=
  let (batch, batchCursor) := (input.stores w.calls).pull input.kind w.after scanBatch
  let w := { w with
    frontier := batchCursor.or (batch.getLast?.map Yield.key)
    calls := w.calls + 1 }
  if batch.isEmpty then
    match batchCursor with
    | some cursor =>
      if emptyPageStallLimit ≤ emptyPages + 1 then
        -- the driver claims a successor it never yields
        let after := match w.lastExamined with
          | some key => key.entity
          | none => cursor.entity
        ({ w with
            coverage := w.coverage ++ [.driverStall after]
            stopped := some .stalled }, emptyPages + 1)
      else ({ w with after := some cursor }, emptyPages + 1)
    | none => (w.finishCountingOrComplete input, emptyPages)
  else
    let w := examineBatch input w batch
    if w.stopped.isSome then (w, 0)
    else
      match batchCursor with
      | some next => ({ w with after := some next }, 0)
      | none => (w.finishCountingOrComplete input, 0)

/-! ## What an examination can do -/

/-- Everything the examination of one yielded record can do to the walk. -/
inductive Examination (input : WalkInput) (w : Walk) (yielded : Yield) (tail : Nat) : Walk → Prop
  | pastBound (past : input.pastBound yielded.key = true) :
      Examination input w yielded tail ((w.settle (tail + 1)).finishCountingOrComplete input)
  | unscanned {granted : Nat} {refusal : BudgetRefusal} {session : BudgetSession}
      (within : input.pastBound yielded.key = false)
      (scan : w.session.allowScan (input.clock w.readings) 1 = (.short granted refusal, session)) :
      Examination input w yielded tail
        (((w.asked session).settle (tail + 1)).stopBeforeExamining input refusal)
  | skipped {granted : Nat} {session : BudgetSession}
      (within : input.pastBound yielded.key = false)
      (scan : w.session.allowScan (input.clock w.readings) 1 = (.exact granted, session))
      (filtered : input.filters.matchesView yielded.record = false) :
      Examination input w yielded tail (w.scanned session yielded.key)
  | counted {granted : Nat} {session : BudgetSession} {counting : Counting}
      (within : input.pastBound yielded.key = false)
      (scan : w.session.allowScan (input.clock w.readings) 1 = (.exact granted, session))
      (matching : input.filters.matchesView yielded.record = true)
      (phase : w.counting = some counting) :
      Examination input w yielded tail { w.scanned session yielded.key with
        counting := some ⟨counting.omitted + 1, yielded.key⟩ }
  | resultsSpent {granted : Nat} {session : BudgetSession}
      (within : input.pastBound yielded.key = false)
      (scan : w.session.allowScan (input.clock w.readings) 1 = (.exact granted, session))
      (matching : input.filters.matchesView yielded.record = true)
      (phase : w.counting = none) (spent : session.ledger.remainingResults = 0) :
      Examination input w yielded tail
        ((w.scanned session yielded.key).stopIncluding input .results yielded.key tail)
  | resultsRefused {granted granted' : Nat} {session session' : BudgetSession}
      {refusal : BudgetRefusal} (within : input.pastBound yielded.key = false)
      (scan : w.session.allowScan (input.clock w.readings) 1 = (.exact granted, session))
      (matching : input.filters.matchesView yielded.record = true)
      (phase : w.counting = none) (unspent : session.ledger.remainingResults ≠ 0)
      (results : session.allowResults (input.clock (w.readings + 1)) 1 =
        (.short granted' refusal, session')) :
      Examination input w yielded tail (((w.scanned session yielded.key).asked session').stopIncluding
        input refusal.dimension yielded.key tail)
  | unfit {granted granted' : Nat} {session session' : BudgetSession}
      (within : input.pastBound yielded.key = false)
      (scan : w.session.allowScan (input.clock w.readings) 1 = (.exact granted, session))
      (matching : input.filters.matchesView yielded.record = true)
      (phase : w.counting = none) (unspent : session.ledger.remainingResults ≠ 0)
      (results : session.allowResults (input.clock (w.readings + 1)) 1 =
        (.exact granted', session'))
      (wall : session'.ledger.remainingBytes < evidenceOf yielded.record) :
      Examination input w yielded tail { (w.scanned session yielded.key).asked session' with
        counting := some ⟨1, yielded.key⟩ }
  | bytesRefused {granted granted' granted'' : Nat} {session session' session'' : BudgetSession}
      {refusal : BudgetRefusal} (within : input.pastBound yielded.key = false)
      (scan : w.session.allowScan (input.clock w.readings) 1 = (.exact granted, session))
      (matching : input.filters.matchesView yielded.record = true)
      (phase : w.counting = none) (unspent : session.ledger.remainingResults ≠ 0)
      (results : session.allowResults (input.clock (w.readings + 1)) 1 =
        (.exact granted', session'))
      (fits : evidenceOf yielded.record ≤ session'.ledger.remainingBytes)
      (bytes : session'.allowBytes (input.clock (w.readings + 2)) (evidenceOf yielded.record) =
        (.short granted'' refusal, session'')) :
      Examination input w yielded tail
        ((((w.scanned session yielded.key).asked session').asked session'').stopIncluding
          input refusal.dimension yielded.key tail)
  | included {granted granted' granted'' : Nat} {session session' session'' : BudgetSession}
      (within : input.pastBound yielded.key = false)
      (scan : w.session.allowScan (input.clock w.readings) 1 = (.exact granted, session))
      (matching : input.filters.matchesView yielded.record = true)
      (phase : w.counting = none) (unspent : session.ledger.remainingResults ≠ 0)
      (results : session.allowResults (input.clock (w.readings + 1)) 1 =
        (.exact granted', session'))
      (fits : evidenceOf yielded.record ≤ session'.ledger.remainingBytes)
      (bytes : session'.allowBytes (input.clock (w.readings + 2)) (evidenceOf yielded.record) =
        (.exact granted'', session'')) :
      Examination input w yielded tail
        { ((w.scanned session yielded.key).asked session').asked session'' with
          items := w.items ++ [yielded.record]
          lastIncluded := some yielded.key }

/-- The scan charge writes the session, the readings, the last examined key and the gap. -/
theorem scanned_frame (w : Walk) (session : BudgetSession) (key : AdmissionKey) :
    (w.scanned session key).session = session ∧
      (w.scanned session key).readings = w.readings + 1 ∧
      (w.scanned session key).lastExamined = some key ∧
      (w.scanned session key).items = w.items ∧
      (w.scanned session key).counting = w.counting ∧
      (w.scanned session key).lastIncluded = w.lastIncluded ∧
      (w.scanned session key).frontier = w.frontier ∧
      (w.scanned session key).after = w.after ∧
      (w.scanned session key).stopped = w.stopped ∧
      (w.scanned session key).calls = w.calls := by
  unfold scanned asked
  cases w.pendingGap <;> exact ⟨rfl, rfl, rfl, rfl, rfl, rfl, rfl, rfl, rfl, rfl⟩

theorem examination (w : Walk) (input : WalkInput) (yielded : Yield) (tail : Nat) :
    Examination input w yielded tail (w.examine input yielded tail) := by
  unfold examine
  by_cases past : input.pastBound yielded.key = true
  · rw [if_pos past]
    exact .pastBound past
  · rw [if_neg past]
    have within : input.pastBound yielded.key = false := by simpa using past
    split
    · rename_i scan
      exact .unscanned within scan
    · rename_i granted session scan
      obtain ⟨hsession, hreadings, -, hitems, hcounting, -⟩ := w.scanned_frame session yielded.key
      unfold select
      by_cases filtered : input.filters.matchesView yielded.record = false
      · rw [if_pos filtered]
        exact .skipped within scan filtered
      · rw [if_neg filtered, hcounting]
        have matching : input.filters.matchesView yielded.record = true := by simpa using filtered
        split
        · rename_i phase
          exact .counted within scan matching phase
        · rename_i phase
          rw [hsession]
          by_cases spent : session.ledger.remainingResults = 0
          · rw [if_pos spent]
            exact .resultsSpent within scan matching phase spent
          · rw [if_neg spent, hreadings]
            split
            · rename_i results
              exact .resultsRefused within scan matching phase spent results
            · rename_i granted' session' results
              have hasked : ((w.scanned session yielded.key).asked session').readings =
                  w.readings + 2 := by simp [asked, hreadings]
              dsimp only
              split
              · rename_i wall
                exact .unfit within scan matching phase spent results wall
              · rename_i fits
                rw [hasked]
                split
                · rename_i bytes
                  exact .bytesRefused within scan matching phase spent results (not_lt.mp fits)
                    bytes
                · rename_i bytes
                  have hall := @Examination.included _ _ _ tail _ _ _ _ _ _ within scan matching phase
                    spent results (not_lt.mp fits) bytes
                  simpa only [asked, hitems] using hall

/-! ## The loop ends -/

theorem finishCountingOrComplete_stopped (w : Walk) (input : WalkInput) :
    (w.finishCountingOrComplete input).stopped.isSome := by
  unfold finishCountingOrComplete
  cases w.counting <;> rfl

theorem stopBeforeExamining_stopped (w : Walk) (input : WalkInput) (refusal : BudgetRefusal) :
    (w.stopBeforeExamining input refusal).stopped.isSome := by
  unfold stopBeforeExamining
  cases w.counting with
  | some counting => rfl
  | none => cases w.lastExamined <;> rfl

/-- What remains of the scan ceiling. -/
def scanLeft (w : Walk) : Nat := w.session.ledger.scan.remaining

/-- An examination the walk goes on after has spent one scan unit. -/
theorem examine_spends (w : Walk) (input : WalkInput) (yielded : Yield) (tail : Nat) :
    (w.examine input yielded tail).stopped.isSome ∨
      (w.examine input yielded tail).scanLeft + 1 = w.scanLeft := by
  have spends : ∀ {granted : Nat} {session : BudgetSession},
      w.session.allowScan (input.clock w.readings) 1 = (.exact granted, session) →
        session.ledger.scan.remaining + 1 = w.scanLeft := fun h => by
    obtain ⟨hfit, rfl⟩ := BudgetSession.allowScan_exact h
    exact Nat.sub_add_cancel hfit
  have hsession := fun session => (w.scanned_frame session yielded.key).1
  have hall := w.examination input yielded tail
  generalize w.examine input yielded tail = w' at hall ⊢
  cases hall with
  | pastBound past => exact Or.inl (finishCountingOrComplete_stopped _ _)
  | unscanned within scan => exact Or.inl (stopBeforeExamining_stopped _ _ _)
  | skipped within scan filtered =>
    rw [scanLeft, hsession]
    exact Or.inr (spends scan)
  | counted within scan matching phase =>
    refine Or.inr ?_
    change (w.scanned _ yielded.key).session.ledger.scan.remaining + 1 = _
    rw [hsession]
    exact spends scan
  | resultsSpent within scan matching phase spent => exact Or.inl rfl
  | resultsRefused within scan matching phase unspent results => exact Or.inl rfl
  | unfit within scan matching phase unspent results wall =>
    obtain ⟨-, rfl⟩ := BudgetSession.allowResults_exact results
    have hspent := spends scan
    exact Or.inr hspent
  | bytesRefused within scan matching phase unspent results fits bytes => exact Or.inl rfl
  | included within scan matching phase unspent results fits bytes =>
    obtain ⟨-, rfl⟩ := BudgetSession.allowResults_exact results
    obtain ⟨-, rfl⟩ := BudgetSession.allowBytes_exact bytes
    have hspent := spends scan
    exact Or.inr hspent

theorem examineBatch_spends (input : WalkInput) (batch : List Yield) (w : Walk) :
    (examineBatch input w batch).stopped.isSome ∨
      (examineBatch input w batch).scanLeft + batch.length = w.scanLeft := by
  induction batch generalizing w with
  | nil => exact Or.inr rfl
  | cons yielded rest ih =>
    rw [examineBatch]
    split
    · exact Or.inl (by assumption)
    · rename_i hgoes
      rcases w.examine_spends input yielded rest.length with hstop | hspent
      · exact absurd hstop hgoes
      · rcases ih (w.examine input yielded rest.length) with hstop | hleft
        · exact Or.inl hstop
        · rw [List.length_cons]
          exact Or.inr (by omega)

/-- The turns a walk may still take. -/
def fuel (s : Walk × Nat) : Nat :=
  if s.1.stopped.isSome then 0
  else 4 * s.1.scanLeft + (emptyPageStallLimit - s.2) + 1

/-- The page loop: turns until the walk knows its outcome. -/
def pages (input : WalkInput) : Loop (Walk × Nat) where
  step s := if s.1.stopped.isSome then none else some (s.1.turn input s.2)
  fuel := fuel
  decreases := by
    rintro ⟨w, emptyPages⟩ s' h
    dsimp only at h
    split at h
    · exact absurd h (by simp)
    · rename_i hgoes
      obtain rfl := Option.some.inj h
      have stops : ∀ {t : Walk × Nat}, t.1.stopped.isSome → fuel t < fuel (w, emptyPages) := by
        intro t ht
        rw [fuel, if_pos ht, fuel, if_neg hgoes]
        omega
      unfold turn
      split
      rename_i batch batchCursor hpull
      dsimp only
      split
      · split
        · rename_i cursor
          split
          · exact stops rfl
          · rename_i hroom
            rw [emptyPageStallLimit] at hroom
            simp only [fuel, if_neg hgoes, scanLeft, emptyPageStallLimit]
            omega
        · exact stops (finishCountingOrComplete_stopped _ _)
      · rename_i hbatch
        split
        · rename_i hstop
          exact stops hstop
        · rename_i hon
          split
          · have hlen : 0 < batch.length := by
              cases batch with
              | nil => simp at hbatch
              | cons y rest => simp
            rcases examineBatch_spends input batch { w with
              frontier := _, calls := w.calls + 1 } with hstop | hspent
            · exact absurd hstop hon
            · simp only [fuel, if_neg hgoes, if_neg hon, scanLeft, emptyPageStallLimit] at hspent ⊢
              omega
          · exact stops (finishCountingOrComplete_stopped _ _)

/-! ## The page -/

/-- Assembles the page; an unresolved eviction gap names the snapshot boundary's entity. -/
def assemble (w : Walk) (input : WalkInput) : Page RecordView :=
  let coverage :=
    match w.pendingGap with
    | some after =>
      w.coverage ++ [.evictionGap after
        (match input.snapshotBound with
        | some bound => bound.entity
        | none => after)]
    | none => w.coverage
  let part := w.stopped.getD .complete
  let nextCursor :=
    match part with
    | .degraded ⟨_, .cursor bytes, _⟩ => some bytes
    | _ => none
  ⟨w.items, nextCursor, ⟨[part], coverage⟩⟩

/-- Runs the walk to its stop. -/
def run (w : Walk) (input : WalkInput) : Page RecordView :=
  ((pages input).run (w, 0)).1.assemble input

end Walk

/-- Whether a continuation anchor's record is still resident. -/
def TelemetryStore.anchorIsResident (store : TelemetryStore) (kind : SignalKind)
    (anchor : EntityId) : Bool :=
  match kind with
  | .spans => (store.span anchor).isSome
  | .logRecords => (store.logRecord anchor).isSome
  | .metricPoints => (store.metricPoint anchor).isSome

/-- The walk's input for a query and the continuation it was presented. -/
def walkInput (stores : Nat → TelemetryStore) (query : RecordsQuery) (clock : Clock)
    (presented : Option CursorPayload) : WalkInput where
  stores := stores
  clock := clock
  kind := query.kind
  fingerprint := fingerprint query.canonicalBytes
  filters := query.filters
  snapshotBound := presented.map CursorPayload.snapshot
  presented := presented

/-- The walk before its first turn.  The residency of a presented anchor is one direct lookup,
and the resume anchor is the presented position and entity. -/
def walkStart (input : WalkInput) (session : BudgetSession) : Walk where
  session := session
  items := []
  coverage :=
    match input.snapshotBound with
    | some admission => [.snapshotBoundary admission]
    | none => []
  after := input.presented.map CursorPayload.anchor
  frontier := none
  lastIncluded := none
  lastExamined := none
  counting := none
  pendingGap :=
    match input.presented with
    | some payload =>
      if (input.stores 0).anchorIsResident input.kind payload.lastEntity then none
      else some payload.lastEntity
    | none => none
  stopped := none
  calls := if input.presented.isSome then 1 else 0
  readings := 1

/-- The walk over an admitted session. -/
def walkRecords (input : WalkInput) (session : BudgetSession) : Page RecordView :=
  (walkStart input session).run input

/-- The page a zero results ceiling demands: empty, its boundary and a missing anchor named. -/
def emptyPage (input : WalkInput) : Page RecordView :=
  let entries :=
    match input.presented with
    | some payload =>
      CoverageEntry.snapshotBoundary payload.snapshot ::
        if (input.stores 0).anchorIsResident input.kind payload.lastEntity then []
        else [.evictionGap payload.lastEntity payload.snapshot.entity]
    | none => []
  ⟨[], none, ⟨[.complete], entries⟩⟩

/-- The validity test of a continuation: canonical bytes, this query's, this lease's. -/
def presentedPayload (expectedFingerprint : UInt64) (bytes : List UInt8)
    (lease : Option SnapshotLease) : Except CursorError CursorPayload := do
  let payload ← CursorPayload.decode bytes
  payload.verify expectedFingerprint
  match lease with
  | some lease => payload.verifyLease lease
  | none => pure ()
  pure payload

/-- The page of an accepted continuation. -/
def answer (stores : Nat → TelemetryStore) (query : RecordsQuery) (budget : QueryBudget)
    (clock : Clock) (presented : Option CursorPayload) : Page RecordView :=
  let input := walkInput stores query clock presented
  let session := budget.admitSession (clock 0)
  if session.ledger.remainingResults = 0 then emptyPage input else walkRecords input session

/-- The shared walk behind `records` and `recordsLeased`. -/
def recordsInner (stores : Nat → TelemetryStore) (query : RecordsQuery) (budget : QueryBudget)
    (clock : Clock) (continuation : Option (List UInt8)) (lease : Option SnapshotLease) :
    Except QueryError (Page RecordView) :=
  match continuation with
  | none => .ok (answer stores query budget clock none)
  | some bytes =>
    match presentedPayload (fingerprint query.canonicalBytes) bytes lease with
    | .error error => .error (.cursor error)
    | .ok payload => .ok (answer stores query budget clock (some payload))

/-- Answers a records query within its budget. -/
def records (stores : Nat → TelemetryStore) (query : RecordsQuery) (budget : QueryBudget)
    (clock : Clock) (continuation : Option (List UInt8)) : Except QueryError (Page RecordView) :=
  recordsInner stores query budget clock continuation none

/-- Answers a records query within its budget, pinned to a lease's snapshot. -/
def recordsLeased (stores : Nat → TelemetryStore) (query : RecordsQuery) (budget : QueryBudget)
    (clock : Clock) (continuation : List UInt8) (lease : SnapshotLease) :
    Except QueryError (Page RecordView) :=
  recordsInner stores query budget clock (some continuation) (some lease)

/-- A cursor minted for the query is accepted, and names the page of its payload. -/
theorem records_encode (stores : Nat → TelemetryStore) {query : RecordsQuery}
    (budget : QueryBudget) (clock : Clock) {payload : CursorPayload} (h : payload.InRange)
    (hown : payload.fingerprint = fingerprint query.canonicalBytes) :
    records stores query budget clock (some payload.encode) =
      .ok (answer stores query budget clock (some payload)) := by
  have hpresented : presentedPayload (fingerprint query.canonicalBytes) payload.encode none =
      .ok payload := by
    rw [presentedPayload, CursorPayload.decode_encode h]
    change (payload.verify _ >>= fun _ => pure payload) = _
    rw [CursorPayload.verify, if_pos hown]
    rfl
  rw [records, recordsInner, hpresented]

/-- Presenting no cursor, or one of the query's own, a page is answered. -/
theorem records_presented (stores : Nat → TelemetryStore) (query : RecordsQuery)
    (budget : QueryBudget) (clock : Clock) {presented : Option CursorPayload}
    (hrange : ∀ payload, presented = some payload →
      payload.InRange ∧ payload.fingerprint = fingerprint query.canonicalBytes) :
    records stores query budget clock (presented.map CursorPayload.encode) =
      .ok (answer stores query budget clock presented) := by
  cases presented with
  | none => rfl
  | some payload =>
    obtain ⟨hpayload, hown⟩ := hrange payload rfl
    exact records_encode _ _ _ hpayload hown

end RuntimeTrail
