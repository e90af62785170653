import RuntimeTrail.Correlation.Allowance

/-!
# What a run accounts for

The trace strategy accounts, beside what it relates: a suppression for a log
record attached to its exact span, and an absence for one whose trace has no
resident span.  It does so whatever the relation ceiling; what it cannot see past
is the allowance of the scans.

* **the accounts** — `traceIdentity_accounts`, `form_accounts`: what the requested
  strategies account for, one listing after the other, and nothing of it depends on
  the sink;
* **what is due** — `Residency.suppressionOf`, `Accounted`: one entry for each log
  record of the trace that calls for one;
* **the law** — `RuntimeTrail.accounting_complete_iff`.
-/

namespace RuntimeTrail

open Library

/-! ## The accounts of the trace strategy -/

/-- The suppression a log record attached to its exact span calls for. -/
def suppressionOf (members : List (EntityId × Arc Span)) (log : EntityId × Arc LogRecord) :
    Option Suppression :=
  (exactSpan members log.2.val).map fun exact =>
    ⟨log.1, exact, (members.filter fun p => decide (p.1 ≠ exact)).length⟩

/-- The absence a log record of a trace without a resident span calls for. -/
def absenceOf (members : List (EntityId × Arc Span)) (log : EntityId × Arc LogRecord) :
    Option AbsentTrace :=
  if members.isEmpty then some ⟨log.1⟩ else none

/-- What one listing of the trace strategy accounts for among the scanned log records. -/
def accountsOf {α : Type}
    (account : List (EntityId × Arc Span) → EntityId × Arc LogRecord → Option α)
    (subject : Option TraceId) (members : List (EntityId × Arc Span))
    (logs : List (EntityId × Arc LogRecord)) : List α :=
  subject.toList.flatMap fun subject => (logsOf subject logs).filterMap (account members)

/-- A trace without a resident span has no exact one. -/
theorem exactSpan_nil (log : LogRecord) : exactSpan [] log = none := by
  rw [exactSpan]
  cases log.correlationPair <;> rfl

theorem traceIdentity_accounts (subject : Option TraceId) (members : List (EntityId × Arc Span))
    (logs : List (EntityId × Arc LogRecord)) (forming : Forming) :
    (traceIdentity subject members logs forming).suppressions =
        forming.suppressions ++ accountsOf suppressionOf subject members logs ∧
      (traceIdentity subject members logs forming).absentTraces =
        forming.absentTraces ++ accountsOf absenceOf subject members logs := by
  cases subject with
  | none => simp [traceIdentity, accountsOf]
  | some subject =>
    rw [traceIdentity, accountsOf, accountsOf, Option.toList_some, List.flatMap_singleton,
      List.flatMap_singleton, logsOf]
    induction logs generalizing forming with
    | nil => simp
    | cons log logs ih =>
      rw [List.foldl_cons, (ih _).1, (ih _).2]
      cases htrace : log.2.val.traceId with
      | none => simp [htrace]
      | some trace =>
        by_cases hsubject : trace = subject
        · subst hsubject
          rw [List.filter_cons_of_pos (by simp [htrace])]
          cases hexact : exactSpan members log.2.val with
          | some exact =>
            have hmembers : members.isEmpty = false := by
              cases members with
              | nil => rw [exactSpan_nil] at hexact; exact absurd hexact (by simp)
              | cons _ _ => rfl
            rw [List.filterMap_cons_some (by rw [suppressionOf, hexact]; rfl),
              List.filterMap_cons_none (by rw [absenceOf, hmembers]; rfl)]
            rw [exactSpan] at hexact
            simp [hexact]
          | none =>
            rw [List.filterMap_cons_none (f := suppressionOf members)
              (by rw [suppressionOf, hexact]; rfl)]
            rw [exactSpan] at hexact
            cases hmembers : members.isEmpty with
            | true =>
              rw [List.filterMap_cons_some (by rw [absenceOf, hmembers]; rfl)]
              simp [hexact]
            | false =>
              rw [List.filterMap_cons_none (by rw [absenceOf, hmembers]; rfl)]
              simp [hexact]
        · rw [List.filter_cons_of_neg (by simp [htrace, hsubject])]
          simp [hsubject]

/-- What one requested strategy accounts for. -/
def accounts {α : Type}
    (account : List (EntityId × Arc Span) → EntityId × Arc LogRecord → Option α)
    (bounds : CorrelationBounds) (s : Scanned) (strategy : Strategy) : List α :=
  if strategy = .traceIdentity then
    accountsOf account bounds.subjectTrace (subjectSpans s.spans bounds.subjectTrace) s.logs
  else []

/-- **The accounts of a run** are those of its listings, one behind the other, whatever the sink
kept. -/
theorem form_accounts (bounds : CorrelationBounds) (s : Scanned) :
    (form bounds s).suppressions = bounds.strategies.flatMap (accounts suppressionOf bounds s) ∧
      (form bounds s).absentTraces = bounds.strategies.flatMap (accounts absenceOf bounds s) := by
  have hstep : ∀ (forming : Forming) (strategy : Strategy),
      (runStrategy bounds s forming strategy).suppressions =
          forming.suppressions ++ accounts suppressionOf bounds s strategy ∧
        (runStrategy bounds s forming strategy).absentTraces =
          forming.absentTraces ++ accounts absenceOf bounds s strategy := by
    intro forming strategy
    cases strategy with
    | traceIdentity => exact traceIdentity_accounts _ _ _ _
    | spanIdentity => simp [runStrategy, accounts]
    | parentChild => simp [runStrategy, accounts]
    | resourceContext => simp [runStrategy, accounts]
    | exemplarAttachment => simp [runStrategy, accounts]
    | temporalCoActivity => simp [runStrategy, accounts]
  have hfold : ∀ (strategies : List Strategy) (forming : Forming),
      (strategies.foldl (runStrategy bounds s) forming).suppressions =
          forming.suppressions ++ strategies.flatMap (accounts suppressionOf bounds s) ∧
        (strategies.foldl (runStrategy bounds s) forming).absentTraces =
          forming.absentTraces ++ strategies.flatMap (accounts absenceOf bounds s) := by
    intro strategies
    induction strategies with
    | nil => intro forming; simp
    | cons strategy rest ih =>
      intro forming
      rw [List.foldl_cons, (ih _).1, (ih _).2, (hstep forming strategy).1,
        (hstep forming strategy).2, List.flatMap_cons, List.flatMap_cons, List.append_assoc,
        List.append_assoc]
      exact ⟨rfl, rfl⟩
  exact hfold bounds.strategies _

/-! ## What is due -/

namespace Residency

/-- The suppression a resident log record of a trace calls for: its exact span is resident, and the
other resident spans of the trace go unrelated. -/
def suppressionOf (residency : Residency) (trace : TraceId) (log : EntityId × Arc LogRecord) :
    Option Suppression :=
  (residency.exactSpanOf trace log.2.val).map fun exact =>
    ⟨log.1, exact, ((residency.spansOfTrace trace).filter fun p => decide (p.1 ≠ exact)).length⟩

/-- The absence a resident log record of a trace calls for: no span of the trace is resident. -/
def absenceOf (residency : Residency) (trace : TraceId) (log : EntityId × Arc LogRecord) :
    Option AbsentTrace :=
  if (residency.spansOfTrace trace).isEmpty then some ⟨log.1⟩ else none

/-- One entry for each log record of the trace that calls for one, and no other entry. -/
structure AccountsFor (residency : Residency) (trace : TraceId) (truth : Truth) : Prop where
  suppression : ∀ log ∈ residency.logsOfTrace trace,
    truth.suppressions.filter (fun entry => decide (entry.log = log.1)) =
      (residency.suppressionOf trace log).toList
  suppressed : ∀ entry ∈ truth.suppressions, ∃ log ∈ residency.logsOfTrace trace,
    residency.suppressionOf trace log = some entry
  absence : ∀ log ∈ residency.logsOfTrace trace,
    truth.absentTraces.filter (fun entry => decide (entry.log = log.1)) =
      (residency.absenceOf trace log).toList
  absent : ∀ entry ∈ truth.absentTraces, ∃ log ∈ residency.logsOfTrace trace,
    residency.absenceOf trace log = some entry

/-- Whether a log record of the trace calls for an entry. -/
def Accountable (residency : Residency) (trace : TraceId) (log : EntityId × Arc LogRecord) : Prop :=
  (residency.exactSpanOf trace log.2.val).isSome = true ∨ residency.spansOfTrace trace = []

/-- The log records the scans reach: what the resident spans leave of the allowance. -/
def reachedLogs (residency : Residency) (maxScan : Nat) : List (EntityId × Arc LogRecord) :=
  residency.residentLogs.take (maxScan - residency.residentSpans.length)

end Residency

namespace FixedStore

variable (store : FixedStore)

/-- Among resident log records, those under one entity id are that record, as often as it stands
there. -/
theorem filter_entity {logs : List (EntityId × Arc LogRecord)} {log : EntityId × Arc LogRecord}
    (hlogs : logs ⊆ store.residency.residentLogs) (hlog : log ∈ store.residency.residentLogs) :
    logs.filter (fun p => decide (p.1 = log.1)) =
      List.replicate ((logs.map Prod.fst).count log.1) log := by
  refine List.eq_replicate_iff.mpr ⟨?_, fun p hp => ?_⟩
  · rw [List.count_eq_countP, List.countP_map, List.countP_eq_length_filter]
    rfl
  · obtain ⟨hmem, hentity⟩ := List.mem_filter.mp hp
    exact record_unique store.serves.logRecord (hlogs hmem) hlog (of_decide_eq_true hentity)

/-- **What a run lists for one log record**: its entry, once for each listing of the strategy and
each time the scans met the record. -/
theorem filter_accounts {α : Type} {account : EntityId × Arc LogRecord → Option α}
    {key : α → EntityId} (hkey : ∀ log entry, account log = some entry → key entry = log.1)
    {logs : List (EntityId × Arc LogRecord)} (hlogs : logs ⊆ store.residency.residentLogs)
    {trace : TraceId} {log : EntityId × Arc LogRecord}
    (hlog : log ∈ store.residency.logsOfTrace trace) (strategies : List Strategy) :
    (strategies.flatMap fun strategy =>
        if strategy = .traceIdentity then (logsOf trace logs).filterMap account else []).filter
        (fun entry => decide (key entry = log.1)) =
      (List.replicate (strategies.count .traceIdentity * (logs.map Prod.fst).count log.1)
        log).filterMap account := by
  obtain ⟨hresident, htrace⟩ := List.mem_filter.mp hlog
  have hone : ((logsOf trace logs).filterMap account).filter
      (fun entry => decide (key entry = log.1)) =
        (List.replicate ((logs.map Prod.fst).count log.1) log).filterMap account := by
    rw [← store.filter_entity hlogs hresident, List.filter_filterMap, logsOf,
      List.filterMap_filter, List.filterMap_filter]
    refine List.filterMap_congr fun p hp => ?_
    by_cases hentity : p.1 = log.1
    · rw [if_pos (decide_eq_true hentity), record_unique store.serves.logRecord (hlogs hp) hresident hentity,
        if_pos htrace]
      cases haccount : account log with
      | none => rfl
      | some entry => simp [hkey log entry haccount]
    · rw [if_neg (show ¬ decide (p.1 = log.1) = true by simp [hentity])]
      split
      · cases haccount : account p with
        | none => rfl
        | some entry => simp [hkey p entry haccount, hentity]
      · rfl
  induction strategies with
  | nil => simp
  | cons strategy rest ih =>
    rw [List.flatMap_cons, List.filter_append, ih]
    by_cases hstrategy : strategy = .traceIdentity
    · rw [if_pos hstrategy, hone, hstrategy, List.count_cons_self, Nat.add_comm, Nat.add_mul,
        Nat.one_mul, List.replicate_add, List.filterMap_append]
    · rw [if_neg hstrategy, List.count_cons_of_ne hstrategy]
      rfl

/-- What the trace strategy accounts for over a fixed store: the entries due for the log records the
scans reach.  Where the spans took the allowance, none is reached. -/
theorem accounts_eq {bounds : CorrelationBounds} {trace : TraceId}
    (hsubject : bounds.subjectTrace = some trace) {α : Type}
    {account : List (EntityId × Arc Span) → EntityId × Arc LogRecord → Option α}
    {due : EntityId × Arc LogRecord → Option α}
    (hdue : ∀ log ∈ store.residency.logsOfTrace trace,
      account (subjectSpans store.residency.residentSpans (some trace)) log = due log)
    (strategy : Strategy) :
    accounts account bounds (scanned (fun _ => store.driver) bounds.maxScan) strategy =
      if strategy = .traceIdentity then
        (logsOf trace (store.residency.reachedLogs bounds.maxScan)).filterMap due
      else [] := by
  obtain ⟨hspans, hlogs, -, -⟩ := store.scanned_take bounds.maxScan
  rw [accounts, accountsOf, hsubject, Option.toList_some, List.flatMap_singleton, hspans, hlogs]
  change (if _ then (logsOf trace (store.residency.reachedLogs bounds.maxScan)).filterMap _
    else _) = _
  congr 1
  rw [logsOf]
  refine List.filterMap_congr fun log hlog => ?_
  obtain ⟨hreached, htrace⟩ := List.mem_filter.mp hlog
  have hroom : store.residency.residentSpans.length ≤ bounds.maxScan := by
    have := List.length_pos_of_mem hreached
    rw [Residency.reachedLogs, List.length_take] at this
    omega
  rw [List.take_of_length_le hroom]
  exact hdue log (List.mem_filter.mpr ⟨List.mem_of_mem_take hreached, htrace⟩)

end FixedStore

/-! ## The law -/

theorem Residency.accountable_iff (residency : Residency) (trace : TraceId)
    (log : EntityId × Arc LogRecord) : residency.Accountable trace log ↔
      (residency.suppressionOf trace log).isSome = true ∨
        (residency.absenceOf trace log).isSome = true := by
  rw [Accountable, suppressionOf, Option.isSome_map, absenceOf, ← List.isEmpty_iff]
  cases (residency.spansOfTrace trace).isEmpty <;> simp

/-- A repeated entry is listed once exactly when it is repeated once. -/
theorem filterMap_replicate_eq_toList {α β : Type} {f : α → Option β} {a : α} {n : Nat} :
    (List.replicate n a).filterMap f = (f a).toList ↔ ((f a).isSome = true → n = 1) := by
  cases hf : f a with
  | none =>
    have hnil : (List.replicate n a).filterMap f = [] :=
      List.filterMap_eq_nil_iff.mpr fun b hb => by rw [List.eq_of_mem_replicate hb, hf]
    simp [hnil]
  | some b =>
    have hrepeat : (List.replicate n a).filterMap f = List.replicate n b := by
      rw [List.filterMap_replicate_of_some hf]
    rw [hrepeat, Option.toList_some, ← List.replicate_one, List.replicate_inj]
    simp

namespace FixedStore

variable (store : FixedStore)

/-- What a run over a fixed store lists, of either account: the entries due for the reached log
records, once for each listing. -/
theorem truth_accounts {bounds : CorrelationBounds} {trace : TraceId} (hhops : 1 ≤ bounds.maxHops)
    (hsubject : bounds.subjectTrace = some trace) :
    let truth := (correlate (fun _ => store.driver) bounds).truth
    let reached := logsOf trace (store.residency.reachedLogs bounds.maxScan)
    truth.suppressions = (bounds.strategies.flatMap fun strategy =>
        if strategy = .traceIdentity then
          reached.filterMap (store.residency.suppressionOf trace) else []) ∧
      truth.absentTraces = bounds.strategies.flatMap fun strategy =>
        if strategy = .traceIdentity then
          reached.filterMap (store.residency.absenceOf trace) else [] := by
  have hsuppression : ∀ log ∈ store.residency.logsOfTrace trace,
      suppressionOf (subjectSpans store.residency.residentSpans (some trace)) log =
        store.residency.suppressionOf trace log := by
    intro log hlog
    rw [suppressionOf, store.residency.exactSpan_subjectSpans
      (of_decide_eq_true (List.mem_filter.mp hlog).2), store.residency.subjectSpans_eq]
    rfl
  have habsence : ∀ log ∈ store.residency.logsOfTrace trace,
      absenceOf (subjectSpans store.residency.residentSpans (some trace)) log =
        store.residency.absenceOf trace log := by
    intro log _
    rw [absenceOf, store.residency.subjectSpans_eq]
    rfl
  rw [correlate, if_neg (Nat.one_le_iff_ne_zero.mp hhops)]
  dsimp only
  rw [(form_accounts _ _).1, (form_accounts _ _).2]
  exact ⟨List.flatMap_congr fun strategy _ => store.accounts_eq hsubject hsuppression strategy,
    List.flatMap_congr fun strategy _ => store.accounts_eq hsubject habsence strategy⟩

/-- Whatever is listed is due for some log record of the trace. -/
theorem due_of_listed {α : Type} {due : EntityId × Arc LogRecord → Option α} {trace : TraceId}
    {maxScan : Nat} {strategies : List Strategy} {entry : α}
    (h : entry ∈ strategies.flatMap fun strategy => if strategy = .traceIdentity then
      (logsOf trace (store.residency.reachedLogs maxScan)).filterMap due else []) :
    ∃ log ∈ store.residency.logsOfTrace trace, due log = some entry := by
  obtain ⟨strategy, -, hlisted⟩ := List.mem_flatMap.mp h
  split at hlisted
  · obtain ⟨log, hlog, hdue⟩ := List.mem_filterMap.mp hlisted
    obtain ⟨hreached, htrace⟩ := List.mem_filter.mp hlog
    exact ⟨log, List.mem_filter.mpr ⟨List.mem_of_mem_take hreached, htrace⟩, hdue⟩
  · exact absurd hlisted (by simp)

end FixedStore

theorem Residency.log_of_suppressionOf {residency : Residency} {trace : TraceId}
    (log : EntityId × Arc LogRecord) (entry : Suppression)
    (h : residency.suppressionOf trace log = some entry) : entry.log = log.1 := by
  obtain ⟨exact, -, rfl⟩ := Option.map_eq_some_iff.mp h
  rfl

theorem Residency.log_of_absenceOf {residency : Residency} {trace : TraceId}
    (log : EntityId × Arc LogRecord) (entry : AbsentTrace)
    (h : residency.absenceOf trace log = some entry) : entry.log = log.1 := by
  unfold Residency.absenceOf at h
  split at h
  · exact Option.some.inj h ▸ rfl
  · exact absurd h (by simp)

/-- **The accounts are complete** exactly when every log record of the trace that calls for an entry
is reached by the scans, once, and the strategy is listed once. -/
theorem accounting_complete_iff (store : FixedStore) (bounds : CorrelationBounds) (trace : TraceId)
    (hhops : 1 ≤ bounds.maxHops) (hsubject : bounds.subjectTrace = some trace) :
    store.residency.AccountsFor trace (correlate (fun _ => store.driver) bounds).truth ↔
      ∀ log ∈ store.residency.logsOfTrace trace, store.residency.Accountable trace log →
        bounds.strategies.count .traceIdentity = 1 ∧
          ((store.residency.reachedLogs bounds.maxScan).map Prod.fst).count log.1 = 1 := by
  obtain ⟨hsuppressions, habsences⟩ := store.truth_accounts hhops hsubject
  have hreached : store.residency.reachedLogs bounds.maxScan ⊆ store.residency.residentLogs :=
    fun _ => List.mem_of_mem_take
  constructor
  · intro h log hlog haccountable
    have honce : bounds.strategies.count .traceIdentity *
        ((store.residency.reachedLogs bounds.maxScan).map Prod.fst).count log.1 = 1 := by
      rcases (store.residency.accountable_iff trace log).mp haccountable with hsome | hsome
      · have hlisted := h.suppression log hlog
        rw [hsuppressions,
          store.filter_accounts Residency.log_of_suppressionOf hreached hlog] at hlisted
        exact filterMap_replicate_eq_toList.mp hlisted hsome
      · have hlisted := h.absence log hlog
        rw [habsences, store.filter_accounts Residency.log_of_absenceOf hreached hlog] at hlisted
        exact filterMap_replicate_eq_toList.mp hlisted hsome
    exact ⟨Nat.eq_one_of_mul_eq_one_right honce, Nat.eq_one_of_mul_eq_one_left honce⟩
  · intro h
    have honce : ∀ log ∈ store.residency.logsOfTrace trace,
        store.residency.Accountable trace log → bounds.strategies.count .traceIdentity *
          ((store.residency.reachedLogs bounds.maxScan).map Prod.fst).count log.1 = 1 :=
      fun log hlog haccountable => by
        rw [(h log hlog haccountable).1, (h log hlog haccountable).2]
    refine ⟨fun log hlog => ?_, fun entry hentry => ?_, fun log hlog => ?_, fun entry hentry => ?_⟩
    · rw [hsuppressions, store.filter_accounts Residency.log_of_suppressionOf hreached hlog]
      exact filterMap_replicate_eq_toList.mpr fun hsome => honce log hlog
        ((store.residency.accountable_iff trace log).mpr (Or.inl hsome))
    · rw [hsuppressions] at hentry
      exact store.due_of_listed hentry
    · rw [habsences, store.filter_accounts Residency.log_of_absenceOf hreached hlog]
      exact filterMap_replicate_eq_toList.mpr fun hsome => honce log hlog
        ((store.residency.accountable_iff trace log).mpr (Or.inr hsome))
    · rw [habsences] at hentry
      exact store.due_of_listed hentry

/-- Under an allowance of ten, the one log record whose exact span is resident is reached. -/
theorem accounting_complete_rootAndChild :
    rootAndChildStore.residency.AccountsFor (.ofByte 1)
      (correlate (fun _ => rootAndChildStore.driver) identityBounds).truth :=
  (accounting_complete_iff rootAndChildStore identityBounds (.ofByte 1) (by decide) rfl).mpr
    (fun log hlog _ => ⟨by decide, by
      have hresident : log ∈ rootAndChildStore.residency.residentLogs :=
        (List.mem_filter.mp hlog).1
      have hall : ∀ log ∈ rootAndChildStore.residency.residentLogs,
          ((rootAndChildStore.residency.reachedLogs 10).map Prod.fst).count log.1 = 1 := by
        decide +kernel
      exact hall log hresident⟩)

/-- Under an allowance of two the spans take it all: the suppression due for the first log record is
not listed. -/
theorem accounting_cut_by_allowance :
    ¬ rootAndChildStore.residency.AccountsFor (.ofByte 1)
      (correlate (fun _ => rootAndChildStore.driver)
        { identityBounds with maxScan := 2 }).truth := by
  intro h
  have hlisted := h.suppression
    (.serial 1, ⟨2, { LogRecord.bare (some (.ofByte 1)) none with spanId := some (.ofByte 1) }⟩)
    (by simp [Residency.logsOfTrace, Residency.residentLogs, rootAndChildStore, rootAndChild,
      LogRecord.bare])
  exact absurd hlisted (by decide +kernel)

end RuntimeTrail
