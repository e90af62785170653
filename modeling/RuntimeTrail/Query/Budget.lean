import RuntimeTrail.Model.Size

/-!
# Query budgets

Every query is admitted with five ceilings and spends against them.  Four are
counters: an ask takes what fits, and a shortfall drains the counter and comes
back as a refusal naming the dimension, its limit and what was spent.  The fifth
is time: a duration measured from the reading the admission took, checked before
the counter of every ask.

* **one ask** — `Allowance.degrade_exact`, `Allowance.degrade_short`: all of it,
  or the rest of the counter and a refusal that names the dimension;
* **a live deadline** — `BudgetSession.Alive` says a reading is before it; there
  an ask is refused by its own counter or not at all (`allowScan_short`,
  `allowResults_ne_short`, `allowBytes_ne_short`).
-/

namespace RuntimeTrail

/-! ## Refusals -/

/-- The five dimensions a query is admitted with. -/
inductive Dimension where
  | deadline
  | results
  | bytes
  | scan
  | aggregationMemory
deriving DecidableEq

/-- The magnitude a limit and an observed spend are stated in; durations in nanoseconds. -/
inductive Magnitude where
  | duration (nanos : Nat)
  | units (count : Nat)
  | bytes (count : Nat)
deriving DecidableEq

/-- A refused part of an answer: the dimension, its limit, the observed spend. -/
structure BudgetRefusal where
  dimension : Dimension
  limit : Magnitude
  observed : Magnitude
deriving DecidableEq

/-! ## Allowances -/

/-- What a traversal-shaped charge may take. -/
inductive TraversalAllowance where
  | exact (granted : Nat)
  | short (granted : Nat) (refusal : BudgetRefusal)
deriving DecidableEq

/-- One dimension's limit and what is left of it. -/
structure Allowance where
  limit : Nat
  remaining : Nat

namespace Allowance

def new (limit : Nat) : Allowance := ⟨limit, limit⟩

/-- Grant what fits of `want`; a shortfall drains the dimension and is refused. -/
def degrade (a : Allowance) (dimension : Dimension) (want : Nat) (magnitude : Nat → Magnitude) :
    TraversalAllowance × Allowance :=
  if want ≤ a.remaining then (.exact want, { a with remaining := a.remaining - want })
  else
    (.short a.remaining ⟨dimension, magnitude a.limit, magnitude a.limit⟩,
      { a with remaining := 0 })

theorem degrade_of_le {a : Allowance} {want : Nat} (h : want ≤ a.remaining)
    (dimension : Dimension) (magnitude : Nat → Magnitude) :
    a.degrade dimension want magnitude =
      (.exact want, { a with remaining := a.remaining - want }) := if_pos h

theorem degrade_of_lt {a : Allowance} {want : Nat} (h : a.remaining < want)
    (dimension : Dimension) (magnitude : Nat → Magnitude) :
    a.degrade dimension want magnitude =
      (.short a.remaining ⟨dimension, magnitude a.limit, magnitude a.limit⟩,
        { a with remaining := 0 }) := if_neg (Nat.not_le.mpr h)

/-- A grant in full takes exactly what was asked. -/
theorem degrade_exact {a a' : Allowance} {dimension : Dimension} {want granted : Nat}
    {magnitude : Nat → Magnitude}
    (h : a.degrade dimension want magnitude = (.exact granted, a')) :
    want ≤ a.remaining ∧ a' = { a with remaining := a.remaining - want } := by
  by_cases hfit : want ≤ a.remaining
  · rw [degrade_of_le hfit] at h
    exact ⟨hfit, (Prod.mk.inj h).2.symm⟩
  · rw [degrade_of_lt (not_le.mp hfit)] at h
    exact absurd (Prod.mk.inj h).1 (by simp)

/-- A shortfall names its dimension. -/
theorem degrade_short {a a' : Allowance} {dimension : Dimension} {want granted : Nat}
    {magnitude : Nat → Magnitude} {refusal : BudgetRefusal}
    (h : a.degrade dimension want magnitude = (.short granted refusal, a')) :
    a.remaining < want ∧ refusal = ⟨dimension, magnitude a.limit, magnitude a.limit⟩ := by
  by_cases hfit : want ≤ a.remaining
  · rw [degrade_of_le hfit] at h
    exact absurd (Prod.mk.inj h).1 (by simp)
  · rw [degrade_of_lt (not_le.mp hfit)] at h
    have hrefusal := (Prod.mk.inj h).1
    simp only [TraversalAllowance.short.injEq] at hrefusal
    exact ⟨not_le.mp hfit, hrefusal.2.symm⟩

/-- Granted or refused, a charge takes from what remains. -/
theorem degrade_le (a : Allowance) (dimension : Dimension) (want : Nat) (magnitude : Nat → Magnitude) :
    (a.degrade dimension want magnitude).2.remaining ≤ a.remaining := by
  unfold degrade
  split
  · exact Nat.sub_le _ _
  · exact Nat.zero_le _

end Allowance

/-- The remaining allowance of the four counted dimensions. -/
structure SpendLedger where
  results : Allowance
  bytes : Allowance
  scan : Allowance
  aggregationMemory : Allowance

namespace SpendLedger

/-- A ledger fresh from a budget: everything remains. -/
def new (maxResults maxBytes maxScan maxAggregationMemory : Nat) : SpendLedger :=
  ⟨.new maxResults, .new maxBytes, .new maxScan, .new maxAggregationMemory⟩

def allowResults (l : SpendLedger) (want : Nat) : TraversalAllowance × SpendLedger :=
  let charge := l.results.degrade .results want .units
  (charge.1, { l with results := charge.2 })

def allowBytes (l : SpendLedger) (want : Nat) : TraversalAllowance × SpendLedger :=
  let charge := l.bytes.degrade .bytes want .bytes
  (charge.1, { l with bytes := charge.2 })

def allowScan (l : SpendLedger) (want : Nat) : TraversalAllowance × SpendLedger :=
  let charge := l.scan.degrade .scan want .units
  (charge.1, { l with scan := charge.2 })

/-- Settles records pulled but never examined, up to what remains of the ceiling. -/
def settleScan (l : SpendLedger) (units : Nat) : SpendLedger :=
  { l with scan := { l.scan with remaining := l.scan.remaining - min units l.scan.remaining } }

def remainingResults (l : SpendLedger) : Nat := l.results.remaining

def remainingBytes (l : SpendLedger) : Nat := l.bytes.remaining

end SpendLedger

/-! ## Admission -/

/-- A reading of the monotonic clock, in nanoseconds. -/
abbrev Instant := Nat

/-- The budget a query is admitted with; the deadline in nanoseconds. -/
structure QueryBudget where
  deadline : Nat
  maxResults : Nat
  maxBytes : Nat
  maxScan : Nat
  maxAggregationMemory : Nat
deriving DecidableEq

/-- One admitted query's budget in flight. -/
structure BudgetSession where
  budget : QueryBudget
  admittedAt : Instant
  ledger : SpendLedger

/-- Admits the query at the reading `admittedAt`. -/
def QueryBudget.admitSession (budget : QueryBudget) (admittedAt : Instant) : BudgetSession where
  budget := budget
  admittedAt := admittedAt
  ledger := .new budget.maxResults budget.maxBytes budget.maxScan budget.maxAggregationMemory

/-- Every counted ceiling a records query spends against is at least one. -/
structure QueryBudget.Positive (budget : QueryBudget) : Prop where
  results : 0 < budget.maxResults
  bytes : 0 < budget.maxBytes
  scan : 0 < budget.maxScan

namespace BudgetSession

/-- Time left before the deadline, floored at zero. -/
def deadlineRemaining (s : BudgetSession) (now : Instant) : Nat :=
  s.budget.deadline - (now - s.admittedAt)

def deadlineExhausted (s : BudgetSession) (now : Instant) : Bool := s.deadlineRemaining now == 0

/-- The deadline refusal: the admitted duration, and what was burned of it. -/
def deadlineRefusal (s : BudgetSession) (now : Instant) : BudgetRefusal :=
  ⟨.deadline, .duration s.budget.deadline, .duration (now - s.admittedAt)⟩

/-- A traversal-shaped ask: the deadline first, then the ledger. -/
def allow (s : BudgetSession) (now : Instant)
    (charge : SpendLedger → TraversalAllowance × SpendLedger) :
    TraversalAllowance × BudgetSession :=
  if s.deadlineExhausted now then (.short 0 (s.deadlineRefusal now), s)
  else ((charge s.ledger).1, { s with ledger := (charge s.ledger).2 })

def allowResults (s : BudgetSession) (now : Instant) (want : Nat) :
    TraversalAllowance × BudgetSession := s.allow now fun ledger => ledger.allowResults want

def allowBytes (s : BudgetSession) (now : Instant) (want : Nat) :
    TraversalAllowance × BudgetSession := s.allow now fun ledger => ledger.allowBytes want

def allowScan (s : BudgetSession) (now : Instant) (want : Nat) :
    TraversalAllowance × BudgetSession := s.allow now fun ledger => ledger.allowScan want

/-- Bookkeeping of work already done: never deadline-checked, never an outcome. -/
def settleAbandonedScan (s : BudgetSession) (units : Nat) : BudgetSession :=
  { s with ledger := s.ledger.settleScan units }

/-! ## What an ask does -/

/-- The reading is before the deadline. -/
def Alive (s : BudgetSession) (now : Instant) : Prop := now - s.admittedAt < s.budget.deadline

theorem deadlineExhausted_iff {s : BudgetSession} {now : Instant} :
    s.deadlineExhausted now = true ↔ ¬ s.Alive now := by
  rw [deadlineExhausted, deadlineRemaining, Alive, beq_iff_eq, Nat.sub_eq_zero_iff_le, not_lt]

/-- A charge granted in full was made before the deadline, against the ledger. -/
theorem allow_exact {s s' : BudgetSession} {now : Instant} {granted : Nat}
    {charge : SpendLedger → TraversalAllowance × SpendLedger}
    (h : s.allow now charge = (.exact granted, s')) :
    (charge s.ledger).1 = .exact granted ∧ s' = { s with ledger := (charge s.ledger).2 } := by
  unfold allow at h
  split at h
  · exact absurd (Prod.mk.inj h).1 (by simp)
  · exact ⟨(Prod.mk.inj h).1, (Prod.mk.inj h).2.symm⟩

theorem alive_of_allow {s s' : BudgetSession} {now : Instant} {granted : Nat}
    {charge : SpendLedger → TraversalAllowance × SpendLedger}
    (h : s.allow now charge = (.exact granted, s')) : s.Alive now := by
  by_contra hdead
  rw [allow, if_pos (deadlineExhausted_iff.mpr hdead)] at h
  cases (Prod.mk.inj h).1

/-- A refused charge: past the deadline, or short in the ledger. -/
theorem allow_short {s s' : BudgetSession} {now : Instant} {granted : Nat} {refusal : BudgetRefusal}
    {charge : SpendLedger → TraversalAllowance × SpendLedger}
    (h : s.allow now charge = (.short granted refusal, s')) :
    ¬ s.Alive now ∨ (charge s.ledger).1 = .short granted refusal := by
  unfold allow at h
  split at h
  · rename_i hdead
    exact Or.inl (deadlineExhausted_iff.mp hdead)
  · exact Or.inr (Prod.mk.inj h).1

theorem allowScan_exact {s s' : BudgetSession} {now : Instant} {want granted : Nat}
    (h : s.allowScan now want = (.exact granted, s')) :
    want ≤ s.ledger.scan.remaining ∧ s' = { s with ledger := { s.ledger with
      scan := { s.ledger.scan with remaining := s.ledger.scan.remaining - want } } } := by
  obtain ⟨hcharge, rfl⟩ := allow_exact h
  obtain ⟨hfit, heq⟩ := Allowance.degrade_exact (Prod.ext hcharge rfl)
  exact ⟨hfit, by simp only [SpendLedger.allowScan, heq]⟩

theorem allowResults_exact {s s' : BudgetSession} {now : Instant} {want granted : Nat}
    (h : s.allowResults now want = (.exact granted, s')) :
    want ≤ s.ledger.results.remaining ∧ s' = { s with ledger := { s.ledger with
      results := { s.ledger.results with remaining := s.ledger.results.remaining - want } } } := by
  obtain ⟨hcharge, rfl⟩ := allow_exact h
  obtain ⟨hfit, heq⟩ := Allowance.degrade_exact (Prod.ext hcharge rfl)
  exact ⟨hfit, by simp only [SpendLedger.allowResults, heq]⟩

theorem allowBytes_exact {s s' : BudgetSession} {now : Instant} {want granted : Nat}
    (h : s.allowBytes now want = (.exact granted, s')) :
    want ≤ s.ledger.bytes.remaining ∧ s' = { s with ledger := { s.ledger with
      bytes := { s.ledger.bytes with remaining := s.ledger.bytes.remaining - want } } } := by
  obtain ⟨hcharge, rfl⟩ := allow_exact h
  obtain ⟨hfit, heq⟩ := Allowance.degrade_exact (Prod.ext hcharge rfl)
  exact ⟨hfit, by simp only [SpendLedger.allowBytes, heq]⟩

/-- Granted or refused, an ask never gives anything back, and touches its own counter alone. -/
theorem allow_le {s s' : BudgetSession} {now : Instant} {allowance : TraversalAllowance}
    {charge : SpendLedger → TraversalAllowance × SpendLedger} (h : s.allow now charge = (allowance, s')) :
    s' = s ∨ s' = { s with ledger := (charge s.ledger).2 } := by
  unfold allow at h
  split at h
  · exact Or.inl (Prod.mk.inj h).2.symm
  · exact Or.inr (Prod.mk.inj h).2.symm

theorem allowScan_le {s s' : BudgetSession} {now : Instant} {want : Nat}
    {allowance : TraversalAllowance} (h : s.allowScan now want = (allowance, s')) :
    s'.ledger.results = s.ledger.results ∧ s'.ledger.bytes = s.ledger.bytes := by
  rcases allow_le h with rfl | rfl <;> exact ⟨rfl, rfl⟩

theorem allowResults_le {s s' : BudgetSession} {now : Instant} {want : Nat}
    {allowance : TraversalAllowance} (h : s.allowResults now want = (allowance, s')) :
    s'.ledger.results.remaining ≤ s.ledger.results.remaining ∧ s'.ledger.bytes = s.ledger.bytes := by
  rcases allow_le h with rfl | rfl
  · exact ⟨le_rfl, rfl⟩
  · exact ⟨Allowance.degrade_le _ _ _ _, rfl⟩

theorem allowBytes_le {s s' : BudgetSession} {now : Instant} {want : Nat}
    {allowance : TraversalAllowance} (h : s.allowBytes now want = (allowance, s')) :
    s'.ledger.results = s.ledger.results ∧
      s'.ledger.bytes.remaining ≤ s.ledger.bytes.remaining := by
  rcases allow_le h with rfl | rfl
  · exact ⟨rfl, le_rfl⟩
  · exact ⟨rfl, Allowance.degrade_le _ _ _ _⟩

/-- Before the deadline a scan charge is refused by a spent ceiling only. -/
theorem allowScan_short {s s' : BudgetSession} {now : Instant} {want granted : Nat}
    {refusal : BudgetRefusal} (hlive : s.Alive now)
    (h : s.allowScan now want = (.short granted refusal, s')) :
    s.ledger.scan.remaining < want ∧ refusal.dimension = .scan := by
  rcases allow_short h with hdead | hcharge
  · exact absurd hlive hdead
  · obtain ⟨hlt, hrefusal⟩ := Allowance.degrade_short (Prod.ext hcharge rfl)
    exact ⟨hlt, by rw [hrefusal]⟩

/-- Before the deadline an ask the results ceiling covers is not refused. -/
theorem allowResults_ne_short {s s' : BudgetSession} {now : Instant} {want granted : Nat}
    {refusal : BudgetRefusal} (hlive : s.Alive now) (hfit : want ≤ s.ledger.results.remaining) :
    s.allowResults now want ≠ (.short granted refusal, s') := fun h => by
  rcases allow_short h with hdead | hcharge
  · exact hdead hlive
  · have := (Allowance.degrade_short (Prod.ext hcharge rfl)).1
    omega

/-- Before the deadline an ask the byte ceiling covers is not refused. -/
theorem allowBytes_ne_short {s s' : BudgetSession} {now : Instant} {want granted : Nat}
    {refusal : BudgetRefusal} (hlive : s.Alive now) (hfit : want ≤ s.ledger.bytes.remaining) :
    s.allowBytes now want ≠ (.short granted refusal, s') := fun h => by
  rcases allow_short h with hdead | hcharge
  · exact hdead hlive
  · have := (Allowance.degrade_short (Prod.ext hcharge rfl)).1
    omega

end BudgetSession

end RuntimeTrail
