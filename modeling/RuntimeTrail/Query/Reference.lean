import RuntimeTrail.Memory.Coherence
import RuntimeTrail.Query.Page

/-!
# The page a budget asks for

What a page over a fixed store has to be, said without the walk: take the
records strictly after the resume point and not past the bound, examine them one
by one until the scan ceiling is spent, and deliver the longest run of the
matching ones that the results and byte ceilings afford.

* **what is afforded** — `QueryBudget.Longest`, and `longest_append` which tells
  it by the first record left out;
* **the reference** — `PageReference`, and `page_eq_reference` which shows that
  every page meets it.
-/

namespace RuntimeTrail

open Library

/-! ## What a budget affords -/

namespace QueryBudget

/-- The results and byte ceilings cover these records. -/
def Affords (budget : QueryBudget) (records : List Yield) : Prop :=
  records.length ≤ budget.maxResults ∧ Walk.evidenceSum records ≤ budget.maxBytes

/-- The longest run from the start of `records` that is afforded. -/
structure Longest (budget : QueryBudget) (run records : List Yield) : Prop where
  begins : run <+: records
  affords : budget.Affords run
  longest : ∀ other, other <+: records → budget.Affords other → other.length ≤ run.length

theorem Affords.of_begins {budget : QueryBudget} {run records : List Yield}
    (h : budget.Affords records) (hbegins : run <+: records) : budget.Affords run := by
  obtain ⟨rest, rfl⟩ := hbegins
  obtain ⟨hlength, hbytes⟩ := h
  rw [List.length_append] at hlength
  rw [Walk.evidenceSum, List.map_append, List.sum_append] at hbytes
  exact ⟨by omega, by rw [Walk.evidenceSum]; omega⟩

/-- An afforded run is the longest when the first record left out is not afforded with it. -/
theorem longest_append {budget : QueryBudget} {run left : List Yield} (h : budget.Affords run)
    (hleft : ∀ first, left.head? = some first → ¬ budget.Affords (run ++ [first])) :
    budget.Longest run (run ++ left) := by
  refine ⟨List.prefix_append _ _, h, fun other hbegins hother => ?_⟩
  by_contra hlonger
  cases left with
  | nil =>
    rw [List.append_nil] at hbegins
    exact hlonger hbegins.length_le
  | cons first behind =>
    have hshort : run ++ [first] <+: run ++ first :: behind := ⟨behind, by simp⟩
    have hle : run ++ [first] <+: other :=
      List.prefix_of_prefix_length_le hshort hbegins (by
        rw [List.length_append, List.length_singleton]
        omega)
    exact hleft first rfl (hother.of_begins hle)

end QueryBudget

/-! ## The reference -/

/-- The records strictly after the resume point and not past the bound, in residency order. -/
def WalkInput.upTo (input : WalkInput) (residents : List Yield) : List Yield :=
  (Walk.aheadOf residents (input.presented.map CursorPayload.anchor)).filter
    fun y => !input.pastBound y.key

/-- What the reference leaves out of the matching records it examines. -/
def WalkInput.omitted (input : WalkInput) (budget : QueryBudget) (upTo delivered : List Yield) :
    List Yield :=
  (Walk.matching input (upTo.take budget.maxScan)).drop delivered.length

/-- A page against its reference. -/
structure PageReference (input : WalkInput) (budget : QueryBudget) (upTo delivered : List Yield)
    (outcome : PartOutcome) (page : Page RecordView) : Prop where
  items : page.items = delivered.map Yield.record
  parts : page.execution.parts = [outcome]
  /-- The longest prefix of the examined matching records within the results and byte ceilings. -/
  longest : budget.Longest delivered (Walk.matching input (upTo.take budget.maxScan))
  /-- Complete: everything up to the bound examined, everything that matched returned. -/
  complete : outcome = .complete ↔
    upTo.length ≤ budget.maxScan ∧ Walk.matching input upTo = delivered
  /-- The results gate is tested before the byte gate. -/
  results : input.omitted budget upTo delivered ≠ [] → delivered.length = budget.maxResults →
    ∃ position, outcome = .degraded ⟨.results, position, 0⟩
  /-- Behind a byte wall every further matching record examined is counted. -/
  wall : input.omitted budget upTo delivered ≠ [] → delivered.length < budget.maxResults →
    ∃ position, outcome =
      .degraded ⟨.bytes, position, (input.omitted budget upTo delivered).length⟩
  scan : input.omitted budget upTo delivered = [] → budget.maxScan < upTo.length →
    ∃ position, outcome = .degraded ⟨.scan, position, 0⟩
  /-- An uncounted tail is named exactly when the scan ceiling cuts a count short. -/
  tail : (∃ after dimension, .uncountedTail after dimension ∈ page.execution.coverage) ↔
    input.omitted budget upTo delivered ≠ [] ∧ delivered.length < budget.maxResults ∧
      budget.maxScan < upTo.length
  /-- Otherwise what is counted is all that remains of the matching records. -/
  counted : (∀ after dimension, .uncountedTail after dimension ∉ page.execution.coverage) →
    input.omitted budget upTo delivered ≠ [] → delivered.length < budget.maxResults →
      input.omitted budget upTo delivered = (Walk.matching input upTo).drop delivered.length

namespace PageOf

variable {input : WalkInput} {budget : QueryBudget} {now : Instant}
  {whole examined delivered counted rest : List Yield} {page : Page RecordView}

/-- The uncounted tails of the page, once its verdict is known. -/
theorem tail_iff {tails : List CoverageEntry} (h : Walk.Tails page.execution.coverage tails) :
    (∃ after dimension, .uncountedTail after dimension ∈ page.execution.coverage) ↔
      ∃ after dimension, .uncountedTail after dimension ∈ tails :=
  exists_congr fun after => exists_congr fun dimension => h after dimension

/-- A page whose walk examined everything up to the bound, or the scan ceiling's worth of it. -/
theorem reference_of_examined (h : PageOf input (budget.admitSession now) whole examined delivered
    counted rest page) {upTo : List Yield} {outcome : PartOutcome} {tails : List CoverageEntry}
    (htaken : upTo.take budget.maxScan = examined)
    (hparts : page.execution.parts = [outcome])
    (htails : Walk.Tails page.execution.coverage tails)
    (hdrained : upTo.length ≤ budget.maxScan → upTo = examined)
    (hcomplete : outcome = .complete ↔ upTo.length ≤ budget.maxScan ∧ counted = [])
    (hwall : counted ≠ [] → ∃ position, outcome = .degraded ⟨.bytes, position, counted.length⟩)
    (hscan : counted = [] → budget.maxScan < upTo.length →
      ∃ position, outcome = .degraded ⟨.scan, position, 0⟩)
    (htail : (∃ after dimension, CoverageEntry.uncountedTail after dimension ∈ tails) ↔
      counted ≠ [] ∧ budget.maxScan < upTo.length) :
    PageReference input budget upTo delivered outcome page := by
  have hmatched : Walk.matching input (upTo.take budget.maxScan) = delivered ++ counted := by
    rw [htaken, h.matched]
  have homitted : input.omitted budget upTo delivered = counted := by
    rw [WalkInput.omitted, hmatched, List.drop_left]
  have hroom : counted ≠ [] → delivered.length < budget.maxResults := fun hne =>
    (h.wall.resolve_left hne).1
  have hall : upTo.length ≤ budget.maxScan → Walk.matching input upTo = delivered ++ counted :=
    fun hle => by rw [hdrained hle, h.matched]
  refine ⟨h.items, hparts, ?_, ?_, ?_, ?_, ?_, ?_, ?_⟩
  · rw [hmatched]
    refine QueryBudget.longest_append h.fits fun first hfirst hafford => ?_
    rcases h.wall with rfl | ⟨-, first', hfirst', hbytes⟩
    · exact absurd hfirst (by simp)
    · obtain rfl := Option.some.inj (hfirst.symm.trans hfirst')
      have hsum := hafford.2
      rw [Walk.evidenceSum_concat] at hsum
      exact absurd hsum (not_le.mpr hbytes)
  · rw [hcomplete]
    refine and_congr_right fun hle => ?_
    rw [hall hle]
    simp
  · rw [homitted]
    intro hne hceiling
    have := hroom hne
    omega
  · rw [homitted]
    intro hne _
    exact hwall hne
  · rw [homitted]
    exact hscan
  · rw [tail_iff htails, htail, homitted]
    exact ⟨fun ⟨hne, hlt⟩ => ⟨hne, hroom hne, hlt⟩, fun ⟨hne, _, hlt⟩ => ⟨hne, hlt⟩⟩
  · rw [homitted]
    intro hnone hne hroom
    have hle : upTo.length ≤ budget.maxScan := by
      by_contra hlt
      obtain ⟨after, dimension, hmem⟩ :=
        (tail_iff htails).mpr (htail.mpr ⟨hne, not_le.mp hlt⟩)
      exact hnone after dimension hmem
    rw [hall hle, List.drop_left]

/-- A page whose results ceiling was spent, with a matching record up to the bound left: that record
was examined, and left out. -/
theorem reference_of_results (h : PageOf input (budget.admitSession now) whole examined delivered
    counted rest page) {upTo : List Yield}
    (hupTo : upTo = examined ++ rest.filter fun y => !input.pastBound y.key)
    {position : TruncationPoint}
    (hparts : page.execution.parts = [.degraded ⟨.results, position, 0⟩])
    (htails : Walk.Tails page.execution.coverage []) {yielded : Yield} {behind : List Yield}
    (hnext : rest = yielded :: behind) (hwithin : input.pastBound yielded.key = false)
    (hmatching : input.filters.matchesView yielded.record = true)
    (hroom : examined.length < budget.maxScan) (hfull : delivered.length = budget.maxResults)
    (huncounted : counted = []) :
    PageReference input budget upTo delivered (.degraded ⟨.results, position, 0⟩) page := by
  obtain ⟨further, hfurther⟩ : ∃ further, rest.filter (fun y => !input.pastBound y.key) =
      yielded :: further := ⟨_, by rw [hnext]; exact List.filter_cons_of_pos (by simp [hwithin])⟩
  rw [hfurther] at hupTo
  obtain ⟨more, hmore⟩ : ∃ more, upTo.take budget.maxScan = examined ++ yielded :: more := by
    obtain ⟨n, hn⟩ : ∃ n, budget.maxScan - examined.length = n + 1 :=
      ⟨budget.maxScan - examined.length - 1, by omega⟩
    refine ⟨further.take n, ?_⟩
    rw [hupTo, List.take_append, List.take_of_length_le hroom.le, hn, List.take_succ_cons]
  have hexamined : Walk.matching input examined = delivered := by
    rw [h.matched, huncounted, List.append_nil]
  have hbehind : ∀ records, Walk.matching input (examined ++ yielded :: records) =
      delivered ++ yielded :: Walk.matching input records := fun records => by
    rw [Walk.matching_append, Walk.matching_cons input hmatching, hexamined]
  have homitted : input.omitted budget upTo delivered = yielded :: Walk.matching input more := by
    rw [WalkInput.omitted, hmore, hbehind, List.drop_left]
  refine ⟨h.items, hparts, ?_, ?_, ?_, ?_, ?_, ?_, ?_⟩
  · rw [hmore, hbehind]
    refine QueryBudget.longest_append h.fits fun first _ hafford => ?_
    have hlen := hafford.1
    rw [List.length_append, List.length_singleton] at hlen
    omega
  · refine ⟨fun heq => absurd heq (by simp), fun hand => absurd hand.2 ?_⟩
    rw [hupTo, hbehind]
    simp
  · exact fun _ _ => ⟨_, rfl⟩
  · exact fun _ hlt => absurd hlt (by omega)
  · exact fun hnil => absurd (homitted ▸ hnil) (by simp)
  · rw [tail_iff htails]
    refine ⟨fun ⟨_, _, hmem⟩ => absurd hmem (by simp), fun hand => absurd hand.2.1 (by omega)⟩
  · exact fun _ _ hlt => absurd hlt (by omega)

/-- **A page is its reference**, whatever its verdict. -/
theorem reference (h : PageOf input (budget.admitSession now) whole examined delivered counted rest
    page) (hkeyed : Keyed Yield.key whole) :
    ∃ outcome, PageReference input budget (whole.filter fun y => !input.pastBound y.key) delivered
      outcome page := by
  obtain ⟨outcome, tails, hparts, -, htails, hverdict⟩ := h.answered
  have hupTo := h.upTo_eq
  have hscanned : examined.length ≤ budget.maxScan := h.scanned
  generalize whole.filter (fun y => !input.pastBound y.key) = upTo at hupTo ⊢
  refine ⟨outcome, ?_⟩
  -- everything up to the bound was examined
  have hall : input.drained rest = true → upTo = examined := fun hdrained => by
    rw [hupTo, h.rest_within hkeyed hdrained, List.append_nil]
  -- the scan ceiling was spent with a record up to the bound left
  have hcut : input.drained rest = false → examined.length = budget.maxScan →
      upTo.take budget.maxScan = examined ∧ budget.maxScan < upTo.length := fun hmore hceiling => by
    refine ⟨by rw [hupTo, ← hceiling, List.take_left], ?_⟩
    cases rest with
    | nil => exact absurd hmore (by simp [WalkInput.drained])
    | cons first behind =>
      have hwithin : input.pastBound first.key = false := hmore
      rw [hupTo, List.filter_cons_of_pos (by simp [hwithin]), List.length_append, List.length_cons]
      omega
  have hlonger : budget.maxScan < upTo.length → ¬ upTo.length ≤ budget.maxScan := not_le.mpr
  cases hverdict with
  | complete drained uncounted =>
    obtain rfl := hall drained
    exact h.reference_of_examined (List.take_of_length_le hscanned) hparts htails (fun _ => rfl)
      ⟨fun _ => ⟨hscanned, uncounted⟩, fun _ => rfl⟩ (fun hne => absurd uncounted hne)
      (fun _ hlt => absurd hscanned (hlonger hlt)) (by simp [uncounted])
  | @counted last drained counting =>
    obtain rfl := hall drained
    have hne : counted ≠ [] := fun hnil => by simp [hnil] at counting
    exact h.reference_of_examined (List.take_of_length_le hscanned) hparts htails (fun _ => rfl)
      ⟨fun heq => absurd heq (by simp), fun hand => absurd hand.2 hne⟩ (fun _ => ⟨_, rfl⟩)
      (fun hnil => absurd hnil hne) (by simp [not_lt.mpr hscanned])
  | @cut last more ceiling counting =>
    obtain ⟨htaken, hlt⟩ := hcut more ceiling
    have hne : counted ≠ [] := fun hnil => by simp [hnil] at counting
    exact h.reference_of_examined htaken hparts htails (fun hle => absurd hle (hlonger hlt))
      ⟨fun heq => absurd heq (by simp), fun hand => absurd hand.1 (hlonger hlt)⟩
      (fun _ => ⟨_, rfl⟩) (fun hnil => absurd hnil hne) (by simp [hne, hlt])
  | @scan last more ceiling uncounted spent =>
    obtain ⟨htaken, hlt⟩ := hcut more ceiling
    exact h.reference_of_examined htaken hparts htails (fun hle => absurd hle (hlonger hlt))
      ⟨fun heq => absurd heq (by simp), fun hand => absurd hand.1 (hlonger hlt)⟩
      (fun hne => absurd uncounted hne) (fun _ _ => ⟨_, rfl⟩) (by simp [uncounted])
  | results next within matched room ceiling uncounted spent =>
    exact h.reference_of_results hupTo hparts htails next within matched room ceiling uncounted

end PageOf

/-! ## Every page of a fixed store -/

/-- **One page equals its reference.**  Over every fixed store, for every records query, positive
budget and resume position, before the deadline, with a lease or without. -/
theorem page_eq_reference (store : FixedStore) (query : RecordsQuery) (budget : QueryBudget)
    (clock : Clock) (continuation : Option (List UInt8)) (lease : Option SnapshotLease)
    (page : Page RecordView) (hpositive : budget.Positive)
    (hlive : ∀ n, clock n - clock 0 < budget.deadline)
    (h : recordsInner (fun _ => store.driver) query budget clock continuation lease = .ok page) :
    ∃ presented, Resumes continuation presented ∧
      let input := walkInput (fun _ => store.driver) query clock presented
      ∃ delivered outcome, PageReference input budget
        (input.upTo (store.residency.yields query.kind)) delivered outcome page := by
  obtain ⟨presented, hresumes, rfl⟩ := recordsInner_eq_ok h
  refine ⟨presented, hresumes, ?_⟩
  intro input
  obtain ⟨examined, delivered, counted, rest, hpage⟩ :=
    store.answer_page query hpositive hlive presented
  have hkeyed := (store.residency.keyed_yields query.kind).filter fun y =>
    y.key.follows (presented.map CursorPayload.anchor)
  obtain ⟨outcome, hreference⟩ := hpage.reference hkeyed
  exact ⟨delivered, outcome, hreference⟩

/-- A memory store that has kept so many log records, one at each time from 0 on. -/
def keptLogs (n : Nat) : FixedStore :=
  (InMemoryStore.coherent_of_reaches (@InMemoryStore.reaches_run InMemoryStore.anyOp
    (fun _ _ => trivial)
    ((List.range n).map fun i => .keepLogRecord ⟨.serial (i + 1), ⟨i⟩, ⟨i, .bare none none⟩⟩)
    (InMemoryStore.new ⟨1000, 1000000, 1000, 5⟩ true))).fixedStore

/-- A clock that stands still. -/
def still : Clock := fun _ => 0

/-- A budget for one record. -/
def budgetOfOne : QueryBudget := ⟨1, 1, 1000, 1000, 0⟩

/-- Two records kept, and a page for one of them. -/
theorem page_eq_reference_keptLogs :
    ∃ presented, Resumes none presented ∧
      let input := walkInput (fun _ => (keptLogs 2).driver) (.new .logRecords) still presented
      ∃ delivered outcome, PageReference input budgetOfOne
        (input.upTo ((keptLogs 2).residency.yields .logRecords)) delivered outcome
        (answer (fun _ => (keptLogs 2).driver) (.new .logRecords) budgetOfOne still none) :=
  page_eq_reference (keptLogs 2) (.new .logRecords) budgetOfOne still none none _
    ⟨by decide, by decide, by decide⟩ (fun _ => Nat.zero_lt_one) rfl

end RuntimeTrail
