import RuntimeTrail.Query.Reference
import RuntimeTrail.Query.Sources

/-!
# Chains of pages over a store at work

A caller follows `next_cursor` from page to page while the pump keeps records
and retention evicts them, between two pages as well as between two store calls
of one page.

* **a store at work** — `Timeline`, one operation at each moment, and
  `exists_enters`: what came to stand at some moment entered at one;
* **the chain** — `follow`, each page presented with the cursor of the page
  before it;
* **snapshot fixedness** — `snapshot_fixed`: a later page returns only what
  stood when the first page was answered, and ever since, provided no matching
  record entered inside the window the page reads;
* **the gap** — `gap_iff_anchor_gone`: a continuation names a gap exactly when
  its anchor's key is gone, unless the anchor's entity is resident under another
  key.
-/

namespace RuntimeTrail

open Library

/-! ## A store at work -/

/-- A memory store from its creation on, with the operation it is asked for at each moment. -/
structure Timeline where
  config : RetentionConfig
  hook : Bool
  ops : Nat → StoreOp

namespace Timeline

/-- The store as each moment finds it. -/
def store (T : Timeline) : Nat → InMemoryStore
  | 0 => .new T.config T.hook
  | t + 1 => ((T.store t).apply (T.ops t)).1

theorem coherent (T : Timeline) (t : Nat) : (T.store t).Coherent := by
  induction t with
  | zero => exact InMemoryStore.Coherent.new T.config T.hook
  | succ t ih => exact ih.apply (T.ops t)

/-- What a reader finds at each moment. -/
def history (T : Timeline) (t : Nat) : TelemetryStore := (T.store t).driver

/-- The residents of a kind at a moment. -/
def yields (T : Timeline) (kind : SignalKind) (t : Nat) : List Yield :=
  (T.store t).residency.yields kind

theorem serves (T : Timeline) (t : Nat) : (T.history t).Serves (T.store t).residency :=
  (T.coherent t).serves

/-- A record is kept at a moment: it stands after it, and did not before. -/
def Enters (T : Timeline) (kind : SignalKind) (t : Nat) (y : Yield) : Prop :=
  y ∉ T.yields kind t ∧ y ∈ T.yields kind (t + 1)

/-- What stands at a moment and did not at an earlier one entered in between. -/
theorem exists_enters {T : Timeline} {kind : SignalKind} {y : Yield} {t u : Nat} (htu : t ≤ u)
    (hbefore : y ∉ T.yields kind t) (hafter : y ∈ T.yields kind u) :
    ∃ v, t ≤ v ∧ v < u ∧ T.Enters kind v y := by
  induction u, htu using Nat.le_induction with
  | base => exact absurd hafter hbefore
  | succ u htu ih =>
    by_cases hu : y ∈ T.yields kind u
    · obtain ⟨v, htv, hvu, henters⟩ := ih hu
      exact ⟨v, htv, by omega, henters⟩
    · exact ⟨u, htu, by omega, hu, hafter⟩

end Timeline

/-! ## The chain -/

/-- A page as a caller asks for it: its budget, its clock, the moment of each of its store calls, and
the moment of its answer. -/
structure PageCall where
  budget : QueryBudget
  clock : Clock
  moments : Nat → Nat
  answered : Nat
  inOrder : ∀ n, moments n ≤ moments (n + 1)
  before : ∀ n, moments n ≤ answered

theorem PageCall.start_le (call : PageCall) (n : Nat) : call.moments 0 ≤ call.moments n := by
  induction n with
  | zero => exact Nat.le_refl _
  | succ n ih => exact ih.trans (call.inOrder n)

/-- A page with the continuation it was presented. -/
structure AnsweredPage where
  continuation : Option (List UInt8)
  call : PageCall
  page : Page RecordView

/-- The payload of the cursor a page was presented. -/
def AnsweredPage.presents (p : AnsweredPage) (payload : CursorPayload) : Prop :=
  ∃ bytes, p.continuation = some bytes ∧ CursorPayload.decode bytes = .ok payload

/-- The chain from a continuation on: each page is presented with the cursor of the page before it,
and the chain ends with a page that mints none. -/
def follow (history : Nat → TelemetryStore) (query : RecordsQuery) :
    Option (List UInt8) → List PageCall → List AnsweredPage
  | _, [] => []
  | continuation, call :: calls =>
    match records (fun n => history (call.moments n)) query call.budget call.clock continuation with
    | .error _ => []
    | .ok page =>
      ⟨continuation, call, page⟩ ::
        match page.nextCursor with
        | some bytes => follow history query (some bytes) calls
        | none => []

/-- Every page of a chain is the answer to its own continuation. -/
theorem answer_of_mem_follow {history : Nat → TelemetryStore} {query : RecordsQuery}
    {continuation : Option (List UInt8)} {calls : List PageCall} {p : AnsweredPage}
    (h : p ∈ follow history query continuation calls) :
    ∃ presented, Resumes p.continuation presented ∧
      p.page = answer (fun n => history (p.call.moments n)) query p.call.budget p.call.clock
        presented := by
  induction calls generalizing continuation with
  | nil => exact absurd h (by simp [follow])
  | cons call calls ih =>
    unfold follow at h
    split at h
    · exact absurd h (by simp)
    · rename_i page hpage
      rcases List.mem_cons.mp h with rfl | h
      · exact recordsInner_eq_ok hpage
      · split at h
        · exact ih h
        · exact absurd h (by simp)

/-- Past its first page a chain presents cursors only. -/
theorem continuation_of_mem_follow {history : Nat → TelemetryStore} {query : RecordsQuery}
    {bytes : List UInt8} {calls : List PageCall} {p : AnsweredPage}
    (h : p ∈ follow history query (some bytes) calls) : ∃ bytes, p.continuation = some bytes := by
  induction calls generalizing bytes with
  | nil => exact absurd h (by simp [follow])
  | cons call calls ih =>
    unfold follow at h
    split at h
    · exact absurd h (by simp)
    · rcases List.mem_cons.mp h with rfl | h
      · exact ⟨bytes, rfl⟩
      · split at h
        · exact ih h
        · exact absurd h (by simp)

/-- A later page of a chain is the answer to the payload of the cursor it continues with. -/
theorem answer_of_mem_tail {history : Nat → TelemetryStore} {query : RecordsQuery}
    {calls : List PageCall} {p : AnsweredPage}
    (h : p ∈ (follow history query none calls).tail) :
    ∃ payload, p.presents payload ∧
      p.page = answer (fun n => history (p.call.moments n)) query p.call.budget p.call.clock
        (some payload) := by
  obtain ⟨presented, hresumes, hpage⟩ := answer_of_mem_follow (List.mem_of_mem_tail h)
  obtain ⟨bytes, hbytes⟩ : ∃ bytes, p.continuation = some bytes := by
    cases calls with
    | nil => exact absurd h (by simp [follow])
    | cons call calls =>
      unfold follow at h
      split at h
      · exact absurd h (by simp)
      · rw [List.tail_cons] at h
        split at h
        · exact continuation_of_mem_follow h
        · exact absurd h (by simp)
  rw [hbytes] at hresumes
  obtain ⟨payload, hdecode, rfl⟩ := hresumes
  exact ⟨payload, ⟨bytes, hbytes, hdecode⟩, hpage⟩

/-! ## Snapshot fixedness -/

/-- The kept record lies outside the window a page reads: it does not match, it is past the
snapshot boundary, or it is not past the position of the presented cursor. -/
def Timeline.Outside (query : RecordsQuery) (payload : CursorPayload) (y : Yield) : Prop :=
  query.filters.matchesView y.record = false ∨ payload.snapshot < y.key ∨ y.key ≤ payload.anchor

/-- No record kept since the first page was answered lies in the window a later page reads. -/
def Timeline.Undisturbed (T : Timeline) (query : RecordsQuery) (first : PageCall)
    (p : AnsweredPage) : Prop :=
  ∀ payload, p.presents payload → ∀ n t y, first.answered ≤ t → t < p.call.moments n →
    T.Enters query.kind t y → Outside query payload y

/-- A page returns nothing that was kept after the first page was answered: each of its items stood
at that moment, and at every moment up to the scan call that read it. -/
def Timeline.FixedAt (T : Timeline) (kind : SignalKind) (first : PageCall) (p : AnsweredPage) :
    Prop :=
  ∀ record ∈ p.page.items, ∃ n y, y.record = record ∧ y ∈ T.yields kind (p.call.moments n) ∧
    ∀ t, first.answered ≤ t → t ≤ p.call.moments n → y ∈ T.yields kind t

/-- What a later page draws from, at each of its calls. -/
theorem Timeline.scansEach (T : Timeline) (query : RecordsQuery) (call : PageCall)
    (presented : Option CursorPayload) :
    (walkInput (fun n => T.history (call.moments n)) query call.clock presented).ScansEach
      fun n => T.yields query.kind (call.moments n) :=
  fun n after limit => (T.serves (call.moments n)).pull query.kind after limit

/-- **Snapshot fixedness.**  Over every run of a store and every chain of pages, a later page
returns nothing that was kept after the first page was answered, provided every record kept since
then, up to its last scan call, lies outside the window the page reads. -/
theorem snapshot_fixed (T : Timeline) (query : RecordsQuery) (first : PageCall)
    (later : List PageCall) :
    ∀ p ∈ (follow T.history query none (first :: later)).tail,
      T.Undisturbed query first p → T.FixedAt query.kind first p := by
  intro p hp hundisturbed record hrecord
  obtain ⟨payload, hpresents, hpage⟩ := answer_of_mem_tail hp
  have hitem : record ∈ (walkRecords (walkInput (fun n => T.history (p.call.moments n)) query
      p.call.clock (some payload)) (p.call.budget.admitSession (p.call.clock 0))).items := by
    rw [hpage, answer] at hrecord
    split at hrecord
    · exact absurd hrecord (by simp [emptyPage])
    · exact hrecord
  obtain ⟨n, y, hstands, rfl, hfollows, hwithin, hmatches⟩ :=
    items_drawn (T.scansEach query p.call (some payload)) _ record hitem
  refine ⟨n, y, rfl, hstands, fun t hanswered hread => ?_⟩
  by_contra hmissing
  obtain ⟨v, htv, hvn, henters⟩ := Timeline.exists_enters hread hmissing hstands
  rcases hundisturbed payload hpresents n v y (hanswered.trans htv) hvn henters with
    hfiltered | hpast | hbehind
  · have hmatches : query.filters.matchesView y.record = true := hmatches
    rw [hfiltered] at hmatches
    exact absurd hmatches (by simp)
  · have hwithin : decide (payload.snapshot < y.key) = false := hwithin
    exact absurd hpast (of_decide_eq_false hwithin)
  · have hfollows : decide (payload.anchor < y.key) = true := hfollows
    exact absurd hbehind (not_le.mpr (of_decide_eq_true hfollows))

/-- A page for one record, asked for and answered at one moment. -/
def PageCall.single (t : Nat) : PageCall :=
  ⟨budgetOfOne, still, fun _ => t, t, fun _ => Nat.le_refl t, fun _ => Nat.le_refl t⟩

/-- Two logs kept at 5 and 6, and a third one the pump comes with after them. -/
def lateLog (admittedAt : Nat) : Timeline where
  config := ⟨10, 100000, 1000, 5⟩
  hook := true
  ops t :=
    match t with
    | 0 => .keepLogRecord ⟨.serial 2, ⟨5⟩, ⟨0, .bare none none⟩⟩
    | 1 => .keepLogRecord ⟨.serial 3, ⟨6⟩, ⟨1, .bare none none⟩⟩
    | 2 => .keepLogRecord ⟨.serial 4, ⟨admittedAt⟩, ⟨2, .bare none none⟩⟩
    | _ => .stats

/-- The second page of a chain over it, the late log kept between the two. -/
def lateLogPages (admittedAt : Nat) : List AnsweredPage :=
  (follow (lateLog admittedAt).history (.new .logRecords) none [.single 2, .single 3]).tail

/-- A late log admitted past the boundary stays out of the chain. -/
theorem snapshot_fixed_lateLog : (lateLogPages 7).length = 1 ∧
    ∀ p ∈ lateLogPages 7, (lateLog 7).FixedAt .logRecords (.single 2) p := by
  refine ⟨by decide +kernel, fun p hp =>
    snapshot_fixed (lateLog 7) (.new .logRecords) (.single 2) [.single 3] p hp ?_⟩
  rintro payload ⟨bytes, hbytes, hdecode⟩ n t y hlow hhigh ⟨hbefore, hafter⟩
  have hpresented : ∀ p ∈ lateLogPages 7, p.call.answered = 3 ∧
      (p.continuation.map CursorPayload.decode).map (Except.map CursorPayload.snapshot) =
        some (.ok ⟨⟨6⟩, .serial 3⟩) := by
    decide +kernel
  obtain ⟨hanswered, hboundary⟩ := hpresented p hp
  rw [hbytes, Option.map_some, hdecode] at hboundary
  have hsnapshot : payload.snapshot = ⟨⟨6⟩, .serial 3⟩ :=
    Except.ok.inj (Option.some.inj hboundary)
  obtain rfl : t = 2 := by
    have hlow : 2 ≤ t := hlow
    have := p.call.before n
    omega
  have hyields : (lateLog 7).yields .logRecords 3 = (lateLog 7).yields .logRecords 2 ++
      [⟨⟨⟨7⟩, .serial 4⟩, .logRecord ⟨2, .bare none none⟩⟩] := rfl
  change y ∈ (lateLog 7).yields .logRecords 3 at hafter
  rw [hyields] at hafter
  rcases List.mem_append.mp hafter with hstood | hnew
  · exact absurd hstood hbefore
  · rw [List.mem_singleton.mp hnew]
    exact Or.inr (Or.inl (by rw [hsnapshot]; decide))

/-- A late log admitted at the time of the first one is returned by the second page. -/
theorem not_snapshot_fixed : ¬ ∀ (T : Timeline) (query : RecordsQuery) (first : PageCall)
    (later : List PageCall), ∀ p ∈ (follow T.history query none (first :: later)).tail,
      T.FixedAt query.kind first p := by
  intro hclaim
  have hfixed : ∀ p ∈ lateLogPages 5, (lateLog 5).FixedAt .logRecords (.single 2) p :=
    hclaim (lateLog 5) (.new .logRecords) (.single 2) [.single 3]
  obtain ⟨p, hp⟩ : ∃ p, p ∈ lateLogPages 5 :=
    List.exists_mem_of_length_pos (by decide +kernel : 0 < (lateLogPages 5).length)
  have hreturned : ∀ p ∈ lateLogPages 5, p.call.moments 0 = 3 ∧
      p.page.items.map RecordView.addr = [2] := by
    decide +kernel
  obtain ⟨hmoment, haddr⟩ := hreturned p hp
  obtain ⟨record, rest, hitems, hrecord, -⟩ := List.map_eq_cons_iff.mp haddr
  obtain ⟨n, y, rfl, -, hstood⟩ := hfixed p hp record (by rw [hitems]; simp)
  have hmem : y ∈ (lateLog 5).yields .logRecords 2 := by
    refine hstood 2 (Nat.le_refl 2) ?_
    have := p.call.start_le n
    omega
  have hothers : ∀ y ∈ (lateLog 5).yields .logRecords 2, y.record.addr ≠ 2 := by
    decide +kernel
  exact hothers y hmem hrecord

/-! ## The gap -/

/-- **The gap.**  In every chain over every run of a store, a continuation page names an eviction gap
exactly when no record with the anchor's key is resident, if and only if its lookup does not find
the anchor's entity under another key while the anchor's own is gone. -/
theorem gap_iff_anchor_gone (T : Timeline) (query : RecordsQuery) (first : PageCall)
    (later : List PageCall) :
    ∀ p ∈ (follow T.history query none (first :: later)).tail, ∃ payload, p.presents payload ∧
      ((p.page.execution.coverage.any CoverageEntry.isGap = true ↔
          ∀ y ∈ T.yields query.kind (p.call.moments 0), y.key ≠ payload.anchor) ↔
        ¬ ((∀ y ∈ T.yields query.kind (p.call.moments 0), y.key ≠ payload.anchor) ∧
          ∃ y ∈ T.yields query.kind (p.call.moments 0), y.key.entity = payload.lastEntity)) := by
  intro p hp
  obtain ⟨payload, hpresents, hpage⟩ := answer_of_mem_tail hp
  refine ⟨payload, hpresents, ?_⟩
  have hlookup := (T.serves (p.call.moments 0)).anchorIsResident query.kind payload.lastEntity
  have hgap := gap_iff (fun n => T.history (p.call.moments n)) query p.call.budget p.call.clock
    payload
  rw [← hpage] at hgap
  rw [hgap, Bool.not_eq_true', ← Bool.not_eq_true, hlookup]
  change (¬ (∃ y ∈ T.yields query.kind (p.call.moments 0), _) ↔ _) ↔ _
  have hanchor : ∀ y ∈ T.yields query.kind (p.call.moments 0), y.key = payload.anchor →
      ∃ y ∈ T.yields query.kind (p.call.moments 0), y.key.entity = payload.lastEntity :=
    fun y hy heq => ⟨y, hy, by rw [heq]; rfl⟩
  constructor
  · rintro hiff ⟨hgone, hresident⟩
    exact hiff.mpr hgone hresident
  · intro hnot
    constructor
    · intro habsent y hy heq
      exact habsent (hanchor y hy heq)
    · intro hgone hresident
      exact hnot ⟨hgone, hresident⟩

/-- Two spans kept at 0 and 5, the pass that expires the first, and its natural identity admitted
again at 12. -/
def readmitted : Timeline where
  config := ⟨10, 100000, 10, 5⟩
  hook := true
  ops t :=
    match t with
    | 0 => .keepSpan ⟨.span (.ofByte 1) (.ofByte 1), ⟨0⟩, ⟨0, .bare 1 1⟩⟩
    | 1 => .keepSpan ⟨.span (.ofByte 1) (.ofByte 2), ⟨5⟩, ⟨1, .bare 1 2⟩⟩
    | 2 => .enforceRetention ⟨11⟩
    | 3 => .keepSpan ⟨.span (.ofByte 1) (.ofByte 1), ⟨12⟩, ⟨2, .bare 1 1⟩⟩
    | _ => .stats

/-- The second page of a chain whose first page stopped at the first span. -/
def readmittedPages (t : Nat) : List AnsweredPage :=
  (follow readmitted.history (.new .spans) none [.single 2, .single t]).tail

/-- The key the presented cursor stopped at. -/
def AnsweredPage.anchor? (p : AnsweredPage) : Option (Except CursorError AdmissionKey) :=
  (p.continuation.map CursorPayload.decode).map (Except.map CursorPayload.anchor)

theorem AnsweredPage.anchor_eq {p : AnsweredPage} {payload : CursorPayload}
    (h : p.presents payload) {anchor : AdmissionKey} (hanchor : p.anchor? = some (.ok anchor)) :
    payload.anchor = anchor := by
  obtain ⟨bytes, hbytes, hdecode⟩ := h
  rw [anchor?, hbytes, Option.map_some, hdecode] at hanchor
  exact Except.ok.inj (Option.some.inj hanchor)

/-- Before it is admitted again, the expired span is named as a gap. -/
theorem gap_iff_anchor_gone_expired : (readmittedPages 3).length = 1 ∧
    ∀ p ∈ readmittedPages 3, ∃ payload, p.presents payload ∧
      (p.page.execution.coverage.any CoverageEntry.isGap = true ↔
        ∀ y ∈ readmitted.yields .spans (p.call.moments 0), y.key ≠ payload.anchor) := by
  refine ⟨by decide +kernel, fun p hp => ?_⟩
  obtain ⟨payload, hpresents, hiff⟩ :=
    gap_iff_anchor_gone readmitted (.new .spans) (.single 2) [.single 3] p hp
  refine ⟨payload, hpresents, hiff.mpr ?_⟩
  have hpages : ∀ p ∈ readmittedPages 3, p.call.moments 0 = 3 ∧
      p.anchor? = some (.ok ⟨⟨0⟩, .span (.ofByte 1) (.ofByte 1)⟩) := by
    decide +kernel
  obtain ⟨hmoment, hanchor⟩ := hpages p hp
  have hgone : ∀ y ∈ readmitted.yields .spans 3,
      y.key.entity ≠ .span (.ofByte 1) (.ofByte 1) := by
    decide +kernel
  rintro ⟨-, y, hy, hentity⟩
  rw [hmoment] at hy
  refine hgone y hy (hentity.trans ?_)
  exact congrArg AdmissionKey.entity (AnsweredPage.anchor_eq hpresents hanchor)

/-- Once it is admitted again no gap is named, although the key the cursor stopped at is gone. -/
theorem not_gap_iff_anchor_gone : ¬ ∀ (T : Timeline) (query : RecordsQuery) (first : PageCall)
    (later : List PageCall), ∀ p ∈ (follow T.history query none (first :: later)).tail,
      ∃ payload, p.presents payload ∧
        (p.page.execution.coverage.any CoverageEntry.isGap = true ↔
          ∀ y ∈ T.yields query.kind (p.call.moments 0), y.key ≠ payload.anchor) := by
  intro hclaim
  obtain ⟨p, hp⟩ : ∃ p, p ∈ readmittedPages 4 :=
    List.exists_mem_of_length_pos (by decide +kernel : 0 < (readmittedPages 4).length)
  obtain ⟨payload, hpresents, hiff⟩ :=
    hclaim readmitted (.new .spans) (.single 2) [.single 4] p hp
  have hpages : ∀ p ∈ readmittedPages 4, p.call.moments 0 = 4 ∧
      p.anchor? = some (.ok ⟨⟨0⟩, .span (.ofByte 1) (.ofByte 1)⟩) ∧
      p.page.execution.coverage.any CoverageEntry.isGap = false := by
    decide +kernel
  obtain ⟨hmoment, hanchor, hnone⟩ := hpages p hp
  have hgone : ∀ y ∈ readmitted.yields .spans 4,
      y.key ≠ ⟨⟨0⟩, .span (.ofByte 1) (.ofByte 1)⟩ := by
    decide +kernel
  rw [hmoment, AnsweredPage.anchor_eq hpresents hanchor, hnone] at hiff
  exact absurd (hiff.mpr hgone) (by simp)

end RuntimeTrail
