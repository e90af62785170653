import RuntimeTrail.Library.PrefixFree
import RuntimeTrail.Query.Sources

/-!
# What a fingerprint is taken over

The canonical bytes of a query name it: each filter writes a fixed sequence of
words, length-prefixed strings and marked optional fields, and the kind's tag says
which filters follow.  A cursor carries the fingerprint of the query it was minted
for, so only a collision lets another query accept it.

* **the fields** — `strBytes`, `ServiceFilter.bytes` and so on, each what
  `pushCanonical` appends behind the presence byte, each prefix-free;
* **the query** — `RecordsQuery.canonicalBytes_injective`;
* **the cursors** — `Walk.Names`: whatever a page's walk stops on, its cursor
  carries the query's fingerprint;
* **the law** — `fingerprint_names_query`.
-/

namespace RuntimeTrail

open Library

/-! ## The fields -/

/-- What `pushStr` appends. -/
def strBytes (text : String) : List UInt8 := lengthPrefixed 8 text.toUTF8.toList

theorem pushStr_eq {text : String} (h : text.utf8ByteSize ≤ u64Max) (bytes : List UInt8) :
    pushStr bytes text = bytes ++ strBytes text := by
  rw [pushStr, min_eq_left h, strBytes, lengthPrefixed, length_utf8, List.append_assoc]

theorem prefixFree_strBytes : PrefixFree (fun text => text.utf8ByteSize ≤ u64Max) strBytes := by
  have hfree := (prefixFree_lengthPrefixed 8).on (f := fun text : String => text.toUTF8.toList)
    fun _ _ => utf8_injective
  exact hfree.weaken fun text h => lt_of_eq_of_lt (length_utf8 text) (lt_of_le_u64Max h)

/-- An unset filter is its absence byte, a set one its own bytes behind the presence byte. -/
theorem pushSlot_eq {F : Type} {push : List UInt8 → F → List UInt8} {own : F → List UInt8}
    {filter : Option F}
    (h : ∀ f ∈ filter, ∀ bytes, push bytes f = bytes ++ present :: own f) (bytes : List UInt8) :
    pushSlot push bytes filter = bytes ++ slot present absent own filter := by
  cases filter with
  | none => rfl
  | some f => exact h f rfl bytes

namespace ServiceFilter

/-- The name's length is a machine word. -/
def InRange (filter : ServiceFilter) : Prop := filter.name.utf8ByteSize ≤ u64Max

def bytes (filter : ServiceFilter) : List UInt8 := strBytes filter.name

theorem pushCanonical_eq {filter : ServiceFilter} (h : filter.InRange) (front : List UInt8) :
    pushCanonical front filter = front ++ present :: filter.bytes := by
  rw [pushCanonical, pushStr_eq h, List.append_assoc]
  rfl

theorem prefixFree : PrefixFree InRange bytes :=
  prefixFree_strBytes.on fun ⟨_⟩ ⟨_⟩ h => congrArg ServiceFilter.mk h

end ServiceFilter

namespace TimeRangeFilter

/-- Both bounds are 64-bit words. -/
def InRange (filter : TimeRangeFilter) : Prop := filter.start ≤ u64Max ∧ filter.stop ≤ u64Max

def bytes (filter : TimeRangeFilter) : List UInt8 :=
  writeLe 8 filter.start ++ writeLe 8 filter.stop

theorem pushCanonical_eq (filter : TimeRangeFilter) (front : List UInt8) :
    pushCanonical front filter = front ++ present :: filter.bytes := by
  simp [pushCanonical, bytes]

theorem prefixFree : PrefixFree InRange bytes := by
  have hfree := ((prefixFree_writeLe 8).append (prefixFree_writeLe 8)).on
    (f := fun filter : TimeRangeFilter => (filter.start, filter.stop))
    fun ⟨_, _⟩ ⟨_, _⟩ h => by
      obtain ⟨rfl, rfl⟩ := Prod.mk.inj h
      rfl
  exact hfree.weaken fun _ h => ⟨lt_of_le_u64Max h.1, lt_of_le_u64Max h.2⟩

end TimeRangeFilter

namespace SeverityFilter

def bytes (filter : SeverityFilter) : List UInt8 := [UInt8.ofNat filter.minimum.number]

theorem pushCanonical_eq (filter : SeverityFilter) (front : List UInt8) :
    pushCanonical front filter = front ++ present :: filter.bytes := by
  simp [pushCanonical, bytes]

/-- A severity number fits its byte. -/
theorem prefixFree : PrefixFree (fun _ => True) bytes := by
  refine PrefixFree.ofWidth (fun _ _ => rfl) fun ⟨a⟩ ⟨b⟩ _ _ heq => ?_
  obtain ⟨a, ha⟩ := a
  obtain ⟨b, hb⟩ := b
  have hnumber : (UInt8.ofNat a).toNat = (UInt8.ofNat b).toNat :=
    congrArg UInt8.toNat (List.cons.inj heq).1
  rw [UInt8.toNat_ofNat', UInt8.toNat_ofNat'] at hnumber
  obtain rfl : a = b := by omega
  rfl

end SeverityFilter

namespace ScopeFilter

/-- The lengths of the name and of the version are machine words. -/
structure InRange (filter : ScopeFilter) : Prop where
  name : filter.name.utf8ByteSize ≤ u64Max
  version : ∀ version ∈ filter.version, version.utf8ByteSize ≤ u64Max

def bytes (filter : ScopeFilter) : List UInt8 :=
  strBytes filter.name ++ slot present absent strBytes filter.version

theorem pushCanonical_eq {filter : ScopeFilter} (h : filter.InRange) (front : List UInt8) :
    pushCanonical front filter = front ++ present :: filter.bytes := by
  obtain ⟨name, version⟩ := filter
  rw [pushCanonical, pushStr_eq h.name]
  cases version with
  | none => simp [bytes, slot]
  | some version =>
    dsimp only
    rw [pushStr_eq (h.version version rfl)]
    simp [bytes, slot]

theorem prefixFree : PrefixFree InRange bytes := by
  have hfree := (prefixFree_strBytes.append
    (prefixFree_strBytes.slot (show present ≠ absent by decide))).on
    (f := fun filter : ScopeFilter => (filter.name, filter.version))
    fun ⟨_, _⟩ ⟨_, _⟩ h => by
      obtain ⟨rfl, rfl⟩ := Prod.mk.inj h
      rfl
  exact hfree.weaken fun _ h => ⟨h.name, h.version⟩

end ScopeFilter

/-! ## The query -/

theorem present_ne_absent : present ≠ absent := by decide

theorem pushSlot_service {filter : Option ServiceFilter} (h : ∀ f ∈ filter, f.InRange)
    (front : List UInt8) : pushSlot ServiceFilter.pushCanonical front filter =
      front ++ slot present absent ServiceFilter.bytes filter :=
  pushSlot_eq (fun f hf => ServiceFilter.pushCanonical_eq (h f hf)) front

theorem pushSlot_timeRange (filter : Option TimeRangeFilter) (front : List UInt8) :
    pushSlot TimeRangeFilter.pushCanonical front filter =
      front ++ slot present absent TimeRangeFilter.bytes filter :=
  pushSlot_eq (fun f _ => f.pushCanonical_eq) front

theorem pushSlot_severity (filter : Option SeverityFilter) (front : List UInt8) :
    pushSlot SeverityFilter.pushCanonical front filter =
      front ++ slot present absent SeverityFilter.bytes filter :=
  pushSlot_eq (fun f _ => f.pushCanonical_eq) front

theorem pushSlot_scope {filter : Option ScopeFilter} (h : ∀ f ∈ filter, f.InRange)
    (front : List UInt8) : pushSlot ScopeFilter.pushCanonical front filter =
      front ++ slot present absent ScopeFilter.bytes filter :=
  pushSlot_eq (fun f hf => ScopeFilter.pushCanonical_eq (h f hf)) front

/-- The four fields a kind may filter on; only logs have a severity. -/
abbrev FilterFields : Type :=
  Option ServiceFilter × Option TimeRangeFilter × Option SeverityFilter × Option ScopeFilter

/-- The words and lengths a filter set writes are 64-bit words. -/
def FilterFields.InRange (fields : FilterFields) : Prop :=
  (∀ f ∈ fields.1, f.InRange) ∧ (∀ f ∈ fields.2.1, f.InRange) ∧ ∀ f ∈ fields.2.2.2, f.InRange

namespace RecordsFilters

/-- The fields of a filter set. -/
def fields : RecordsFilters → FilterFields
  | spans filters => (filters.service, filters.timeRange, none, filters.scope)
  | logRecords filters =>
    (filters.service, filters.timeRange, filters.severity, filters.scope)
  | metricPoints filters => (filters.service, filters.timeRange, none, filters.scope)

/-- A filter set is its kind and its fields. -/
theorem ext_of_fields {a b : RecordsFilters} (hkind : a.kind = b.kind)
    (hfields : a.fields = b.fields) : a = b := by
  cases a with
  | spans filters =>
    cases b with
    | spans filters' =>
      obtain ⟨service, timeRange, scope⟩ := filters
      obtain ⟨service', timeRange', scope'⟩ := filters'
      simp only [fields, Prod.mk.injEq] at hfields
      obtain ⟨rfl, rfl, -, rfl⟩ := hfields
      rfl
    | logRecords => cases hkind
    | metricPoints => cases hkind
  | logRecords filters =>
    cases b with
    | logRecords filters' =>
      obtain ⟨service, timeRange, severity, scope⟩ := filters
      obtain ⟨service', timeRange', severity', scope'⟩ := filters'
      simp only [fields, Prod.mk.injEq] at hfields
      obtain ⟨rfl, rfl, rfl, rfl⟩ := hfields
      rfl
    | spans => cases hkind
    | metricPoints => cases hkind
  | metricPoints filters =>
    cases b with
    | metricPoints filters' =>
      obtain ⟨service, timeRange, scope⟩ := filters
      obtain ⟨service', timeRange', scope'⟩ := filters'
      simp only [fields, Prod.mk.injEq] at hfields
      obtain ⟨rfl, rfl, -, rfl⟩ := hfields
      rfl
    | spans => cases hkind
    | logRecords => cases hkind

/-- What `pushCanonical` appends for a kind: one slot a field, no severity slot but for logs. -/
def fieldBytes (kind : SignalKind) (fields : FilterFields) : List UInt8 :=
  slot present absent ServiceFilter.bytes fields.1 ++
    (slot present absent TimeRangeFilter.bytes fields.2.1 ++
      ((match kind with
        | .logRecords => slot present absent SeverityFilter.bytes fields.2.2.1
        | _ => []) ++
        slot present absent ScopeFilter.bytes fields.2.2.2))

theorem pushCanonical_eq {filters : RecordsFilters} (h : filters.fields.InRange)
    (front : List UInt8) :
    pushCanonical front filters = front ++ fieldBytes filters.kind filters.fields := by
  cases filters with
  | spans filters =>
    have hservice : ∀ f ∈ filters.service, f.InRange := h.1
    have hscope : ∀ f ∈ filters.scope, f.InRange := h.2.2
    rw [pushCanonical, SpanFilters.pushCanonical]
    rw [pushSlot_service hservice, pushSlot_timeRange, pushSlot_scope hscope]
    simp only [fieldBytes, fields, kind, List.append_assoc, List.nil_append]
  | logRecords filters =>
    have hservice : ∀ f ∈ filters.service, f.InRange := h.1
    have hscope : ∀ f ∈ filters.scope, f.InRange := h.2.2
    rw [pushCanonical, LogFilters.pushCanonical]
    rw [pushSlot_service hservice, pushSlot_timeRange, pushSlot_severity, pushSlot_scope hscope]
    simp only [fieldBytes, fields, kind, List.append_assoc]
  | metricPoints filters =>
    have hservice : ∀ f ∈ filters.service, f.InRange := h.1
    have hscope : ∀ f ∈ filters.scope, f.InRange := h.2.2
    rw [pushCanonical, MetricFilters.pushCanonical]
    rw [pushSlot_service hservice, pushSlot_timeRange, pushSlot_scope hscope]
    simp only [fieldBytes, fields, kind, List.append_assoc, List.nil_append]

/-- The slots of two filter sets of one kind tell their fields apart. -/
theorem fields_of_bytes {a b : RecordsFilters} (hkind : a.kind = b.kind) (ha : a.fields.InRange)
    (hb : b.fields.InRange) (h : fieldBytes a.kind a.fields = fieldBytes b.kind b.fields) :
    a.fields = b.fields := by
  rw [hkind] at h
  obtain ⟨haService, haTime, haScope⟩ := ha
  obtain ⟨hbService, hbTime, hbScope⟩ := hb
  obtain ⟨hservice, h⟩ := ServiceFilter.prefixFree.slot present_ne_absent haService hbService h
  obtain ⟨htime, h⟩ := TimeRangeFilter.prefixFree.slot present_ne_absent haTime hbTime h
  have hscopes := @PrefixFree.injective _ _ _ (ScopeFilter.prefixFree.slot present_ne_absent)
    _ _ haScope hbScope
  have hrest : a.fields.2.2 = b.fields.2.2 := by
    cases a with
    | spans filters =>
      cases b with
      | spans filters' => exact Prod.ext rfl (hscopes h)
      | logRecords => cases hkind
      | metricPoints => cases hkind
    | logRecords filters =>
      cases b with
      | logRecords filters' =>
        obtain ⟨hseverity, h⟩ := SeverityFilter.prefixFree.slot present_ne_absent
          (fun _ _ => trivial) (fun _ _ => trivial) h
        exact Prod.ext hseverity (hscopes h)
      | spans => cases hkind
      | metricPoints => cases hkind
    | metricPoints filters =>
      cases b with
      | metricPoints filters' => exact Prod.ext rfl (hscopes h)
      | spans => cases hkind
      | logRecords => cases hkind
  exact Prod.ext hservice (Prod.ext htime hrest)

end RecordsFilters

namespace RecordsQuery

/-- The words and lengths a query's filters write are 64-bit words. -/
def InRange (query : RecordsQuery) : Prop := query.filters.fields.InRange

/-- **Canonical bytes name their query.** -/
theorem canonicalBytes_injective {a b : RecordsQuery} (ha : a.InRange) (hb : b.InRange)
    (h : a.canonicalBytes = b.canonicalBytes) : a = b := by
  rw [canonicalBytes, canonicalBytes, RecordsFilters.pushCanonical_eq ha,
    RecordsFilters.pushCanonical_eq hb] at h
  obtain ⟨hheader, hfields⟩ := List.append_inj h rfl
  obtain ⟨kind, filters, hpaired⟩ := a
  obtain ⟨kind', filters', hpaired'⟩ := b
  have htag : kind.tag = kind'.tag := by simpa using hheader
  obtain rfl : kind = kind' := by
    cases kind <;> cases kind' <;> first | rfl | exact absurd htag (by decide)
  have hkinds : filters.kind = filters'.kind := hpaired.trans hpaired'.symm
  obtain rfl := RecordsFilters.ext_of_fields hkinds
    (RecordsFilters.fields_of_bytes hkinds ha hb hfields)
  rfl

end RecordsQuery

/-! ## The cursors -/

/-- What a decoded cursor carries as its fingerprint is what was encoded. -/
theorem CursorPayload.fingerprint_of_decode {p p' : CursorPayload} (h : decode p.encode = .ok p') :
    p'.fingerprint = p.fingerprint := by
  have hparse : parse p.encode = some p' := by
    unfold decode at h
    split at h
    · cases h
    · rename_i hparse
      rw [hparse, Except.ok.inj h]
  have hsame := (parse_eq_some hparse).2
  rw [encode_eq p', encode_eq p] at hsame
  obtain ⟨hheader, -⟩ := List.append_inj hsame (by simp)
  obtain ⟨-, hword⟩ := List.append_inj hheader (by simp)
  have hread := congrArg readLe hword
  have hword : ∀ word : UInt64, readLe (writeLe 8 word.toNat) = word.toNat := fun word =>
    readLe_writeLe (by have := word.toNat_lt; omega)
  rw [hword, hword] at hread
  exact UInt64.toNat_inj.mp hread

/-- Whatever a walk has stopped on, its cursor carries the query's fingerprint. -/
def Walk.Names (input : WalkInput) (w : Walk) : Prop :=
  ∀ outcome ∈ w.stopped, ∀ bytes ∈ outcome.nextCursor, ∃ payload : CursorPayload,
    payload.fingerprint = input.fingerprint ∧ bytes = payload.encode

namespace Walk.Names

variable {input : WalkInput} {w : Walk}

/-- A walk that stops where no cursor is offered. -/
theorem of_uncontinued {outcome : PartOutcome} (hstopped : w.stopped = some outcome)
    (hnone : outcome.nextCursor = none) : w.Names input := by
  intro outcome' houtcome bytes hbytes
  rw [hstopped] at houtcome
  obtain rfl := Option.some.inj houtcome
  rw [hnone] at hbytes
  cases hbytes

/-- A walk that stops at a cursor minted for the query. -/
theorem of_payload {dimension : Dimension} {omitted : Nat} {payload : CursorPayload}
    (hstopped : w.stopped = some (.degraded ⟨dimension, .cursor payload.encode, omitted⟩))
    (hown : payload.fingerprint = input.fingerprint) : w.Names input := by
  intro outcome houtcome bytes hbytes
  rw [hstopped] at houtcome
  obtain rfl := Option.some.inj houtcome
  exact ⟨payload, hown, (Option.some.inj hbytes).symm⟩

theorem finishCountingOrComplete (w : Walk) : (w.finishCountingOrComplete input).Names input := by
  unfold Walk.finishCountingOrComplete
  cases w.counting with
  | none => exact of_uncontinued rfl rfl
  | some counting => exact of_payload rfl rfl

theorem stopBeforeExamining (w : Walk) (refusal : BudgetRefusal) :
    (w.stopBeforeExamining input refusal).Names input := by
  unfold Walk.stopBeforeExamining
  cases w.counting with
  | some counting => exact of_payload rfl rfl
  | none =>
    cases w.lastExamined with
    | none => exact of_uncontinued rfl rfl
    | some anchor => exact of_payload rfl rfl

theorem stopIncluding (howns : ∀ payload ∈ input.presented, payload.fingerprint = input.fingerprint)
    (w : Walk) (dimension : Dimension) (key : AdmissionKey) (tail : Nat) :
    (w.stopIncluding input dimension key tail).Names input := by
  have hstopped : (w.stopIncluding input dimension key tail).stopped =
      some (w.includeAnchoredDegrade input dimension 0 key.entity) := rfl
  unfold Walk.includeAnchoredDegrade at hstopped
  cases hincluded : w.lastIncluded with
  | some anchor => exact of_payload (by rw [hstopped, hincluded]; rfl) rfl
  | none =>
    rw [hincluded] at hstopped
    cases hpresented : input.presented with
    | none => exact of_uncontinued hstopped (by simp [presentedEcho, hpresented, PartOutcome.nextCursor])
    | some payload =>
      -- the presented cursor, echoed
      rw [presentedEcho, hpresented] at hstopped
      exact of_payload hstopped (howns payload hpresented)

theorem examine (howns : ∀ payload ∈ input.presented, payload.fingerprint = input.fingerprint)
    (h : w.Names input) (yielded : Yield) (tail : Nat) :
    (w.examine input yielded tail).Names input := by
  have hscanned : ∀ session, (w.scanned session yielded.key).Names input := fun session => by
    rw [Walk.Names, (w.scanned_frame session yielded.key).2.2.2.2.2.2.2.2.1]
    exact h
  have hall := w.examination input yielded tail
  generalize w.examine input yielded tail = w' at hall ⊢
  cases hall with
  | pastBound past => exact finishCountingOrComplete _
  | unscanned within scan => exact stopBeforeExamining _ _
  | skipped within scan filtered => exact hscanned _
  | counted within scan matching phase => exact hscanned _
  | resultsSpent within scan matching phase spent => exact stopIncluding howns _ _ _ _
  | resultsRefused within scan matching phase unspent results => exact stopIncluding howns _ _ _ _
  | unfit within scan matching phase unspent results wall => exact hscanned _
  | bytesRefused within scan matching phase unspent results fits bytes =>
    exact stopIncluding howns _ _ _ _
  | included within scan matching phase unspent results fits bytes => exact hscanned _

/-- Every turn keeps it. -/
theorem turnInvariant
    (howns : ∀ payload ∈ input.presented, payload.fingerprint = input.fingerprint) :
    TurnInvariant input (Walk.Names input) where
  pulled _ _ h := h
  examined _ tail _ h := h.examine howns _ tail
  resumed _ _ h := h
  finished _ := finishCountingOrComplete _
  stalled _ _ := of_uncontinued rfl rfl

end Walk.Names

/-- The cursor of a page carries its query's fingerprint, whatever stores and clock answered it. -/
theorem nextCursor_names {stores : Nat → TelemetryStore} {query : RecordsQuery}
    {budget : QueryBudget} {clock : Clock} {continuation : Option (List UInt8)}
    {lease : Option SnapshotLease} {page : Page RecordView} {next : List UInt8}
    (h : recordsInner stores query budget clock continuation lease = .ok page)
    (hnext : page.nextCursor = some next) :
    ∃ payload : CursorPayload, payload.fingerprint = fingerprint query.canonicalBytes ∧
      next = payload.encode := by
  obtain ⟨presented, -, howns, rfl⟩ := recordsInner_own h
  unfold answer at hnext
  dsimp only at hnext
  split at hnext
  · exact absurd hnext (by simp [emptyPage])
  · have hnames := (@Walk.Names.turnInvariant (walkInput stores query clock presented) howns).run
      (w := walkStart (walkInput stores query clock presented) (budget.admitSession (clock 0)))
      fun outcome h => absurd h (by simp [walkStart])
    rw [walkRecords, Walk.run, Walk.assemble_nextCursor] at hnext
    cases hstopped : ((Walk.pages (walkInput stores query clock presented)).run
        (walkStart (walkInput stores query clock presented)
          (budget.admitSession (clock 0)), 0)).1.stopped with
    | none =>
      rw [hstopped] at hnext
      exact absurd hnext (by simp [PartOutcome.nextCursor])
    | some outcome =>
      rw [hstopped] at hnext
      exact hnames outcome hstopped next hnext

/-! ## The law -/

/-- **A fingerprint names its query, short of a collision.**  Equal canonical bytes are those of one
query; and a cursor that a page of one query hands back, whatever stores, budget and clock answered
it, is accepted by a page of another only where two different byte strings share a fingerprint. -/
theorem fingerprint_names_query {a b : RecordsQuery} (ha : a.InRange) (hb : b.InRange) :
    (a.canonicalBytes = b.canonicalBytes → a = b) ∧
      ∀ {stores stores' : Nat → TelemetryStore} {budget budget' : QueryBudget}
        {clock clock' : Clock} {continuation : Option (List UInt8)}
        {lease lease' : Option SnapshotLease} {page page' : Page RecordView} {next : List UInt8},
        recordsInner stores a budget clock continuation lease = .ok page →
        page.nextCursor = some next →
        recordsInner stores' b budget' clock' (some next) lease' = .ok page' →
        a = b ∨ a.canonicalBytes ≠ b.canonicalBytes ∧
          fingerprint a.canonicalBytes = fingerprint b.canonicalBytes := by
  refine ⟨RecordsQuery.canonicalBytes_injective ha hb, ?_⟩
  intro stores stores' budget budget' clock clock' continuation lease lease' page page' next hminted
    hnext haccepted
  obtain ⟨payload, hown, rfl⟩ := nextCursor_names hminted hnext
  obtain ⟨presented, ⟨payload', hdecode, rfl⟩, howns, -⟩ := recordsInner_own haccepted
  have hcollides : fingerprint a.canonicalBytes = fingerprint b.canonicalBytes := by
    rw [← hown, ← CursorPayload.fingerprint_of_decode hdecode, howns payload' rfl]
  by_cases hsame : a.canonicalBytes = b.canonicalBytes
  · exact Or.inl (RecordsQuery.canonicalBytes_injective ha hb hsame)
  · exact Or.inr ⟨hsame, hcollides⟩

/-- Two log queries that differ in where the scope's name ends and its version begins. -/
theorem fingerprint_names_query_scopes :
    (RecordsQuery.logs ⟨none, none, none, some ⟨"ab", some "c"⟩⟩).canonicalBytes ≠
      (RecordsQuery.logs ⟨none, none, none, some ⟨"a", some "bc"⟩⟩).canonicalBytes := by
  have hrange : ∀ name version : String, name.utf8ByteSize ≤ u64Max → version.utf8ByteSize ≤ u64Max →
      (RecordsQuery.logs ⟨none, none, none, some ⟨name, some version⟩⟩).InRange := by
    intro name version hname hversion
    refine ⟨fun f hf => absurd hf (Option.not_mem_none f), fun f hf => absurd hf (Option.not_mem_none f),
      fun f hf => ?_⟩
    obtain rfl := Option.some.inj hf
    exact ⟨hname, fun _ hsome => Option.some.inj hsome ▸ hversion⟩
  intro h
  have hsame := (fingerprint_names_query (hrange "ab" "c" (by decide) (by decide))
    (hrange "a" "bc" (by decide) (by decide))).1 h
  exact absurd hsame (by decide)

end RuntimeTrail
