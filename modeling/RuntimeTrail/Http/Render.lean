import RuntimeTrail.Investigation.Envelope
import RuntimeTrail.Library.JsonTree
import RuntimeTrail.Model.Walks

/-!
# The HTTP surface's rendering of evidence

Ids and bytes are lowercase hex, an absent field is `null`, times are JSON numbers, and
a model value is rendered whole, arrays as arrays and key-value lists as objects.

A double is whatever the JSON library makes of it: its number syntax has no infinity
and no NaN, so these become `null`, the mark of an absent field.

* **values** — `renderModelValue`, its equations over lists, and
  `renderModelValue_kvList_perm`: no key is lost;
* **nulls** — `within_null_iff`: a rendering holds a `null` exactly where the value
  holds a double that is not finite;
* **views** — a span, a log record and a point as the client receives them;
  `atPath_times`: every time in them is a number.
-/

namespace RuntimeTrail

open Library

/-- A double is finite unless all bits of its exponent are set. -/
def Float.isFinite (double : Float) : Bool := decide (double.bits / 2 ^ 52 % 2 ^ 11 ≠ 2047)

/-- The keys of every key-value list in a value are distinct, as its construction demands. -/
def Value.KeysDistinct (v : Value) : Prop :=
  ∀ entries, Value.kvList entries ∈ v.subvalues → (entries.map Prod.fst).Nodup

theorem Value.KeysDistinct.child {v child : Value} (h : v.KeysDistinct)
    (hchild : child ∈ v.children) : child.KeysDistinct := fun entries hentries =>
  h entries (Value.mem_subvalues_iff.mpr (Or.inr ⟨child, hchild, hentries⟩))

/-- The JSON library's value of a double, given how it prints a finite one: the number syntax has
no infinity and no NaN. -/
def jsonDouble (number : Float → JsonNumber) (double : Float) : JsonValue :=
  if double.isFinite then .number (number double) else .null

namespace Http

/-- Renders bytes as lowercase hex. -/
def hex (bytes : List UInt8) : String :=
  String.ofList (bytes.flatMap fun byte : UInt8 =>
    [hexDigit (byte >>> 4).toNat, hexDigit (byte &&& 0x0f).toNat])

section Rendering

-- how the JSON library prints a finite double
variable (number : Float → JsonNumber)

mutual

/-- Renders a model value as JSON, verbatim. -/
def renderModelValue : Value → JsonValue
  | .string text => .string text
  | .int value => .number (.ofInt value)
  | .double double => jsonDouble number double
  | .bool flag => .bool flag
  | .bytes bytes => .string (hex bytes)
  | .array items => .array (renderItems items)
  | .kvList entries => .ofMembers (renderEntries entries)

def renderItems : List Value → List JsonValue
  | [] => []
  | item :: rest => renderModelValue item :: renderItems rest

def renderEntries : List (String × Value) → List (String × JsonValue)
  | [] => []
  | (key, child) :: rest => (key, renderModelValue child) :: renderEntries rest

end

/-! ## Values -/

theorem renderItems_eq (items : List Value) :
    renderItems number items = items.map (renderModelValue number) := by
  induction items with
  | nil => rfl
  | cons item rest ih => rw [renderItems, ih, List.map_cons]

theorem renderEntries_eq (entries : List (String × Value)) :
    renderEntries number entries = entries.map fun e => (e.1, renderModelValue number e.2) := by
  induction entries with
  | nil => rfl
  | cons e rest ih => rw [renderEntries, ih, List.map_cons]

/-- An array keeps every element, in order. -/
theorem renderModelValue_array (items : List Value) :
    renderModelValue number (.array items) = .array (items.map (renderModelValue number)) := by
  rw [renderModelValue, renderItems_eq]

/-- **A key-value list keeps every key.** -/
theorem renderModelValue_kvList_perm {entries : List (String × Value)}
    (h : (entries.map Prod.fst).Nodup) :
    ∃ members, renderModelValue number (.kvList entries) = .object members ∧
      members.Perm (entries.map fun e => (e.1, renderModelValue number e.2)) := by
  refine ⟨_, by rw [renderModelValue, JsonValue.ofMembers], ?_⟩
  rw [renderEntries_eq]
  refine JsonValue.members_perm ?_
  rw [List.map_map]
  exact h

/-! ## Nulls -/

/-- A container's rendering holds a null where that of one of its children does. -/
theorem within_null_container {v : Value} (hkeys : v.KeysDistinct) (hcontainer : v.isContainer) :
    JsonValue.Within .null (renderModelValue number v) ↔
      ∃ child ∈ v.children, JsonValue.Within .null (renderModelValue number child) := by
  cases v with
  | array items =>
    rw [renderModelValue_array, JsonValue.within_array_iff (by simp), Value.children]
    constructor
    · rintro ⟨item, hmem, hitem⟩
      obtain ⟨child, hchild, rfl⟩ := List.mem_map.mp hmem
      exact ⟨child, hchild, hitem⟩
    · rintro ⟨child, hchild, hnull⟩
      exact ⟨_, List.mem_map_of_mem hchild, hnull⟩
  | kvList entries =>
    obtain ⟨members, hrender, hperm⟩ := renderModelValue_kvList_perm number
      (hkeys entries (Value.mem_subvalues_iff.mpr (Or.inl rfl)))
    rw [hrender, JsonValue.within_object_iff (by simp), Value.children]
    constructor
    · rintro ⟨entry, hmem, hentry⟩
      obtain ⟨e, he, rfl⟩ := List.mem_map.mp (hperm.mem_iff.mp hmem)
      exact ⟨e.2, List.mem_map_of_mem he, hentry⟩
    · rintro ⟨child, hchild, hnull⟩
      obtain ⟨e, he, rfl⟩ := List.mem_map.mp hchild
      exact ⟨(e.1, renderModelValue number e.2), hperm.mem_iff.mpr (List.mem_map.mpr ⟨e, he, rfl⟩),
        hnull⟩
  | _ => cases hcontainer

/-- **A null stands for a double that is not finite**, and for nothing else in a value. -/
theorem within_null_iff {v : Value} (hkeys : v.KeysDistinct) :
    JsonValue.Within .null (renderModelValue number v) ↔
      ∃ double, Value.double double ∈ v.subvalues ∧ double.isFinite = false := by
  induction v using Value.induct_children with
  | h v ih =>
    cases hcontainer : v.isContainer with
    | true =>
      have hself : ∀ double, Value.double double ≠ v := by
        rintro double rfl
        cases hcontainer
      rw [within_null_container number hkeys hcontainer]
      simp only [Value.mem_subvalues_iff (v := v), hself, false_or]
      constructor
      · rintro ⟨child, hchild, hnull⟩
        obtain ⟨double, hmem, hfinite⟩ := (ih child hchild (hkeys.child hchild)).mp hnull
        exact ⟨double, ⟨child, hchild, hmem⟩, hfinite⟩
      · rintro ⟨double, ⟨child, hchild, hmem⟩, hfinite⟩
        exact ⟨child, hchild, (ih child hchild (hkeys.child hchild)).mpr ⟨double, hmem, hfinite⟩⟩
    | false =>
      cases v with
      | array => cases hcontainer
      | kvList => cases hcontainer
      | double double =>
        rw [renderModelValue, jsonDouble]
        cases hfinite : double.isFinite with
        | true =>
          refine iff_of_false (fun h => by cases h) ?_
          rintro ⟨other, hmem, hother⟩
          cases List.mem_singleton.mp hmem
          rw [hfinite] at hother
          cases hother
        | false => exact iff_of_true .self ⟨double, List.mem_singleton_self _, hfinite⟩
      | _ =>
        refine iff_of_false (fun h => by cases h) ?_
        rintro ⟨double, hmem, -⟩
        cases List.mem_singleton.mp hmem

/-! ## Views -/

/-- An absent field is `null`. -/
def orNull {α : Type} (field : Option α) (render : α → JsonValue) : JsonValue :=
  (field.map render).getD .null

/-- A 64-bit count as a JSON number. -/
def jsonCount (n : Nat) : JsonValue := .number (.ofNat n)

def renderTraceId (traceId : TraceId) : JsonValue := .string (hex traceId.bytes)

def renderSpanId (spanId : SpanId) : JsonValue := .string (hex spanId.bytes)

def renderEntity : EntityId → JsonValue
  | .span traceId spanId => .ofMembers [("span", .ofMembers
      [("trace_id", renderTraceId traceId), ("span_id", renderSpanId spanId)])]
  | .assigned id => .ofMembers [("assigned", jsonCount id.serial)]

def renderSpanView (view : SpanEvidence) : JsonValue :=
  let span := view.span.val
  .ofMembers
    [("entity", orNull view.entity renderEntity),
      ("span", .ofMembers
        [("trace_id", renderTraceId span.context.traceId),
          ("span_id", renderSpanId span.context.spanId),
          ("parent_span_id", orNull span.parentSpanId renderSpanId),
          ("name", .string span.name),
          ("start_time_unix_nano", jsonCount span.startTimeUnixNano),
          ("end_time_unix_nano", orNull span.endTimeUnixNano jsonCount)])]

def renderLogView (view : LogEvidence) : JsonValue :=
  let log := view.log.val
  .ofMembers
    [("entity", orNull view.entity renderEntity),
      ("log", .ofMembers
        [("timestamp_unix_nano", orNull log.timestampUnixNano jsonCount),
          ("observed_timestamp_unix_nano", orNull log.observedTimestampUnixNano jsonCount),
          ("body", orNull log.body (renderModelValue number)),
          ("trace_id", orNull log.traceId renderTraceId),
          ("span_id", orNull log.spanId renderSpanId)])]

def renderNumber : MetricNumber → JsonValue
  | .int value => .ofMembers [("int", .number (.ofInt value))]
  | .double value => .ofMembers [("double", jsonDouble number value)]

def renderPointShape : MetricPoint → String
  | .number _ => "number"
  | .histogram _ => "histogram"
  | .exponentialHistogram _ => "exponential_histogram"
  | .summary _ => "summary"

def renderPoint : MetricPoint → JsonValue
  | .number point => .ofMembers
      [("shape", .string "number"), ("time_unix_nano", jsonCount point.timeUnixNano),
        ("value", renderNumber number point.value)]
  | other => .ofMembers [("shape", .string (renderPointShape other))]

def renderStream (stream : StreamIdentity) : JsonValue := .ofMembers [("name", .string stream.name)]

def renderPointView (view : PointEvidence) : JsonValue :=
  .ofMembers
    [("entity", orNull view.entity renderEntity),
      ("point", renderPoint number view.point.val),
      ("stream", renderStream view.stream)]

/-- One record of the evidence: a span, a log record or a point. -/
inductive View where
  | span (view : SpanEvidence)
  | log (view : LogEvidence)
  | point (view : PointEvidence)

def renderView : View → JsonValue
  | .span view => renderSpanView view
  | .log view => renderLogView number view
  | .point view => renderPointView number view

/-- The times of a view that are not absent, each under its path. -/
def View.times : View → List (List JsonValue.Step × Nat)
  | .span view =>
    ([.member "span", .member "start_time_unix_nano"], view.span.val.startTimeUnixNano) ::
      view.span.val.endTimeUnixNano.toList.map fun time =>
        ([.member "span", .member "end_time_unix_nano"], time)
  | .log view =>
    (view.log.val.timestampUnixNano.toList.map fun time =>
        ([.member "log", .member "timestamp_unix_nano"], time)) ++
      view.log.val.observedTimestampUnixNano.toList.map fun time =>
        ([.member "log", .member "observed_timestamp_unix_nano"], time)
  | .point view =>
    match view.point.val with
    | .number sample => [([.member "point", .member "time_unix_nano"], sample.timeUnixNano)]
    | .histogram _ | .exponentialHistogram _ | .summary _ => []

/-- A time that is not absent is rendered as a number. -/
theorem orNull_jsonCount {field : Option Nat} {time : Nat} (h : time ∈ field.toList) :
    orNull field jsonCount = .number (.ofNat time) := by
  rw [Option.mem_toList.mp h]
  rfl

/-- **Every time of a view is rendered as a number**, under its path. -/
theorem atPath_times (view : View) {path : List JsonValue.Step} {time : Nat}
    (h : (path, time) ∈ view.times) :
    (renderView number view).atPath path = some (.number (.ofNat time)) := by
  cases view with
  | span view =>
    rcases List.mem_cons.mp h with heq | h
    · obtain ⟨rfl, rfl⟩ := Prod.mk.inj heq
      exact JsonValue.atPath_member_member (by simp) (by simp)
        (List.mem_of_getElem? (i := 1) rfl) (List.mem_of_getElem? (i := 4) rfl)
    · obtain ⟨ended, hended, heq⟩ := List.mem_map.mp h
      obtain ⟨rfl, rfl⟩ := Prod.mk.inj heq
      rw [← orNull_jsonCount hended]
      exact JsonValue.atPath_member_member (by simp) (by simp)
        (List.mem_of_getElem? (i := 1) rfl) (List.mem_of_getElem? (i := 5) rfl)
  | log view =>
    rcases List.mem_append.mp h with h | h
    · obtain ⟨sent, hsent, heq⟩ := List.mem_map.mp h
      obtain ⟨rfl, rfl⟩ := Prod.mk.inj heq
      rw [← orNull_jsonCount hsent]
      exact JsonValue.atPath_member_member (by simp) (by simp)
        (List.mem_of_getElem? (i := 1) rfl) (List.mem_of_getElem? (i := 0) rfl)
    · obtain ⟨observed, hobserved, heq⟩ := List.mem_map.mp h
      obtain ⟨rfl, rfl⟩ := Prod.mk.inj heq
      rw [← orNull_jsonCount hobserved]
      exact JsonValue.atPath_member_member (by simp) (by simp)
        (List.mem_of_getElem? (i := 1) rfl) (List.mem_of_getElem? (i := 1) rfl)
  | point view =>
    cases hpoint : view.point.val with
    | number sample =>
      rw [View.times, hpoint] at h
      obtain ⟨rfl, rfl⟩ := Prod.mk.inj (List.mem_singleton.mp h)
      have hsample : renderPoint number view.point.val = .ofMembers
          [("shape", .string "number"), ("time_unix_nano", jsonCount sample.timeUnixNano),
            ("value", renderNumber number sample.value)] := by
        rw [hpoint, renderPoint]
      change (renderPointView number view).atPath _ = _
      rw [renderPointView, hsample]
      exact JsonValue.atPath_member_member (by simp) (by simp)
        (List.mem_of_getElem? (i := 1) rfl) (List.mem_of_getElem? (i := 1) rfl)
    | _ =>
      rw [View.times, hpoint] at h
      cases h

end Rendering

end Http

end RuntimeTrail
