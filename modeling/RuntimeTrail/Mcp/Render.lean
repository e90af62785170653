import RuntimeTrail.Http.Render

/-!
# The MCP surface's rendering of values

The surface renders an investigation to JSON as the HTTP surface does, by functions of
its own.

* **parity** — `renderModelValue_eq_http`: the two recursions over a value agree at
  every depth;
* **the law** — `renderings_keep_iff_finite`: they keep every element and every key,
  and no `null` is in them exactly where every double is finite.
-/

namespace RuntimeTrail.Mcp

open Library

/-- The wire's id encoding: lowercase hex. -/
def hex (bytes : List UInt8) : String :=
  String.ofList (bytes.flatMap fun byte : UInt8 =>
    [hexDigit (byte >>> 4).toNat, hexDigit (byte &&& 0x0f).toNat])

section Rendering

-- how the JSON library prints a finite double
variable (number : Float → JsonNumber)

mutual

/-- Renders a model value as JSON, verbatim. -/
def renderModelValue : Value → JsonValue
  | .string text => .string text
  | .int value => .number (.ofInt value)
  | .double double => jsonDouble number double
  | .bool flag => .bool flag
  | .bytes bytes => .string (hex bytes)
  | .array items => .array (renderItems items)
  | .kvList entries => .ofMembers (renderEntries entries)

def renderItems : List Value → List JsonValue
  | [] => []
  | item :: rest => renderModelValue item :: renderItems rest

def renderEntries : List (String × Value) → List (String × JsonValue)
  | [] => []
  | (key, child) :: rest => (key, renderModelValue child) :: renderEntries rest

end

/-- **The surfaces agree**, by recursion over the value. -/
theorem renderModelValue_eq_http :
    ∀ v : Value, renderModelValue number v = Http.renderModelValue number v := by
  refine Value.rec
    (motive_1 := fun v => renderModelValue number v = Http.renderModelValue number v)
    (motive_2 := fun items => renderItems number items = Http.renderItems number items)
    (motive_3 := fun entries => renderEntries number entries = Http.renderEntries number entries)
    (motive_4 := fun e => renderModelValue number e.2 = Http.renderModelValue number e.2)
    ?string ?bool ?int ?double ?bytes ?array ?kvList ?nil ?cons ?fnil ?fcons ?mk
  case string => intro _; rfl
  case bool => intro _; rfl
  case int => intro _; rfl
  case double => intro _; rfl
  case bytes => intro _; rfl
  case array => intro items ih; rw [renderModelValue, ih, Http.renderModelValue]
  case kvList => intro entries ih; rw [renderModelValue, ih, Http.renderModelValue]
  case nil => rfl
  case cons => intro item rest ih ihrest; rw [renderItems, ih, ihrest, Http.renderItems]
  case fnil => rfl
  case fcons =>
    rintro ⟨key, child⟩ rest ih ihrest
    rw [renderEntries, ih, ihrest, Http.renderEntries]
  case mk => intro _ _ ih; exact ih

end Rendering

/-- **Both renderings are whole, and nulls are the doubles JSON has no number for.**  For every
value whose key-value lists have distinct keys, the two surfaces render the same JSON, an array in
it keeps every element in order and a key-value list every key, at every depth.  No `null` stands
anywhere in it exactly where every double in the value is finite. -/
theorem renderings_keep_iff_finite (number : Float → JsonNumber) {v : Value}
    (hkeys : v.KeysDistinct) :
    renderModelValue number v = Http.renderModelValue number v ∧
    (∀ items, Value.array items ∈ v.subvalues → renderModelValue number (.array items) =
      .array (items.map (renderModelValue number))) ∧
    (∀ entries, Value.kvList entries ∈ v.subvalues → ∃ members,
      renderModelValue number (.kvList entries) = .object members ∧
        members.Perm (entries.map fun e => (e.1, renderModelValue number e.2))) ∧
    (¬ JsonValue.Within .null (renderModelValue number v) ∧
        ¬ JsonValue.Within .null (Http.renderModelValue number v) ↔
      ∀ double, Value.double double ∈ v.subvalues → double.isFinite = true) := by
  have hsame : renderModelValue number = Http.renderModelValue number :=
    funext (renderModelValue_eq_http number)
  rw [hsame]
  refine ⟨rfl, fun items _ => Http.renderModelValue_array number items,
    fun entries hentries => Http.renderModelValue_kvList_perm number (hkeys entries hentries), ?_⟩
  rw [and_self, Http.within_null_iff number hkeys]
  simp only [not_exists, not_and, Bool.not_eq_false]

/-- A list of two doubles and bytes, under two keys. -/
def twoReadings : Value :=
  .kvList [("readings", .array [.double ⟨0x3ff8000000000000⟩, .double ⟨0x7ff8000000000000⟩]),
    ("id", .bytes [0x0a, 0xff])]

theorem twoReadings_keysDistinct : twoReadings.KeysDistinct := by
  intro entries hentries
  have hlisted : Value.kvList entries = twoReadings := by
    simpa [twoReadings, Value.subvalues, Value.subvaluesEntries, Value.subvaluesItems] using hentries
  cases hlisted
  decide

/-- The print of one and a half, the one finite double of that list. -/
def oneAndAHalf : JsonNumber where
  literal := ['1', '.', '5']
  nonempty := List.cons_ne_nil _ _
  digits := List.all_eq_true.mp rfl

theorem renderings_keep_iff_finite_twoReadings :
    renderModelValue (fun _ => oneAndAHalf) twoReadings =
      Http.renderModelValue (fun _ => oneAndAHalf) twoReadings ∧
    (∀ items, Value.array items ∈ twoReadings.subvalues →
      renderModelValue (fun _ => oneAndAHalf) (.array items) =
        .array (items.map (renderModelValue fun _ => oneAndAHalf))) ∧
    (∀ entries, Value.kvList entries ∈ twoReadings.subvalues → ∃ members,
      renderModelValue (fun _ => oneAndAHalf) (.kvList entries) = .object members ∧
        members.Perm (entries.map fun e => (e.1, renderModelValue (fun _ => oneAndAHalf) e.2))) ∧
    (¬ JsonValue.Within .null (renderModelValue (fun _ => oneAndAHalf) twoReadings) ∧
        ¬ JsonValue.Within .null (Http.renderModelValue (fun _ => oneAndAHalf) twoReadings) ↔
      ∀ double, Value.double double ∈ twoReadings.subvalues → double.isFinite = true) :=
  renderings_keep_iff_finite (fun _ => oneAndAHalf) twoReadings_keysDistinct

/-- A double that is no number is rendered as `null`, the mark of an absent field. -/
theorem renderings_nan :
    ¬ ∀ (number : Float → JsonNumber) (v : Value), v.KeysDistinct →
      renderModelValue number v = Http.renderModelValue number v ∧
        ¬ JsonValue.Within .null (renderModelValue number v) ∧
        ¬ JsonValue.Within .null (Http.renderModelValue number v) := by
  intro h
  have hkeys : (Value.double ⟨0x7ff8000000000000⟩).KeysDistinct := by
    intro entries hentries
    cases List.mem_singleton.mp hentries
  exact (h (fun _ => oneAndAHalf) _ hkeys).2.1 .self

end RuntimeTrail.Mcp
