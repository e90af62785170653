import RuntimeTrail.Ingestion.Evidence
import RuntimeTrail.Ingestion.Retryable
import RuntimeTrail.Ingestion.Wire
import RuntimeTrail.Library.Failing
import RuntimeTrail.Library.Print

/-!
# What a refusal says

The text of every refusal a record can meet, and how long it can get.  Most refusals
are words of the program's own with a few numbers between them; two quote the wire,
a repeated key and a member of a trace state.

* **texts** — `RecordRejection.text`, and `RecordRejection.utf8ByteSize_text_le`: its
  length, from what the refusal quotes (`RecordRejection.Quotes`);
* **the decoder** — `Decode.record_quotes`: what a record is refused for quotes only keys
  that the record carries (`WireRecord.values`);
* **the ledger** — `Export.Refuses`, which `Export.Refuses.admitCall` brings to a whole
  export: admission adds refusals of its own, and repeats the decoder's.
-/

namespace RuntimeTrail

open Library

/-! ## Texts -/

/-- A `usize` as a message prints it. -/
def usizeText (number : Nat) : String := printWord 64 number

def ValueKind.debug : ValueKind → String
  | string => "String"
  | bool => "Bool"
  | int => "Int"
  | double => "Double"
  | bytes => "Bytes"
  | array => "Array"
  | kvList => "KvList"

def PointShape.debug : PointShape → String
  | number => "Number"
  | histogram => "Histogram"
  | exponentialHistogram => "ExponentialHistogram"
  | summary => "Summary"

def StreamKind.debug : StreamKind → String
  | gauge => "Gauge"
  | sum true => "Sum \x7b monotonic: true \x7d"
  | sum false => "Sum \x7b monotonic: false \x7d"
  | histogram => "Histogram"
  | exponentialHistogram => "ExponentialHistogram"
  | summary => "Summary"

def Temporality.debug : Option Temporality → String
  | none => "None"
  | some delta => "Some(Delta)"
  | some cumulative => "Some(Cumulative)"

def BudgetRejection.text (rejection : BudgetRejection) : String :=
  "budget " ++ rejection.budget.slug ++ " exceeded: limit " ++ usizeText rejection.limit ++
    ", observed " ++ usizeText rejection.observed ++ " (non-retryable)"

def StreamShapeError.text : StreamShapeError → String
  | kindShapeMismatch index expected found =>
    "point " ++ usizeText index ++ " carries " ++ found.debug ++
      " where the stream kind requires " ++ expected.debug
  | intervalKindMissingStartTime index =>
    "interval point " ++ usizeText index ++ " is missing its start_time"
  | temporalityMismatch kind temporality =>
    "stream kind " ++ kind.debug ++ " cannot carry temporality " ++ Temporality.debug temporality

def Unrepresentable.text (printable : Char → Bool) : Unrepresentable → String
  | idLength field expected found =>
    field ++ " carried " ++ usizeText found ++ " bytes where the model carries " ++
      usizeText expected
  | unknownEnumValue field value =>
    field ++ " carried the unknown enum value " ++ printInt 32 value
  | missingValue field =>
    field ++ " carried no value; the model cannot coerce an absent value"
  | emptyMetric => "metric carried no data: there is no stream kind to admit points under"
  | unsupportedEntityRefs =>
    "resource carried entity_refs (OTLP v1.11 Alpha), which the model has no slot for"
  | traceState member =>
    "trace_state member " ++ debugText printable member ++ " is not a vendor=value entry"
  | traceStateOverCap members bytes =>
    "trace_state over the W3C caps: " ++ usizeText members ++ " members, " ++ usizeText bytes ++
      " bytes (limit 32 members, 512 bytes)"

def DuplicateKey.text (printable : Char → Bool) (error : DuplicateKey) : String :=
  "duplicate key " ++ debugText printable error.key ++
    ": a duplicated key would silently drop a sent value"

def MixedKindArray.text (error : MixedKindArray) : String :=
  "mixed-kind array: element " ++ usizeText error.offendingIndex ++ " is " ++
    error.offendingKind.debug ++ " in an array of " ++ error.firstKind.debug

def SeverityOutOfRange.text (error : SeverityOutOfRange) : String :=
  "severity number " ++ printWord 8 error.attempted ++ " is outside the domain 1–24"

/-- The text of a refusal; `printable` are the characters a debug print leaves as they are. -/
def RecordRejection.text (printable : Char → Bool) : RecordRejection → String
  | budget rejection => rejection.text
  | shape error => error.text
  | unrepresentable error => error.text printable
  | duplicateKey error => error.text printable
  | mixedKindArray error => error.text
  | severity error => error.text

/-! ## The length of a text -/

/-- The longest of the field names that refusals carry. -/
def longestField : String := "exponential histogram start_time_unix_nano"

/-- A field name of the program's own. -/
def IsFieldName (field : String) : Prop := field.utf8ByteSize ≤ longestField.utf8ByteSize

instance (field : String) : Decidable (IsFieldName field) := inferInstanceAs (Decidable (_ ≤ _))

/-- A refusal that quotes at most this many bytes of a key, a member of a trace state within its
caps, and field names of the program's own. -/
def RecordRejection.Quotes (limit : Nat) : RecordRejection → Prop
  | unrepresentable (.idLength field _ _) => IsFieldName field
  | unrepresentable (.unknownEnumValue field _) => IsFieldName field
  | unrepresentable (.missingValue field) => IsFieldName field
  | unrepresentable (.traceState member) => member.utf8ByteSize ≤ Decode.maxBytes
  | duplicateKey error => error.key.utf8ByteSize ≤ limit
  | _ => True

/-- The length of the longest refusal that quotes a key of this many bytes: each quoted byte is at
most ten printed ones. -/
def reasonCeiling (limit : Nat) : Nat := 160 + 10 * max Decode.maxBytes limit

theorem utf8ByteSize_usizeText_le (number : Nat) : (usizeText number).utf8ByteSize ≤ 20 :=
  utf8ByteSize_printWord_le (by decide) (by decide) number

theorem BudgetRejection.utf8ByteSize_text_le (rejection : BudgetRejection) :
    rejection.text.utf8ByteSize ≤ 160 := by
  have hlimit := utf8ByteSize_usizeText_le rejection.limit
  have hobserved := utf8ByteSize_usizeText_le rejection.observed
  have hslug : rejection.budget.slug.utf8ByteSize ≤ 37 := by
    cases rejection.budget <;> decide
  have hwords : "budget ".utf8ByteSize + " exceeded: limit ".utf8ByteSize +
      ", observed ".utf8ByteSize + " (non-retryable)".utf8ByteSize = 51 := by decide
  unfold text
  simp only [String.utf8ByteSize_append]
  omega

theorem StreamShapeError.utf8ByteSize_text_le (error : StreamShapeError) :
    error.text.utf8ByteSize ≤ 160 := by
  have hshape : ∀ shape : PointShape, shape.debug.utf8ByteSize ≤ 20 := by
    intro shape
    cases shape <;> decide
  cases error with
  | kindShapeMismatch index expected found =>
    have hindex := utf8ByteSize_usizeText_le index
    have hexpected := hshape expected
    have hfound := hshape found
    have hwords : "point ".utf8ByteSize + " carries ".utf8ByteSize +
        " where the stream kind requires ".utf8ByteSize = 47 := by decide
    unfold text
    simp only [String.utf8ByteSize_append]
    omega
  | intervalKindMissingStartTime index =>
    have hindex := utf8ByteSize_usizeText_le index
    have hwords : "interval point ".utf8ByteSize +
        " is missing its start_time".utf8ByteSize = 41 := by decide
    unfold text
    simp only [String.utf8ByteSize_append]
    omega
  | temporalityMismatch kind temporality =>
    have hkind : kind.debug.utf8ByteSize ≤ 24 := by
      cases kind with
      | sum monotonic => cases monotonic <;> decide
      | _ => decide
    have htemporality : (Temporality.debug temporality).utf8ByteSize ≤ 16 := by
      cases temporality with
      | none => decide
      | some declared => cases declared <;> decide
    have hwords : "stream kind ".utf8ByteSize + " cannot carry temporality ".utf8ByteSize = 38 := by
      decide
    unfold text
    simp only [String.utf8ByteSize_append]
    omega

/-- What the wire could not say is named by a field, or quoted within the caps of a trace state. -/
theorem Unrepresentable.utf8ByteSize_text_le (printable : Char → Bool) {error : Unrepresentable}
    {limit : Nat} (h : (RecordRejection.unrepresentable error).Quotes limit) :
    (error.text printable).utf8ByteSize ≤ reasonCeiling limit := by
  have hlongest : longestField.utf8ByteSize = 42 := by decide
  have hceiling : 160 + 10 * 512 ≤ reasonCeiling limit :=
    Nat.add_le_add_left (Nat.mul_le_mul_left 10 (le_max_left _ _)) 160
  cases error with
  | idLength field expected found =>
    have hfield : field.utf8ByteSize ≤ longestField.utf8ByteSize := h
    have hexpected := utf8ByteSize_usizeText_le expected
    have hfound := utf8ByteSize_usizeText_le found
    have hwords : " carried ".utf8ByteSize +
        " bytes where the model carries ".utf8ByteSize = 40 := by decide
    unfold text
    simp only [String.utf8ByteSize_append]
    omega
  | unknownEnumValue field value =>
    have hfield : field.utf8ByteSize ≤ longestField.utf8ByteSize := h
    have hvalue : (printInt 32 value).utf8ByteSize ≤ 11 :=
      utf8ByteSize_printInt_le (by decide) (by decide) value
    have hwords : " carried the unknown enum value ".utf8ByteSize = 32 := by decide
    unfold text
    simp only [String.utf8ByteSize_append]
    omega
  | missingValue field =>
    have hfield : field.utf8ByteSize ≤ longestField.utf8ByteSize := h
    have hwords :
        " carried no value; the model cannot coerce an absent value".utf8ByteSize = 58 := by decide
    unfold text
    simp only [String.utf8ByteSize_append]
    omega
  | emptyMetric =>
    refine Nat.le_trans ?_ hceiling
    unfold text
    dsimp only
    decide
  | unsupportedEntityRefs =>
    refine Nat.le_trans ?_ hceiling
    unfold text
    dsimp only
    decide
  | traceState member =>
    have hmember : member.utf8ByteSize ≤ 512 := h
    have hquoted := utf8ByteSize_debugText_le printable member
    have hwords : "trace_state member ".utf8ByteSize +
        " is not a vendor=value entry".utf8ByteSize = 47 := by decide
    unfold text
    simp only [String.utf8ByteSize_append]
    omega
  | traceStateOverCap members bytes =>
    have hmembers := utf8ByteSize_usizeText_le members
    have hbytes := utf8ByteSize_usizeText_le bytes
    have hwords : "trace_state over the W3C caps: ".utf8ByteSize + " members, ".utf8ByteSize +
        " bytes (limit 32 members, 512 bytes)".utf8ByteSize = 77 := by decide
    unfold text
    simp only [String.utf8ByteSize_append]
    omega

theorem DuplicateKey.utf8ByteSize_text_le (printable : Char → Bool) {error : DuplicateKey}
    {limit : Nat} (h : error.key.utf8ByteSize ≤ limit) :
    (error.text printable).utf8ByteSize ≤ 160 + 10 * limit := by
  have hquoted := utf8ByteSize_debugText_le printable error.key
  have hwords : "duplicate key ".utf8ByteSize +
      ": a duplicated key would silently drop a sent value".utf8ByteSize = 65 := by decide
  unfold text
  simp only [String.utf8ByteSize_append]
  omega

theorem MixedKindArray.utf8ByteSize_text_le (error : MixedKindArray) :
    error.text.utf8ByteSize ≤ 160 := by
  have hkind : ∀ kind : ValueKind, kind.debug.utf8ByteSize ≤ 6 := by
    intro kind
    cases kind <;> decide
  have hindex := utf8ByteSize_usizeText_le error.offendingIndex
  have hoffending := hkind error.offendingKind
  have hfirst := hkind error.firstKind
  have hwords : "mixed-kind array: element ".utf8ByteSize + " is ".utf8ByteSize +
      " in an array of ".utf8ByteSize = 46 := by decide
  unfold text
  simp only [String.utf8ByteSize_append]
  omega

theorem SeverityOutOfRange.utf8ByteSize_text_le (error : SeverityOutOfRange) :
    error.text.utf8ByteSize ≤ 160 := by
  have hattempted : (printWord 8 error.attempted).utf8ByteSize ≤ 3 :=
    utf8ByteSize_printWord_le (by decide) (by decide) error.attempted
  have hwords : "severity number ".utf8ByteSize +
      " is outside the domain 1–24".utf8ByteSize = 45 := by decide
  unfold text
  simp only [String.utf8ByteSize_append]
  omega

/-- **A refusal is no longer than what it quotes lets it be.** -/
theorem RecordRejection.utf8ByteSize_text_le (printable : Char → Bool) {reason : RecordRejection}
    {limit : Nat} (h : reason.Quotes limit) :
    (reason.text printable).utf8ByteSize ≤ reasonCeiling limit := by
  have hwords : 160 ≤ reasonCeiling limit := Nat.le_add_right _ _
  cases reason with
  | budget rejection => exact rejection.utf8ByteSize_text_le.trans hwords
  | shape error => exact error.utf8ByteSize_text_le.trans hwords
  | unrepresentable error => exact Unrepresentable.utf8ByteSize_text_le printable h
  | duplicateKey error =>
    refine (DuplicateKey.utf8ByteSize_text_le printable h).trans ?_
    exact Nat.add_le_add_left (Nat.mul_le_mul_left 10 (le_max_right _ _)) 160
  | mixedKindArray error => exact error.utf8ByteSize_text_le.trans hwords
  | severity error => exact error.utf8ByteSize_text_le.trans hwords

/-! ## The keys of a record -/

namespace Otlp

/-- Every key of the value, at every level, takes at most this many bytes. -/
def AnyValue.KeysWithin (limit : Nat) (any : AnyValue) : Prop :=
  ∀ values, Within (.kvlistValue values) any → ∀ kv ∈ values, kv.key.utf8ByteSize ≤ limit

namespace AnyValue.KeysWithin

variable {limit : Nat}

theorem item {values : List AnyValue} (h : KeysWithin limit (.arrayValue values)) :
    ∀ any ∈ values, KeysWithin limit any := fun _ hany pairs hpairs =>
  h pairs (.item hany hpairs)

theorem key {pairs : List KeyValue} (h : KeysWithin limit (.kvlistValue pairs)) :
    ∀ kv ∈ pairs, kv.key.utf8ByteSize ≤ limit := h pairs .here

theorem value {pairs : List KeyValue} (h : KeysWithin limit (.kvlistValue pairs)) :
    ∀ kv ∈ pairs, ∀ any, kv.value = some any → KeysWithin limit any :=
  fun _ hkv _ hany values hvalues => h values (.entry hkv hany hvalues)

end AnyValue.KeysWithin

/-! What a message carries, an attribute set as the value whose keys it holds. -/

def Span.values (span : Span) : List AnyValue :=
  .kvlistValue span.attributes ::
    (span.events.map (fun event => .kvlistValue event.attributes) ++
      span.links.map fun link => .kvlistValue link.attributes)

def LogRecord.values (record : LogRecord) : List AnyValue :=
  .kvlistValue record.attributes :: record.body.toList

def exemplarValues (exemplars : List Exemplar) : List AnyValue :=
  exemplars.map fun exemplar => .kvlistValue exemplar.filteredAttributes

def DataPoint.values : DataPoint → List AnyValue
  | .gauge point => .kvlistValue point.attributes :: exemplarValues point.exemplars
  | .sum point _ _ => .kvlistValue point.attributes :: exemplarValues point.exemplars
  | .histogram point _ => .kvlistValue point.attributes :: exemplarValues point.exemplars
  | .exponentialHistogram point _ => .kvlistValue point.attributes :: exemplarValues point.exemplars
  | .summary point => [.kvlistValue point.attributes]

def MetricRecord.values (record : MetricRecord) : List AnyValue :=
  .kvlistValue record.descriptor.metadata :: record.point.values

/-- A message's values under its resource's and its scope's. -/
def Carried.values {R : Type} (inner : R → List AnyValue) (c : Carried R) : List AnyValue :=
  .kvlistValue (c.resource.getD .default).attributes ::
    .kvlistValue (c.scope.getD .default).attributes :: inner c.record

def WireRecord.values : WireRecord → List AnyValue
  | .span carried => carried.values Span.values
  | .log carried => carried.values LogRecord.values
  | .point carried => carried.values MetricRecord.values

end Otlp

/-! ## What the decoder can refuse -/

namespace Decode

open Otlp

variable {limit : Nat} {limits : BudgetLimits}

theorem keyScan_quotes {seen : List String} {entries : List (String × Value)}
    (h : ∀ entry ∈ entries, entry.1.utf8ByteSize ≤ limit) :
    FailsWithin (fun error => (RecordRejection.duplicateKey error).Quotes limit)
      (KeyValueList.scan seen entries) := by
  induction entries generalizing seen with
  | nil => trivial
  | cons entry entries ih =>
    obtain ⟨key, value⟩ := entry
    rw [KeyValueList.scan]
    split
    · exact h (key, value) List.mem_cons_self
    · exact ih fun entry hentry => h entry (List.mem_cons_of_mem _ hentry)

theorem tryKvList_quotes {entries : List (String × Value)}
    (h : ∀ entry ∈ entries, entry.1.utf8ByteSize ≤ limit) :
    FailsWithin (fun error => (RecordRejection.duplicateKey error).Quotes limit)
      (Value.tryKvList entries) := by
  have hnew : FailsWithin (fun error => (RecordRejection.duplicateKey error).Quotes limit)
      (KeyValueList.new entries) := (keyScan_quotes h).bind fun _ _ => .ok _
  exact hnew.bind fun _ _ => .ok _

theorem insertPairs_quotes {pairs : List (String × Value)} {entries : SortedMap String Value}
    (h : ∀ pair ∈ pairs, pair.1.utf8ByteSize ≤ limit) :
    FailsWithin (fun error => (RecordRejection.duplicateKey error).Quotes limit)
      (Attributes.insertPairs entries pairs) := by
  induction pairs generalizing entries with
  | nil => trivial
  | cons pair pairs ih =>
    obtain ⟨key, value⟩ := pair
    rw [Attributes.insertPairs]
    split
    · exact h (key, value) List.mem_cons_self
    · exact ih fun pair hpair => h pair (List.mem_cons_of_mem _ hpair)

/-- The entries decoded from a list are under keys within its own bound. -/
theorem entries_within {field : String} {pairs : List KeyValue} {entries : List (String × Value)}
    (hkeys : ∀ kv ∈ pairs, kv.key.utf8ByteSize ≤ limit)
    (h : pairs.mapM (keyValue field) = .ok entries) :
    ∀ entry ∈ entries, entry.1.utf8ByteSize ≤ limit := by
  intro entry hentry
  have hkey : entry.1 ∈ pairs.map KeyValue.key :=
    keys_of_mapM h ▸ List.mem_map_of_mem hentry
  obtain ⟨kv, hkv, hsame⟩ := List.mem_map.mp hkey
  exact hsame ▸ hkeys kv hkv

/-- The name a keyless attribute refuses under is one of the program's own too. -/
theorem isFieldName_keyField {field : String} (h : IsFieldName field) :
    IsFieldName (keyField field) := by
  unfold keyField
  split
  case h_10 => exact h
  all_goals decide

/-- An entry is refused without its key, or by its value. -/
theorem keyValue_quotes {field : String} {kv : KeyValue} (hfield : IsFieldName field)
    (h : ∀ any, kv.value = some any →
      FailsWithin (RecordRejection.Quotes limit) (wireAny field any)) :
    FailsWithin (RecordRejection.Quotes limit) (keyValue field kv) := by
  obtain ⟨key, value, keyStrindex⟩ := kv
  rw [keyValue]
  split
  · exact isFieldName_keyField hfield
  · refine FailsWithin.bind ?_ fun _ _ => .ok _
    cases value with
    | none => exact hfield
    | some any => exact h any rfl

/-- **A value is refused for a node it cannot carry**: by its field, or by a key that repeats. -/
theorem wireAny_quotes {field : String} (hfield : IsFieldName field) (any : AnyValue)
    (h : any.KeysWithin limit) :
    FailsWithin (RecordRejection.Quotes limit) (wireAny field any) := by
  induction any using AnyValue.induct with
  | leaf any harray hkvlist =>
    cases any with
    | unset => exact hfield
    | stringValueStrindex index => exact hfield
    | arrayValue values => exact absurd rfl (harray values)
    | kvlistValue values => exact absurd rfl (hkvlist values)
    | _ => trivial
  | array values ih =>
    rw [wireAny, wireItems_eq_mapM]
    refine FailsWithin.bind (.mapM fun item hitem => ih item hitem (h.item item hitem)) ?_
    intro items _
    cases Value.tryArray items with
    | ok value => trivial
    | error error => trivial
  | kvlist values ih =>
    rw [wireAny, keyValues_eq_mapM]
    refine FailsWithin.bind (.mapM fun kv hkv => keyValue_quotes hfield fun any hany =>
      ih kv hkv any hany (h.value kv hkv any hany)) ?_
    intro entries hentries
    exact (tryKvList_quotes (entries_within h.key hentries)).mapError

/-- **An attribute set is refused by its count, by an entry, or by a key that repeats.** -/
theorem attributes_quotes {field : String} (hfield : IsFieldName field) {pairs : List KeyValue}
    (h : (AnyValue.kvlistValue pairs).KeysWithin limit) :
    FailsWithin (RecordRejection.Quotes limit) (attributes pairs field limits) := by
  unfold attributes
  dsimp only
  split
  · trivial
  · refine FailsWithin.bind (.mapM fun kv hkv => keyValue_quotes hfield fun any hany =>
      wireAny_quotes hfield any (h.value kv hkv any hany)) ?_
    intro converted hconverted
    have hinserted := @insertPairs_quotes limit _ SortedMap.empty (entries_within h.key hconverted)
    exact (hinserted.map Attributes.mk).mapError

/-! ### Records -/

theorem resource_quotes {proto : Otlp.Resource} {schemaUrl : String}
    (h : (AnyValue.kvlistValue proto.attributes).KeysWithin limit) :
    FailsWithin (RecordRejection.Quotes limit) (resource proto schemaUrl limits) := by
  unfold resource
  split
  · trivial
  · exact (attributes_quotes (by decide) h).bind fun _ _ => .ok _

theorem scope_quotes {proto : Otlp.InstrumentationScope} {schemaUrl : String}
    (h : (AnyValue.kvlistValue proto.attributes).KeysWithin limit) :
    FailsWithin (RecordRejection.Quotes limit) (scope proto schemaUrl limits) :=
  (attributes_quotes (by decide) h).bind fun _ _ => .ok _

theorem wireTraceId_quotes {field : String} (hfield : IsFieldName field) (bytes : List UInt8) :
    FailsWithin (RecordRejection.Quotes limit) (wireTraceId bytes field) := by
  unfold wireTraceId
  split
  · trivial
  · exact hfield

theorem wireSpanId_quotes {field : String} (hfield : IsFieldName field) (bytes : List UInt8) :
    FailsWithin (RecordRejection.Quotes limit) (wireSpanId bytes field) := by
  unfold wireSpanId
  split
  · trivial
  · exact hfield

/-- An id is refused under its field, whether or not it may be absent. -/
theorem zeroedId_quotes {Id : Type} {zero : Id}
    {wire : List UInt8 → String → Except RecordRejection Id} {field : String} {bytes : List UInt8}
    (h : FailsWithin (RecordRejection.Quotes limit) (wire bytes field)) :
    FailsWithin (RecordRejection.Quotes limit) (zeroedId zero wire field bytes) := by
  unfold zeroedId
  split
  · trivial
  · exact h

theorem presentId_quotes {Id : Type} {wire : List UInt8 → String → Except RecordRejection Id}
    {field : String} {bytes : List UInt8}
    (h : FailsWithin (RecordRejection.Quotes limit) (wire bytes field)) :
    FailsWithin (RecordRejection.Quotes limit) (presentId wire field bytes) := by
  unfold presentId
  split
  · trivial
  · exact h.map some

theorem optionalTraceId_quotes (bytes : List UInt8) :
    FailsWithin (RecordRejection.Quotes limit) (optionalTraceId bytes) :=
  presentId_quotes (wireTraceId_quotes (by decide) bytes)

theorem optionalSpanId_quotes (bytes : List UInt8) :
    FailsWithin (RecordRejection.Quotes limit) (optionalSpanId bytes) :=
  presentId_quotes (wireSpanId_quotes (by decide) bytes)

/-- **A trace state is refused by its caps first**: the member it quotes is within them. -/
theorem traceState_quotes (raw : String) :
    FailsWithin (RecordRejection.Quotes limit) (traceState raw) := by
  unfold traceState
  split
  · trivial
  · dsimp only
    split
    · trivial
    · rename_i hbytes
      split
      · trivial
      · refine FailsWithin.bind (.mapM fun member hmember => ?_) fun _ _ => .ok _
        unfold traceStateEntry
        split
        · have hpart := String.utf8Len_le_of_sublist (sublist_of_mem_splitOn hmember)
          rw [← String.utf8ByteSize_ofList, ← String.utf8ByteSize_ofList, String.ofList_toList]
            at hpart
          exact hpart.trans (not_lt.mp hbytes)
        · trivial

theorem traceContext_quotes (traceId spanId : List UInt8) (flags : Nat) (tracestate : String) :
    FailsWithin (RecordRejection.Quotes limit) (traceContext traceId spanId flags tracestate) := by
  refine FailsWithin.bind (zeroedId_quotes (wireTraceId_quotes (by decide) traceId)) fun _ _ => ?_
  refine FailsWithin.bind (zeroedId_quotes (wireSpanId_quotes (by decide) spanId)) fun _ _ => ?_
  exact (traceState_quotes tracestate).bind fun _ _ => .ok _

/-! An enumeration is refused with the value it carried. -/

theorem spanKind_quotes (value : Int) :
    FailsWithin (RecordRejection.Quotes limit) (spanKind value) := by
  unfold spanKind
  split
  case h_7 =>
    have hfield : IsFieldName "span kind" := by decide
    exact hfield
  all_goals trivial

theorem statusCode_quotes (value : Int) :
    FailsWithin (RecordRejection.Quotes limit) (statusCode value) := by
  unfold statusCode
  split
  case h_4 =>
    have hfield : IsFieldName "status code" := by decide
    exact hfield
  all_goals trivial

theorem temporality_quotes (value : Int) :
    FailsWithin (RecordRejection.Quotes limit) (temporality value) := by
  unfold temporality
  split
  case h_4 =>
    have hfield : IsFieldName "aggregation_temporality" := by decide
    exact hfield
  all_goals trivial

theorem severityNumber_quotes (value : Int) :
    FailsWithin (RecordRejection.Quotes limit) (severityNumber value) := by
  unfold severityNumber
  split
  · trivial
  · split
    · have hnumber : FailsWithin
          (fun error => (RecordRejection.severity error).Quotes limit)
          (SeverityNumber.tryNew value.toNat) := by
        unfold SeverityNumber.tryNew
        split
        · trivial
        · trivial
      exact (hnumber.map some).mapError
    · have hfield : IsFieldName "severity_number" := by decide
      exact hfield

/-- A span is refused by its ids, its trace state, an enumeration, or one of its attribute sets. -/
theorem span_quotes {proto : Otlp.Span} {envelope : Envelope}
    (h : ∀ any ∈ proto.values, any.KeysWithin limit) :
    FailsWithin (RecordRejection.Quotes limit) (span proto envelope limits) := by
  obtain ⟨hattributes, hnested⟩ := List.forall_mem_cons.mp h
  obtain ⟨hevents, hlinks⟩ := List.forall_mem_append.mp hnested
  unfold span
  refine FailsWithin.bind (traceContext_quotes _ _ _ _) fun _ _ => ?_
  refine FailsWithin.bind (presentId_quotes (wireSpanId_quotes (by decide) _)) fun _ _ => ?_
  refine FailsWithin.bind (spanKind_quotes _) fun _ _ => ?_
  refine FailsWithin.bind (attributes_quotes (by decide) hattributes) fun _ _ => ?_
  refine FailsWithin.bind (.mapM fun event hevent => ?_) fun _ _ => ?_
  · have hset := hevents _ (List.mem_map_of_mem hevent)
    exact (attributes_quotes (by decide) hset).bind fun _ _ => .ok _
  refine FailsWithin.bind (.mapM fun link hlink => ?_) fun _ _ => ?_
  · have hset := hlinks _ (List.mem_map_of_mem hlink)
    refine FailsWithin.bind (traceContext_quotes _ _ _ _) fun _ _ => ?_
    exact (attributes_quotes (by decide) hset).bind fun _ _ => .ok _
  exact (statusCode_quotes _).bind fun _ _ => .ok _

theorem logBody_quotes {body : Option AnyValue} (h : ∀ any ∈ body.toList, any.KeysWithin limit) :
    FailsWithin (RecordRejection.Quotes limit) (logBody body) := by
  unfold logBody
  split
  · trivial
  · trivial
  · rename_i any _
    have hany : any.KeysWithin limit := h any (by simp)
    exact (wireAny_quotes (by decide) any hany).map some

theorem logRecord_quotes {proto : Otlp.LogRecord} {envelope : Envelope}
    (h : ∀ any ∈ proto.values, any.KeysWithin limit) :
    FailsWithin (RecordRejection.Quotes limit) (logRecord proto envelope limits) := by
  obtain ⟨hattributes, hbody⟩ := List.forall_mem_cons.mp h
  unfold logRecord
  refine FailsWithin.bind (severityNumber_quotes _) fun _ _ => ?_
  refine FailsWithin.bind (logBody_quotes hbody) fun _ _ => ?_
  refine FailsWithin.bind (attributes_quotes (by decide) hattributes) fun _ _ => ?_
  refine FailsWithin.bind (optionalTraceId_quotes _) fun _ _ => ?_
  exact (optionalSpanId_quotes _).bind fun _ _ => .ok _

/-! ### Data points -/

theorem metricNumber_quotes {field : String} (hfield : IsFieldName field)
    (value : Option NumberValue) :
    FailsWithin (RecordRejection.Quotes limit) (metricNumber field value) := by
  unfold metricNumber
  split
  · trivial
  · trivial
  · exact hfield

theorem requireStartTime_quotes {field : String} (hfield : IsFieldName field) (startTime : Nat) :
    FailsWithin (RecordRejection.Quotes limit) (requireStartTime field startTime) := by
  unfold requireStartTime
  split
  · exact hfield
  · trivial

theorem exemplars_quotes {proto : List Otlp.Exemplar}
    (h : ∀ any ∈ exemplarValues proto, any.KeysWithin limit) :
    FailsWithin (RecordRejection.Quotes limit) (exemplars proto limits) := by
  refine .mapM fun exemplar hexemplar => ?_
  have hset := h _ (List.mem_map_of_mem hexemplar)
  refine FailsWithin.bind (metricNumber_quotes (by decide) _) fun _ _ => ?_
  refine FailsWithin.bind (attributes_quotes (by decide) hset) fun _ _ => ?_
  refine FailsWithin.bind (optionalTraceId_quotes _) fun _ _ => ?_
  exact (optionalSpanId_quotes _).bind fun _ _ => .ok _

theorem numberPoint_quotes {proto : NumberDataPoint}
    (h : ∀ any ∈ .kvlistValue proto.attributes :: exemplarValues proto.exemplars,
      any.KeysWithin limit) :
    FailsWithin (RecordRejection.Quotes limit) (numberPoint proto limits) := by
  obtain ⟨hattributes, hexemplars⟩ := List.forall_mem_cons.mp h
  unfold numberPoint
  refine FailsWithin.bind (metricNumber_quotes (by decide) _) fun _ _ => ?_
  refine FailsWithin.bind (attributes_quotes (by decide) hattributes) fun _ _ => ?_
  exact (exemplars_quotes hexemplars).bind fun _ _ => .ok _

/-- A data point is refused by what its shape requires, by its attributes, or by an exemplar. -/
theorem dataPoint_quotes {point : DataPoint} (h : ∀ any ∈ point.values, any.KeysWithin limit) :
    FailsWithin (RecordRejection.Quotes limit) (point.decode limits) := by
  cases point with
  | gauge proto => exact numberPoint_quotes h
  | sum proto aggregationTemporality isMonotonic => exact numberPoint_quotes h
  | histogram proto aggregationTemporality =>
    obtain ⟨hattributes, hexemplars⟩ := List.forall_mem_cons.mp h
    unfold DataPoint.decode histogramPoint
    refine FailsWithin.bind (requireStartTime_quotes (by decide) _) fun _ _ => ?_
    refine FailsWithin.bind (attributes_quotes (by decide) hattributes) fun _ _ => ?_
    exact (exemplars_quotes hexemplars).bind fun _ _ => .ok _
  | exponentialHistogram proto aggregationTemporality =>
    obtain ⟨hattributes, hexemplars⟩ := List.forall_mem_cons.mp h
    unfold DataPoint.decode exponentialHistogramPoint
    refine FailsWithin.bind (requireStartTime_quotes (by decide) _) fun _ _ => ?_
    refine FailsWithin.bind (attributes_quotes (by decide) hattributes) fun _ _ => ?_
    exact (exemplars_quotes hexemplars).bind fun _ _ => .ok _
  | summary proto =>
    have hattributes := h _ List.mem_cons_self
    unfold DataPoint.decode summaryPoint
    refine FailsWithin.bind (requireStartTime_quotes (by decide) _) fun _ _ => ?_
    exact (attributes_quotes (by decide) hattributes).bind fun _ _ => .ok _

theorem streamKind_quotes (data : Option (MetricData otlp)) :
    FailsWithin (RecordRejection.Quotes limit) (streamKind data) := by
  unfold streamKind
  split
  · trivial
  · exact (temporality_quotes _).map _
  · exact (temporality_quotes _).map _
  · exact (temporality_quotes _).map _
  · trivial
  · trivial

theorem streamIdentity_quotes {proto : Metric otlp} {envelope : Envelope}
    (h : (AnyValue.kvlistValue proto.descriptor.metadata).KeysWithin limit) :
    FailsWithin (RecordRejection.Quotes limit) (streamIdentity proto envelope limits) := by
  refine FailsWithin.bind (streamKind_quotes _) fun _ _ => ?_
  exact (attributes_quotes (by decide) h).bind fun _ _ => .ok _

/-! ### Every record -/

/-- A message under its resource and its scope is refused by one of the three. -/
theorem carried_quotes {R T : Type} {record : R → Envelope → Except RecordRejection T}
    {inner : R → List AnyValue} {c : Carried R}
    (hrecord : (∀ any ∈ inner c.record, any.KeysWithin limit) →
      ∀ envelope, FailsWithin (RecordRejection.Quotes limit) (record c.record envelope))
    (h : ∀ any ∈ c.values inner, any.KeysWithin limit) :
    FailsWithin (RecordRejection.Quotes limit) (c.decode record limits) := by
  obtain ⟨hresource, hrest⟩ := List.forall_mem_cons.mp h
  obtain ⟨hscope, hinner⟩ := List.forall_mem_cons.mp hrest
  refine FailsWithin.bind (scope_quotes hscope) fun _ _ => ?_
  refine FailsWithin.bind (resource_quotes hresource) fun _ _ => ?_
  exact hrecord hinner _

/-- **A record is refused within what it carries**: whatever its decoding quotes is a key it was
sent with, or a member of a trace state within the caps. -/
theorem record_quotes {record : WireRecord} (h : ∀ any ∈ record.values, any.KeysWithin limit) :
    FailsWithin (RecordRejection.Quotes limit) (record.decode limits) := by
  cases record with
  | span carried => exact (carried_quotes (fun h _ => span_quotes h) h).map _
  | log carried => exact (carried_quotes (fun h _ => logRecord_quotes h) h).map _
  | point carried =>
    obtain ⟨hresource, hrest⟩ := List.forall_mem_cons.mp h
    obtain ⟨hscope, hinner⟩ := List.forall_mem_cons.mp hrest
    obtain ⟨hmetadata, hpoint⟩ := List.forall_mem_cons.mp hinner
    refine FailsWithin.map _ ?_
    refine FailsWithin.bind (resource_quotes hresource) fun _ _ => ?_
    refine FailsWithin.bind (scope_quotes hscope) fun _ _ => ?_
    refine FailsWithin.bind (streamIdentity_quotes hmetadata) fun _ _ => ?_
    exact (dataPoint_quotes hpoint).bind fun _ _ => .ok _

end Decode

/-! ## What admission adds -/

/-- Whether every record the export has refused so far was refused for a reason of this kind. -/
def Export.Refuses (P : RecordRejection → Prop) (x : Export) : Prop :=
  ∀ reason, RecordOutcome.rejected reason ∈ x.records → P reason

namespace Export.Refuses

variable {P : RecordRejection → Prop} {x : Export}

theorem append {x' : Export} {outcome : RecordOutcome} (hx : x.Refuses P)
    (hrecords : x'.records = x.records ++ [outcome])
    (h : ∀ reason, outcome = .rejected reason → P reason) : x'.Refuses P := by
  intro reason hreason
  rw [hrecords, List.mem_append, List.mem_singleton] at hreason
  rcases hreason with hreason | hreason
  · exact hx reason hreason
  · exact h reason hreason.symm

/-- A record whose translation failed is refused for that. -/
theorem refused {reason : RecordRejection} (hx : x.Refuses P) (h : P reason) :
    (x.note (.rejected reason)).Refuses P := by
  refine hx.append rfl fun reason' hreason' => ?_
  obtain rfl := RecordOutcome.rejected.inj hreason'
  exact h

section Ledger

variable (hbudget : ∀ rejection, P (.budget rejection)) (hshape : ∀ error, P (.shape error))

include hbudget hshape

/-- The ledger refuses by a budget or by the shape law. -/
theorem ofAdmission {x' : Export} {outcome : AdmissionOutcome} (hx : x.Refuses P)
    (hrecords : x'.records = x.records ++ [.ofAdmission outcome]) : x'.Refuses P := by
  refine hx.append hrecords fun reason hreason => ?_
  cases outcome with
  | rejected rejection =>
    obtain rfl := RecordOutcome.rejected.inj hreason
    exact hbudget rejection
  | invalid error =>
    obtain rfl := RecordOutcome.rejected.inj hreason
    exact hshape error
  | _ => cases hreason

theorem admitSpan (now : AdmissionTime) {translated : Except RecordRejection Span}
    (hx : x.Refuses P) (h : FailsWithin P translated) :
    (x.admitSpan now translated).Refuses P := by
  cases translated with
  | error reason => exact hx.refused h
  | ok span =>
    have hrecords : (x.admitSpan now (.ok span)).records =
        x.records ++ [.ofAdmission (x.ledger.admitSpan x.nextAddr span).2.outcome] := by
      simp only [Export.admitSpan]
      split
      · rfl
      · rfl
    exact ofAdmission hbudget hshape hx hrecords

theorem admitLog (now : AdmissionTime) {translated : Except RecordRejection LogRecord}
    (hx : x.Refuses P) (h : FailsWithin P translated) :
    (x.admitLog now translated).Refuses P := by
  cases translated with
  | error reason => exact hx.refused h
  | ok record =>
    have hrecords : (x.admitLog now (.ok record)).records =
        x.records ++ [.ofAdmission (x.ledger.admitLogRecord record).2] := by
      simp only [Export.admitLog]
      split
      · rfl
      · rfl
    exact ofAdmission hbudget hshape hx hrecords

theorem admitPoint (now : AdmissionTime) (stream : StreamIdentity)
    {translated : Except RecordRejection MetricPoint} (hx : x.Refuses P)
    (h : FailsWithin P translated) : (x.admitPoint now stream translated).Refuses P := by
  cases translated with
  | error reason => exact hx.refused h
  | ok point =>
    have hrecords : (x.admitPoint now stream (.ok point)).records = x.records ++
        [.ofAdmission (x.ledger.admitMetricPoint x.nextAddr stream point).2.outcome] := by
      simp only [Export.admitPoint]
      split
      · rfl
      · rfl
    exact ofAdmission hbudget hshape hx hrecords

/-- Under a stream that is refused, its reason is repeated for every point. -/
theorem admitMetric (now : AdmissionTime) {metric : WireMetric} (hx : x.Refuses P)
    (h : ∀ translated ∈ metric.records, FailsWithin P translated) :
    (x.admitMetric now metric).Refuses P := by
  unfold Export.admitMetric
  unfold WireMetric.records at h
  cases hidentity : metric.identity with
  | error reason =>
    rw [hidentity] at h
    refine List.foldlRecOn metric.points _ hx fun x hx point hpoint => ?_
    exact hx.refused (h _ (List.mem_map_of_mem hpoint))
  | ok stream =>
    rw [hidentity] at h
    refine List.foldlRecOn metric.points _ hx fun x hx point hpoint => ?_
    have hpoint := h _ (List.mem_map_of_mem hpoint)
    refine admitPoint hbudget hshape now stream hx ?_
    cases point with
    | error reason => exact hpoint
    | ok payload => trivial

/-- **An export refuses its records for the decoder's reasons and the ledger's**: whatever holds of
every budget and shape refusal, and of what its records fail to decode with, holds of them all. -/
theorem admitCall {p : Pipeline} {c : ExportCall} {x : Export} (hx : p.admitCall c = .ok x)
    (h : ∀ translated ∈ c.records, FailsWithin P translated) : x.Refuses P := by
  have hopen : p.openExport.Refuses P := fun reason hreason => absurd hreason List.not_mem_nil
  cases c with
  | spans now payload =>
    obtain ⟨request, hrequest, rfl⟩ := Pipeline.admitExport_eq_ok hx
    rw [ExportCall.records, hrequest] at h
    refine List.foldlRecOn request _ hopen fun x hx translated hmem => ?_
    exact admitSpan hbudget hshape now hx
      (FailsWithin.map_iff.mp (h _ (List.mem_map_of_mem hmem)))
  | logs now payload =>
    obtain ⟨request, hrequest, rfl⟩ := Pipeline.admitExport_eq_ok hx
    rw [ExportCall.records, hrequest] at h
    refine List.foldlRecOn request _ hopen fun x hx translated hmem => ?_
    exact admitLog hbudget hshape now hx
      (FailsWithin.map_iff.mp (h _ (List.mem_map_of_mem hmem)))
  | metrics now payload =>
    obtain ⟨request, hrequest, rfl⟩ := Pipeline.admitExport_eq_ok hx
    rw [ExportCall.records, hrequest] at h
    refine List.foldlRecOn request _ hopen fun x hx metric hmem => ?_
    exact admitMetric hbudget hshape now hx fun translated htranslated =>
      h translated (List.mem_flatMap.mpr ⟨metric, hmem, htranslated⟩)

end Ledger

end Export.Refuses

end RuntimeTrail
