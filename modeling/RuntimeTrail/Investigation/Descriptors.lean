import RuntimeTrail.Library.Hex
import RuntimeTrail.Library.JsonTree
import RuntimeTrail.Library.Print
import RuntimeTrail.Query.Cursor

/-!
# Entity descriptors

An entity id on the wire: `{"span": {"trace_id": hex, "span_id": hex}}`, or
`{"assigned": serial}`.  The two surfaces read and write descriptors by functions of
their own, with one wording; these are the functions of both, under what a surface makes
of a refusal's words.

* **reading** — `parseHex`, `parseEntityWith`;
* **the law** — `parseEntityWith_eq_ok_iff`: a descriptor is accepted for the id that
  it names, and `Names` is no more than what writing makes of an id.
-/

namespace RuntimeTrail

open Library

/-- An unsigned number of 64 bits. -/
def asU64 : JsonValue → Option Nat
  | .number number => number.asNat.filter fun n => n ≤ u64Max
  | _ => none

/-- A byte as a character, as a debug print writes one: between single quotes, of which it escapes
those. -/
def debugByte (printable : Char → Bool) (byte : UInt8) : String :=
  let c := Char.ofNat byte.toNat
  let escaped :=
    if c = '\x27' then ['\x5c', '\x27']
    else if c = '\x22' then ['\x22']
    else debugChar printable c
  String.ofList ('\x27' :: (escaped ++ ['\x27']))

/-! ## Reading -/

section Reading

-- the characters a debug print leaves as they are, and what a surface makes of a refusal's words
variable (printable : Char → Bool) {ε : Type} (refuse : String → ε)

def notHexText (byte : UInt8) : String :=
  "hex ids use 0-9 and a-f, but the value contains " ++ debugByte printable byte

def widthText (width : Nat) (what : String) : String :=
  what ++ " must be " ++ toString width ++ " bytes, i.e. " ++ toString (width * 2) ++
    " lowercase hex characters"

/-- Parses so many bytes of lowercase hex. -/
def parseHex (width : Nat) (text what : String) :
    Except ε { bytes : List UInt8 // bytes.length = width } :=
  if hwidth : (utf8Bytes text.toList).length = width * 2 then
    match hread : decodeHex (utf8Bytes text.toList) with
    | .error byte => .error (refuse (notHexText printable byte))
    | .ok bytes =>
      .ok ⟨bytes, by rw [length_of_decodeHex hread, hwidth, Nat.mul_div_cancel _ Nat.zero_lt_two]⟩
  else .error (refuse (widthText width what))

/-- Parses the two ids of a span's descriptor. -/
def parseSpan (span : JsonValue) : Except ε EntityId :=
  match (span.get "trace_id").bind JsonValue.asStr with
  | none => .error (refuse "a span subject needs trace_id (32 lowercase hex)")
  | some traceText =>
    match (span.get "span_id").bind JsonValue.asStr with
    | none => .error (refuse "a span subject needs span_id (16 lowercase hex)")
    | some spanText =>
      match parseHex printable refuse TraceId.length traceText "trace_id" with
      | .error error => .error error
      | .ok traceId =>
        match parseHex printable refuse SpanId.length spanText "span_id" with
        | .error error => .error error
        | .ok spanId => .ok (.span ⟨traceId.val, traceId.property⟩ ⟨spanId.val, spanId.property⟩)

/-- Parses one entity descriptor. -/
def parseEntityWith (value : JsonValue) : Except ε EntityId :=
  match value.get "span" with
  | some span => parseSpan printable refuse span
  | none =>
    match (value.get "assigned").bind asU64 with
    | some serial =>
      if serial = 0 then .error (refuse "an assigned serial starts at 1")
      else .ok (.assigned ⟨serial⟩)
    | none => .error (refuse "an entity is \x7b\"span\": …\x7d or \x7b\"assigned\": <serial>\x7d")

/-! ## What is read -/

/-- The text of bytes: their digits. -/
def hexText (bytes : List UInt8) : String := String.ofList (encodeHex bytes)

/-- A descriptor names an id: by the text of its two ids, or by its serial. -/
inductive Names (value : JsonValue) : EntityId → Prop
  | span {span : JsonValue} {traceId : TraceId} {spanId : SpanId}
    (spanned : value.get "span" = some span)
    (trace : span.get "trace_id" = some (.string (hexText traceId.bytes)))
    (own : span.get "span_id" = some (.string (hexText spanId.bytes))) :
    Names value (.span traceId spanId)
  | assigned {number : JsonNumber} {id : AssignedId}
    (spanless : value.get "span" = none) (given : value.get "assigned" = some (.number number))
    (counts : number.asNat = some id.serial) (fits : (EntityId.assigned id).InRange) :
    Names value (.assigned id)

/-- **Hex is read strictly**: only the text of the bytes is. -/
theorem parseHex_eq_ok_iff {width : Nat} {text what : String}
    {bytes : { bytes : List UInt8 // bytes.length = width }} :
    parseHex printable refuse width text what = .ok bytes ↔ text = hexText bytes.val := by
  constructor
  · intro h
    unfold parseHex at h
    split at h
    · rename_i hwidth
      split at h
      · cases h
      · rename_i read hread
        obtain rfl := Except.ok.inj h
        have htext := eq_encodeHex_of_decodeHex (hwidth ▸ Nat.dvd_mul_left 2 width) hread
        rw [hexText, ← htext, String.ofList_toList]
    · cases h
  · rintro rfl
    obtain ⟨bytes, rfl⟩ := bytes
    have hlist : (hexText bytes).toList = encodeHex bytes := String.toList_ofList
    have hwidth : (utf8Bytes (hexText bytes).toList).length = bytes.length * 2 := by
      rw [hlist, length_utf8Bytes_encodeHex, Nat.mul_comm]
    unfold parseHex
    rw [dif_pos hwidth]
    have hread : decodeHex (utf8Bytes (hexText bytes).toList) = .ok bytes := by
      rw [hlist, decodeHex_encodeHex]
    split
    · rename_i byte herror
      rw [hread] at herror
      cases herror
    · rename_i read hok
      rw [hread] at hok
      obtain rfl := Except.ok.inj hok
      rfl

theorem get_string_of_asStr {value : JsonValue} {key text : String}
    (h : (value.get key).bind JsonValue.asStr = some text) :
    value.get key = some (.string text) := by
  obtain ⟨member, hmember, htext⟩ := Option.bind_eq_some_iff.mp h
  cases member with
  | string member =>
    obtain rfl := Option.some.inj htext
    exact hmember
  | _ => cases htext

/-- A span's descriptor is read where both of its ids are. -/
theorem parseSpan_eq_ok_iff {span : JsonValue} {entity : EntityId} :
    parseSpan printable refuse span = .ok entity ↔ ∃ traceId spanId,
      entity = .span traceId spanId ∧
        span.get "trace_id" = some (.string (hexText traceId.bytes)) ∧
        span.get "span_id" = some (.string (hexText spanId.bytes)) := by
  constructor
  · intro h
    unfold parseSpan at h
    split at h
    · cases h
    rename_i traceText htrace
    split at h
    · cases h
    rename_i spanText hspan
    split at h
    · cases h
    rename_i traceId htraceId
    split at h
    · cases h
    rename_i spanId hspanId
    obtain rfl := Except.ok.inj h
    rw [parseHex_eq_ok_iff] at htraceId hspanId
    refine ⟨_, _, rfl, ?_, ?_⟩
    · rw [get_string_of_asStr htrace, htraceId]
    · rw [get_string_of_asStr hspan, hspanId]
  · rintro ⟨traceId, spanId, rfl, htrace, hspan⟩
    have htraceId : parseHex printable refuse TraceId.length (hexText traceId.bytes) "trace_id" =
        .ok ⟨traceId.bytes, traceId.length_eq⟩ := (parseHex_eq_ok_iff printable refuse).mpr rfl
    have hspanId : parseHex printable refuse SpanId.length (hexText spanId.bytes) "span_id" =
        .ok ⟨spanId.bytes, spanId.length_eq⟩ := (parseHex_eq_ok_iff printable refuse).mpr rfl
    simp only [parseSpan, htrace, hspan, Option.bind_some, JsonValue.asStr, htraceId, hspanId]

theorem asU64_eq_some_iff {value : JsonValue} {n : Nat} :
    asU64 value = some n ↔
      ∃ number, value = .number number ∧ number.asNat = some n ∧ n ≤ u64Max := by
  cases value with
  | number number => simp [asU64, Option.filter_eq_some_iff]
  | _ => simp [asU64]

/-- **A descriptor is accepted for the id that it names.** -/
theorem parseEntityWith_eq_ok_iff {value : JsonValue} {entity : EntityId} :
    parseEntityWith printable refuse value = .ok entity ↔ Names value entity := by
  constructor
  · intro h
    unfold parseEntityWith at h
    split at h
    · rename_i span hspan
      obtain ⟨traceId, spanId, rfl, htrace, hown⟩ := (parseSpan_eq_ok_iff printable refuse).mp h
      exact .span hspan htrace hown
    rename_i hspanless
    split at h
    · rename_i serial hserial
      obtain ⟨member, hmember, hcount⟩ := Option.bind_eq_some_iff.mp hserial
      obtain ⟨number, rfl, hnumber, hfits⟩ := asU64_eq_some_iff.mp hcount
      split at h
      · cases h
      · rename_i hzero
        obtain rfl := Except.ok.inj h
        exact .assigned hspanless hmember hnumber ⟨Nat.one_le_iff_ne_zero.mpr hzero, hfits⟩
    · cases h
  · intro h
    cases h with
    | span spanned trace own =>
      unfold parseEntityWith
      rw [spanned]
      exact (parseSpan_eq_ok_iff printable refuse).mpr ⟨_, _, rfl, trace, own⟩
    | assigned spanless given counts fits =>
      rename_i number id
      have hserial : (value.get "assigned").bind asU64 = some id.serial := by
        rw [given, Option.bind_some]
        exact asU64_eq_some_iff.mpr ⟨number, rfl, counts, fits.2⟩
      unfold parseEntityWith
      rw [spanless]
      dsimp only
      rw [hserial]
      exact if_neg (Nat.one_le_iff_ne_zero.mp fits.1)

/-- What is accepted as a descriptor is within a serial's 64 bits. -/
theorem Names.inRange {value : JsonValue} {entity : EntityId} (h : Names value entity) :
    entity.InRange := by
  cases h with
  | span spanned trace own => trivial
  | assigned spanless given counts fits => exact fits

/-! ## One wording -/

theorem parseHex_mapError (width : Nat) (text what : String) :
    parseHex printable refuse width text what =
      (parseHex printable id width text what).mapError refuse := by
  unfold parseHex
  split
  · split
    · rfl
    · rfl
  · rfl

theorem parseSpan_mapError (span : JsonValue) :
    parseSpan printable refuse span = (parseSpan printable id span).mapError refuse := by
  unfold parseSpan
  split
  · rfl
  rename_i traceText _
  split
  · rfl
  rename_i spanText _
  rw [parseHex_mapError printable refuse TraceId.length,
    parseHex_mapError printable refuse SpanId.length]
  cases parseHex printable id TraceId.length traceText "trace_id" with
  | error reason => rfl
  | ok traceId =>
    cases parseHex printable id SpanId.length spanText "span_id" with
    | error reason => rfl
    | ok spanId => rfl

/-- **A surface makes of a refusal what it does**: the words, and what is accepted, are the same. -/
theorem parseEntityWith_mapError (value : JsonValue) :
    parseEntityWith printable refuse value =
      (parseEntityWith printable id value).mapError refuse := by
  unfold parseEntityWith
  split
  · exact parseSpan_mapError printable refuse _
  split
  · split
    · rfl
    · rfl
  · rfl

end Reading

end RuntimeTrail
