import RuntimeTrail.Ingestion.Carried

/-!
# What decoding keeps

Every accepted wire record can be written back from the model record alone.  What
the wire cannot say twice is written one way, and those ways are the normal forms
of this file:

* **attribute lists** are written in key order (`byKey`), the order a map forgets
  (`attributes_eq_iff_perm`);
* **ids** of a span or a link that were not sent are written as zero bytes
  (`zeroed`);
* **messages** that were not sent (a resource, a scope, a status, a bucket layout)
  are written as the default ones, and a body without a value is not written
  (`sentBody`);
* **trace states** are written without the whitespace around the halves of their
  members (`trimTraceState`).

A proto3 scalar or string at its zero value and an absent one are one value on the
wire already.  Nothing else is normalised: values, key-value lists, events, links,
exemplars, points and descriptors come back as they were sent.
-/

namespace RuntimeTrail

open Library

namespace Otlp

/-! ## Scalars, strings and doubles -/

theorem getD_nonZero (scalar : Nat) : (Decode.nonZero scalar).getD 0 = scalar := by
  unfold Decode.nonZero
  by_cases h : scalar = 0
  · rw [if_neg (not_not.mpr h), h]; rfl
  · rw [if_pos h]; rfl

theorem getD_presentString (text : String) : (Decode.presentString text).getD "" = text := by
  unfold Decode.presentString
  by_cases h : text.isEmpty = true
  · rw [if_pos h, String.isEmpty_iff.mp h]; rfl
  · rw [if_neg h]; rfl

/-- The sum a summary was sent with: positive zero when the model has none. -/
def sumOf (sum : Option Float) : F64 := (sum.map Float.get).getD ⟨0⟩

/-- Positive zero is the only sum that reads as absent. -/
theorem sumOf_summarySum (sum : F64) : sumOf (Decode.summarySum sum) = sum := by
  obtain ⟨bits⟩ := sum
  unfold Decode.summarySum
  by_cases h : (F64.isNonZero ⟨bits⟩ || F64.isSignNegative ⟨bits⟩) = true
  · rw [if_pos h]; rfl
  · rw [if_neg h]
    -- a double that is zero with its sign bit clear is positive zero
    have hzero : bits = 0 := by
      simp only [F64.isNonZero, F64.isSignNegative, Bool.or_eq_true, Bool.and_eq_true,
        decide_eq_true_eq, ne_eq, not_or, not_and, not_not] at h
      by_contra hne
      have hsign := h.1 hne
      rw [hsign] at h
      exact h.2 (by decide)
    rw [hzero]; rfl

theorem map_get_map_new (values : List F64) : (values.map Float.new).map Float.get = values := by
  simp [Function.comp_def]

theorem optionMap_get_map_new (value : Option F64) : (value.map Float.new).map Float.get = value := by
  simp [Function.comp_def]

/-! ## Values -/

mutual

/-- The wire message of a value. -/
def ofValue : Value → AnyValue
  | .string text => .stringValue text
  | .bool flag => .boolValue flag
  | .int number => .intValue number
  | .double number => .doubleValue number.get
  | .bytes payload => .bytesValue payload
  | .array items => .arrayValue (ofItems items)
  | .kvList entries => .kvlistValue (ofEntries entries)

def ofItems : List Value → List AnyValue
  | [] => []
  | item :: rest => ofValue item :: ofItems rest

def ofEntries : List (String × Value) → List KeyValue
  | [] => []
  | (key, value) :: rest => .mk key (some (ofValue value)) 0 :: ofEntries rest

end

/-- The wire message of one entry. -/
def ofEntry (entry : String × Value) : KeyValue := .mk entry.1 (some (ofValue entry.2)) 0

theorem tryArray_eq_ok {items : List Value} {value : Value} (h : Value.tryArray items = .ok value) :
    value = .array items := by
  obtain ⟨kept, hkept, hvalue⟩ := bind_eq_ok_iff.mp h
  have hsame : kept = items := by
    unfold HomogeneousArray.tryFromItems at hkept
    split at hkept
    · exact (Except.ok.inj hkept).symm
    · obtain ⟨_, -, hrest⟩ := bind_eq_ok_iff.mp hkept
      exact (Except.ok.inj hrest).symm
  rw [← Except.ok.inj hvalue, hsame]

theorem tryKvList_eq_ok {entries : List (String × Value)} {value : Value}
    (h : Value.tryKvList entries = .ok value) : value = .kvList entries := by
  obtain ⟨kept, hkept, hvalue⟩ := bind_eq_ok_iff.mp h
  obtain ⟨_, -, hrest⟩ := bind_eq_ok_iff.mp hkept
  rw [← Except.ok.inj hvalue, ← Except.ok.inj hrest]

/-- **A value comes back as it was sent**, whatever it nests. -/
theorem ofValue_wireAny (field : String) : ∀ any value, Decode.wireAny field any = .ok value →
    ofValue value = any := by
  refine AnyValue.rec
    (motive_1 := fun any => ∀ value, Decode.wireAny field any = .ok value → ofValue value = any)
    (motive_2 := fun kv => ∀ entry, Decode.keyValue field kv = .ok entry → ofEntry entry = kv)
    (motive_3 := fun l => ∀ items, Decode.wireItems field l = .ok items → ofItems items = l)
    (motive_4 := fun l => ∀ entries, Decode.keyValues field l = .ok entries →
      ofEntries entries = l)
    (motive_5 := fun any => ∀ value, Decode.wireValue field any = .ok value →
      some (ofValue value) = any)
    ?unset ?string ?bool ?int ?double ?array ?kvlist ?bytes ?strindex ?mk ?nil ?cons ?knil ?kcons
    ?none ?some
  case unset => intro value h; exact absurd h (by simp [Decode.wireAny, Decode.unrepresentable])
  case string => intro text value h; rw [← Except.ok.inj h]; rfl
  case bool => intro flag value h; rw [← Except.ok.inj h]; rfl
  case int => intro number value h; rw [← Except.ok.inj h]; rfl
  case double => intro number value h; rw [← Except.ok.inj h]; rfl
  case bytes => intro payload value h; rw [← Except.ok.inj h]; rfl
  case strindex =>
    intro index value h
    exact absurd h (by simp [Decode.wireAny, Decode.unrepresentable])
  case array =>
    intro values ih value h
    obtain ⟨items, hitems, hvalue⟩ := bind_eq_ok_iff.mp h
    rw [tryArray_eq_ok (mapError_eq_ok_iff.mp hvalue), ofValue, ih items hitems]
  case kvlist =>
    intro values ih value h
    obtain ⟨entries, hentries, hvalue⟩ := bind_eq_ok_iff.mp h
    rw [tryKvList_eq_ok (mapError_eq_ok_iff.mp hvalue), ofValue, ih entries hentries]
  case mk =>
    intro key value keyStrindex ih entry h
    rw [Decode.keyValue] at h
    split at h
    · exact absurd h (by simp [Decode.unrepresentable])
    · rename_i hindex
      obtain ⟨v, hv, hentry⟩ := bind_eq_ok_iff.mp h
      rw [← Except.ok.inj hentry, ofEntry, ih v hv, not_not.mp hindex]
  case nil => intro items h; rw [← Except.ok.inj h]; rfl
  case cons =>
    intro any rest ihany ihrest items h
    obtain ⟨item, hitem, hrest⟩ := bind_eq_ok_iff.mp h
    obtain ⟨items', hitems', hall⟩ := bind_eq_ok_iff.mp hrest
    rw [← Except.ok.inj hall, ofItems, ihany item hitem, ihrest items' hitems']
  case knil => intro entries h; rw [← Except.ok.inj h]; rfl
  case kcons =>
    intro kv rest ihkv ihrest entries h
    obtain ⟨⟨key, value⟩, hentry, hrest⟩ := bind_eq_ok_iff.mp h
    obtain ⟨entries', hentries', hall⟩ := bind_eq_ok_iff.mp hrest
    rw [← Except.ok.inj hall, ofEntries, ihrest entries' hentries', ← ihkv _ hentry, ofEntry]
  case none => intro value h; exact absurd h (by simp [Decode.wireValue, Decode.unrepresentable])
  case some => intro any ih value h; rw [ih value h]

theorem keyValue_recovers (field : String) : Recovers (Decode.keyValue field) id ofEntry := by
  refine .exact fun {kv entry} h => ?_
  obtain ⟨key, value, keyStrindex⟩ := kv
  rw [Decode.keyValue] at h
  split at h
  · exact absurd h (by simp [Decode.unrepresentable])
  · rename_i hindex
    obtain ⟨v, hv, hentry⟩ := bind_eq_ok_iff.mp h
    cases value with
    | none => exact absurd hv (by simp [Decode.wireValue, Decode.unrepresentable])
    | some any =>
      rw [← Except.ok.inj hentry, ofEntry, ofValue_wireAny field any v hv, not_not.mp hindex]

/-! ## Attribute maps -/

/-- An attribute list in key order. -/
def byKey (attributes : List KeyValue) : List KeyValue :=
  attributes.insertionSort fun a b => a.key ≤ b.key

/-- The wire list of an attribute map. -/
def ofAttributes (attributes : Attributes) : List KeyValue := attributes.entries.entries.map ofEntry

/-- What an accepted attribute list is, beside its order. -/
theorem attributes_eq_ok_iff {pairs : List KeyValue} {field : String} {limits : BudgetLimits}
    {made : Attributes} :
    Decode.attributes pairs field limits = .ok made ↔
      pairs.length ≤ (Decode.attributeCountBudget field limits).2 ∧
        ∃ converted, pairs.mapM (Decode.keyValue field) = .ok converted ∧
          converted.Perm made.entries.entries := by
  unfold Decode.attributes
  simp only [gt_iff_lt]
  split
  · rename_i hover
    refine iff_of_false (by simp) fun h => ?_
    omega
  · rename_i hwithin
    rw [bind_eq_ok_iff]
    constructor
    · rintro ⟨converted, hconverted, hmade⟩
      refine ⟨by omega, converted, hconverted, ?_⟩
      exact Attributes.fromPairs_eq_ok_iff.mp (mapError_eq_ok_iff.mp hmade)
    · rintro ⟨-, converted, hconverted, hperm⟩
      exact ⟨converted, hconverted,
        mapError_eq_ok_iff.mpr (Attributes.fromPairs_eq_ok_iff.mpr hperm)⟩

/-- The list an attribute map came from is a listing of the map. -/
theorem perm_ofAttributes {pairs : List KeyValue} {field : String} {limits : BudgetLimits}
    {made : Attributes} (h : Decode.attributes pairs field limits = .ok made) :
    pairs.Perm (ofAttributes made) := by
  obtain ⟨-, converted, hconverted, hperm⟩ := attributes_eq_ok_iff.mp h
  have hpairs : converted.map ofEntry = pairs := by
    rw [(keyValue_recovers field).mapM.recover_eq hconverted, List.map_id]
  rw [← hpairs]
  exact hperm.map ofEntry

theorem pairwise_ofAttributes (attributes : Attributes) :
    (ofAttributes attributes).Pairwise fun a b => a.key < b.key :=
  List.pairwise_map.mpr attributes.entries.sorted

/-- **An attribute list comes back in key order.** -/
theorem attributes_recovers (field : String) (limits : BudgetLimits) :
    Recovers (fun pairs => Decode.attributes pairs field limits) byKey ofAttributes where
  recover_eq h :=
    (insertionSort_eq_of_perm (perm_ofAttributes h) (pairwise_ofAttributes _)).symm
  decode_normal := by
    intro pairs made h
    have hperm := perm_ofAttributes h
    have hbyKey : byKey pairs = ofAttributes made :=
      insertionSort_eq_of_perm hperm (pairwise_ofAttributes made)
    obtain ⟨hcount, converted, hconverted, hmade⟩ := attributes_eq_ok_iff.mp h
    refine attributes_eq_ok_iff.mpr ⟨?_, made.entries.entries, ?_, List.Perm.refl _⟩
    · rw [hbyKey, ← hperm.length_eq]
      exact hcount
    · -- every entry of the map was converted, so its wire message is converted again
      have hentry : ∀ entry ∈ made.entries.entries,
          Decode.keyValue field (ofEntry entry) = .ok entry := by
        intro entry hentry
        obtain ⟨kv, hkv⟩ := exists_of_mapM_eq_ok hconverted (hmade.mem_iff.mpr hentry)
        rwa [(keyValue_recovers field).recover_eq hkv]
      rw [hbyKey]
      exact mapM_map_eq_ok hentry

/-- Two accepted attribute lists give one map exactly when they list the same attributes. -/
theorem attributes_eq_iff_perm {pairs pairs' : List KeyValue} {field : String}
    {limits : BudgetLimits} {made made' : Attributes}
    (h : Decode.attributes pairs field limits = .ok made)
    (h' : Decode.attributes pairs' field limits = .ok made') : made = made' ↔ pairs.Perm pairs' := by
  rw [(attributes_recovers field limits).eq_iff h h']
  refine insertionSort_eq_iff_perm ?_
  refine ((perm_ofAttributes h).map KeyValue.key).nodup_iff.mpr ?_
  exact List.pairwise_map.mpr ((pairwise_ofAttributes made).imp fun h => h.ne)

/-! ## Ids -/

theorem wireTraceId_recovers (field : String) :
    Recovers (fun bytes => Decode.wireTraceId bytes field) id TraceId.bytes := by
  refine .exact fun {bytes made} h => ?_
  unfold Decode.wireTraceId at h
  split at h
  · rw [← Except.ok.inj h]
  · exact absurd h (by simp [Decode.unrepresentable])

theorem wireSpanId_recovers (field : String) :
    Recovers (fun bytes => Decode.wireSpanId bytes field) id SpanId.bytes := by
  refine .exact fun {bytes made} h => ?_
  unfold Decode.wireSpanId at h
  split at h
  · rw [← Except.ok.inj h]
  · exact absurd h (by simp [Decode.unrepresentable])

/-- The bytes an id is written with: zeros when it was not sent. -/
def zeroed (length : Nat) (bytes : List UInt8) : List UInt8 :=
  if bytes.isEmpty then List.replicate length 0 else bytes

/-- The bytes of an id that may be absent. -/
def ofPresent {Id : Type} (bytes : Id → List UInt8) (made : Option Id) : List UInt8 :=
  (made.map bytes).getD []

section Ids

variable {Id : Type} {wire : List UInt8 → String → Except RecordRejection Id}
  {bytesOf : Id → List UInt8} {field : String}

/-- An id whose absence is an encoding comes back as its bytes, absent ones as that encoding. -/
theorem zeroedId_recovers {zero : Id} {length : Nat}
    (hwire : Recovers (fun bytes => wire bytes field) id bytesOf)
    (hzero : wire (List.replicate length 0) field = .ok zero) :
    Recovers (Decode.zeroedId zero wire field) (zeroed length) bytesOf where
  recover_eq := by
    intro bytes made h
    unfold Decode.zeroedId at h
    unfold zeroed
    by_cases hempty : bytes.isEmpty = true
    · rw [if_pos hempty] at h ⊢
      rw [← Except.ok.inj h]
      exact hwire.recover_eq hzero
    · rw [if_neg hempty] at h ⊢
      exact hwire.recover_eq h
  decode_normal := by
    intro bytes made h
    unfold Decode.zeroedId at h ⊢
    unfold zeroed
    by_cases hempty : bytes.isEmpty = true
    · rw [if_pos hempty] at h
      rw [if_pos hempty, ← Except.ok.inj h, hzero, ite_self]
    · rw [if_neg hempty] at h
      rwa [if_neg hempty, if_neg hempty]

/-- An id that may be absent comes back exactly as it was sent. -/
theorem presentId_recovers (hwire : Recovers (fun bytes => wire bytes field) id bytesOf) :
    Recovers (Decode.presentId wire field) id (ofPresent bytesOf) := by
  refine .exact fun {bytes made} h => ?_
  unfold Decode.presentId at h
  by_cases hempty : bytes.isEmpty = true
  · rw [if_pos hempty] at h
    rw [← Except.ok.inj h, List.isEmpty_iff.mp hempty]
    rfl
  · rw [if_neg hempty] at h
    obtain ⟨sent, hsent, rfl⟩ := map_eq_ok_iff.mp h
    exact hwire.recover_eq hsent

end Ids

theorem spanTraceId_recovers : Recovers Decode.spanTraceId (zeroed 16) TraceId.bytes :=
  zeroedId_recovers (wireTraceId_recovers "span trace_id") rfl

theorem spanSpanId_recovers : Recovers Decode.spanSpanId (zeroed 8) SpanId.bytes :=
  zeroedId_recovers (wireSpanId_recovers "span span_id") rfl

theorem optionalTraceId_recovers : Recovers Decode.optionalTraceId id (ofPresent TraceId.bytes) :=
  presentId_recovers (wireTraceId_recovers "log trace_id")

theorem optionalSpanId_recovers : Recovers Decode.optionalSpanId id (ofPresent SpanId.bytes) :=
  presentId_recovers (wireSpanId_recovers "log span_id")

theorem parentSpanId_recovers : Recovers Decode.parentSpanId id (ofPresent SpanId.bytes) :=
  presentId_recovers (wireSpanId_recovers "span parent_span_id")

/-! ## Trace states -/

/-- A member without the whitespace around its halves. -/
def trimHalves (member : List Char) : List Char :=
  match splitOnce '=' member with
  | none => member
  | some (vendor, value) =>
    trim Decode.isWhitespace vendor ++ '=' :: trim Decode.isWhitespace value

/-- A trace state without the whitespace around the halves of its members. -/
def trimTraceState (raw : String) : String :=
  String.ofList (mapMembers ',' trimHalves raw.toList)

/-- One entry as a list member. -/
def ofTraceStateEntry (entry : TraceStateEntry) : List Char :=
  entry.vendor.toList ++ '=' :: entry.value.toList

/-- The `trace_state` string of a trace state. -/
def ofTraceState (state : TraceState) : String :=
  String.ofList ([','].intercalate (state.entries.map ofTraceStateEntry))

theorem trimHalves_sublist (member : List Char) : (trimHalves member).Sublist member := by
  unfold trimHalves
  split
  · exact List.Sublist.refl _
  · rename_i vendor value hsplit
    rw [(splitOnce_eq_some_iff.mp hsplit).1]
    exact (trim_sublist _ vendor).append ((trim_sublist _ value).cons_cons '=')

/-- A member comes back with its halves trimmed, and the trimmed member is the same entry. -/
theorem traceStateEntry_recovers :
    Recovers Decode.traceStateEntry trimHalves ofTraceStateEntry := by
  have hread : ∀ {member entry}, Decode.traceStateEntry member = .ok entry →
      ∃ vendor value, splitOnce '=' member = some (vendor, value) ∧
        entry = ⟨String.ofList (trim Decode.isWhitespace vendor),
          String.ofList (trim Decode.isWhitespace value)⟩ := by
    intro member entry h
    unfold Decode.traceStateEntry at h
    split at h
    · exact absurd h (by simp [Decode.unrepresentable])
    · rename_i vendor value hsplit
      exact ⟨vendor, value, hsplit, (Except.ok.inj h).symm⟩
  constructor
  · intro member entry h
    obtain ⟨vendor, value, hsplit, rfl⟩ := hread h
    simp only [ofTraceStateEntry, trimHalves, hsplit, String.toList_ofList]
  · intro member entry h
    obtain ⟨vendor, value, hsplit, rfl⟩ := hread h
    have hvendor : '=' ∉ trim Decode.isWhitespace vendor := fun hmem =>
      (splitOnce_eq_some_iff.mp hsplit).2 ((trim_sublist _ vendor).mem hmem)
    have htrimmed : splitOnce '=' (trimHalves member) =
        some (trim Decode.isWhitespace vendor, trim Decode.isWhitespace value) := by
      simp only [trimHalves, hsplit]
      exact splitOnce_eq_some_iff.mpr ⟨rfl, hvendor⟩
    simp only [Decode.traceStateEntry, htrimmed, trim_trim]

/-- No trimmed member holds a comma. -/
theorem not_mem_trimHalves {raw : List Char} :
    ∀ member ∈ raw.splitOn ',', ',' ∉ trimHalves member := fun member hmember hmem =>
  not_mem_of_mem_splitOn hmember ((trimHalves_sublist member).mem hmem)

theorem splitOn_trimTraceState (raw : String) :
    (trimTraceState raw).toList.splitOn ',' = (raw.toList.splitOn ',').map trimHalves := by
  rw [trimTraceState, String.toList_ofList]
  exact splitOn_mapMembers not_mem_trimHalves

theorem utf8ByteSize_trimTraceState (raw : String) :
    (trimTraceState raw).utf8ByteSize ≤ raw.utf8ByteSize := by
  have hsublist : (mapMembers ',' trimHalves raw.toList).Sublist raw.toList :=
    mapMembers_sublist fun member _ => trimHalves_sublist member
  have hle := String.utf8Len_le_of_sublist hsublist
  rwa [← String.utf8ByteSize_ofList, ← String.utf8ByteSize_ofList, String.ofList_toList] at hle

/-- What an accepted trace state is: empty, or within both caps with every member an entry. -/
theorem traceState_eq_ok_iff {raw : String} {state : TraceState} :
    Decode.traceState raw = .ok state ↔ (raw = "" ∧ state = ⟨[]⟩) ∨
      (raw ≠ "" ∧ raw.utf8ByteSize ≤ Decode.maxBytes ∧
        (raw.toList.splitOn ',').length ≤ Decode.maxMembers ∧
        (raw.toList.splitOn ',').mapM Decode.traceStateEntry = .ok state.entries) := by
  obtain ⟨entries⟩ := state
  unfold Decode.traceState
  by_cases hempty : raw = ""
  · rw [if_pos (by simpa using hempty)]
    simp only [hempty, true_and, ne_eq, not_true_eq_false, false_and, or_false, Except.ok.injEq]
    exact eq_comm
  · rw [if_neg (by simpa using hempty)]
    simp only [hempty, false_and, false_or, not_false_eq_true, true_and, ne_eq, gt_iff_lt]
    split
    · rename_i hover
      refine iff_of_false (by simp [Decode.unrepresentable]) fun h => ?_
      omega
    · split
      · rename_i hover
        refine iff_of_false (by simp [Decode.unrepresentable]) fun h => ?_
        omega
      · rename_i hbytes hmembers
        rw [bind_eq_ok_iff]
        constructor
        · rintro ⟨made, hmade, hstate⟩
          refine ⟨by omega, by omega, ?_⟩
          rw [hmade, TraceState.mk.inj (Except.ok.inj hstate)]
        · rintro ⟨-, -, hmade⟩
          exact ⟨entries, hmade, rfl⟩

/-- **A trace state comes back with the halves of its members trimmed.** -/
theorem traceState_recovers : Recovers Decode.traceState trimTraceState ofTraceState where
  recover_eq := by
    intro raw state h
    rcases traceState_eq_ok_iff.mp h with ⟨rfl, rfl⟩ | ⟨-, -, -, hmembers⟩
    · rfl
    · rw [ofTraceState, traceStateEntry_recovers.mapM.recover_eq hmembers]
      rfl
  decode_normal := by
    intro raw state h
    rcases traceState_eq_ok_iff.mp h with ⟨rfl, rfl⟩ | ⟨hne, hbytes, hcount, hmembers⟩
    · exact h
    · have hsplit := splitOn_trimTraceState raw
      refine traceState_eq_ok_iff.mpr (.inr ⟨?_, ?_, ?_, ?_⟩)
      · -- an empty trimmed text has one empty member, and an empty member is no entry
        intro hempty
        rw [hempty] at hsplit
        have hnormal := traceStateEntry_recovers.mapM.decode_normal hmembers
        rw [← hsplit] at hnormal
        exact absurd hnormal (by simp [Decode.traceStateEntry, splitOnce, Decode.unrepresentable,
          bind, Except.bind])
      · exact (utf8ByteSize_trimTraceState raw).trans hbytes
      · rw [hsplit, List.length_map]
        exact hcount
      · rw [hsplit]
        exact traceStateEntry_recovers.mapM.decode_normal hmembers

/-! ## Enumerations -/

def ofSpanKind : SpanKind → Int
  | .unspecified => 0
  | .internal => 1
  | .server => 2
  | .client => 3
  | .producer => 4
  | .consumer => 5

def ofStatusCode : SpanStatusCode → Int
  | .unset => 0
  | .ok => 1
  | .error => 2

def ofTemporality : Option Temporality → Int
  | none => 0
  | some .delta => 1
  | some .cumulative => 2

/-- The wire value of an optional severity number. -/
def ofSeverityNumber (severity : Option SeverityNumber) : Int :=
  (severity.map fun severity => (severity.number : Int)).getD 0

theorem spanKind_recovers : Recovers Decode.spanKind id ofSpanKind := by
  refine .exact fun {value kind} h => ?_
  unfold Decode.spanKind at h
  split at h
  case h_7 => exact absurd h (by simp [Decode.unrepresentable])
  all_goals
    rw [← Except.ok.inj h]
    rfl

theorem statusCode_recovers : Recovers Decode.statusCode id ofStatusCode := by
  refine .exact fun {value code} h => ?_
  unfold Decode.statusCode at h
  split at h
  case h_4 => exact absurd h (by simp [Decode.unrepresentable])
  all_goals
    rw [← Except.ok.inj h]
    rfl

theorem temporality_recovers : Recovers Decode.temporality id ofTemporality := by
  refine .exact fun {value temporality} h => ?_
  unfold Decode.temporality at h
  split at h
  case h_4 => exact absurd h (by simp [Decode.unrepresentable])
  all_goals
    rw [← Except.ok.inj h]
    rfl

theorem severityNumber_recovers : Recovers Decode.severityNumber id ofSeverityNumber := by
  refine .exact fun {value severity} h => ?_
  unfold Decode.severityNumber at h
  by_cases hzero : value = 0
  · rw [if_pos hzero] at h
    rw [← Except.ok.inj h, hzero]
    rfl
  · rw [if_neg hzero] at h
    split at h
    · rename_i hbyte
      obtain ⟨made, hmade, rfl⟩ := map_eq_ok_iff.mp (mapError_eq_ok_iff.mp h)
      unfold SeverityNumber.tryNew at hmade
      split at hmade
      · rw [← Except.ok.inj hmade]
        exact Int.toNat_of_nonneg hbyte.1
      · exact absurd hmade (by simp)
    · exact absurd h (by simp [Decode.unrepresentable])

end Otlp

end RuntimeTrail
