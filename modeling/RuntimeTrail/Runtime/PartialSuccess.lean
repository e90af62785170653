import RuntimeTrail.Ingestion.Refusals

/-!
# The partial-success answer

An export that was admitted answers with how many of its records were rejected, and a
message that names them.  The count is complete; the naming stops after a fixed number
of positions, and what a named position says is bounded by what the wire could send.

* **requests** — `Protobuf`: how a body is read is a parameter; every key it yields is
  a part of the body (`Protobuf.KeysFromPayload`);
* **the summary** — `rejectedSummary`, an entry at a time (`nameRejected`); `Summarizes`
  is what every entry keeps;
* **the bound** — `rejectedSummary_bounded`.
-/

namespace RuntimeTrail

open Library

/-! ## Requests -/

/-- Which of the three export endpoints a request arrived on. -/
inductive ExportSignal where
  | traces
  | metrics
  | logs
deriving DecidableEq

/-- How the request of each endpoint is read from a body. -/
structure Protobuf where
  traces : List UInt8 → Except String (List (ResourceRecords otlp Otlp.Span))
  metrics : List UInt8 → Except String (List (ResourceRecords otlp (Metric otlp)))
  logs : List UInt8 → Except String (List (ResourceRecords otlp Otlp.LogRecord))

namespace Protobuf

/-- A body as the export that arrived with it. -/
def document (codec : Protobuf) (signal : ExportSignal) (now : AdmissionTime)
    (payload : List UInt8) : ExportDocument otlp :=
  match signal with
  | .traces => .traces now ⟨payload.length, codec.traces payload⟩
  | .metrics => .metrics now ⟨payload.length, codec.metrics payload⟩
  | .logs => .logs now ⟨payload.length, codec.logs payload⟩

/-- Every key that is read from a body is a part of it, and so no longer. -/
def KeysFromPayload (codec : Protobuf) : Prop :=
  ∀ signal now payload, ∀ record ∈ Otlp.wireRecords (codec.document signal now payload),
    ∀ any ∈ record.values, any.KeysWithin payload.length

end Protobuf

/-! ## The summary -/

/-- How many rejected positions a message names in full. -/
def maxNamedPositions : Nat := 64

/-- One entry at its position: a rejection is counted, and named while there are few. -/
def nameRejected (printable : Char → Bool) (summary : Nat × String) (entry : RecordOutcome × Nat) :
    Nat × String :=
  match entry.1 with
  | .rejected reason =>
    let rejected := summary.1 + 1
    if rejected ≤ maxNamedPositions then
      let message := if rejected > 1 then summary.2 ++ "; " else summary.2
      (rejected,
        message ++ ("position " ++ usizeText entry.2 ++ ": " ++ reason.text printable))
    else (rejected, summary.2)
  | _ => summary

/-- Counts the export's rejected records and names their positions. -/
def rejectedSummary (printable : Char → Bool) (outcome : ExportOutcome) : Nat × String :=
  let named := outcome.records.zipIdx.foldl (nameRejected printable) (0, "")
  if named.1 > maxNamedPositions then
    (named.1, named.2 ++ "; " ++
      (usizeText (named.1 - maxNamedPositions) ++ " further rejected records not named"))
  else named

/-- The rejected count on the wire: an `i64`, saturating. -/
def rejectedCount (rejected : Nat) : Nat := min rejected i64Max

/-! ## The bound -/

/-- The length of a named position, with what separates it from the one before. -/
def namedCeiling (limit : Nat) : Nat := 33 + reasonCeiling limit

/-- The length of the longest message about a payload of this many bytes. -/
def messageCeiling (limit : Nat) : Nat := maxNamedPositions * namedCeiling limit + 57

/-- What a summary says of the entries it has seen: every rejection is counted, and each of the
first positions takes no more than its share. -/
structure Summarizes (limit : Nat) (seen : List RecordOutcome) (summary : Nat × String) : Prop where
  counted : summary.1 = seen.countP RecordOutcome.isRejected
  named : summary.2.utf8ByteSize ≤ min summary.1 maxNamedPositions * namedCeiling limit

theorem utf8ByteSize_named_le (printable : Char → Bool) {reason : RecordRejection} {limit : Nat}
    (h : reason.Quotes limit) (position : Nat) :
    ("position " ++ usizeText position ++ ": " ++ reason.text printable).utf8ByteSize ≤
      31 + reasonCeiling limit := by
  have hreason := RecordRejection.utf8ByteSize_text_le printable h
  have hposition := utf8ByteSize_usizeText_le position
  have hwords : "position ".utf8ByteSize + ": ".utf8ByteSize = 11 := by decide
  simp only [String.utf8ByteSize_append]
  omega

/-- One more entry, at whatever position. -/
theorem Summarizes.nameRejected (printable : Char → Bool) {limit : Nat} {seen : List RecordOutcome}
    {summary : Nat × String} (h : Summarizes limit seen summary) (outcome : RecordOutcome)
    (position : Nat) (hquotes : ∀ reason, outcome = .rejected reason → reason.Quotes limit) :
    Summarizes limit (seen ++ [outcome]) (nameRejected printable summary (outcome, position)) := by
  obtain ⟨hcounted, hnamed⟩ := h
  cases outcome with
  | rejected reason =>
    have hcount : summary.1 + 1 =
        (seen ++ [RecordOutcome.rejected reason]).countP RecordOutcome.isRejected := by
      rw [List.countP_append, ← hcounted]
      rfl
    unfold RuntimeTrail.nameRejected
    dsimp only
    split
    · rename_i hfew
      refine ⟨hcount, ?_⟩
      have hposition := utf8ByteSize_named_le printable (hquotes reason rfl) position
      have hseparated : (if summary.1 + 1 > 1 then summary.2 ++ "; " else summary.2).utf8ByteSize ≤
          summary.2.utf8ByteSize + 2 := by
        have hseparator : "; ".utf8ByteSize = 2 := by decide
        split
        · rw [String.utf8ByteSize_append]
          omega
        · omega
      -- below the cap every position named so far has had its share
      rw [min_eq_left (by omega)] at hnamed
      dsimp only
      rw [min_eq_left hfew, String.utf8ByteSize_append, Nat.succ_mul]
      unfold namedCeiling at hnamed ⊢
      omega
    · rename_i hmany
      refine ⟨hcount, ?_⟩
      dsimp only
      rw [min_eq_right (by omega)] at hnamed ⊢
      exact hnamed
  | _ =>
    refine ⟨?_, hnamed⟩
    rw [List.countP_append]
    exact hcounted

/-- **Every entry keeps it**: what holds of a summary holds once the rest of the outcome is read. -/
theorem Summarizes.foldl (printable : Char → Bool) {limit : Nat} {outcomes : List RecordOutcome}
    (hquotes : ∀ reason, .rejected reason ∈ outcomes → reason.Quotes limit) :
    ∀ {seen : List RecordOutcome} {summary : Nat × String} (position : Nat),
      Summarizes limit seen summary → Summarizes limit (seen ++ outcomes)
        ((outcomes.zipIdx position).foldl (RuntimeTrail.nameRejected printable) summary) := by
  induction outcomes with
  | nil =>
    intro seen summary position h
    rwa [List.append_nil]
  | cons outcome rest ih =>
    intro seen summary position h
    have hstep := h.nameRejected printable outcome position fun reason hreason =>
      hquotes reason (hreason ▸ List.mem_cons_self)
    have hrest := ih (fun reason hreason => hquotes reason (List.mem_cons_of_mem _ hreason))
      (position + 1) hstep
    rwa [List.append_assoc, List.singleton_append] at hrest

/-- The summary of an outcome whose refusals quote at most this many bytes of a key. -/
theorem rejectedSummary_spec (printable : Char → Bool) {limit : Nat} {outcome : ExportOutcome}
    (hquotes : ∀ reason, .rejected reason ∈ outcome.records → reason.Quotes limit) :
    (rejectedSummary printable outcome).1 = outcome.records.countP RecordOutcome.isRejected ∧
      (rejectedSummary printable outcome).2.utf8ByteSize ≤ messageCeiling limit := by
  have hempty : Summarizes limit [] (0, "") := ⟨rfl, Nat.zero_le _⟩
  obtain ⟨hcounted, hnamed⟩ := hempty.foldl printable hquotes 0
  rw [List.nil_append] at hcounted
  have hshare : (outcome.records.zipIdx.foldl (nameRejected printable) (0, "")).2.utf8ByteSize ≤
      maxNamedPositions * namedCeiling limit :=
    hnamed.trans (Nat.mul_le_mul_right _ (min_le_right _ _))
  unfold rejectedSummary messageCeiling
  dsimp only
  split
  · refine ⟨hcounted, ?_⟩
    have hrest := utf8ByteSize_usizeText_le
      ((outcome.records.zipIdx.foldl (nameRejected printable) (0, "")).1 - maxNamedPositions)
    have hwords : "; ".utf8ByteSize + " further rejected records not named".utf8ByteSize = 37 := by
      decide
    simp only [String.utf8ByteSize_append]
    omega
  · exact ⟨hcounted, hshare.trans (Nat.le_add_right _ _)⟩

/-! ## Every outcome -/

namespace Pipeline

/-- What got past the gates is within the payload ceiling. -/
theorem bytes_le_of_admitExport {R : Type} {p : Pipeline} {payload : Payload R} {count : R → Gate}
    {admitRecords : Export → R → Export} {x : Export}
    (h : p.admitExport payload count admitRecords = .ok x) :
    payload.bytes ≤ p.payloadCeilingBytes := by
  unfold admitExport gate at h
  by_cases hdraining : p.draining = true
  · rw [if_pos hdraining] at h
    cases h
  · by_cases hbytes : payload.bytes > p.payloadCeilingBytes
    · rw [if_neg hdraining, if_pos hbytes] at h
      cases h
    · exact not_lt.mp hbytes

theorem payloadBytes_le_of_admitCall {p : Pipeline} {c : ExportCall} {x : Export}
    (h : p.admitCall c = .ok x) : c.payloadBytes ≤ p.payloadCeilingBytes := by
  cases c with
  | spans now payload => exact bytes_le_of_admitExport h
  | logs now payload => exact bytes_le_of_admitExport h
  | metrics now payload => exact bytes_le_of_admitExport h

/-- An outcome is what the export's admissions left, whatever the pump pops. -/
theorem outcome_of_callAmid {p : Pipeline} {pops : Nat → Nat} {c : ExportCall}
    {outcome : ExportOutcome} (h : (p.callAmid pops c).result = some (.ok outcome)) :
    ∃ x, p.admitCall c = .ok x ∧ outcome = ⟨x.records⟩ := by
  unfold callAmid at h
  cases hx : p.admitCall c with
  | error signal =>
    rw [hx] at h
    cases h
  | ok x =>
    rw [hx] at h
    refine ⟨x, rfl, ?_⟩
    by_cases hfits : (p.measured (pops 0) x.nextAddr).fits x.pending = true
    · have hresult := (offerExportAmid_of_fits hfits).1
      exact (Except.ok.inj (Option.some.inj (hresult.symm.trans h))).symm
    · obtain ⟨signal, hsaturated⟩ := (offerExportAmid_of_not_fits hfits).1
      have hne := Option.some.inj (hsaturated.symm.trans h)
      cases hne

end Pipeline

/-- **The refusal message is bounded.**  For every pipeline, every request on every endpoint and
every interleaving of the pump's pops: where the export is answered with an outcome, its payload is
within the ceiling, the message that names its refusals is no longer than a length which depends on
that ceiling alone, and the count beside it is the number of rejected entries, on the wire up to the
largest `i64`. -/
theorem rejectedSummary_bounded (printable : Char → Bool) (codec : Protobuf)
    (hkeys : codec.KeysFromPayload) (p : Pipeline) (pops : Nat → Nat) (signal : ExportSignal)
    (now : AdmissionTime) (payload : List UInt8) (outcome : ExportOutcome)
    (hresult : (p.callAmid pops
      ((codec.document signal now payload).call (otlpDecoder p.limits))).result =
        some (.ok outcome)) :
    payload.length ≤ p.payloadCeilingBytes ∧
      (rejectedSummary printable outcome).2.utf8ByteSize ≤ messageCeiling p.payloadCeilingBytes ∧
      (rejectedSummary printable outcome).1 = outcome.records.countP RecordOutcome.isRejected ∧
      rejectedCount (rejectedSummary printable outcome).1 =
        min (outcome.records.countP RecordOutcome.isRejected) i64Max := by
  obtain ⟨x, hx, rfl⟩ := Pipeline.outcome_of_callAmid hresult
  have hceiling : payload.length ≤ p.payloadCeilingBytes := by
    have hbytes := Pipeline.payloadBytes_le_of_admitCall hx
    cases signal <;> exact hbytes
  have hwithin : ∀ translated ∈
      ((codec.document signal now payload).call (otlpDecoder p.limits)).records,
        FailsWithin (RecordRejection.Quotes p.payloadCeilingBytes) translated := by
    intro translated htranslated
    rw [Otlp.records_eq, List.mem_map] at htranslated
    obtain ⟨record, hrecord, rfl⟩ := htranslated
    refine Decode.record_quotes fun any hany values hvalues kv hkv => ?_
    exact (hkeys signal now payload record hrecord any hany values hvalues kv hkv).trans hceiling
  have hrefuses := Export.Refuses.admitCall (fun _ => trivial) (fun _ => trivial) hx hwithin
  obtain ⟨hcounted, hbounded⟩ :=
    @rejectedSummary_spec printable p.payloadCeilingBytes ⟨x.records⟩ hrefuses
  exact ⟨hceiling, hbounded, hcounted, by rw [rejectedCount, hcounted]⟩

/-- One empty span under a resource that sends the key `k` twice, as bytes. -/
def repeatedKeyBody : List UInt8 :=
  [0x0a, 0x18, 0x0a, 0x12,
    0x0a, 0x07, 0x0a, 0x01, 0x6b, 0x12, 0x02, 0x10, 0x01,
    0x0a, 0x07, 0x0a, 0x01, 0x6b, 0x12, 0x02, 0x10, 0x01,
    0x12, 0x02, 0x12, 0x00]

/-- And what is read from them; any other body is taken for a malformed one. -/
def repeatedKey : Protobuf where
  traces body :=
    if body = repeatedKeyBody then
      .ok [⟨some ⟨[.mk "k" (some (.boolValue true)) 0, .mk "k" (some (.boolValue true)) 0], 0, []⟩,
        "", [⟨none, "", [⟨[], [], "", [], 0, "", 0, 0, 0, [], 0, [], 0, [], 0, none⟩]⟩]⟩]
    else .error "failed to decode Protobuf message"
  metrics _ := .error "failed to decode Protobuf message"
  logs _ := .error "failed to decode Protobuf message"

theorem keysFromPayload_repeatedKey : repeatedKey.KeysFromPayload := by
  intro signal now payload record hrecord any hany values hvalues kv hkv
  cases signal with
  | traces =>
    by_cases hbody : payload = repeatedKeyBody
    · subst hbody
      obtain rfl := List.mem_singleton.mp hrecord
      rcases List.mem_cons.mp hany with rfl | hany
      · cases hvalues with
        | here =>
          have hkey : kv.key.utf8ByteSize = 1 := by
            rcases List.mem_cons.mp hkv with rfl | hkv
            · decide
            · obtain rfl := List.mem_singleton.mp hkv
              decide
          rw [hkey]
          decide
        | entry mem value below =>
          rcases List.mem_cons.mp mem with rfl | mem
          · cases value
            cases below
          · obtain rfl := List.mem_singleton.mp mem
            cases value
            cases below
      · -- the scope and the span send no key
        have hnone : any = .kvlistValue [] := by
          rcases List.mem_cons.mp hany with rfl | hany
          · rfl
          · exact List.mem_singleton.mp hany
        subst hnone
        cases hvalues with
        | here => exact absurd hkv List.not_mem_nil
        | entry mem value below => exact absurd mem List.not_mem_nil
    · rw [Protobuf.document, repeatedKey] at hrecord
      simp only [if_neg hbody] at hrecord
      exact absurd hrecord List.not_mem_nil
  | metrics => exact absurd hrecord List.not_mem_nil
  | logs => exact absurd hrecord List.not_mem_nil

/-- The characters of ASCII that a debug print leaves as they are. -/
def asciiPrintable (c : Char) : Bool := 32 ≤ c.toNat && c.toNat < 127

/-- A refused resource is named once for its span, within the bound of the whole message. -/
theorem rejectedSummary_bounded_repeatedKey :
    ∃ outcome, ((Pipeline.new .default 4096 4096).callAmid (fun _ => 0)
        ((repeatedKey.document .traces ⟨0⟩ repeatedKeyBody).call (otlpDecoder .default))).result =
          some (.ok outcome) ∧
      (rejectedSummary asciiPrintable outcome).1 = 1 ∧
      (rejectedSummary asciiPrintable outcome).2.utf8ByteSize ≤ messageCeiling 4096 := by
  have hresult : ((Pipeline.new .default 4096 4096).callAmid (fun _ => 0)
      ((repeatedKey.document .traces ⟨0⟩ repeatedKeyBody).call (otlpDecoder .default))).result =
        some (.ok ⟨[.rejected (.duplicateKey ⟨"k"⟩)]⟩) := by decide +kernel
  obtain ⟨-, hbounded, hcounted, -⟩ := rejectedSummary_bounded asciiPrintable repeatedKey
    keysFromPayload_repeatedKey (Pipeline.new .default 4096 4096) (fun _ => 0) .traces ⟨0⟩
    repeatedKeyBody _ hresult
  exact ⟨_, hresult, hcounted, hbounded⟩

end RuntimeTrail
