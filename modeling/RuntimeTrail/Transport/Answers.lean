import RuntimeTrail.Runtime.PartialSuccess

/-!
# What an export is answered with

Both transports hand an export to the same pipeline, and each puts what came of it in
its own words: a status with a text or a partial-success message over HTTP, a reply or
a status over gRPC.  The transport has answers of its own too, for requests that never
reach the pipeline.

* **HTTP** — `exportResponse`, and the refusals at the edge;
* **gRPC** — `traceReply`, `metricsReply`, `logsReply` (one `exportReply`), with
  `signalToStatus`;
* **parity** — `SameAnswer`: both say the same, in the same words
  (`sameAnswer_of_result`);
* **retries** — `retryAfter_exportResponse_iff`: asked for of a saturated queue only.
-/

namespace RuntimeTrail

open Library

/-- What an export's answer says of its refused records. -/
structure ExportPartialSuccess where
  rejected : Nat
  errorMessage : String
deriving DecidableEq

/-- What a pipeline made of an export. -/
abbrev ExportResult := Except AdmissionSignal ExportOutcome

/-- The partial success of an outcome. -/
def ExportPartialSuccess.ofOutcome (printable : Char → Bool) (outcome : ExportOutcome) :
    ExportPartialSuccess where
  rejected := rejectedCount (rejectedSummary printable outcome).1
  errorMessage := (rejectedSummary printable outcome).2

/-- The partial success of an export that was refused whole for its budget. -/
def ExportPartialSuccess.ofRejection (rejection : BudgetRejection) : ExportPartialSuccess where
  rejected := rejectedCount rejection.observed
  errorMessage := rejection.text

/-! ## The texts -/

def saturatedText (queue : String) (ceilingBytes attemptedBytes : Nat) : String :=
  "the " ++ queue ++ " ingestion queue is at its " ++ usizeText ceilingBytes ++
    "-byte in-flight ceiling and a record of " ++ usizeText attemptedBytes ++
    " bytes did not fit; the only retryable admission signal — retry"

def drainingText : String :=
  "the runtime is draining and admits no new telemetry; re-delivery after restart will be " ++
    "admitted fresh"

/-- The over-ceiling text; it names the size where that is known. -/
def payloadOverCapText (bytes : Option Nat) (ceilingBytes : Nat) : String :=
  let measured := match bytes with
    | none => ""
    | some bytes => " of " ++ usizeText bytes ++ " bytes"
  "the OTLP payload" ++ measured ++ " exceeds the " ++ usizeText ceilingBytes ++
    "-byte ceiling; refused before parsing, non-retryable"

def malformedText (detail : String) : String :=
  "the payload did not parse as an OTLP export request and cannot be retried: " ++ detail

def inflightOverBudgetText (budgetBytes : Nat) : String :=
  "the transport edge's in-flight-body budget of " ++ usizeText budgetBytes ++
    " bytes is exhausted; buffering another body now would breach the runtime's " ++
    "bounded-memory law. Retry when a buffered body completes"

/-! ## HTTP -/

/-- The body of an answer: a plain text, or the response message of an endpoint. -/
inductive ResponseBody where
  | text (message : String)
  | partialSuccess (signal : ExportSignal) (answer : ExportPartialSuccess)
deriving DecidableEq

structure HttpResponse where
  status : Nat
  contentType : String
  retryAfter : Option String
  body : ResponseBody
deriving DecidableEq

/-- A refusal: a status and a plain-text reason. -/
def textResponse (status : Nat) (message : String) : HttpResponse :=
  ⟨status, "text/plain; charset=utf-8", none, .text message⟩

/-- A protobuf answer. -/
def protobufResponse (status : Nat) (signal : ExportSignal) (answer : ExportPartialSuccess) :
    HttpResponse :=
  ⟨status, "application/x-protobuf", none, .partialSuccess signal answer⟩

/-- How many seconds a refused producer is told to wait. -/
def retryAfterSecs : String := "1"

def HttpResponse.retrying (response : HttpResponse) : HttpResponse :=
  { response with retryAfter := some retryAfterSecs }

def drainingResponse : HttpResponse := textResponse 503 drainingText

def payloadOverCapResponse (bytes : Option Nat) (ceilingBytes : Nat) : HttpResponse :=
  textResponse 413 (payloadOverCapText bytes ceilingBytes)

def bodyReadFailureResponse : HttpResponse :=
  textResponse 400
    ("the request body could not be read in full; the payload never arrived complete, so " ++
      "nothing was parsed or admitted")

def bodyReadTimeoutResponse (millis : Nat) : HttpResponse :=
  textResponse 408
    ("the request body did not arrive in full within the " ++ printWord 128 millis ++
      "-millisecond read deadline; nothing was parsed or admitted, and the operation was " ++
      "refused at the transport edge")

def unsupportedEncodingResponse (declared : List Char) : HttpResponse :=
  textResponse 415
    ("this phase speaks OTLP/HTTP protobuf only (application/x-protobuf); the request declared " ++
      String.ofList declared ++ ", which is refused before reading")

def inflightOverBudgetResponse (budgetBytes : Nat) : HttpResponse :=
  (textResponse 429 (inflightOverBudgetText budgetBytes)).retrying

/-- An admitted export: its refused records, counted and named. -/
def admittedResponse (printable : Char → Bool) (signal : ExportSignal) (outcome : ExportOutcome) :
    HttpResponse :=
  protobufResponse 200 signal (.ofOutcome printable outcome)

/-- What an export is answered with once the pipeline has it. -/
def exportResponse (printable : Char → Bool) (signal : ExportSignal) : ExportResult → HttpResponse
  | .ok outcome => admittedResponse printable signal outcome
  | .error (.queueSaturated queue ceilingBytes attemptedBytes) =>
    (textResponse 429 (saturatedText queue ceilingBytes attemptedBytes)).retrying
  | .error (.payloadOverCap bytes ceilingBytes) => payloadOverCapResponse (some bytes) ceilingBytes
  | .error (.malformedRequest detail) => textResponse 400 (malformedText detail)
  | .error (.exportOverCap rejection) => protobufResponse 200 signal (.ofRejection rejection)
  | .error .draining => drainingResponse

/-! ## gRPC -/

/-- The gRPC codes this server answers with itself. -/
inductive GrpcCode where
  | resourceExhausted
  | invalidArgument
  | unavailable
  | deadlineExceeded
  | unimplemented
  | internal
deriving DecidableEq

structure Status where
  code : GrpcCode
  message : String
deriving DecidableEq

/-- A reply of one of the three services. -/
abbrev GrpcReply := Except Status (ExportSignal × ExportPartialSuccess)

def signalToStatus : AdmissionSignal → Status
  | .queueSaturated queue ceilingBytes attemptedBytes =>
    ⟨.resourceExhausted, saturatedText queue ceilingBytes attemptedBytes⟩
  | .payloadOverCap bytes ceilingBytes =>
    ⟨.invalidArgument, payloadOverCapText (some bytes) ceilingBytes⟩
  | .malformedRequest detail => ⟨.invalidArgument, malformedText detail⟩
  | .draining => ⟨.unavailable, drainingText⟩
  -- no reply comes here: the budget refusal rides the partial success
  | .exportOverCap rejection =>
    ⟨.internal, "an export-budget refusal must ride partial_success, never a status: " ++
      rejection.text⟩

def inflightOverBudgetStatus (budgetBytes : Nat) : Status :=
  ⟨.resourceExhausted, inflightOverBudgetText budgetBytes⟩

def bodyReadTimeoutStatus : Status :=
  ⟨.deadlineExceeded,
    "the request body did not arrive in full within the read deadline; refused at the transport " ++
      "edge"⟩

def unimplementedStatus (path : String) : Status := ⟨.unimplemented, "unknown method " ++ path⟩

/-- What a service replies with once the pipeline has the export. -/
def exportReply (printable : Char → Bool) (signal : ExportSignal) : ExportResult → GrpcReply
  | .ok outcome => .ok (signal, .ofOutcome printable outcome)
  | .error (.exportOverCap rejection) => .ok (signal, .ofRejection rejection)
  | .error signal => .error (signalToStatus signal)

def traceReply (printable : Char → Bool) : ExportResult → GrpcReply := exportReply printable .traces

def metricsReply (printable : Char → Bool) : ExportResult → GrpcReply :=
  exportReply printable .metrics

def logsReply (printable : Char → Bool) : ExportResult → GrpcReply := exportReply printable .logs

/-! ## Parity -/

/-- An answer over HTTP and a reply over gRPC that say the same: the same partial success, or the
same text under statuses that stand for each other; a retry is asked for on both, or on neither. -/
inductive SameAnswer : HttpResponse → GrpcReply → Prop
  | admitted (signal : ExportSignal) (answer : ExportPartialSuccess) :
    SameAnswer (protobufResponse 200 signal answer) (.ok (signal, answer))
  | saturated (message : String) :
    SameAnswer (textResponse 429 message).retrying (.error ⟨.resourceExhausted, message⟩)
  | closing (message : String) :
    SameAnswer (textResponse 503 message) (.error ⟨.unavailable, message⟩)
  | refused {status : Nat} (message : String) (client : status = 400 ∨ status = 413) :
    SameAnswer (textResponse status message) (.error ⟨.invalidArgument, message⟩)

/-- **Whatever the pipeline made of an export**, both transports say the same of it. -/
theorem sameAnswer_of_result (printable : Char → Bool) (signal : ExportSignal)
    (result : ExportResult) :
    SameAnswer (exportResponse printable signal result) (exportReply printable signal result) := by
  cases result with
  | ok outcome => exact .admitted signal _
  | error refusal =>
    cases refusal with
    | queueSaturated queue ceilingBytes attemptedBytes => exact .saturated _
    | payloadOverCap bytes ceilingBytes => exact .refused _ (Or.inr rfl)
    | exportOverCap rejection => exact .admitted signal _
    | malformedRequest detail => exact .refused _ (Or.inl rfl)
    | draining => exact .closing _

/-- A producer is told to retry exactly where what stopped its export may pass. -/
theorem retryAfter_exportResponse_iff (printable : Char → Bool) (signal : ExportSignal)
    (result : ExportResult) :
    (exportResponse printable signal result).retryAfter = some retryAfterSecs ↔
      ∃ refusal, result = .error refusal ∧ refusal.isRetryable := by
  cases result with
  | ok outcome => simp [exportResponse, admittedResponse, protobufResponse]
  | error refusal =>
    cases refusal <;>
      simp [exportResponse, AdmissionSignal.isRetryable, HttpResponse.retrying, textResponse,
        payloadOverCapResponse, protobufResponse, drainingResponse]

end RuntimeTrail
