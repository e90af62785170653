import RuntimeTrail.Http.Investigations
import RuntimeTrail.Mcp.Protocol
import RuntimeTrail.Mcp.Render

/-!
# The four tools

Every tool names a subject in its arguments and runs the one flow over it, under the
ceilings the HTTP adapter admits with the model's own payload ceiling.  The log tool
enters through a resident record's span context; a metric point has none.

* **the arguments** — `parseSubject`, `parseCursor`;
* **the tools** — `investigateTrace`, `investigateLog`, `investigateMetric`,
  `continueInvestigation`, over `runFlow`, and `dispatch` by name;
* **what they answer** — `toolAnswer`, the text of a call's result.
-/

namespace RuntimeTrail

open Library

namespace Mcp

/-- The surface's own rendering of bytes, doubles and values. -/
def renderer (number : Float → JsonNumber) : Renderer :=
  ⟨hex, jsonDouble number, renderModelValue number⟩

def renderInvestigation (number : Float → JsonNumber) (investigation : Investigation) : JsonValue :=
  (renderer number).investigation investigation

def entityText (number : Float → JsonNumber) (entity : EntityId) : String :=
  (renderer number).entityText entity

/-! ## Ceilings -/

def pageDeadline : Nat := 30 * 10 ^ 9
def pageMaxResults : Nat := 1000
def pageMaxScan : Nat := 100000
def pageMaxAggregationMemory : Nat := 4194304

/-- The model's own payload ceiling. -/
def pageMaxBytes : Nat := 4 * 1024 * 1024

def admittedBudget : InvestigationBudget :=
  ⟨pageDeadline, pageMaxResults, pageMaxBytes, pageMaxScan, pageMaxAggregationMemory⟩

def chainMaxTotalEntities : Nat := 10000
def chainMaxTotalPages : Nat := 16
def chainMaxIdentityExaminations : Nat := 100000

def admittedChain : ChainBudget :=
  ⟨chainMaxTotalPages, chainMaxTotalEntities, chainMaxIdentityExaminations⟩

/-! ## Arguments -/

/-- A tool call's refusal. -/
inductive ToolError where
  | parse (reason : String)
  | subjectUnresolved (entity : EntityId)
  | cursorRejected
  | engineContract
deriving DecidableEq

def ToolError.text (number : Float → JsonNumber) : ToolError → String
  | parse reason => reason
  | subjectUnresolved requested =>
    "no resident record carries the requested subject (" ++ entityText number requested ++
      ") — it was never admitted, or evicted"
  | cursorRejected =>
    "the flow rejected an engine continuation cursor — an internal contract violation; nothing " ++
      "was fabricated"
  | engineContract =>
    "the engine returned an answer the envelope contract cannot hold — an internal contract " ++
      "violation; nothing was fabricated"

section Arguments

-- the characters a debug print leaves as they are
variable (printable : Char → Bool)

def parseEntity (value : JsonValue) : Except ToolError EntityId :=
  parseEntityWith printable .parse value

/-- Parses one tool's arguments: an object with the subject under the tool's keyword. -/
def parseSubject (arguments : JsonValue) (keyword : String) : Except ToolError EntityId :=
  match arguments with
  | .object entries =>
    match (JsonValue.object entries).get keyword with
    | none => .error (.parse ("the request must name a " ++ keyword))
    | some subject => parseEntity printable subject
  | _ => .error (.parse "the request body is not a JSON object")

/-- A continuation's cursor: the hex of some bytes, as the surface reports cursors. -/
def parseCursor (arguments : JsonValue) : Except ToolError Unit :=
  match arguments with
  | .object entries =>
    match ((JsonValue.object entries).get "cursor").bind JsonValue.asStr with
    | none =>
      .error (.parse
        "a continuation needs a cursor: the hex a prior answer's next_cursor reported")
    | some text =>
      let bytes := utf8Bytes text.toList
      if bytes.isEmpty || bytes.length % 2 != 0 ||
          !bytes.all fun byte => (hexDigitValue byte).isSome then
        .error (.parse ("the cursor must be lowercase hex of even length — a cursor this surface " ++
          "reported, not arbitrary text"))
      else .ok ()
  | _ => .error (.parse "the request body is not a JSON object")

/-- The span a resident record carries its trace context as. -/
def subjectSpan (traceId : Option TraceId) (spanId : Option SpanId) (what : String) :
    Except ToolError EntityId :=
  match traceId, spanId with
  | some traceId, some spanId => .ok (.span traceId spanId)
  | _, _ =>
    .error (.parse (what ++ " carries no span context — the committed flow investigates a root " ++
      "span; nothing to investigate"))

end Arguments

/-! ## The tools -/

/-- What a tool call reads: the store at its own lookups, the flow's reads, and what answers the
correlation's bounds. -/
structure ToolReads where
  logRecord : EntityId → Option (Arc LogRecord)
  metricPoint : EntityId → Option PointView
  flow : FlowReads
  correlate : CorrelationBounds → CorrelationOutcome

/-- What a tool answers; `none` where the flow has not ended within its fuel. -/
abbrev ToolAnswer := Option (Except ToolError Investigation)

section Tools

variable (printable : Char → Bool) (fuel : Nat) (reads : ToolReads)

/-- A refusal of the flow, as one of the tool's. -/
def ToolError.ofFlow : FlowError → ToolError
  | .subjectUnresolved requested => .subjectUnresolved requested
  | .cursorRejected => .cursorRejected
  | .engineContract => .engineContract

/-- Runs the one flow under the admitted ceilings. -/
def runFlow (subject : EntityId) : ToolAnswer :=
  (investigateTraceBounded fuel reads.flow reads.correlate ⟨subject, admittedBudget, none⟩
    admittedChain).map (Except.mapError .ofFlow)

def investigateTrace (arguments : JsonValue) : ToolAnswer :=
  match parseSubject printable arguments "root_span" with
  | .error error => some (.error error)
  | .ok subject => runFlow fuel reads subject

def investigateLog (arguments : JsonValue) : ToolAnswer :=
  match parseSubject printable arguments "log" with
  | .error error => some (.error error)
  | .ok (.span traceId spanId) => runFlow fuel reads (.span traceId spanId)
  | .ok (.assigned id) =>
    match reads.logRecord (.assigned id) with
    | none => some (.error (.subjectUnresolved (.assigned id)))
    | some record =>
      match subjectSpan record.val.traceId record.val.spanId "the resident log" with
      | .error error => some (.error error)
      | .ok subject => runFlow fuel reads subject

def investigateMetric (arguments : JsonValue) : ToolAnswer :=
  match parseSubject printable arguments "metric" with
  | .error error => some (.error error)
  | .ok (.span traceId spanId) => runFlow fuel reads (.span traceId spanId)
  | .ok (.assigned id) =>
    match reads.metricPoint (.assigned id) with
    | none => some (.error (.subjectUnresolved (.assigned id)))
    -- resident, but a point has no trace to investigate
    | some _ =>
      some (.error (.parse ("a resident metric point carries no trace linkage — the strategy set's " ++
        "exemplar relation is pinned not-implemented, and the committed flow investigates a root " ++
        "span; nothing to investigate")))

def continueInvestigation (arguments : JsonValue) : ToolAnswer :=
  match parseSubject printable arguments "root_span" with
  | .error error => some (.error error)
  | .ok subject =>
    match parseCursor arguments with
    | .error error => some (.error error)
    | .ok () => runFlow fuel reads subject

/-- Routes a call to the tool of a name; a name that no tool has is not routed. -/
def investigate (name : String) (arguments : JsonValue) : ToolAnswer :=
  if name = investigateTraceName then investigateTrace printable fuel reads arguments
  else if name = investigateLogName then investigateLog printable fuel reads arguments
  else if name = investigateMetricName then investigateMetric printable fuel reads arguments
  else if name = continueInvestigationName then continueInvestigation printable fuel reads arguments
  else none

/-- The text of an answer: the envelope as JSON, or the refusal. -/
def toolAnswer (number : Float → JsonNumber) (name : String) (arguments : JsonValue) :
    Option (Except String String) :=
  (investigate printable fuel reads name arguments).map fun
    | .ok envelope => .ok (String.ofList (renderInvestigation number envelope).print)
    | .error error => .error (error.text number)

end Tools

end Mcp

end RuntimeTrail
