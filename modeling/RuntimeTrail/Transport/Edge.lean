import RuntimeTrail.Library.Json
import RuntimeTrail.Transport.Answers
import RuntimeTrail.Transport.Guard
import RuntimeTrail.Transport.Headers

/-!
# The transport edge

Any number of requests are at the edge at once, over both transports.  A request goes
past its gates, is charged to the one in-flight budget, and only then has its body
read; the guard is dropped when its handler is done, or gone.  Gates are looked at
twice on the HTTP routes: by the middleware, which passes a request uncharged where
the handler will refuse it before reading, and by that handler.

A body comes in chunks, as large and as late as the peer sends them.  How many bytes
of one may come is the HTTP library's promise, and a condition on the events of a run.

* **requests** — `Endpoint` and `route`, `EdgeRequest` with its `EdgeStage`;
* **the gates** — `inflightBodyGuard`, `TransportEdge.gate`, `TransportEdge.handlerGate`;
* **one event** — `TransportEdge.requestStep`, `TransportEdge.step`.
-/

namespace RuntimeTrail

open Library

/-! ## Requests -/

/-- Where the router sends a request. -/
inductive Endpoint where
  | exportHttp (signal : ExportSignal)
  | investigation
  | exportGrpc (family : ExportSignal)
  /-- A method that no RPC of the services matches. -/
  | grpcUnknown (path : String)
  /-- Health, version and the UI; and a buffering path with another method.  No body is read. -/
  | surface
deriving DecidableEq

/-- The router sends a POST on one of these paths to a handler that reads its body. -/
def investigationTracesPath : String := "/v1/investigations/traces"

def exportSignalOfPath (path : String) : Option ExportSignal :=
  if path = "/v1/traces" then some .traces
  else if path = "/v1/metrics" then some .metrics
  else if path = "/v1/logs" then some .logs
  else none

/-- The path of each service, under which its methods are. -/
def servicePrefixes : List (List Char × ExportSignal) :=
  [("/opentelemetry.proto.collector.trace.v1.TraceService".toList, .traces),
    ("/opentelemetry.proto.collector.metrics.v1.MetricsService".toList, .metrics),
    ("/opentelemetry.proto.collector.logs.v1.LogsService".toList, .logs)]

/-- The service a path is under, and the method it names there. -/
def grpcMethod (path : List Char) : Option (ExportSignal × String) :=
  servicePrefixes.findSome? fun service =>
    match stripStart service.1 path with
    | none => none
    | some [] => some (service.2, "/")
    | some ('/' :: rest) => some (service.2, String.ofList ('/' :: rest))
    | some _ => none

/-- Where `build_router` sends a method on a path. -/
def route (method path : String) : Endpoint :=
  match exportSignalOfPath path with
  | some signal => if method = "POST" then .exportHttp signal else .surface
  | none =>
    if path = investigationTracesPath then if method = "POST" then .investigation else .surface
    else
      match grpcMethod path.toList with
      | some (family, rpc) => if rpc = "/Export" then .exportGrpc family else .grpcUnknown rpc
      | none => .surface

/-- What an investigation's handler answers once it has the body: an envelope, or an error. -/
abbrev Investigated := Except (Nat × String) JsonValue

/-- What a handler makes of a payload. -/
inductive Handled where
  | ingested (result : ExportResult)
  | investigated (result : Investigated)

inductive EdgeAnswer where
  | http (response : HttpResponse)
  /-- A JSON error naming its reason. -/
  | jsonError (status : Nat) (reason : String)
  | envelope (body : JsonValue)
  | grpc (reply : GrpcReply)
  /-- A bare 415: no gRPC exchange to answer. -/
  | unsupportedMediaType
  /-- The gRPC framework's own status, for a frame it could not read. -/
  | framing
  /-- The answer of a surface that reads no body. -/
  | passed

/-- Where a request stands. -/
inductive EdgeStage where
  | arrived
  /-- In `try_acquire`. -/
  | acquiring
  /-- At its handler, with the guard, or without one. -/
  | entered
  | reading (body : List UInt8)
  | handling (payload : List UInt8)
  /-- Done, the guard still to be dropped; `none` where the client is gone. -/
  | leaving (answer : Option EdgeAnswer)
  | left (answer : Option EdgeAnswer)

/-- Why a request is given up once its body is being read. -/
inductive BodyStop where
  /-- This chunk would have grown the body past the ceiling. -/
  | overgrown (bytes : List UInt8)
  | broken
  | elapsed
  /-- The client is gone. -/
  | cancelled

/-- One request: what it asks for, where it stands, what was read of its body, the payloads its
handler was given with what came of them, and why it was given up, where it was. -/
structure EdgeRequest where
  endpoint : Endpoint
  headers : HeaderMap
  stage : EdgeStage
  received : List UInt8
  handed : List (List UInt8 × Handled)
  stopped : Option BodyStop

/-- The bytes of its body a request has in memory. -/
def EdgeStage.buffered : EdgeStage → Nat
  | .reading body => body.length
  | .handling payload => payload.length
  | _ => 0

/-- Whether a request is through. -/
def EdgeStage.hasLeft : EdgeStage → Bool
  | .left _ => true
  | _ => false

theorem EdgeStage.eq_left_of_hasLeft {stage : EdgeStage} (h : stage.hasLeft = true) :
    ∃ answer, stage = .left answer := by
  cases stage with
  | left answer => exact ⟨answer, rfl⟩
  | _ => exact absurd h Bool.false_ne_true

/-- What a request does next. -/
inductive EdgeMove where
  | guard
  | acquire (move : AcquireMove)
  | enter
  | chunk (bytes : List UInt8)
  | bodyEnd
  | bodyFailure
  | elapse
  | handle (result : Handled)
  /-- The client is gone. -/
  | cancel
  | leave

inductive EdgeEvent where
  | arrive (method path : String) (headers : HeaderMap)
  | beginDraining
  | request (i : Nat) (move : EdgeMove)

/-! ## The edge -/

/-- The framing slack the gRPC reader is allowed above the payload ceiling. -/
def grpcDecodingSlackBytes : Nat := 8192

/-- The edge of one runtime; a request's call of `try_acquire` is at its own place in the budget's
calls. -/
structure TransportEdge where
  payloadCeilingBytes : Nat
  bodyReadTimeoutMillis : Nat
  draining : Bool
  budget : InflightBodyBudget
  requests : List EdgeRequest

/-- What the first gates make of a request. -/
inductive Gated where
  | answer (answer : EdgeAnswer)
  /-- On to the handler, uncharged. -/
  | enter
  | charge (bytes : Nat)

/-- The body budget's middleware on the HTTP routes: it passes on what the handler refuses before
reading, and charges the rest. -/
def inflightBodyGuard (draining investigating : Bool) (headers : HeaderMap) (ceilingBytes : Nat) :
    Gated :=
  if draining then .enter
  else
    match if investigating then none else headers.contentTypeGate with
    | some declared => .answer (.http (unsupportedEncodingResponse declared))
    | none =>
      if headers.declaredOverCeiling ceilingBytes then .enter
      else .charge (headers.declaredLengthBounded ceilingBytes)

namespace TransportEdge

def new (payloadCeilingBytes inflightCeilingBytes bodyReadTimeoutMillis : Nat) : TransportEdge where
  payloadCeilingBytes := payloadCeilingBytes
  bodyReadTimeoutMillis := bodyReadTimeoutMillis
  draining := false
  budget := InflightBodyBudget.new inflightCeilingBytes 0
  requests := []

def grpcDecodingCeilingBytes (e : TransportEdge) : Nat :=
  e.payloadCeilingBytes + grpcDecodingSlackBytes

/-- A request that has just arrived. -/
def arriving (method path : String) (headers : HeaderMap) : EdgeRequest :=
  ⟨route method path, headers, .arrived, [], [], none⟩

def setRequest (e : TransportEdge) (i : Nat) (r : EdgeRequest) : TransportEdge :=
  { e with requests := e.requests.set i r }

/-- A request goes on to another stage. -/
def goes (e : TransportEdge) (i : Nat) (r : EdgeRequest) (stage : EdgeStage) : TransportEdge :=
  e.setRequest i { r with stage := stage }

/-- The bytes of bodies the edge has in memory. -/
def buffered (e : TransportEdge) : Nat := (e.requests.map fun r => r.stage.buffered).sum

/-- The gates before a body is charged for. -/
def gate (e : TransportEdge) (r : EdgeRequest) : Gated :=
  match r.endpoint with
  | .exportHttp _ => inflightBodyGuard e.draining false r.headers e.payloadCeilingBytes
  | .investigation => inflightBodyGuard e.draining true r.headers e.payloadCeilingBytes
  | .exportGrpc _ =>
    if e.draining then .answer (.grpc (.error (signalToStatus .draining)))
    else if r.headers.isGrpcContentType then .charge e.grpcDecodingCeilingBytes
    else .answer .unsupportedMediaType
  | .grpcUnknown path =>
    if r.headers.isGrpcContentType then .answer (.grpc (.error (unimplementedStatus path)))
    else .answer .unsupportedMediaType
  | .surface => .answer .passed

/-- The answer to a request the budget has no room for. -/
def overBudget (e : TransportEdge) (r : EdgeRequest) : EdgeAnswer :=
  match r.endpoint with
  | .exportGrpc _ => .grpc (.error (inflightOverBudgetStatus e.budget.ceilingBytes))
  | _ => .http (inflightOverBudgetResponse e.budget.ceilingBytes)

/-- What a handler refuses before it reads. -/
def handlerGate (e : TransportEdge) (r : EdgeRequest) : Option EdgeAnswer :=
  match r.endpoint with
  | .exportHttp _ =>
    if e.draining then some (.http drainingResponse)
    else
      match r.headers.contentTypeGate with
      | some declared => some (.http (unsupportedEncodingResponse declared))
      | none =>
        if r.headers.declaredOverCeiling e.payloadCeilingBytes then
          some (.http (payloadOverCapResponse none e.payloadCeilingBytes))
        else none
  | .investigation =>
    if e.draining then
      some (.jsonError 503
        ("the runtime is draining and admits no new investigations; re-delivery after restart " ++
          "will be admitted fresh"))
    else if r.headers.declaredOverCeiling e.payloadCeilingBytes then
      some (.jsonError 413
        ("the investigation request exceeds the " ++ usizeText e.payloadCeilingBytes ++
          "-byte ceiling; refused before reading, non-retryable"))
    else none
  | _ => none

/-- The answer where a body did not arrive before the deadline. -/
def timedOut (e : TransportEdge) (r : EdgeRequest) : EdgeAnswer :=
  match r.endpoint with
  | .exportGrpc _ => .grpc (.error bodyReadTimeoutStatus)
  | .investigation =>
    .jsonError 408
      ("the request body did not arrive in full within the read deadline; nothing was parsed or " ++
        "investigated")
  | _ => .http (bodyReadTimeoutResponse e.bodyReadTimeoutMillis)

/-- The answer where a body broke off. -/
def brokenOff (r : EdgeRequest) : EdgeAnswer :=
  match r.endpoint with
  | .exportGrpc _ => .framing
  | .investigation =>
    .jsonError 400
      "the request body could not be read in full; nothing was parsed or investigated"
  | _ => .http bodyReadFailureResponse

/-- The answer where a body grew past the ceiling while it was read. -/
def overgrown (e : TransportEdge) (r : EdgeRequest) : EdgeAnswer :=
  match r.endpoint with
  | .exportHttp _ => .http (payloadOverCapResponse none e.payloadCeilingBytes)
  | _ => brokenOff r

/-- What a request that is given up is answered; nothing where its client is gone. -/
def stopAnswer (e : TransportEdge) (r : EdgeRequest) : BodyStop → Option EdgeAnswer
  | .overgrown _ => some (e.overgrown r)
  | .broken => some (brokenOff r)
  | .elapsed => some (e.timedOut r)
  | .cancelled => none

/-- A request is given up. -/
def stops (e : TransportEdge) (i : Nat) (r : EdgeRequest) (stop : BodyStop) : TransportEdge :=
  e.goes i { r with stopped := some stop } (.leaving (e.stopAnswer r stop))

/-- Whether a chunk is past what the bounded read takes. -/
def pastCeiling (e : TransportEdge) (r : EdgeRequest) (body bytes : List UInt8) : Bool :=
  match r.endpoint with
  | .exportGrpc _ => false
  | _ => e.payloadCeilingBytes - body.length < bytes.length

/-- A handler's answer; `none` where what came of the payload is not of its kind. -/
def handlerAnswer (printable : Char → Bool) (r : EdgeRequest) (handled : Handled) :
    Option EdgeAnswer :=
  match r.endpoint, handled with
  | .exportHttp signal, .ingested result => some (.http (exportResponse printable signal result))
  | .exportGrpc .traces, .ingested result => some (.grpc (traceReply printable result))
  | .exportGrpc .metrics, .ingested result => some (.grpc (metricsReply printable result))
  | .exportGrpc .logs, .ingested result => some (.grpc (logsReply printable result))
  | .investigation, .investigated (.ok body) => some (.envelope body)
  | .investigation, .investigated (.error (status, reason)) => some (.jsonError status reason)
  | _, _ => none

/-- One request's next move. -/
def requestStep (printable : Char → Bool) (e : TransportEdge) (i : Nat) (r : EdgeRequest)
    (move : EdgeMove) : Option TransportEdge :=
  match r.stage, move with
  | .arrived, .guard =>
    match e.gate r with
    | .answer answer => some (e.goes i r (.leaving (some answer)))
    | .enter => some (e.goes i r .entered)
    | .charge bytes =>
      (e.budget.step (i, .call bytes)).map fun budget =>
        { e with budget := budget }.goes i r .acquiring
  | .acquiring, .acquire move =>
    (e.budget.step (i, move)).map fun budget =>
      match budget.calls[i]? with
      | some (.acquired _) => { e with budget := budget }.goes i r .entered
      | some (.refused _ _) =>
        { e with budget := budget }.goes i r (.leaving (some (e.overBudget r)))
      | _ => { e with budget := budget }.goes i r .acquiring
  | .entered, .enter =>
    match e.handlerGate r with
    | some answer => some (e.goes i r (.leaving (some answer)))
    | none => some (e.goes i r (.reading []))
  | .reading body, .chunk bytes =>
    if e.pastCeiling r body bytes then some (e.stops i r (.overgrown bytes))
    else some (e.goes i { r with received := body ++ bytes } (.reading (body ++ bytes)))
  | .reading body, .bodyEnd => some (e.goes i r (.handling body))
  | .reading _, .bodyFailure => some (e.stops i r .broken)
  | .reading _, .elapse => some (e.stops i r .elapsed)
  | .handling payload, .handle result =>
    (handlerAnswer printable r result).map fun answer =>
      e.goes i { r with handed := r.handed ++ [(payload, result)] } (.leaving (some answer))
  | .reading _, .cancel => some (e.stops i r .cancelled)
  -- only an investigation waits while it handles its payload
  | .handling _, .cancel =>
    if r.endpoint = .investigation then some (e.stops i r .cancelled) else none
  | .leaving answer, .leave =>
    match e.budget.calls[i]? with
    | some .idle => some (e.goes i r (.left answer))
    | _ =>
      (e.budget.step (i, .finish)).map fun budget =>
        { e with budget := budget }.goes i r (.left answer)
  | _, _ => none

/-- One event at the edge. -/
def step (printable : Char → Bool) (e : TransportEdge) : EdgeEvent → Option TransportEdge
  | .arrive method path headers =>
    some { e with
      budget := e.budget.join
      requests := e.requests ++ [arriving method path headers] }
  | .beginDraining => some { e with draining := true }
  | .request i move =>
    match e.requests[i]? with
    | none => none
    | some r => e.requestStep printable i r move

end TransportEdge

end RuntimeTrail
