import RuntimeTrail.Http.Envelope
import RuntimeTrail.Investigation.Flow
import RuntimeTrail.Transport.Edge

/-!
# Investigations over HTTP

`POST /v1/investigations/traces`, once its body is read: the body names a root span, the
one flow runs under the ceilings the adapter admits, and the envelope or the reason comes
back as JSON.

* **the rendering** — `renderInvestigation`, the envelope's under the surface's own parts;
  `atPath_answered_times`: every time of the evidence is a number at its path of the answer;
* **the request** — `parseSubject`; `admittedBudget`, `admittedChain`;
* **the answer** — `investigateTraceHttp`.
-/

namespace RuntimeTrail

open Library

namespace Http

/-! ## Rendering -/

/-- The surface's own rendering of bytes, doubles and values. -/
def renderer (number : Float → JsonNumber) : Renderer :=
  ⟨hex, jsonDouble number, renderModelValue number⟩

def renderInvestigation (number : Float → JsonNumber) (investigation : Investigation) : JsonValue :=
  (renderer number).investigation investigation

def entityText (number : Float → JsonNumber) (entity : EntityId) : String :=
  (renderer number).entityText entity

theorem hex_injective : Function.Injective hex := fun _ _ h =>
  encodeHex_injective (String.ofList_injective h)

theorem renderer_entity (number : Float → JsonNumber) : (renderer number).entity = renderEntity := by
  funext entity
  cases entity <;> rfl

theorem renderer_point (number : Float → JsonNumber) :
    (renderer number).point = renderPoint number := by
  funext point
  cases point with
  | number sample =>
    rw [Renderer.point, renderPoint]
    cases sample.value <;> rfl
  | _ => rfl

/-- The envelope's views are those of the surface. -/
theorem renderer_views (number : Float → JsonNumber) :
    (renderer number).spanView = renderSpanView ∧ (renderer number).logView = renderLogView number ∧
      (renderer number).pointView = renderPointView number := by
  refine ⟨funext fun view => ?_, funext fun view => ?_, funext fun view => ?_⟩
  · rw [Renderer.spanView, renderer_entity]
    rfl
  · rw [Renderer.logView, renderer_entity]
    rfl
  · rw [Renderer.pointView, renderer_entity, renderer_point]
    rfl

/-- A list of views under its key of the evidence, each with its path in the answer. -/
def listed (key : String) (views : List View) : List (List JsonValue.Step × View) :=
  views.zipIdx.map fun (view, i) => ([.member "evidence", .member key, .item i], view)

/-- The views of some evidence, each with its path in the answer. -/
def viewPaths (evidence : Evidence) : List (List JsonValue.Step × View) :=
  listed "spans" (evidence.spans.map .span) ++ listed "logs" (evidence.logs.map .log) ++
    listed "points" (evidence.points.map .point)

theorem atPath_listed (number : Float → JsonNumber) (envelope : Investigation) {key : String}
    {views : List View} {steps : List JsonValue.Step} {view : View}
    (hkey : ((renderer number).evidence envelope.evidence).get key =
      some (.array (views.map (renderView number))))
    (h : (steps, view) ∈ listed key views) :
    (renderInvestigation number envelope).atPath steps = some (renderView number view) := by
  obtain ⟨⟨view, i⟩, hmem, heq⟩ := List.mem_map.mp h
  obtain ⟨rfl, rfl⟩ := Prod.mk.inj heq
  have hi := List.mk_mem_zipIdx_iff_getElem?.mp hmem
  rw [renderInvestigation, Renderer.investigation,
    JsonValue.atPath_member (by simp) (List.mem_of_getElem? (i := 3) rfl), JsonValue.atPath,
    JsonValue.step, hkey, Option.bind_some, JsonValue.atPath, JsonValue.step, List.getElem?_map, hi]
  rfl

/-- **The answer holds every view of the evidence** at its path. -/
theorem atPath_viewPaths (number : Float → JsonNumber) (envelope : Investigation)
    {steps : List JsonValue.Step} {view : View} (h : (steps, view) ∈ viewPaths envelope.evidence) :
    (renderInvestigation number envelope).atPath steps = some (renderView number view) := by
  obtain ⟨hspan, hlog, hpoint⟩ := renderer_views number
  rcases List.mem_append.mp h with h | h
  · rcases List.mem_append.mp h with h | h
    · refine atPath_listed number envelope ?_ h
      rw [Renderer.evidence, hspan, List.map_map]
      exact JsonValue.get_ofMembers (by simp) (List.mem_of_getElem? (i := 0) rfl)
    · refine atPath_listed number envelope ?_ h
      rw [Renderer.evidence, hlog, List.map_map]
      exact JsonValue.get_ofMembers (by simp) (List.mem_of_getElem? (i := 1) rfl)
  · refine atPath_listed number envelope ?_ h
    rw [Renderer.evidence, hpoint, List.map_map]
    exact JsonValue.get_ofMembers (by simp) (List.mem_of_getElem? (i := 2) rfl)

/-- **Every time of the evidence is a number of the answer**, under its view's path and its own. -/
theorem atPath_answered_times (number : Float → JsonNumber) (envelope : Investigation)
    {steps path : List JsonValue.Step} {view : View} {time : Nat}
    (hview : (steps, view) ∈ viewPaths envelope.evidence) (htime : (path, time) ∈ view.times) :
    (renderInvestigation number envelope).atPath (steps ++ path) =
      some (.number (.ofNat time)) := by
  rw [JsonValue.atPath_append, atPath_viewPaths number envelope hview]
  exact atPath_times number view htime

/-! ## The request -/

section Request

-- how JSON is read from a body, and the characters a debug print leaves as they are
variable (fromSlice : List UInt8 → Option JsonValue) (printable : Char → Bool)

/-- Parses one entity descriptor. -/
def parseEntity (value : JsonValue) : Except String EntityId := parseEntityWith printable id value

/-- Parses the request body into the requested root span's entity id. -/
def parseSubject (payload : List UInt8) : Except String EntityId :=
  match fromSlice payload with
  | none => .error "the request body is not a JSON object"
  | some value =>
    match value.get "root_span" with
    | none => .error "the request must name a root_span"
    | some root => parseEntity printable root

end Request

def pageDeadline : Nat := 30 * 10 ^ 9
def pageMaxResults : Nat := 1000
def pageMaxScan : Nat := 100000
def pageMaxAggregationMemory : Nat := 4194304

/-- The budget the adapter admits: its own ceilings, and the payload's for a page's bytes. -/
def admittedBudget (payloadCeilingBytes : Nat) : InvestigationBudget :=
  ⟨pageDeadline, pageMaxResults, min payloadCeilingBytes u64Max, pageMaxScan,
    pageMaxAggregationMemory⟩

def chainMaxTotalEntities : Nat := 10000
def chainMaxTotalPages : Nat := 16
def chainMaxIdentityExaminations : Nat := 100000

def admittedChain : ChainBudget :=
  ⟨chainMaxTotalPages, chainMaxTotalEntities, chainMaxIdentityExaminations⟩

/-! ## The answer -/

section Answer

variable (fromSlice : List UInt8 → Option JsonValue) (printable : Char → Bool)
  (number : Float → JsonNumber)

/-- The answer to what the flow came to. -/
def answerFlow : Except FlowError Investigation → Investigated
  | .ok envelope => .ok (renderInvestigation number envelope)
  | .error (.subjectUnresolved requested) =>
    .error (404, "no resident record carries the requested subject (" ++
      entityText number requested ++ ") — it was never admitted, or evicted")
  | .error .cursorRejected =>
    .error (500, "the flow rejected an engine continuation cursor — an internal contract " ++
      "violation; nothing was fabricated")
  | .error .engineContract =>
    .error (500, "the engine returned an answer the envelope contract cannot hold — an internal " ++
      "contract violation; nothing was fabricated")

/-- What the handler makes of a body it has read; `none` where the flow has not ended within its
fuel. -/
def investigateTraceHttp (fuel : Nat) (reads : FlowReads)
    (correlate : CorrelationBounds → CorrelationOutcome) (payloadCeilingBytes : Nat)
    (payload : List UInt8) : Option Investigated :=
  match parseSubject fromSlice printable payload with
  | .error reason => some (.error (400, reason))
  | .ok rootSpan =>
    (investigateTraceBounded fuel reads correlate
      ⟨rootSpan, admittedBudget payloadCeilingBytes, none⟩ admittedChain).map (answerFlow number)

end Answer

end Http

end RuntimeTrail
