import RuntimeTrail.Ingestion.Decode
import RuntimeTrail.Library.Json
import RuntimeTrail.Library.Loop
import RuntimeTrail.Library.Print
import RuntimeTrail.Model.Size

/-!
# The tool surface's transport

JSON-RPC 2.0 over two byte streams, each message behind a `Content-Length` header.
A session reads a message, answers it if it carries an id, and goes on until its
input ends or its framing breaks.

The input is a list of bytes that ends, and nothing fails to be written.  What
reads and prints JSON is a parameter (`Codec`), and so is what the four tools
answer (`Surface`).  A `json!` object is written with its entries in key order, as
the map behind it iterates.

* **framing** — `readMessage`, `writeMessage`;
* **dispatch** — `handle`, `callTool`;
* **the session** — `serve`, a loop over the messages.
-/

namespace RuntimeTrail

open Library

namespace Mcp

/-! ## The tools -/

/-- One tool's `tools/list` advertisement. -/
structure Tool where
  name : String
  description : String
  inputSchema : JsonValue

def investigateTraceName : String := "investigate_trace"
def investigateLogName : String := "investigate_log"
def investigateMetricName : String := "investigate_metric"
def continueInvestigationName : String := "continue_investigation"

/-- The subject descriptor schema shared by every tool. -/
def entitySchema : JsonValue :=
  .object [("oneOf", .array [
    .object [
      ("properties", .object [("span", .object [
        ("properties", .object [
          ("span_id", .object [
            ("description", .string "16 lowercase hex"), ("type", .string "string")]),
          ("trace_id", .object [
            ("description", .string "32 lowercase hex"), ("type", .string "string")])]),
        ("required", .array [.string "trace_id", .string "span_id"]),
        ("type", .string "object")])]),
      ("required", .array [.string "span"]),
      ("type", .string "object")],
    .object [
      ("properties", .object [("assigned", .object [
        ("minimum", .number (.ofNat 1)), ("type", .string "integer")])]),
      ("required", .array [.string "assigned"]),
      ("type", .string "object")]])]

/-- The four committed tools, in `tools/list` order. -/
def tools : List Tool := [
  { name := investigateTraceName
    description := "Investigates a trace: the committed investigation flow answers the envelope " ++
      "for the named root span — subject (requested and effective), execution run " ++
      "facts, correlated relations, evidence, limits — under the same admitted budget " ++
      "the HTTP surface admits (30 s/page deadline, 1000 records/page, 4 MiB/page, " ++
      "100 000 scan positions/page, 4 MiB/page aggregation memory; chain 16 pages, " ++
      "10 000 entities, 100 000 identity examinations). The answer is the same " ++
      "envelope the HTTP surface returns."
    inputSchema := entitySchema },
  { name := investigateLogName
    description :=
      "Investigates the trace a resident log record belongs to, naming the record by " ++
      "its entity id. A span descriptor is investigated as-is (the investigation " ++
      "subject is always a root span); an assigned serial resolves to the resident " ++
      "record's own span when it carries one, and that trace is investigated — the " ++
      "same flow, envelope and budget as investigate_trace. An unresolvable subject " ++
      "is refused with the same wording the HTTP surface's 404 carries; nothing is " ++
      "fabricated."
    inputSchema := entitySchema },
  { name := investigateMetricName
    description :=
      "Investigates the trace a resident metric point belongs to, naming the point " ++
      "by its entity id. A span descriptor is investigated as-is. A metric point " ++
      "carries no trace linkage in the committed model (the strategy set's exemplar " ++
      "relation is pinned not-implemented), so a resident point is refused cleanly — " ++
      "the flow investigates a root span, and nothing is fabricated."
    inputSchema := entitySchema },
  { name := continueInvestigationName
    description :=
      "Re-investigates the named root span from the cursor a prior investigation " ++
      "reported (its execution run facts' next_cursor hex), under a fresh admitted " ++
      "budget. The flow answers deterministically (query-model invariant): while " ++
      "residency is stable, the envelope is the same investigation the HTTP surface " ++
      "returns for the same subject. A malformed cursor is refused cleanly; nothing " ++
      "is fabricated."
    inputSchema := .object [
      ("properties", .object [
        ("cursor", .object [
          ("description", .string "lowercase hex, as a prior answer's next_cursor reported"),
          ("type", .string "string")]),
        ("root_span", entitySchema)]),
      ("required", .array [.string "root_span", .string "cursor"]),
      ("type", .string "object")] }]

/-- What the session is served over: the crate's version, the characters the Unicode tables let a
debug print keep, and what the four tools answer to their arguments — the rendered envelope's text,
or the refusal's. -/
structure Surface where
  version : String
  printable : Char → Bool
  investigate : String → JsonValue → Except String String

/-- How JSON is read from a body and printed to one, with the numbers that its values hold. -/
structure Codec where
  numbers : JsonNumber → Prop
  fromSlice : List UInt8 → Option JsonValue
  toVec : JsonValue → Option (List UInt8)

/-! ## Framing -/

def protocolVersion : String := "2024-11-05"
def serverName : String := "runtime-trail-mcp"

/-- The largest single message the surface reads, in bytes. -/
def maxMessageBytes : Nat := 16 * 1024 * 1024

inductive ErrorKind where
  | invalidData
  | unexpectedEof
deriving DecidableEq

/-- What ends a session: an error of the streams or of the framing. -/
structure IoError where
  kind : ErrorKind
  message : String
deriving DecidableEq

inductive ReadOutcome where
  | eof
  | parseError
  | message (value : JsonValue)

/-- The bytes up to and with the next line feed, and the rest. -/
def readUntil : List UInt8 → List UInt8 × List UInt8
  | [] => ([], [])
  | byte :: rest =>
    if byte = 10 then ([10], rest)
    else ((byte :: (readUntil rest).1), (readUntil rest).2)

/-- One line of text, its line feed with it. -/
def readLine (input : List UInt8) : Except IoError (List Char × List UInt8) :=
  match decodeUtf8 (readUntil input).1 with
  | some line => .ok (line, (readUntil input).2)
  | none => .error ⟨.invalidData, "stream did not contain valid UTF-8"⟩

/-- A line without the carriage returns and line feeds at its end. -/
def trimLine (line : List Char) : List Char := line.rdropWhile fun c => c == '\r' || c == '\n'

def contentLength : List Char := "Content-Length:".toList

/-- A decimal count, perhaps behind a plus sign, of 64 bits. -/
def parseUsize (text : List Char) : Option Nat :=
  let digits := if text.head? = some '+' then text.tail else text
  if digits.isEmpty || !digits.all Char.isDigit then none
  else if Nat.ofDigitChars 10 digits 0 ≤ u64Max then some (Nat.ofDigitChars 10 digits 0)
  else none

/-- How the headers of a message end: with the input, or with a blank line. -/
inductive HeaderEnd where
  | eof
  | blank (length : Option Nat) (rest : List UInt8)

/-- Where the reading of headers stands. -/
inductive Reading where
  | headers (length : Option Nat) (input : List UInt8)
  | stopped (answer : Except IoError HeaderEnd)

/-- One header line. -/
def readingStep : Reading → Option Reading
  | .stopped _ => none
  | .headers length input =>
    match readLine input with
    | .error error => some (.stopped (.error error))
    | .ok (line, rest) =>
      if input.isEmpty then some (.stopped (.ok .eof))
      else if (trimLine line).isEmpty then some (.stopped (.ok (.blank length rest)))
      else
        match contentLength.isPrefixOf? (trimLine line) with
        | none => some (.headers length rest)
        | some value =>
          match parseUsize (trim Decode.isWhitespace value) with
          | some declared => some (.headers (some declared) rest)
          | none => some (.stopped (.error ⟨.invalidData, "invalid Content-Length header"⟩))

theorem length_readUntil_lt {input : List UInt8} (h : input ≠ []) :
    (readUntil input).2.length < input.length := by
  induction input with
  | nil => exact absurd rfl h
  | cons byte rest ih =>
    unfold readUntil
    split
    · exact Nat.lt_succ_self _
    · cases rest with
      | nil => exact Nat.zero_lt_one
      | cons byte' rest => exact Nat.lt_succ_of_lt (ih (List.cons_ne_nil _ _))

/-- A header line takes something off the input, or is the last. -/
theorem readingStep_cases {length : Option Nat} {input : List UInt8} {s : Reading}
    (h : readingStep (.headers length input) = some s) :
    (∃ length' rest, s = .headers length' rest ∧ rest.length < input.length) ∨
      (∃ error, s = .stopped (.error error)) ∨ s = .stopped (.ok .eof) ∨
      ∃ rest, s = .stopped (.ok (.blank length rest)) ∧ rest.length < input.length := by
  simp only [readingStep] at h
  split at h
  · rename_i error _
    exact Or.inr (Or.inl ⟨error, (Option.some.inj h).symm⟩)
  · rename_i line rest hline
    have hrest : input.isEmpty = false → rest.length < input.length := by
      intro hne
      have hrest : rest = (readUntil input).2 := by
        unfold readLine at hline
        split at hline
        · exact (Prod.mk.inj (Except.ok.inj hline)).2.symm
        · cases hline
      rw [hrest]
      exact length_readUntil_lt (by simpa using hne)
    split at h
    · exact Or.inr (Or.inr (Or.inl (Option.some.inj h).symm))
    rename_i hne
    replace hrest := hrest (by simpa using hne)
    split at h
    · exact Or.inr (Or.inr (Or.inr ⟨rest, (Option.some.inj h).symm, hrest⟩))
    split at h
    · exact Or.inl ⟨length, rest, (Option.some.inj h).symm, hrest⟩
    split at h
    · rename_i declared _
      exact Or.inl ⟨some declared, rest, (Option.some.inj h).symm, hrest⟩
    · exact Or.inr (Or.inl ⟨_, (Option.some.inj h).symm⟩)

/-- The headers as a loop that ends. -/
def readingLoop : Loop Reading where
  step := readingStep
  fuel
    | .headers _ input => input.length + 1
    | .stopped _ => 0
  decreases := by
    intro s s' h
    cases s with
    | stopped answer => cases h
    | headers length input =>
      obtain ⟨length', rest, rfl, hlt⟩ | ⟨error, rfl⟩ | rfl | ⟨rest, rfl, -⟩ := readingStep_cases h
      · exact Nat.succ_lt_succ hlt
      · exact Nat.succ_pos _
      · exact Nat.succ_pos _
      · exact Nat.succ_pos _

/-- The headers of one message. -/
def readHeaders (input : List UInt8) : Except IoError HeaderEnd :=
  match readingLoop.run (.headers none input) with
  | .stopped answer => answer
  | .headers _ _ => .ok .eof

/-- Only a blank line ends the headers before the input does, and it was taken off. -/
theorem readHeaders_lt {input rest : List UInt8} {length : Option Nat}
    (h : readHeaders input = .ok (.blank length rest)) : rest.length < input.length := by
  have hrun := readingLoop.run_induct
    (P := fun s t => ∀ first from', s = .headers first from' →
      t = .stopped (.ok (.blank length rest)) → rest.length < from'.length)
    (fun s hstop first from' hs ht => by
      rw [hs] at ht
      cases ht)
    (fun s s' hstep ih first from' hs ht => by
      subst hs
      obtain ⟨length', rest', rfl, hlt⟩ | ⟨error, rfl⟩ | rfl | ⟨rest', rfl, hlt⟩ :=
        readingStep_cases hstep
      · exact (ih length' rest' rfl ht).trans hlt
      · rw [Loop.run_of_none rfl] at ht
        cases ht
      · rw [Loop.run_of_none rfl] at ht
        cases ht
      · rw [Loop.run_of_none rfl] at ht
        cases ht
        exact hlt)
    (.headers none input)
  unfold readHeaders at h
  split at h
  · rename_i answer hstopped
    rw [h] at hstopped
    exact hrun none input rfl hstopped
  · cases h

/-- One framed message: its headers, then exactly the declared body. -/
def readMessage (codec : Codec) (input : List UInt8) : Except IoError (ReadOutcome × List UInt8) :=
  match readHeaders input with
  | .error error => .error error
  | .ok .eof => .ok (.eof, [])
  | .ok (.blank none _) => .error ⟨.invalidData, "missing Content-Length header"⟩
  | .ok (.blank (some length) rest) =>
    if length > maxMessageBytes then
      .error ⟨.invalidData, "message exceeds the 16777216-byte framing ceiling"⟩
    else if rest.length < length then .error ⟨.unexpectedEof, "failed to fill whole buffer"⟩
    else
      match codec.fromSlice (rest.take length) with
      | some message => .ok (.message message, rest.drop length)
      | none => .ok (.parseError, rest.drop length)

/-- A message that is read takes its header off the input. -/
theorem readMessage_lt {codec : Codec} {input rest : List UInt8} {outcome : ReadOutcome}
    (h : readMessage codec input = .ok (outcome, rest)) :
    (outcome = .eof ∧ rest = []) ∨ rest.length < input.length := by
  unfold readMessage at h
  split at h
  · cases h
  · cases h
    exact Or.inl ⟨rfl, rfl⟩
  · cases h
  · rename_i length behind hheaders
    have hlt := readHeaders_lt hheaders
    have hdrop : (behind.drop length).length ≤ behind.length := by
      rw [List.length_drop]
      exact Nat.sub_le _ _
    split at h
    · cases h
    split at h
    · cases h
    split at h
    · cases h
      exact Or.inr (hdrop.trans_lt hlt)
    · cases h
      exact Or.inr (hdrop.trans_lt hlt)

/-- The header of a body, and its blank line. -/
def header (length : Nat) : List Char :=
  "Content-Length: ".toList ++ Nat.toDigits 10 length ++ "\r\n\r\n".toList

/-- A body behind its header. -/
def frame (body : List UInt8) : List UInt8 := utf8Bytes (header body.length) ++ body

/-- Writes one framed message behind what was written. -/
def writeMessage (codec : Codec) (output : List UInt8) (message : JsonValue) :
    Except IoError (List UInt8) :=
  match codec.toVec message with
  | some body => .ok (output ++ frame body)
  | none => .error ⟨.invalidData, "response is not encodable"⟩

/-! ## Dispatch -/

def parseErrorCode : Int := -32700
def invalidRequest : Int := -32600
def methodNotFound : Int := -32601
def invalidParams : Int := -32602

def resultResponse (id result : JsonValue) : JsonValue :=
  .object [("id", id), ("jsonrpc", .string "2.0"), ("result", result)]

def errorResponse (id : JsonValue) (code : Int) (message : String) : JsonValue :=
  .object [
    ("error", .object [("code", .number (.ofInt code)), ("message", .string message)]),
    ("id", id), ("jsonrpc", .string "2.0")]

/-- The debug print of a name that may be missing. -/
def Surface.debugName (surface : Surface) : Option String → String
  | none => "None"
  | some name => "Some(" ++ debugText surface.printable name ++ ")"

/-- A tool call with a known name: its arguments go to the tool. -/
def dispatch (surface : Surface) (name : String) (params : JsonValue) : Except String String :=
  match params.get "arguments" with
  | none => .error "a tools/call needs arguments"
  | some arguments => surface.investigate name arguments

/-- What a tool said, as a call's result. -/
def toolResult (text : String) (isError : Bool) : JsonValue :=
  .object [
    ("content", .array [.object [("text", .string text), ("type", .string "text")]]),
    ("isError", .bool isError)]

/-- Answers one `tools/call`. -/
def callTool (surface : Surface) (id : JsonValue) (params : Option JsonValue) : JsonValue :=
  match params with
  | none => errorResponse id invalidParams
      "a tools/call needs params: \x7bname, arguments\x7d"
  | some params =>
    let name := (params.get "name").bind JsonValue.asStr
    match name.filter fun name => tools.any fun tool => tool.name == name with
    | none => errorResponse id invalidParams
        ("unknown tool " ++ surface.debugName name ++ " — tools/list names the available tools")
    | some name =>
      match dispatch surface name params with
      | .ok rendered => resultResponse id (toolResult rendered false)
      | .error error => resultResponse id (toolResult error true)

/-- Answers one request by its method. -/
def answerMethod (surface : Surface) (id : JsonValue) (method : String)
    (params : Option JsonValue) : JsonValue :=
  if method = "initialize" then
    resultResponse id (.object [
      ("capabilities", .object [("tools", .object [])]),
      ("protocolVersion", .string protocolVersion),
      ("serverInfo", .object [
        ("name", .string serverName), ("version", .string surface.version)])])
  else if method = "ping" then resultResponse id (.object [])
  else if method = "tools/list" then
    resultResponse id (.object [("tools", .array (tools.map fun tool =>
      .object [
        ("description", .string tool.description), ("inputSchema", tool.inputSchema),
        ("name", .string tool.name)]))])
  else if method = "tools/call" then callTool surface id params
  else errorResponse id methodNotFound "Method not found"

/-- Handles one client message; a notification is never answered. -/
def handle (surface : Surface) (message : JsonValue) : Option JsonValue :=
  if (message.get "jsonrpc").isNone then
    (message.get "id").map fun id => errorResponse id invalidRequest "invalid request"
  else
    (message.get "id").map fun id =>
      match (message.get "method").bind JsonValue.asStr with
      | none => errorResponse id invalidRequest "invalid request: missing method"
      | some method => answerMethod surface id method (message.get "params")

/-! ## The session -/

/-- Where a session stands: what is left to read, and what it has written. -/
inductive Serving where
  | going (input output : List UInt8)
  | ended (result : Except IoError Unit) (output : List UInt8)

/-- Writes one response and goes on, or ends. -/
def respond (codec : Codec) (rest output : List UInt8) (response : JsonValue) : Serving :=
  match writeMessage codec output response with
  | .ok output => .going rest output
  | .error error => .ended (.error error) output

/-- One message of a session. -/
def servingStep (codec : Codec) (surface : Surface) : Serving → Option Serving
  | .ended _ _ => none
  | .going input output =>
    match readMessage codec input with
    | .error error => some (.ended (.error error) output)
    | .ok (.eof, _) => some (.ended (.ok ()) output)
    | .ok (.parseError, rest) =>
      some (respond codec rest output (errorResponse .null parseErrorCode "parse error"))
    | .ok (.message message, rest) =>
      match handle surface message with
      | some response => some (respond codec rest output response)
      | none => some (.going rest output)

theorem respond_cases (codec : Codec) (rest output : List UInt8) (response : JsonValue) :
    (∃ output', respond codec rest output response = .going rest output') ∨
      ∃ error, respond codec rest output response = .ended (.error error) output := by
  unfold respond
  split
  · exact Or.inl ⟨_, rfl⟩
  · exact Or.inr ⟨_, rfl⟩

/-- A message is taken off the input, or the session ends. -/
theorem servingStep_cases {codec : Codec} {surface : Surface} {input output : List UInt8}
    {s : Serving} (h : servingStep codec surface (.going input output) = some s) :
    (∃ rest output', s = .going rest output' ∧ rest.length < input.length) ∨
      ∃ result, s = .ended result output := by
  simp only [servingStep] at h
  split at h
  · exact Or.inr ⟨_, (Option.some.inj h).symm⟩
  · exact Or.inr ⟨_, (Option.some.inj h).symm⟩
  · rename_i rest hread
    have hlt : rest.length < input.length := (readMessage_lt hread).resolve_left fun h => by cases h.1
    obtain rfl := Option.some.inj h
    obtain ⟨output', heq⟩ | ⟨error, heq⟩ := respond_cases codec rest output
      (errorResponse .null parseErrorCode "parse error")
    · exact Or.inl ⟨rest, output', heq, hlt⟩
    · exact Or.inr ⟨_, heq⟩
  · rename_i message rest hread
    have hlt : rest.length < input.length := (readMessage_lt hread).resolve_left fun h => by cases h.1
    split at h
    · rename_i response _
      obtain rfl := Option.some.inj h
      obtain ⟨output', heq⟩ | ⟨error, heq⟩ := respond_cases codec rest output response
      · exact Or.inl ⟨rest, output', heq, hlt⟩
      · exact Or.inr ⟨_, heq⟩
    · exact Or.inl ⟨rest, output, (Option.some.inj h).symm, hlt⟩

/-- The session as a loop that ends. -/
def servingLoop (codec : Codec) (surface : Surface) : Loop Serving where
  step := servingStep codec surface
  fuel
    | .going input _ => input.length + 1
    | .ended _ _ => 0
  decreases := by
    intro s s' h
    cases s with
    | ended result output => cases h
    | going input output =>
      obtain ⟨rest, output', rfl, hlt⟩ | ⟨result, rfl⟩ := servingStep_cases h
      · exact Nat.succ_lt_succ hlt
      · exact Nat.succ_pos _

/-- Serves one session over an input: how it ended, and what it wrote. -/
def serve (codec : Codec) (surface : Surface) (input : List UInt8) :
    Except IoError Unit × List UInt8 :=
  match (servingLoop codec surface).run (.going input []) with
  | .ended result output => (result, output)
  | .going _ output => (.ok (), output)

end Mcp

end RuntimeTrail
