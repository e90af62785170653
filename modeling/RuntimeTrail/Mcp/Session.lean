import RuntimeTrail.Mcp.Framing

/-!
# What a session answers

A session reads a client's frames to the end of its input and writes one frame for
each message it answers.  Reader and writer agree on where a frame ends, so that
what was written is read back, response by response, as long as no response is
larger than what the reader takes.

* **one message** — `handle_eq_some`: a message is answered exactly when it carries
  an id, with that id;
* **the run** — `run_frames`: what a session writes for its frames;
* **reading back** — `ReadsBack`, `readsBack_printed`;
* **the law** — `serve_answered`, read and printed by `jsonCodec` in the example;
* **its ceiling** — `serve_not_answered`: a response repeats its request's id, so a
  request within the ceiling may be answered by a response over it.
-/

namespace RuntimeTrail

open Library

namespace Mcp

/-! ## One message -/

/-- The numbers a response is written with: all integers of 64 bits. -/
def HoldsIntegers (numbers : JsonNumber → Prop) : Prop :=
  ∀ n : Int, -2 ^ 63 ≤ n → n < 2 ^ 63 → numbers (.ofInt n)

/-- A JSON-RPC response to a request of this id. -/
def RespondsTo (numbers : JsonNumber → Prop) (id response : JsonValue) : Prop :=
  (∃ result : JsonValue, result.Canonical numbers ∧ response = resultResponse id result) ∨
    ∃ code message, numbers (.ofInt code) ∧ response = errorResponse id code message

section Answering

variable {numbers : JsonNumber → Prop} (hintegers : HoldsIntegers numbers)

/-- A response to a canonical id is canonical. -/
theorem RespondsTo.canonical {id response : JsonValue} (h : RespondsTo numbers id response)
    (hid : id.Canonical numbers) : response.Canonical numbers := by
  obtain ⟨result, hresult, rfl⟩ | ⟨code, message, hcode, rfl⟩ := h
  · simp +decide [resultResponse, hid, hresult]
  · simp +decide [errorResponse, hid, hcode]

include hintegers

theorem canonical_inputSchema : ∀ tool ∈ tools, tool.inputSchema.Canonical numbers := by
  have hone : numbers (.ofNat 1) := hintegers 1 (by decide) (by decide)
  have hentity : entitySchema.Canonical numbers := by simp +decide [entitySchema, hone]
  simp only [tools, List.forall_mem_cons]
  refine ⟨hentity, hentity, hentity, ?_, fun _ h => absurd h List.not_mem_nil⟩
  simp +decide [hentity]

theorem respondsTo_callTool (surface : Surface) (id : JsonValue) (params : Option JsonValue) :
    RespondsTo numbers id (callTool surface id params) := by
  have hcode : numbers (.ofInt invalidParams) := hintegers _ (by decide) (by decide)
  unfold callTool
  split
  · exact Or.inr ⟨_, _, hcode, rfl⟩
  · dsimp only
    split
    · exact Or.inr ⟨_, _, hcode, rfl⟩
    · split
      · exact Or.inl ⟨_, by simp +decide [toolResult], rfl⟩
      · exact Or.inl ⟨_, by simp +decide [toolResult], rfl⟩

theorem respondsTo_answerMethod (surface : Surface) (id : JsonValue) (method : String)
    (params : Option JsonValue) :
    RespondsTo numbers id (answerMethod surface id method params) := by
  have hcode : numbers (.ofInt methodNotFound) := hintegers _ (by decide) (by decide)
  unfold answerMethod
  split
  · exact Or.inl ⟨_, by simp +decide, rfl⟩
  split
  · exact Or.inl ⟨_, by simp +decide, rfl⟩
  split
  · refine Or.inl ⟨_, ?_, rfl⟩
    have hschemas := canonical_inputSchema hintegers
    simpa +decide using hschemas
  split
  · exact respondsTo_callTool hintegers surface id params
  · exact Or.inr ⟨_, _, hcode, rfl⟩

/-- **A message is answered exactly when it carries an id**, and with that id. -/
theorem handle_eq_some (surface : Surface) (message : JsonValue) :
    (message.get "id" = none ∧ handle surface message = none) ∨
      ∃ id response, message.get "id" = some id ∧ handle surface message = some response ∧
        RespondsTo numbers id response := by
  have hcode : numbers (.ofInt invalidRequest) := hintegers _ (by decide) (by decide)
  unfold handle
  cases hid : message.get "id" with
  | none => exact Or.inl ⟨rfl, by split <;> rfl⟩
  | some id =>
    right
    split
    · exact ⟨id, _, rfl, rfl, Or.inr ⟨_, _, hcode, rfl⟩⟩
    · refine ⟨id, _, rfl, rfl, ?_⟩
      split
      · exact Or.inr ⟨_, _, hcode, rfl⟩
      · exact respondsTo_answerMethod hintegers surface id _ _

end Answering

/-- What a session writes for a body, if anything. -/
def answer (codec : Codec) (surface : Surface) (body : List UInt8) : Option JsonValue :=
  match codec.fromSlice body with
  | none => some (errorResponse .null parseErrorCode "parse error")
  | some message => handle surface message

/-! ## A run -/

/-- JSON is read and printed faithfully: what is read is canonical, and a canonical value is
printed as a body that is read back as it. -/
structure Codec.Faithful (codec : Codec) : Prop where
  integers : HoldsIntegers codec.numbers
  parsed : ∀ body value, codec.fromSlice body = some value → value.Canonical codec.numbers
  printed : ∀ value : JsonValue, value.Canonical codec.numbers →
    ∃ body, codec.toVec value = some body ∧ codec.fromSlice body = some value

/-- Whatever a session writes is canonical. -/
theorem canonical_answer {codec : Codec} (hfaithful : codec.Faithful) {surface : Surface}
    {body : List UInt8} {response : JsonValue} (h : answer codec surface body = some response) :
    response.Canonical codec.numbers := by
  unfold answer at h
  split at h
  · obtain rfl := Option.some.inj h
    have hcode := hfaithful.integers parseErrorCode (by decide) (by decide)
    simp +decide [errorResponse, hcode]
  · rename_i message hparsed
    obtain ⟨-, hhandle⟩ | ⟨id, response', hid, hhandle, hto⟩ :=
      handle_eq_some hfaithful.integers surface message
    · rw [hhandle] at h
      cases h
    · obtain rfl := Option.some.inj (hhandle.symm.trans h)
      exact hto.canonical ((hfaithful.parsed _ _ hparsed).get hid)

/-- The frame of a response. -/
def printed (codec : Codec) (response : JsonValue) : List UInt8 :=
  match codec.toVec response with
  | some body => frame body
  | none => []

theorem respond_eq {codec : Codec} (hfaithful : codec.Faithful) {response : JsonValue}
    (h : response.Canonical codec.numbers) (rest output : List UInt8) :
    respond codec rest output response = .going rest (output ++ printed codec response) := by
  obtain ⟨body, hbody, -⟩ := hfaithful.printed response h
  rw [respond, writeMessage, printed, hbody]

/-- One frame of a session. -/
theorem servingStep_frame {codec : Codec} (hfaithful : codec.Faithful) (surface : Surface)
    {f : Frame} (h : f.WellFramed) (hceiling : f.body.length ≤ maxMessageBytes)
    (rest output : List UInt8) :
    servingStep codec surface (.going (f.bytes ++ rest) output) =
      some (.going rest (output ++ (answer codec surface f.body).toList.flatMap (printed codec))) := by
  have hcanonical : ∀ response, answer codec surface f.body = some response →
      response.Canonical codec.numbers := fun response => canonical_answer hfaithful
  simp only [answer] at hcanonical
  simp only [servingStep, readMessage_bytes codec h hceiling, outcomeOf, answer]
  cases hparsed : codec.fromSlice f.body with
  | none =>
    rw [hparsed] at hcanonical
    simp [respond_eq hfaithful (hcanonical _ rfl)]
  | some message =>
    rw [hparsed] at hcanonical
    dsimp only at hcanonical ⊢
    cases hhandle : handle surface message with
    | none => simp
    | some response => simp [respond_eq hfaithful (hcanonical response hhandle)]

/-- **A run over frames** ends well, and writes what answers them, in order. -/
theorem run_frames {codec : Codec} (hfaithful : codec.Faithful) (surface : Surface)
    {frames : List Frame} (h : ∀ f ∈ frames, f.WellFramed ∧ f.body.length ≤ maxMessageBytes)
    (output : List UInt8) :
    (servingLoop codec surface).run (.going (frames.flatMap Frame.bytes) output) =
      .ended (.ok ()) (output ++
        (frames.filterMap fun f => answer codec surface f.body).flatMap (printed codec)) := by
  induction frames generalizing output with
  | nil =>
    have hstep : (servingLoop codec surface).step (.going [] output) =
        some (.ended (.ok ()) output) := by
      change servingStep codec surface (.going [] output) = _
      simp only [servingStep, readMessage_nil]
    rw [List.flatMap_nil, Loop.run_of_some hstep, Loop.run_of_none rfl]
    simp
  | cons f frames ih =>
    obtain ⟨⟨hframed, hceiling⟩, hframes⟩ := List.forall_mem_cons.mp h
    have hstep : (servingLoop codec surface).step
        (.going (f.bytes ++ frames.flatMap Frame.bytes) output) =
          some (.going (frames.flatMap Frame.bytes)
            (output ++ (answer codec surface f.body).toList.flatMap (printed codec))) :=
      servingStep_frame hfaithful surface hframed hceiling _ output
    rw [List.flatMap_cons, Loop.run_of_some hstep, ih hframes]
    cases hanswer : answer codec surface f.body with
    | none => simp [hanswer]
    | some response => simp [hanswer, List.append_assoc]

theorem serve_frames {codec : Codec} (hfaithful : codec.Faithful) (surface : Surface)
    {frames : List Frame} (h : ∀ f ∈ frames, f.WellFramed ∧ f.body.length ≤ maxMessageBytes) :
    serve codec surface (frames.flatMap Frame.bytes) = (.ok (),
      (frames.filterMap fun f => answer codec surface f.body).flatMap (printed codec)) := by
  rw [serve, run_frames hfaithful surface h, List.nil_append]

/-! ## Read back -/

/-- An output that is read back as these messages, and then ends. -/
inductive ReadsBack (codec : Codec) : List UInt8 → List JsonValue → Prop
  | ended {output : List UInt8} (eof : readMessage codec output = .ok (.eof, [])) :
    ReadsBack codec output []
  | next {output rest : List UInt8} {response : JsonValue} {responses : List JsonValue}
    (read : readMessage codec output = .ok (.message response, rest))
    (others : ReadsBack codec rest responses) : ReadsBack codec output (response :: responses)

/-- **What is written is read back**, where each response is within the ceiling. -/
theorem readsBack_printed {codec : Codec} (hfaithful : codec.Faithful)
    {responses : List JsonValue} (h : ∀ response ∈ responses, response.Canonical codec.numbers ∧
      ∀ body, codec.toVec response = some body → body.length ≤ maxMessageBytes) :
    ReadsBack codec (responses.flatMap (printed codec)) responses := by
  induction responses with
  | nil => exact .ended (readMessage_nil codec)
  | cons response responses ih =>
    obtain ⟨⟨hcanonical, hwithin⟩, hothers⟩ := List.forall_mem_cons.mp h
    obtain ⟨body, hbody, hread⟩ := hfaithful.printed response hcanonical
    refine .next ?_ (ih hothers)
    have hframe : printed codec response = (written body).bytes := by
      rw [printed, hbody, bytes_written]
    rw [List.flatMap_cons, hframe,
      readMessage_bytes codec (wellFramed_written body) (hwithin body hbody)]
    change Except.ok (outcomeOf codec body, _) = _
    rw [outcomeOf, hread]

/-! ## The law -/

/-- The responses to a sequence of bodies: one for each message with an id, with that id, none for
one without, and a parse error with a null id for each body that is not JSON, in order. -/
inductive Answers (codec : Codec) : List (List UInt8) → List JsonValue → Prop
  | nil : Answers codec [] []
  | parseError {body : List UInt8} {bodies : List (List UInt8)} {responses : List JsonValue}
    (unparsed : codec.fromSlice body = none) (others : Answers codec bodies responses) :
    Answers codec (body :: bodies)
      (errorResponse .null parseErrorCode "parse error" :: responses)
  | silent {body : List UInt8} {bodies : List (List UInt8)} {responses : List JsonValue}
    {message : JsonValue} (parsed : codec.fromSlice body = some message)
    (notification : message.get "id" = none) (others : Answers codec bodies responses) :
    Answers codec (body :: bodies) responses
  | response {body : List UInt8} {bodies : List (List UInt8)} {responses : List JsonValue}
    {message id response : JsonValue} (parsed : codec.fromSlice body = some message)
    (carries : message.get "id" = some id) (answered : RespondsTo codec.numbers id response)
    (others : Answers codec bodies responses) :
    Answers codec (body :: bodies) (response :: responses)

theorem answers_filterMap {codec : Codec} (hfaithful : codec.Faithful) (surface : Surface)
    (bodies : List (List UInt8)) :
    Answers codec bodies (bodies.filterMap (answer codec surface)) := by
  induction bodies with
  | nil => exact .nil
  | cons body bodies ih =>
    cases hparsed : codec.fromSlice body with
    | none =>
      rw [List.filterMap_cons_some (b := errorResponse .null parseErrorCode "parse error")
        (by rw [answer, hparsed])]
      exact .parseError hparsed ih
    | some message =>
      obtain ⟨hid, hhandle⟩ | ⟨id, response, hid, hhandle, hto⟩ :=
        handle_eq_some hfaithful.integers surface message
      · rw [List.filterMap_cons_none (by rw [answer, hparsed]; exact hhandle)]
        exact .silent hparsed hid ih
      · rw [List.filterMap_cons_some (b := response) (by rw [answer, hparsed]; exact hhandle)]
        exact .response hparsed hid hto ih

/-- A session that ended well, and whose output is read back as the responses to its messages. -/
structure Answered (codec : Codec) (bodies : List (List UInt8))
    (session : Except IoError Unit × List UInt8) : Prop where
  ended : session.1 = .ok ()
  readBack : ∃ responses, ReadsBack codec session.2 responses ∧ Answers codec bodies responses

/-- **A session answers its messages.**  Served over any sequence of well-framed messages within
the framing ceiling, whose responses are printed within it too, a session ends well, and its output
is read back as exactly one response to each message that carries an id, in order and with that id,
none to a message without one, and one parse error with a null id to each body that is not JSON. -/
theorem serve_answered (codec : Codec) (surface : Surface) (frames : List Frame)
    (hfaithful : codec.Faithful)
    (hframed : ∀ f ∈ frames, f.WellFramed ∧ f.body.length ≤ maxMessageBytes)
    (hwithin : ∀ f ∈ frames, ∀ response body, answer codec surface f.body = some response →
      codec.toVec response = some body → body.length ≤ maxMessageBytes) :
    Answered codec (frames.map Frame.body)
      (serve codec surface (frames.flatMap Frame.bytes)) := by
  rw [serve_frames hfaithful surface hframed]
  refine ⟨rfl, _, readsBack_printed hfaithful ?_, ?_⟩
  · intro response hresponse
    obtain ⟨f, hf, hanswer⟩ := List.mem_filterMap.mp hresponse
    exact ⟨canonical_answer hfaithful hanswer, fun body => hwithin f hf response body hanswer⟩
  · have hanswers := answers_filterMap hfaithful surface (frames.map Frame.body)
    rw [List.filterMap_map] at hanswers
    exact hanswers

/-! ## Compact JSON -/

open Classical in
/-- JSON read and printed as its compact print, with any number. -/
noncomputable def jsonCodec : Codec where
  numbers _ := True
  fromSlice body :=
    if h : ∃ value : JsonValue, value.Canonical (fun _ => True) ∧ value.toBytes = body then
      some h.choose
    else none
  toVec value := some value.toBytes

theorem fromSlice_toBytes {value : JsonValue} (h : value.Canonical (fun _ => True)) :
    jsonCodec.fromSlice value.toBytes = some value := by
  have hexists : ∃ value' : JsonValue,
      value'.Canonical (fun _ => True) ∧ value'.toBytes = value.toBytes := ⟨value, h, rfl⟩
  have hsame : hexists.choose = value := JsonValue.toBytes_injective hexists.choose_spec.2
  exact (dif_pos hexists).trans (congrArg some hsame)

theorem faithful_jsonCodec : jsonCodec.Faithful where
  integers _ _ _ := trivial
  parsed body value h := by
    simp only [jsonCodec] at h
    split at h
    · rename_i hexists
      obtain rfl := Option.some.inj h
      exact hexists.choose_spec.1
    · cases h
  printed value h := ⟨value.toBytes, rfl, fromSlice_toBytes h⟩

/-- A surface whose tools refuse everything. -/
def bareSurface : Surface where
  version := "0.1.0"
  printable _ := true
  investigate _ _ := .error "not found"

def pingRequest : JsonValue :=
  .object [("id", .number (.ofNat 1)), ("jsonrpc", .string "2.0"), ("method", .string "ping")]

/-- A message without an id. -/
def pingNotification : JsonValue := .object [("jsonrpc", .string "2.0"), ("method", .string "ping")]

/-- A body that is no JSON. -/
def greeting : List UInt8 := utf8Bytes "hello".toList

theorem fromSlice_greeting : jsonCodec.fromSlice greeting = none := by
  refine dif_neg ?_
  rintro ⟨value, -, hprint⟩
  have hletters : value.print ++ [] = 'h' :: "ello".toList := by
    rw [List.append_nil]
    exact utf8Bytes_injective hprint
  exact JsonValue.print_ne_close (by decide) hletters

/-- Of a notification, a greeting and a ping, the second is a parse error and the third is
answered. -/
theorem serve_answered_ping :
    Answered jsonCodec [pingNotification.toBytes, greeting, pingRequest.toBytes]
      (serve jsonCodec bareSurface
        ([written pingNotification.toBytes, written greeting, written pingRequest.toBytes].flatMap
          Frame.bytes)) := by
  have hnotification : jsonCodec.fromSlice pingNotification.toBytes = some pingNotification :=
    fromSlice_toBytes (by simp +decide [pingNotification])
  have hping : jsonCodec.fromSlice pingRequest.toBytes = some pingRequest :=
    fromSlice_toBytes (by simp +decide [pingRequest])
  refine serve_answered jsonCodec bareSurface
    [written pingNotification.toBytes, written greeting, written pingRequest.toBytes]
    faithful_jsonCodec ?_ ?_
  · intro f hf
    simp only [List.mem_cons, List.not_mem_nil, or_false] at hf
    rcases hf with rfl | rfl | rfl <;> exact ⟨wellFramed_written _, by decide +kernel⟩
  · intro f hf response body hanswer hbody
    obtain rfl := Option.some.inj hbody
    simp only [List.mem_cons, List.not_mem_nil, or_false] at hf
    rcases hf with rfl | rfl | rfl
    · simp only [answer, written, hnotification] at hanswer
      cases hanswer
    · simp only [answer, written, fromSlice_greeting] at hanswer
      obtain rfl := Option.some.inj hanswer
      decide +kernel
    · simp only [answer, written, hping] at hanswer
      obtain rfl := Option.some.inj hanswer
      decide +kernel

/-! ## A response that outgrows its request -/

/-- A name of this many letters. -/
def longName (n : Nat) : String := String.ofList (List.replicate n 'x')

/-- A request without a method, under a long id. -/
def longRequest (n : Nat) : JsonValue :=
  .object [("id", .string (longName n)), ("jsonrpc", .string "2.0")]

theorem quote_longName (n : Nat) :
    quote (longName n) = quoteChar :: (List.replicate n 'x' ++ [quoteChar]) := by
  have hplain : (List.replicate n 'x').flatMap escape = List.replicate n 'x' := by
    induction n with
    | zero => rfl
    | succ n ih => rw [List.replicate_succ, List.flatMap_cons, ih]; rfl
  rw [quote, longName, String.toList_ofList, hplain]

/-- A print with a long name in it is as long as the name and what is around it. -/
theorem length_toBytes_around {value : JsonValue} {before behind : List Char} {n : Nat}
    (h : value.print = before ++ (List.replicate n 'x' ++ behind))
    (hbefore : before.all (fun c => c.toNat.blt 128) = true)
    (hbehind : behind.all (fun c => c.toNat.blt 128) = true) :
    value.toBytes.length = before.length + (n + behind.length) := by
  rw [JsonValue.toBytes, length_utf8Bytes_of_ascii]
  · rw [h, List.length_append, List.length_append, List.length_replicate]
  · intro c hc
    rw [h] at hc
    rcases List.mem_append.mp hc with hc | hc
    · exact Nat.blt_eq.mp (List.all_eq_true.mp hbefore c hc)
    rcases List.mem_append.mp hc with hc | hc
    · obtain rfl := List.eq_of_mem_replicate hc
      decide
    · exact Nat.blt_eq.mp (List.all_eq_true.mp hbehind c hc)

/-- What stands in front of a request's id, and behind any id. -/
def beforeId : List Char := '\x7b' :: (quote "id" ++ [':', quoteChar])
def behindId : List Char :=
  quoteChar :: JsonValue.printMoreEntries [("jsonrpc", .string "2.0")]

theorem length_longRequest (n : Nat) : (longRequest n).toBytes.length = n + 25 := by
  have hprint : (longRequest n).print = beforeId ++ (List.replicate n 'x' ++ behindId) := by
    simp [longRequest, JsonValue.print, JsonValue.printEntries, quote_longName, beforeId, behindId]
  rw [length_toBytes_around hprint (by decide +kernel) (by decide +kernel)]
  have hlength : beforeId.length = 7 ∧ behindId.length = 18 := by decide +kernel
  omega

/-- The refusal of a request without a method. -/
def missingMethod (id : JsonValue) : JsonValue :=
  errorResponse id invalidRequest "invalid request: missing method"

/-- What stands in front of a refusal's id. -/
def beforeRefusedId : List Char :=
  '\x7b' :: (quote "error" ++ ':' :: (JsonValue.print (.object [
    ("code", .number (.ofInt invalidRequest)),
    ("message", .string "invalid request: missing method")]) ++
      ',' :: (quote "id" ++ [':', quoteChar])))

theorem length_missingMethod (n : Nat) :
    (missingMethod (.string (longName n))).toBytes.length = n + 93 := by
  have hprint : (missingMethod (.string (longName n))).print =
      beforeRefusedId ++ (List.replicate n 'x' ++ behindId) := by
    simp [missingMethod, errorResponse, beforeRefusedId, behindId, JsonValue.print,
      JsonValue.printEntries, JsonValue.printMoreEntries, quote_longName]
  rw [length_toBytes_around hprint (by decide +kernel) (by decide +kernel)]
  have hlength : beforeRefusedId.length = 75 ∧ behindId.length = 18 := by decide +kernel
  omega

/-- A session whose one response is over the ceiling is not read back. -/
theorem not_readsBack_longRequest {n : Nat} (hrequest : n + 25 ≤ maxMessageBytes)
    (hresponse : maxMessageBytes < n + 93) (hbound : n + 93 ≤ u64Max)
    (responses : List JsonValue) : ¬ ReadsBack jsonCodec
      (serve jsonCodec bareSurface ([written (longRequest n).toBytes].flatMap Frame.bytes)).2
      responses := by
  have hread : jsonCodec.fromSlice (longRequest n).toBytes = some (longRequest n) :=
    fromSlice_toBytes (by simp +decide [longRequest])
  have hlength := length_missingMethod n
  have hframed : ∀ f ∈ [written (longRequest n).toBytes],
      f.WellFramed ∧ f.body.length ≤ maxMessageBytes := by
    intro f hf
    obtain rfl := List.mem_singleton.mp hf
    exact ⟨wellFramed_written _, (length_longRequest n).trans_le hrequest⟩
  have hanswer : answer jsonCodec bareSurface (written (longRequest n).toBytes).body =
      some (missingMethod (.string (longName n))) := by
    simp only [answer, written, hread]
    rfl
  have houtput : (serve jsonCodec bareSurface
      ([written (longRequest n).toBytes].flatMap Frame.bytes)).2 =
        (written (missingMethod (.string (longName n))).toBytes).bytes ++ [] := by
    rw [serve_frames faithful_jsonCodec bareSurface hframed, List.filterMap_cons, hanswer,
      bytes_written]
    rfl
  have herror := readMessage_over jsonCodec
    (wellFramed_written (missingMethod (.string (longName n))).toBytes)
    (hresponse.trans_eq hlength.symm) (hlength.trans_le hbound) []
  rw [houtput]
  intro hreads
  cases hreads with
  | ended eof =>
    rw [herror] at eof
    cases eof
  | next read others =>
    rw [herror] at read
    cases read

/-- Bounding the tools' results alone does not keep every response within the ceiling. -/
theorem serve_not_answered : ¬ ∀ (codec : Codec) (surface : Surface) (frames : List Frame),
    codec.Faithful →
    (∀ f ∈ frames, f.WellFramed ∧ f.body.length ≤ maxMessageBytes) →
    (∀ f ∈ frames, ∀ message response body, codec.fromSlice f.body = some message →
      (message.get "method").bind JsonValue.asStr = some "tools/call" →
      handle surface message = some response →
      codec.toVec response = some body → body.length ≤ maxMessageBytes) →
    Answered codec (frames.map Frame.body)
      (serve codec surface (frames.flatMap Frame.bytes)) := by
  intro h
  have hread : jsonCodec.fromSlice (longRequest 16777191).toBytes = some (longRequest 16777191) :=
    fromSlice_toBytes (by simp +decide [longRequest])
  obtain ⟨-, responses, hreads, -⟩ := h jsonCodec bareSurface
    [written (longRequest 16777191).toBytes] faithful_jsonCodec
    (by
      intro f hf
      obtain rfl := List.mem_singleton.mp hf
      exact ⟨wellFramed_written _, (length_longRequest 16777191).trans_le (by decide)⟩)
    (by
      intro f hf message response body hparsed hmethod
      obtain rfl := List.mem_singleton.mp hf
      obtain rfl := Option.some.inj (hread.symm.trans hparsed)
      cases hmethod)
  exact not_readsBack_longRequest (by decide) (by decide) (by decide) responses hreads

end Mcp

end RuntimeTrail
