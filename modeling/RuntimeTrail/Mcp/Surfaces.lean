import RuntimeTrail.Mcp.Tools
import RuntimeTrail.Investigation.Completeness
import RuntimeTrail.Query.Canonical

/-!
# Two surfaces over one flow

An investigation is asked for over HTTP, or by a tool call.  The surfaces parse, refuse
and render by functions of their own, and say the same: the same envelope, or the same
words, for every request that is an object.  What a surface reports it takes back.

* **parity** — `surfaces_agree_iff`, from a body to its answer; `written_alike_iff`,
  what the answer's bytes tell of the envelope;
* **descriptors** — `descriptors_read_back`: an id that is rendered is read back;
* **continuations** — `parseCursor_eq_ok_iff`, and `continued_of_reported`: a reported
  cursor is accepted with the subject it was reported for;
* **one flow** — `investigate_eq_ok_iff`: no tool answers what the flow did not.
-/

namespace RuntimeTrail.Mcp

open Library

/-! ## Parity -/

theorem renderer_eq_http (number : Float → JsonNumber) : renderer number = Http.renderer number := by
  rw [renderer, Http.renderer, funext (renderModelValue_eq_http number)]
  rfl

theorem parseEntity_eq_http (printable : Char → Bool) (value : JsonValue) :
    parseEntity printable value = (Http.parseEntity printable value).mapError .parse :=
  parseEntityWith_mapError printable ToolError.parse value

/-- Whether a value is an object. -/
def isObject : JsonValue → Bool
  | .object _ => true
  | _ => false

/-- What a surface says, whichever form it says it in: the envelope's text, or the reason. -/
def said : Investigated → Except String String
  | .ok envelope => .ok (String.ofList envelope.print)
  | .error (_, reason) => .error reason

/-- What the flow comes to is said alike by both. -/
theorem said_answerFlow (number : Float → JsonNumber)
    (result : Except FlowError Investigation) :
    said (Http.answerFlow number result) =
      match result.mapError ToolError.ofFlow with
      | .ok envelope => .ok (String.ofList (renderInvestigation number envelope).print)
      | .error error => .error (error.text number) := by
  cases result with
  | ok envelope =>
    rw [Http.answerFlow, Http.renderInvestigation, ← renderer_eq_http]
    rfl
  | error error =>
    cases error with
    | subjectUnresolved requested =>
      rw [Http.answerFlow, Http.entityText, ← renderer_eq_http]
      rfl
    | _ => rfl

section Agreement

variable (fromSlice : List UInt8 → Option JsonValue) (printable : Char → Bool)
  (number : Float → JsonNumber) (fuel : Nat) (reads : ToolReads)

theorem admittedBudget_eq_http : admittedBudget = Http.admittedBudget pageMaxBytes := by
  rw [admittedBudget, Http.admittedBudget, min_eq_left (by decide)]
  rfl

/-- The flow's answer to a subject, as both surfaces say it. -/
theorem said_runFlow (subject : EntityId) :
    (runFlow fuel reads subject).map (fun
        | .ok envelope => .ok (String.ofList (renderInvestigation number envelope).print)
        | .error error => .error (error.text number)) =
      ((investigateTraceBounded fuel reads.flow reads.correlate
        ⟨subject, Http.admittedBudget pageMaxBytes, none⟩ Http.admittedChain).map
          (Http.answerFlow number)).map said := by
  rw [runFlow, ← admittedBudget_eq_http, Option.map_map, Option.map_map]
  refine congrArg (fun say => Option.map say _) (funext fun result => ?_)
  exact (said_answerFlow number result).symm

/-- **The surfaces agree on the objects**: whatever the store answered, a request gets one envelope
or one reason from both, as a body and as a tool's arguments.  To anything that is no object the one
says that it names no root span, and the other that it is none. -/
theorem surfaces_agree_iff {payload : List UInt8} {value : JsonValue}
    (hbody : fromSlice payload = some value) :
    toolAnswer printable fuel reads number investigateTraceName value =
        (Http.investigateTraceHttp fromSlice printable number fuel reads.flow reads.correlate
          pageMaxBytes payload).map said ↔
      isObject value = true := by
  have htool : toolAnswer printable fuel reads number investigateTraceName value =
      (investigateTrace printable fuel reads value).map fun
        | .ok envelope => .ok (String.ofList (renderInvestigation number envelope).print)
        | .error error => .error (error.text number) := rfl
  rw [htool]
  cases value with
  | object entries =>
    refine iff_of_true ?_ rfl
    unfold investigateTrace Http.investigateTraceHttp parseSubject Http.parseSubject
    rw [hbody]
    dsimp only
    cases (JsonValue.object entries).get "root_span" with
    | none => rfl
    | some root =>
      dsimp only
      rw [parseEntity_eq_http]
      cases Http.parseEntity printable root with
      | error reason => rfl
      | ok subject => exact said_runFlow number fuel reads subject
  | _ =>
    have hwords : "the request body is not a JSON object" ≠ "the request must name a root_span" := by
      decide
    refine iff_of_false (fun h => hwords ?_) Bool.false_ne_true
    unfold Http.investigateTraceHttp Http.parseSubject at h
    rw [hbody] at h
    exact Except.error.inj (Option.some.inj h)

end Agreement

/-- The root of a trace with two log records, by its descriptor. -/
def rootArguments : JsonValue :=
  .object [("root_span", Http.renderEntity (.span (.ofByte 1) (.ofByte 1)))]

/-- The page of the log records meets its deadline between the two. -/
def lateReads : ToolReads where
  logRecord := (tracedLogs 2).driver.logRecord
  metricPoint := (tracedLogs 2).driver.metricPoint
  flow := (tracedLogs 2).reads fun page reading =>
    if page = 1 ∧ 4 ≤ reading then 31 * 10 ^ 9 else 0
  correlate _ := traceIdentityOnly

/-- A body that names the root is answered alike, and one that is a list is not. -/
theorem surfaces_agree_iff_root :
    toolAnswer (fun _ => true) 3 lateReads (fun _ => oneAndAHalf) investigateTraceName rootArguments =
        (Http.investigateTraceHttp (fun _ => some rootArguments) (fun _ => true)
          (fun _ => oneAndAHalf) 3 lateReads.flow lateReads.correlate pageMaxBytes []).map said ∧
      toolAnswer (fun _ => true) 3 lateReads (fun _ => oneAndAHalf) investigateTraceName (.array []) ≠
        (Http.investigateTraceHttp (fun _ => some (.array [])) (fun _ => true)
          (fun _ => oneAndAHalf) 3 lateReads.flow lateReads.correlate pageMaxBytes []).map said :=
  ⟨(surfaces_agree_iff _ _ _ _ _ rfl).mpr rfl,
    fun hsame => absurd ((surfaces_agree_iff _ _ _ _ _ rfl).mp hsame) Bool.false_ne_true⟩

/-- **What an answer tells.**  Both surfaces write an envelope as the same JSON, and two envelopes are
written alike exactly where they agree in all that is shown: in everything but a duration's fraction
of a millisecond, how far the correlation scanned, and what a rendered value or record leaves out. -/
theorem written_alike_iff (number : Float → JsonNumber) (a b : Investigation) :
    renderInvestigation number a = Http.renderInvestigation number a ∧
      ((renderInvestigation number a).toBytes = (renderInvestigation number b).toBytes ↔
        a.Alike (renderer number) b) := by
  refine ⟨by rw [renderInvestigation, Http.renderInvestigation, renderer_eq_http], ?_⟩
  rw [JsonValue.toBytes_injective.eq_iff]
  exact (renderer number).investigation_eq_iff Http.hex_injective

/-! ## What is taken back -/

/-- A rendered id is a descriptor of that id. -/
theorem names_renderEntity {entity : EntityId} (h : entity.InRange) :
    Names (Http.renderEntity entity) entity := by
  cases entity with
  | span traceId spanId =>
    exact .span (JsonValue.get_ofMembers (by simp) List.mem_cons_self)
      (JsonValue.get_ofMembers (by simp) List.mem_cons_self)
      (JsonValue.get_ofMembers (by simp) (List.mem_cons_of_mem _ List.mem_cons_self))
  | assigned id =>
    exact .assigned (JsonValue.get_ofMembers_eq_none (by simp) (by simp))
      (JsonValue.get_ofMembers (by simp) List.mem_cons_self) (JsonNumber.asNat_ofNat _) h

/-- **Descriptors.**  Both surfaces accept a descriptor for the id that it names, and refuse any other
value in the same words; and an id that is rendered is read back. -/
theorem descriptors_read_back (printable : Char → Bool) :
    (∀ value entity, Http.parseEntity printable value = .ok entity ↔ Names value entity) ∧
      (∀ value, parseEntity printable value =
        (Http.parseEntity printable value).mapError ToolError.parse) ∧
      ∀ entity : EntityId, entity.InRange →
        Http.parseEntity printable (Http.renderEntity entity) = .ok entity :=
  ⟨fun _ _ => parseEntityWith_eq_ok_iff printable id, parseEntity_eq_http printable,
    fun _ h => (parseEntityWith_eq_ok_iff printable id).mpr (names_renderEntity h)⟩

theorem not_refused_iff {text : List UInt8} :
    (text.isEmpty || text.length % 2 != 0 ||
        !text.all fun byte => (hexDigitValue byte).isSome) = false ↔
      text ≠ [] ∧ 2 ∣ text.length ∧ ∀ byte ∈ text, (hexDigitValue byte).isSome = true := by
  rw [Bool.or_eq_false_iff, Bool.or_eq_false_iff, Bool.not_eq_false', List.all_eq_true, and_assoc,
    List.isEmpty_eq_false_iff, bne_eq_false_iff_eq, Nat.dvd_iff_mod_eq_zero]

/-- **A cursor is the hex of some bytes**, and nothing else is accepted as one. -/
theorem parseCursor_eq_ok_iff {arguments : JsonValue} :
    parseCursor arguments = .ok () ↔
      ∃ bytes, bytes ≠ [] ∧ arguments.get "cursor" = some (.string (hexText bytes)) := by
  cases arguments with
  | object entries =>
    have hparse : parseCursor (.object entries) = .ok () ↔
        ∃ text : String, (JsonValue.object entries).get "cursor" = some (.string text) ∧
          utf8Bytes text.toList ≠ [] ∧ 2 ∣ (utf8Bytes text.toList).length ∧
          ∀ byte ∈ utf8Bytes text.toList, (hexDigitValue byte).isSome = true := by
      unfold parseCursor
      dsimp only
      split
      · rename_i hnone
        refine iff_of_false (fun h => by cases h) ?_
        rintro ⟨text, htext, -⟩
        rw [htext] at hnone
        cases hnone
      · rename_i text hsome
        rw [get_string_of_asStr hsome]
        split
        · rename_i hrefused
          refine iff_of_false (fun h => by cases h) ?_
          rintro ⟨text', htext, hcursor⟩
          obtain rfl := JsonValue.string.inj (Option.some.inj htext)
          rw [not_refused_iff.mpr hcursor] at hrefused
          cases hrefused
        · rename_i haccepted
          exact iff_of_true rfl
            ⟨text, rfl, not_refused_iff.mp (Bool.eq_false_of_not_eq_true haccepted)⟩
    rw [hparse]
    constructor
    · rintro ⟨text, htext, hne, heven, hdigits⟩
      obtain ⟨bytes, hread⟩ := (exists_decodeHex_iff heven).mpr hdigits
      have hhex := eq_encodeHex_of_decodeHex heven hread
      refine ⟨bytes, ?_, ?_⟩
      · rintro rfl
        exact hne (by rw [hhex]; rfl)
      · rw [htext, hexText, ← hhex, String.ofList_toList]
    · rintro ⟨bytes, hne, htext⟩
      have hlist : (hexText bytes).toList = encodeHex bytes := String.toList_ofList
      have heven : 2 ∣ (utf8Bytes (encodeHex bytes)).length :=
        ⟨bytes.length, length_utf8Bytes_encodeHex bytes⟩
      refine ⟨hexText bytes, htext, ?_, hlist ▸ heven, ?_⟩
      · rw [hlist]
        intro hnil
        have hlength := length_utf8Bytes_encodeHex bytes
        rw [hnil, List.length_nil] at hlength
        exact hne (List.eq_nil_of_length_eq_zero (by omega))
      · rw [hlist]
        exact (exists_decodeHex_iff heven).mp ⟨bytes, decodeHex_encodeHex bytes⟩
  | _ =>
    refine iff_of_false (fun h => by cases h) ?_
    rintro ⟨bytes, -, hget⟩
    cases hget

/-- Arguments name a subject by the descriptor under the tool's keyword. -/
theorem parseSubject_eq_ok_iff {printable : Char → Bool} {arguments : JsonValue} {keyword : String}
    {subject : EntityId} :
    parseSubject printable arguments keyword = .ok subject ↔
      ∃ value, arguments.get keyword = some value ∧ Names value subject := by
  cases arguments with
  | object entries =>
    unfold parseSubject
    dsimp only
    cases (JsonValue.object entries).get keyword with
    | none =>
      refine iff_of_false (fun h => by cases h) ?_
      rintro ⟨value, hvalue, -⟩
      cases hvalue
    | some value =>
      dsimp only
      rw [parseEntity, parseEntityWith_eq_ok_iff]
      exact ⟨fun h => ⟨value, rfl, h⟩, fun ⟨_, hvalue, h⟩ => Option.some.inj hvalue ▸ h⟩
  | _ =>
    refine iff_of_false (fun h => by cases h) ?_
    rintro ⟨value, hvalue, -⟩
    cases hvalue

/-! ## Continuations -/

/-- A cursor is some bytes. -/
theorem encode_ne_nil (payload : CursorPayload) : payload.encode ≠ [] := by
  intro h
  have hlength := congrArg List.length (CursorPayload.encode_eq payload)
  rw [h, List.length_nil, List.length_append, List.length_append, length_writeLe] at hlength
  omega

/-- Each cursor of a walk's runs is one that the engine has handed back. -/
theorem nextCursor_of_walksPages {reads : FlowReads} {query : RecordsQuery} {left : Nat}
    {walk walk' : WalkState} {cursor : Option (List UInt8)} {items : List RecordView}
    {runs : List RunFacts} (h : WalksPages reads query left walk cursor items runs walk')
    {run : RunFacts} (hrun : run ∈ runs) {next : List UInt8} (hnext : run.nextCursor = some next) :
    ∃ payload : CursorPayload, payload.fingerprint = fingerprint query.canonicalBytes ∧
      next = payload.encode := by
  have hpage : ∀ {walk : WalkState} {cursor : Option (List UInt8)} {page : Page RecordView}
      {run : RunFacts},
      records (reads.pages walk.pages) query walk.budget.perPage (reads.clocks walk.pages) cursor =
        .ok page →
      mirrorPage page = .ok run → run.nextCursor = some next →
      ∃ payload : CursorPayload, payload.fingerprint = fingerprint query.canonicalBytes ∧
        next = payload.encode := by
    intro walk cursor page run hanswered hmirrored hnext
    refine nextCursor_names hanswered ?_
    unfold mirrorPage at hmirrored
    split at hmirrored
    · cases hmirrored
    · obtain rfl := Except.ok.inj hmirrored
      exact hnext
  induction h with
  | stopped spent => cases hrun
  | ended answered mirrored room ends =>
    obtain rfl := List.mem_singleton.mp hrun
    exact hpage answered mirrored hnext
  | onward answered mirrored room continues advances behind ih =>
    obtain rfl | hrun := List.mem_cons.mp hrun
    · exact hpage answered mirrored hnext
    · exact ih hrun

/-- A reported cursor is some bytes. -/
theorem reported_ne_nil {fuel : Nat} {reads : FlowReads}
    {correlate : CorrelationBounds → CorrelationOutcome} {request : TraceInvestigationRequest}
    {chain : ChainBudget} {envelope : Investigation}
    (h : investigateTraceBounded fuel reads correlate request chain = some (.ok envelope))
    {group : RunGroup} (hgroup : group ∈ envelope.execution.runGroups) {run : RunFacts}
    (hrun : run ∈ group.runs) {next : List UInt8} (hnext : run.nextCursor = some next) :
    next ≠ [] := by
  obtain ⟨root, parts, -, hparts, rfl⟩ := investigateTraceBounded_eq_ok h
  obtain ⟨-, spanViews, logViews, pointViews, walk₁, walk₂, walk₃, walk₄, hspans, -, -, hlogs, -,
    hpoints, -⟩ := walkParts_eq_ok hparts
  have hwalked : ∃ query, ∃ payload : CursorPayload,
      payload.fingerprint = fingerprint (RecordsQuery.canonicalBytes query) ∧
        next = payload.encode := by
    simp only [compose, List.mem_cons, List.not_mem_nil, or_false] at hgroup
    obtain rfl | rfl | rfl := hgroup
    · exact ⟨_, nextCursor_of_walksPages (walksPages_of_ok (walkPages_eq_ok hspans).1) hrun hnext⟩
    · exact ⟨_, nextCursor_of_walksPages (walksPages_of_ok (walkPages_eq_ok hlogs).1) hrun hnext⟩
    · exact ⟨_, nextCursor_of_walksPages (walksPages_of_ok (walkPages_eq_ok hpoints).1) hrun hnext⟩
  obtain ⟨-, payload, -, rfl⟩ := hwalked
  exact encode_ne_nil payload

/-- The arguments that continue an answer: the subject it was asked for, and a cursor it reported,
each as it was rendered. -/
def continuation (number : Float → JsonNumber) (envelope : Investigation) (cursor : List UInt8) :
    JsonValue :=
  .ofMembers
    [("root_span", (renderer number).entity envelope.subject.requested.rootSpan),
      ("cursor", .string ((renderer number).hex cursor))]

/-- A tool's flow runs for the subject the answer states. -/
theorem requested_of_runFlow {fuel : Nat} {reads : ToolReads} {subject : EntityId}
    {envelope : Investigation} (h : runFlow fuel reads subject = some (.ok envelope)) :
    investigateTraceBounded fuel reads.flow reads.correlate ⟨subject, admittedBudget, none⟩
        admittedChain = some (.ok envelope) ∧
      envelope.subject.requested.rootSpan = subject := by
  obtain ⟨result, hresult, hmapped⟩ := Option.map_eq_some_iff.mp h
  cases result with
  | error error => cases hmapped
  | ok answered =>
    obtain rfl := Except.ok.inj hmapped
    refine ⟨hresult, ?_⟩
    obtain ⟨root, parts, -, -, rfl⟩ := investigateTraceBounded_eq_ok hresult
    rfl

/-- What `investigate_trace` answers, it answers for the subject its arguments name. -/
theorem subject_of_investigateTrace {printable : Char → Bool} {fuel : Nat} {reads : ToolReads}
    {arguments : JsonValue} {envelope : Investigation}
    (h : investigateTrace printable fuel reads arguments = some (.ok envelope)) :
    parseSubject printable arguments "root_span" = .ok envelope.subject.requested.rootSpan ∧
      envelope.subject.requested.rootSpan.InRange ∧
      runFlow fuel reads envelope.subject.requested.rootSpan = some (.ok envelope) := by
  unfold investigateTrace at h
  split at h
  · cases h
  rename_i subject hsubject
  obtain ⟨-, rfl⟩ := requested_of_runFlow h
  obtain ⟨_, -, hnames⟩ := parseSubject_eq_ok_iff.mp hsubject
  exact ⟨hsubject, hnames.inRange, h⟩

/-- **A reported cursor continues its investigation.**  Whatever cursor a run of an answer reports,
the continuation tool accepts it with the subject the answer states, at any later time and over any
store, and answers what `investigate_trace` would answer then. -/
theorem continued_of_reported {printable : Char → Bool} {number : Float → JsonNumber} {fuel : Nat}
    {reads : ToolReads} {arguments : JsonValue} {envelope : Investigation}
    (h : investigateTrace printable fuel reads arguments = some (.ok envelope)) {group : RunGroup}
    (hgroup : group ∈ envelope.execution.runGroups) {run : RunFacts} (hrun : run ∈ group.runs)
    {cursor : List UInt8} (hcursor : run.nextCursor = some cursor) (later : Nat)
    (reads' : ToolReads) :
    continueInvestigation printable later reads' (continuation number envelope cursor) =
      investigateTrace printable later reads' arguments := by
  obtain ⟨hsubject, hrange, hflow⟩ := subject_of_investigateTrace h
  have hne := reported_ne_nil (requested_of_runFlow hflow).1 hgroup hrun hcursor
  have hroot : parseSubject printable (continuation number envelope cursor) "root_span" =
      .ok envelope.subject.requested.rootSpan := by
    refine parseSubject_eq_ok_iff.mpr ⟨_, JsonValue.get_ofMembers (by simp) List.mem_cons_self, ?_⟩
    rw [renderer_eq_http, Http.renderer_entity]
    exact names_renderEntity hrange
  have haccepted : parseCursor (continuation number envelope cursor) = .ok () :=
    parseCursor_eq_ok_iff.mpr ⟨cursor, hne,
      JsonValue.get_ofMembers (by simp) (List.mem_cons_of_mem _ List.mem_cons_self)⟩
  unfold continueInvestigation investigateTrace
  rw [hroot, haccepted, hsubject]

/-- The cursors an answer's runs report. -/
def reportedCursors (envelope : Investigation) : List (List UInt8) :=
  envelope.execution.runGroups.flatMap fun group => group.runs.filterMap RunFacts.nextCursor

theorem continued_of_reported_late : ∃ envelope cursor,
    investigateTrace (fun _ => true) 3 lateReads rootArguments = some (.ok envelope) ∧
      cursor ∈ reportedCursors envelope ∧
      continueInvestigation (fun _ => true) 3 lateReads
          (continuation (fun _ => oneAndAHalf) envelope cursor) =
        investigateTrace (fun _ => true) 3 lateReads rootArguments := by
  obtain ⟨answer, hanswer, hreports⟩ : ∃ answer,
      investigateTrace (fun _ => true) 3 lateReads rootArguments = some answer ∧
        (match answer with
          | .ok envelope => !(reportedCursors envelope).isEmpty
          | .error _ => false) = true := (Option.any_eq_true _ _).mp (by decide +kernel)
  cases answer with
  | error error => cases hreports
  | ok envelope =>
    obtain ⟨cursor, hcursor⟩ := List.exists_mem_of_ne_nil _
      (List.isEmpty_eq_false_iff.mp (Bool.not_eq_true' _ ▸ hreports))
    obtain ⟨group, hgroup, hruns⟩ := List.mem_flatMap.mp hcursor
    obtain ⟨run, hrun, hnext⟩ := List.mem_filterMap.mp hruns
    exact ⟨envelope, cursor, hanswer, hcursor,
      continued_of_reported hanswer hgroup hrun hnext 3 lateReads⟩

/-! ## One flow -/

/-- A tool call asks for a subject: by its descriptor, or by the span context of a resident log
record. -/
inductive Asks (reads : ToolReads) (arguments : JsonValue) : String → EntityId → Prop
  | trace {value : JsonValue} {subject : EntityId}
    (given : arguments.get "root_span" = some value) (named : Names value subject) :
    Asks reads arguments investigateTraceName subject
  | continued {value : JsonValue} {subject : EntityId} {cursor : List UInt8}
    (given : arguments.get "root_span" = some value) (named : Names value subject)
    (bytes : cursor ≠ []) (onward : arguments.get "cursor" = some (.string (hexText cursor))) :
    Asks reads arguments continueInvestigationName subject
  | logSpan {value : JsonValue} {traceId : TraceId} {spanId : SpanId}
    (given : arguments.get "log" = some value) (named : Names value (.span traceId spanId)) :
    Asks reads arguments investigateLogName (.span traceId spanId)
  | logRecord {value : JsonValue} {id : AssignedId} {record : Arc LogRecord} {traceId : TraceId}
    {spanId : SpanId} (given : arguments.get "log" = some value)
    (named : Names value (.assigned id)) (resident : reads.logRecord (.assigned id) = some record)
    (trace : record.val.traceId = some traceId) (span : record.val.spanId = some spanId) :
    Asks reads arguments investigateLogName (.span traceId spanId)
  | metricSpan {value : JsonValue} {traceId : TraceId} {spanId : SpanId}
    (given : arguments.get "metric" = some value) (named : Names value (.span traceId spanId)) :
    Asks reads arguments investigateMetricName (.span traceId spanId)

section OneFlow

variable {printable : Char → Bool} {fuel : Nat} {reads : ToolReads} {arguments : JsonValue}
  {envelope : Investigation}

/-- The flow answered an envelope for a subject, under the admitted ceilings. -/
def FlowAnswers (fuel : Nat) (reads : ToolReads) (subject : EntityId) (envelope : Investigation) :
    Prop :=
  investigateTraceBounded fuel reads.flow reads.correlate ⟨subject, admittedBudget, none⟩
    admittedChain = some (.ok envelope)

theorem runFlow_eq_ok_iff {subject : EntityId} :
    runFlow fuel reads subject = some (.ok envelope) ↔ FlowAnswers fuel reads subject envelope := by
  refine ⟨fun h => (requested_of_runFlow h).1, fun h => ?_⟩
  rw [runFlow, h]
  rfl

theorem investigateTrace_eq_ok_iff :
    investigateTrace printable fuel reads arguments = some (.ok envelope) ↔
      ∃ subject value, arguments.get "root_span" = some value ∧ Names value subject ∧
        FlowAnswers fuel reads subject envelope := by
  unfold investigateTrace
  constructor
  · intro h
    split at h
    · cases h
    · rename_i subject hsubject
      obtain ⟨value, hvalue, hnames⟩ := parseSubject_eq_ok_iff.mp hsubject
      exact ⟨subject, value, hvalue, hnames, runFlow_eq_ok_iff.mp h⟩
  · rintro ⟨subject, value, hvalue, hnames, h⟩
    rw [parseSubject_eq_ok_iff.mpr ⟨value, hvalue, hnames⟩]
    exact runFlow_eq_ok_iff.mpr h

theorem continueInvestigation_eq_ok_iff :
    continueInvestigation printable fuel reads arguments = some (.ok envelope) ↔
      parseCursor arguments = .ok () ∧
        investigateTrace printable fuel reads arguments = some (.ok envelope) := by
  unfold continueInvestigation investigateTrace
  cases parseSubject printable arguments "root_span" with
  | error error => exact iff_of_false nofun fun h => nomatch h.2
  | ok subject =>
    dsimp only
    cases parseCursor arguments with
    | error error => exact iff_of_false nofun fun h => nomatch h.1
    | ok _ => exact (and_iff_right rfl).symm

/-- The log tool answers for a span it is given, or for the context of the record it finds. -/
theorem investigateLog_eq_ok_iff :
    investigateLog printable fuel reads arguments = some (.ok envelope) ↔
      ∃ traceId spanId value, arguments.get "log" = some value ∧
        FlowAnswers fuel reads (.span traceId spanId) envelope ∧
        (Names value (.span traceId spanId) ∨ ∃ id record, Names value (.assigned id) ∧
          reads.logRecord (.assigned id) = some record ∧ record.val.traceId = some traceId ∧
          record.val.spanId = some spanId) := by
  unfold investigateLog
  constructor
  · intro h
    split at h
    · cases h
    · rename_i traceId spanId hsubject
      obtain ⟨value, hvalue, hnames⟩ := parseSubject_eq_ok_iff.mp hsubject
      exact ⟨traceId, spanId, value, hvalue, runFlow_eq_ok_iff.mp h, Or.inl hnames⟩
    · rename_i id hsubject
      obtain ⟨value, hvalue, hnames⟩ := parseSubject_eq_ok_iff.mp hsubject
      split at h
      · cases h
      rename_i record hrecord
      split at h
      · cases h
      rename_i subject hspan
      unfold subjectSpan at hspan
      split at hspan
      · rename_i traceId spanId htrace hown
        obtain rfl := Except.ok.inj hspan
        exact ⟨traceId, spanId, value, hvalue, runFlow_eq_ok_iff.mp h,
          Or.inr ⟨id, record, hnames, hrecord, htrace, hown⟩⟩
      · cases hspan
  · rintro ⟨traceId, spanId, value, hvalue, h, hnames | ⟨id, record, hnames, hrecord, htrace, hown⟩⟩
    · rw [parseSubject_eq_ok_iff.mpr ⟨value, hvalue, hnames⟩]
      exact runFlow_eq_ok_iff.mpr h
    · rw [parseSubject_eq_ok_iff.mpr ⟨value, hvalue, hnames⟩]
      dsimp only
      rw [hrecord]
      dsimp only
      rw [htrace, hown]
      exact runFlow_eq_ok_iff.mpr h

/-- The metric tool answers for a span only: a resident point names no trace. -/
theorem investigateMetric_eq_ok_iff :
    investigateMetric printable fuel reads arguments = some (.ok envelope) ↔
      ∃ traceId spanId value, arguments.get "metric" = some value ∧
        FlowAnswers fuel reads (.span traceId spanId) envelope ∧
        Names value (.span traceId spanId) := by
  unfold investigateMetric
  constructor
  · intro h
    split at h
    · cases h
    · rename_i traceId spanId hsubject
      obtain ⟨value, hvalue, hnames⟩ := parseSubject_eq_ok_iff.mp hsubject
      exact ⟨traceId, spanId, value, hvalue, runFlow_eq_ok_iff.mp h, hnames⟩
    · split at h
      · cases h
      · cases h
  · rintro ⟨traceId, spanId, value, hvalue, h, hnames⟩
    rw [parseSubject_eq_ok_iff.mpr ⟨value, hvalue, hnames⟩]
    exact runFlow_eq_ok_iff.mpr h

end OneFlow

/-- **No tool answers what the flow did not, and each what it did.**  An envelope is an answer of a
tool exactly where the flow answered it, under the admitted ceilings, for a subject the call asks
for. -/
theorem investigate_eq_ok_iff (printable : Char → Bool) (fuel : Nat) (reads : ToolReads)
    (name : String) (arguments : JsonValue) (envelope : Investigation) :
    investigate printable fuel reads name arguments = some (.ok envelope) ↔
      ∃ subject, Asks reads arguments name subject ∧ FlowAnswers fuel reads subject envelope := by
  constructor
  · intro h
    unfold investigate at h
    split at h
    · rename_i hname
      obtain ⟨subject, value, hvalue, hnames, hflow⟩ := investigateTrace_eq_ok_iff.mp h
      exact ⟨subject, hname ▸ .trace hvalue hnames, hflow⟩
    split at h
    · rename_i hname
      obtain ⟨traceId, spanId, value, hvalue, hflow, hnames | ⟨id, record, hnames, hrecord, htrace,
        hown⟩⟩ := investigateLog_eq_ok_iff.mp h
      · exact ⟨_, hname ▸ .logSpan hvalue hnames, hflow⟩
      · exact ⟨_, hname ▸ .logRecord hvalue hnames hrecord htrace hown, hflow⟩
    split at h
    · rename_i hname
      obtain ⟨traceId, spanId, value, hvalue, hflow, hnames⟩ := investigateMetric_eq_ok_iff.mp h
      exact ⟨_, hname ▸ .metricSpan hvalue hnames, hflow⟩
    split at h
    · rename_i hname
      obtain ⟨hcursor, h⟩ := continueInvestigation_eq_ok_iff.mp h
      obtain ⟨subject, value, hvalue, hnames, hflow⟩ := investigateTrace_eq_ok_iff.mp h
      obtain ⟨cursor, hne, honward⟩ := parseCursor_eq_ok_iff.mp hcursor
      exact ⟨subject, hname ▸ .continued hvalue hnames hne honward, hflow⟩
    · cases h
  · rintro ⟨subject, hasks, hflow⟩
    cases hasks with
    | trace given named => exact investigateTrace_eq_ok_iff.mpr ⟨_, _, given, named, hflow⟩
    | continued given named bytes onward =>
      exact continueInvestigation_eq_ok_iff.mpr ⟨parseCursor_eq_ok_iff.mpr ⟨_, bytes, onward⟩,
        investigateTrace_eq_ok_iff.mpr ⟨_, _, given, named, hflow⟩⟩
    | logSpan given named =>
      exact investigateLog_eq_ok_iff.mpr ⟨_, _, _, given, hflow, Or.inl named⟩
    | logRecord given named resident trace span =>
      exact investigateLog_eq_ok_iff.mpr
        ⟨_, _, _, given, hflow, Or.inr ⟨_, _, named, resident, trace, span⟩⟩
    | metricSpan given named =>
      exact investigateMetric_eq_ok_iff.mpr ⟨_, _, _, given, hflow, named⟩

end RuntimeTrail.Mcp
