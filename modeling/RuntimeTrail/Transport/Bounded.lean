import RuntimeTrail.Transport.Edge

/-!
# Bounded memory at the transport edge

A body byte is in memory at the edge only while a guard that was charged for it is
held, so the bodies of all requests together stay within the in-flight ceiling.  The
middleware passes some requests uncharged; the handler refuses each of these before it
reads, because a drain never ends and a header does not change.

Which refusal a request gets at the edge is told by `refusal`, from the request and
the drain flag alone: whether the budget is full has no part in it.

* **the contract** — `refusal`, and `Answered`: how a request can come to its answer;
* **one move** — `Moved`, which lists what a request's move can do;
* **the invariant** — `Charged`: what a request has in memory it is charged for;
* **the laws** — `buffered_bounded`, `answered_of_left`.
-/

namespace RuntimeTrail

open Library

namespace TransportEdge

/-! ## The contract -/

/-- What a request is refused before its body is read, in the order of the gates: draining first,
then its type, then the length it declares. -/
def refusal (e : TransportEdge) (draining : Bool) (r : EdgeRequest) : Option EdgeAnswer :=
  match r.endpoint with
  | .exportGrpc _ =>
    if draining then some (.grpc (.error (signalToStatus .draining)))
    else if r.headers.isGrpcContentType then none
    else some .unsupportedMediaType
  | .grpcUnknown path =>
    if r.headers.isGrpcContentType then some (.grpc (.error (unimplementedStatus path)))
    else some .unsupportedMediaType
  | .surface => some .passed
  | _ => { e with draining := draining }.handlerGate r

/-- The charge a request makes. -/
def chargeOf (e : TransportEdge) (r : EdgeRequest) : Nat :=
  match r.endpoint with
  | .exportGrpc _ => e.grpcDecodingCeilingBytes
  | _ => r.headers.declaredLengthBounded e.payloadCeilingBytes

/-- Nothing of the request's body was read, nothing handed over, and nothing given up. -/
def Untouched (r : EdgeRequest) : Prop := r.received = [] ∧ r.handed = [] ∧ r.stopped = none

/-- How a request can come to its answer; `none` is a client that is gone. -/
inductive Answered (printable : Char → Bool) (e : TransportEdge) (r : EdgeRequest) :
    Option EdgeAnswer → Prop
  /-- Refused before reading, as the contract has it. -/
  | refused {draining : Bool} {answer : EdgeAnswer} (flag : draining = true → e.draining = true)
    (owned : e.refusal draining r = some answer) (untouched : Untouched r) :
    Answered printable e r (some answer)
  /-- Refused for want of room, where nothing else refuses it: beside a count the budget has held,
  its charge passes the ceiling or the counter's width. -/
  | overBudget {current : Nat} (free : e.refusal false r = none) (untouched : Untouched r)
    (held : current ∈ e.budget.held)
    (full : min e.budget.ceilingBytes u64Max < current + e.chargeOf r) :
    Answered printable e r (some (e.overBudget r))
  /-- Given up: the peer or the deadline stopped it, or a chunk past what the bounded read takes. -/
  | unfinished {stop : BodyStop} (free : e.refusal false r = none) (unhanded : r.handed = [])
    (stopped : r.stopped = some stop)
    (grown : ∀ bytes, stop = .overgrown bytes → e.pastCeiling r r.received bytes = true) :
    Answered printable e r (e.stopAnswer r stop)
  /-- Handed over once, in full, and answered with what came of it. -/
  | handled {result : Handled} {answer : EdgeAnswer} (free : e.refusal false r = none)
    (once : r.handed = [(r.received, result)]) (finished : r.stopped = none)
    (paid : r.received.length ≤ e.chargeOf r)
    (words : handlerAnswer printable r result = some answer) :
    Answered printable e r (some answer)

/-! ## One move -/

/-- What a request's move can do. -/
inductive Moved (printable : Char → Bool) (e : TransportEdge) (i : Nat) (r : EdgeRequest)
    (move : EdgeMove) : TransportEdge → Prop
  | gated {answer : EdgeAnswer} (stage : r.stage = .arrived) (gate : e.gate r = .answer answer) :
    Moved printable e i r move (e.goes i r (.leaving (some answer)))
  | passes (stage : r.stage = .arrived) (gate : e.gate r = .enter) :
    Moved printable e i r move (e.goes i r .entered)
  | charges {bytes : Nat} {budget : InflightBodyBudget} (stage : r.stage = .arrived)
    (gate : e.gate r = .charge bytes) (call : e.budget.step (i, .call bytes) = some budget) :
    Moved printable e i r move ({ e with budget := budget }.goes i r .acquiring)
  | waits {acquire : AcquireMove} {budget : InflightBodyBudget} (stage : r.stage = .acquiring)
    (call : e.budget.step (i, acquire) = some budget)
    (unanswered : (∀ charge, budget.calls[i]? ≠ some (.acquired charge)) ∧
      ∀ charge current, budget.calls[i]? ≠ some (.refused charge current)) :
    Moved printable e i r move ({ e with budget := budget }.goes i r .acquiring)
  | acquires {acquire : AcquireMove} {budget : InflightBodyBudget} {charge : Nat}
    (stage : r.stage = .acquiring) (call : e.budget.step (i, acquire) = some budget)
    (holds : budget.calls[i]? = some (.acquired charge)) :
    Moved printable e i r move ({ e with budget := budget }.goes i r .entered)
  | refused {acquire : AcquireMove} {budget : InflightBodyBudget} {charge current : Nat}
    (stage : r.stage = .acquiring) (call : e.budget.step (i, acquire) = some budget)
    (holds : budget.calls[i]? = some (.refused charge current)) :
    Moved printable e i r move
      ({ e with budget := budget }.goes i r (.leaving (some (e.overBudget r))))
  | handlerRefuses {answer : EdgeAnswer} (stage : r.stage = .entered)
    (gate : e.handlerGate r = some answer) :
    Moved printable e i r move (e.goes i r (.leaving (some answer)))
  | reads (stage : r.stage = .entered) (gate : e.handlerGate r = none) :
    Moved printable e i r move (e.goes i r (.reading []))
  | grows {body bytes : List UInt8} (chunk : move = .chunk bytes) (stage : r.stage = .reading body)
    (within : e.pastCeiling r body bytes = false) :
    Moved printable e i r move
      (e.goes i { r with received := body ++ bytes } (.reading (body ++ bytes)))
  | stops {stop : BodyStop} {body : List UInt8}
    (stage : r.stage = .reading body ∨ r.stage = .handling body)
    (grown : ∀ bytes, stop = .overgrown bytes → e.pastCeiling r body bytes = true) :
    Moved printable e i r move (e.stops i r stop)
  | ends {body : List UInt8} (stage : r.stage = .reading body) :
    Moved printable e i r move (e.goes i r (.handling body))
  | handles {payload : List UInt8} {result : Handled} {answer : EdgeAnswer}
    (stage : r.stage = .handling payload)
    (words : handlerAnswer printable r result = some answer) :
    Moved printable e i r move
      (e.goes i { r with handed := r.handed ++ [(payload, result)] } (.leaving (some answer)))
  | leaves {answer : Option EdgeAnswer} (stage : r.stage = .leaving answer)
    (idle : e.budget.calls[i]? = some .idle) : Moved printable e i r move (e.goes i r (.left answer))
  | releases {answer : Option EdgeAnswer} {budget : InflightBodyBudget}
    (stage : r.stage = .leaving answer) (call : e.budget.step (i, .finish) = some budget) :
    Moved printable e i r move ({ e with budget := budget }.goes i r (.left answer))

theorem moved_of_requestStep {printable : Char → Bool} {e e' : TransportEdge} {i : Nat}
    {r : EdgeRequest} {move : EdgeMove} (h : e.requestStep printable i r move = some e') :
    Moved printable e i r move e' := by
  unfold requestStep at h
  split at h
  · rename_i hstage
    split at h
    · rename_i hgate
      obtain rfl := Option.some.inj h
      exact .gated hstage hgate
    · rename_i hgate
      obtain rfl := Option.some.inj h
      exact .passes hstage hgate
    · rename_i hgate
      obtain ⟨budget, hcall, rfl⟩ := Option.map_eq_some_iff.mp h
      exact .charges hstage hgate hcall
  · rename_i hstage
    obtain ⟨budget, hcall, rfl⟩ := Option.map_eq_some_iff.mp h
    split
    · rename_i hholds
      exact .acquires hstage hcall hholds
    · rename_i hholds
      exact .refused hstage hcall hholds
    · rename_i hacquired hrefused
      exact .waits hstage hcall ⟨hacquired, hrefused⟩
  · rename_i hstage
    split at h
    · rename_i hgate
      obtain rfl := Option.some.inj h
      exact .handlerRefuses hstage hgate
    · rename_i hgate
      obtain rfl := Option.some.inj h
      exact .reads hstage hgate
  · rename_i hstage
    split at h
    · rename_i hpast
      obtain rfl := Option.some.inj h
      refine .stops (Or.inl hstage) fun bytes heq => ?_
      obtain rfl := BodyStop.overgrown.inj heq
      exact hpast
    · rename_i hwithin
      obtain rfl := Option.some.inj h
      exact .grows rfl hstage (Bool.eq_false_iff.mpr hwithin)
  · rename_i hstage
    obtain rfl := Option.some.inj h
    exact .ends hstage
  · rename_i hstage
    obtain rfl := Option.some.inj h
    exact .stops (Or.inl hstage) fun _ heq => (by cases heq)
  · rename_i hstage
    obtain rfl := Option.some.inj h
    exact .stops (Or.inl hstage) fun _ heq => (by cases heq)
  · rename_i hstage
    obtain ⟨answer, hwords, rfl⟩ := Option.map_eq_some_iff.mp h
    exact .handles hstage hwords
  · rename_i hstage
    obtain rfl := Option.some.inj h
    exact .stops (Or.inl hstage) fun _ heq => (by cases heq)
  · rename_i hstage
    split at h
    · obtain rfl := Option.some.inj h
      exact .stops (Or.inr hstage) fun _ heq => (by cases heq)
    · cases h
  · rename_i hstage
    split at h
    · rename_i hidle
      obtain rfl := Option.some.inj h
      exact .leaves hstage hidle
    · obtain ⟨budget, hcall, rfl⟩ := Option.map_eq_some_iff.mp h
      exact .releases hstage hcall
  · cases h

/-! ## What the gates decide -/

/-- Whatever becomes of the drain flag, the handler refuses the request before it reads. -/
def Owned (e : TransportEdge) (r : EdgeRequest) : Prop :=
  ∀ draining, (e.draining = true → draining = true) →
    ∃ answer, { e with draining := draining }.handlerGate r = some answer

/-- What each outcome of the first gates means for a request. -/
def GateSays (e : TransportEdge) (r : EdgeRequest) : Gated → Prop
  | .answer answer => e.refusal e.draining r = some answer
  | .enter => Owned e r
  | .charge bytes => e.refusal false r = none ∧ bytes = e.chargeOf r

theorem gateSays_exportHttp {e : TransportEdge} {r : EdgeRequest} {signal : ExportSignal}
    (h : r.endpoint = .exportHttp signal) : GateSays e r (e.gate r) := by
  have hgate : e.gate r = inflightBodyGuard e.draining false r.headers e.payloadCeilingBytes := by
    rw [gate, h]
  rw [hgate]
  unfold inflightBodyGuard
  cases hdraining : e.draining with
  | true =>
    intro draining hflag
    rw [hflag hdraining]
    exact ⟨.http drainingResponse, by simp [handlerGate, h]⟩
  | false =>
    cases htype : r.headers.contentTypeGate with
    | some declared => simp [GateSays, refusal, handlerGate, h, htype, hdraining]
    | none =>
      cases hover : r.headers.declaredOverCeiling e.payloadCeilingBytes with
      | true =>
        intro draining _
        cases draining with
        | true => exact ⟨.http drainingResponse, by simp [handlerGate, h]⟩
        | false => exact ⟨_, by simp [handlerGate, h, htype, hover]; rfl⟩
      | false => simp [GateSays, refusal, handlerGate, chargeOf, h, htype, hover]

theorem gateSays_investigation {e : TransportEdge} {r : EdgeRequest}
    (h : r.endpoint = .investigation) : GateSays e r (e.gate r) := by
  have hgate : e.gate r = inflightBodyGuard e.draining true r.headers e.payloadCeilingBytes := by
    rw [gate, h]
  rw [hgate]
  unfold inflightBodyGuard
  cases hdraining : e.draining with
  | true =>
    intro draining hflag
    rw [hflag hdraining]
    exact ⟨_, by simp [handlerGate, h]; rfl⟩
  | false =>
    cases hover : r.headers.declaredOverCeiling e.payloadCeilingBytes with
    | true =>
      intro draining _
      cases draining with
      | true => exact ⟨_, by simp [handlerGate, h]; rfl⟩
      | false => exact ⟨_, by simp [handlerGate, h, hover]; rfl⟩
    | false => simp [GateSays, refusal, handlerGate, chargeOf, h, hover]

/-- **The gates keep the contract**: they answer what it answers, pass on what the handler refuses,
and charge what nothing refuses. -/
theorem gateSays (e : TransportEdge) (r : EdgeRequest) : GateSays e r (e.gate r) := by
  cases h : r.endpoint with
  | exportHttp signal => exact gateSays_exportHttp h
  | investigation => exact gateSays_investigation h
  | exportGrpc family =>
    cases hdraining : e.draining with
    | true => simp [GateSays, gate, refusal, h, hdraining]
    | false =>
      cases htype : r.headers.isGrpcContentType with
      | true => simp [GateSays, gate, refusal, chargeOf, h, hdraining, htype]
      | false => simp [GateSays, gate, refusal, h, hdraining, htype]
  | grpcUnknown path =>
    cases htype : r.headers.isGrpcContentType with
    | true => simp [GateSays, gate, refusal, h, htype]
    | false => simp [GateSays, gate, refusal, h, htype]
  | surface => simp [GateSays, gate, refusal, h]

/-- What a handler refuses, the contract does. -/
theorem refusal_of_handlerGate {e : TransportEdge} {r : EdgeRequest} {answer : EdgeAnswer}
    (h : e.handlerGate r = some answer) : e.refusal e.draining r = some answer := by
  unfold refusal
  split
  · rename_i hendpoint
    simp [handlerGate, hendpoint] at h
  · rename_i hendpoint
    simp [handlerGate, hendpoint] at h
  · rename_i hendpoint
    simp [handlerGate, hendpoint] at h
  · exact h

/-! ## What time changes -/

/-- The edge later on: the same ceilings, no count forgotten, and a drain that has not ended. -/
structure Later (e e' : TransportEdge) : Prop where
  payload : e'.payloadCeilingBytes = e.payloadCeilingBytes
  timeout : e'.bodyReadTimeoutMillis = e.bodyReadTimeoutMillis
  ceiling : e'.budget.ceilingBytes = e.budget.ceilingBytes
  held : e.budget.held ⊆ e'.budget.held
  drains : e.draining = true → e'.draining = true

theorem Later.refl (e : TransportEdge) : Later e e := ⟨rfl, rfl, rfl, List.Subset.refl _, id⟩

theorem handlerGate_congr {e e' : TransportEdge} (h : Later e e') (draining : Bool)
    (r : EdgeRequest) :
    { e' with draining := draining }.handlerGate r = { e with draining := draining }.handlerGate r := by
  unfold handlerGate
  rw [h.payload]

theorem Later.refusal_eq {e e' : TransportEdge} (h : Later e e') (draining : Bool)
    (r : EdgeRequest) : e'.refusal draining r = e.refusal draining r := by
  unfold refusal
  rw [handlerGate_congr h]

theorem Later.chargeOf_eq {e e' : TransportEdge} (h : Later e e') (r : EdgeRequest) :
    e'.chargeOf r = e.chargeOf r := by
  unfold chargeOf grpcDecodingCeilingBytes
  rw [h.payload]

theorem Owned.later {e e' : TransportEdge} {r : EdgeRequest} (howned : Owned e r)
    (h : Later e e') : Owned e' r := by
  intro draining hflag
  rw [handlerGate_congr h]
  exact howned draining fun hdraining => hflag (h.drains hdraining)

theorem Later.stopAnswer_eq {e e' : TransportEdge} (h : Later e e') (r : EdgeRequest)
    (stop : BodyStop) : e'.stopAnswer r stop = e.stopAnswer r stop := by
  cases stop with
  | overgrown bytes => simp only [stopAnswer, overgrown, h.payload]
  | elapsed => simp only [stopAnswer, timedOut, h.timeout]
  | broken => rfl
  | cancelled => rfl

theorem Later.pastCeiling_eq {e e' : TransportEdge} (h : Later e e') (r : EdgeRequest)
    (body bytes : List UInt8) : e'.pastCeiling r body bytes = e.pastCeiling r body bytes := by
  unfold pastCeiling
  rw [h.payload]

theorem Answered.later {printable : Char → Bool} {e e' : TransportEdge} {r : EdgeRequest}
    {answer : Option EdgeAnswer} (hanswered : Answered printable e r answer) (h : Later e e') :
    Answered printable e' r answer := by
  have hfree : e'.refusal false r = e.refusal false r := h.refusal_eq false r
  cases hanswered with
  | refused flag owned untouched =>
    exact .refused (fun hflag => h.drains (flag hflag)) ((h.refusal_eq _ r).trans owned) untouched
  | overBudget free untouched held full =>
    have hwords : e'.overBudget r = e.overBudget r := by
      unfold TransportEdge.overBudget
      rw [h.ceiling]
    rw [← hwords]
    refine .overBudget (hfree.trans free) untouched (h.held held) ?_
    rw [h.ceiling, h.chargeOf_eq]
    exact full
  | unfinished free unhanded stopped grown =>
    rw [← h.stopAnswer_eq]
    refine .unfinished (hfree.trans free) unhanded stopped fun bytes hbytes => ?_
    rw [h.pastCeiling_eq]
    exact grown bytes hbytes
  | handled free once finished paid words =>
    exact .handled (hfree.trans free) once finished (paid.trans_eq (h.chargeOf_eq r).symm) words

/-- An answer does not depend on where the request stands. -/
theorem Answered.restage {printable : Char → Bool} {e : TransportEdge} {r : EdgeRequest}
    {answer : Option EdgeAnswer} (h : Answered printable e r answer) (stage : EdgeStage) :
    Answered printable e { r with stage := stage } answer := by
  cases h with
  | refused flag owned untouched => exact .refused flag owned untouched
  | overBudget free untouched held full =>
    exact .overBudget (r := { r with stage := stage }) free untouched held full
  | unfinished free unhanded stopped grown =>
    exact .unfinished (r := { r with stage := stage }) free unhanded stopped grown
  | handled free once finished paid words => exact .handled free once finished paid words

/-! ## The invariant -/

/-- A body in memory, or the payload it has become: it is charged for, and nothing refuses it. -/
structure Buffers (e : TransportEdge) (r : EdgeRequest) (call : AcquireCall) (body : List UInt8) :
    Prop where
  holds : call = .acquired (e.chargeOf r)
  free : e.refusal false r = none
  paid : body.length ≤ e.chargeOf r
  received : r.received = body
  unhanded : r.handed = []
  unfinished : r.stopped = none

/-- What a request has in memory it is charged for; what it was answered, it was answered for a
reason. -/
def Charged (printable : Char → Bool) (e : TransportEdge) (r : EdgeRequest) (call : AcquireCall) :
    Prop :=
  match r.stage with
  | .arrived => call = .idle ∧ Untouched r
  | .acquiring =>
    (call.isOpen = true ∧ call.charge? = some (e.chargeOf r)) ∧ e.refusal false r = none ∧
      Untouched r
  | .entered =>
    ((call = .acquired (e.chargeOf r) ∧ e.refusal false r = none) ∨ (call = .idle ∧ Owned e r)) ∧
      Untouched r
  | .reading body => Buffers e r call body
  | .handling payload => Buffers e r call payload
  | .leaving answer => Answered printable e r answer
  | .left answer => call = .idle ∧ Answered printable e r answer

theorem Buffers.later {e e' : TransportEdge} {r : EdgeRequest} {call : AcquireCall}
    {body : List UInt8} (hbuffers : Buffers e r call body) (h : Later e e') :
    Buffers e' r call body := by
  have hcharge : e'.chargeOf r = e.chargeOf r := h.chargeOf_eq r
  exact ⟨hcharge ▸ hbuffers.holds, (h.refusal_eq false r).trans hbuffers.free,
    hcharge ▸ hbuffers.paid, hbuffers.received, hbuffers.unhanded, hbuffers.unfinished⟩

theorem Charged.later {printable : Char → Bool} {e e' : TransportEdge} {r : EdgeRequest}
    {call : AcquireCall} (hcharged : Charged printable e r call) (h : Later e e') :
    Charged printable e' r call := by
  have hfree : e'.refusal false r = e.refusal false r := h.refusal_eq false r
  have hcharge : e'.chargeOf r = e.chargeOf r := h.chargeOf_eq r
  unfold Charged at hcharged ⊢
  split at hcharged
  · exact hcharged
  · rw [hfree, hcharge]
    exact hcharged
  · rw [hfree, hcharge]
    exact ⟨hcharged.1.imp_right fun hpassed => ⟨hpassed.1, hpassed.2.later h⟩, hcharged.2⟩
  · exact hcharged.later h
  · exact hcharged.later h
  · exact Answered.later hcharged h
  · exact ⟨hcharged.1, hcharged.2.later h⟩

theorem Later.goes (e : TransportEdge) (i : Nat) (r : EdgeRequest) (stage : EdgeStage) :
    Later e (e.goes i r stage) := ⟨rfl, rfl, rfl, List.Subset.refl _, id⟩

theorem Later.call {e : TransportEdge} {i : Nat} {acquire : AcquireMove} {budget : InflightBodyBudget}
    (hstep : e.budget.step (i, acquire) = some budget) (r : EdgeRequest) (stage : EdgeStage) :
    Later e ({ e with budget := budget }.goes i r stage) := by
  have hmoved := InflightBodyBudget.moved_of_step hstep
  exact ⟨rfl, rfl, InflightBodyBudget.ceilingBytes_of_moved hmoved, hmoved.held_subset, id⟩

theorem charged_leaving {printable : Char → Bool} {e e' : TransportEdge} {r : EdgeRequest}
    {answer : Option EdgeAnswer} (h : Answered printable e r answer) (hlater : Later e e')
    (call : AcquireCall) : Charged printable e' { r with stage := .leaving answer } call :=
  (h.later hlater).restage _

/-- **What is in memory is paid for.** -/
theorem Charged.buffered_le {printable : Char → Bool} {e : TransportEdge} {r : EdgeRequest}
    {call : AcquireCall} (h : Charged printable e r call) : r.stage.buffered ≤ call.charged := by
  unfold Charged at h
  split at h
  all_goals
    rename_i hstage
    rw [hstage]
  · exact Nat.zero_le _
  · exact Nat.zero_le _
  · exact Nat.zero_le _
  · rw [h.holds]
    exact h.paid
  · rw [h.holds]
    exact h.paid
  · exact Nat.zero_le _
  · exact Nat.zero_le _

/-- The requests and their calls, side by side. -/
structure Guarded (printable : Char → Bool) (e : TransportEdge) : Prop where
  balanced : e.budget.Balanced
  aligned : e.budget.calls.length = e.requests.length
  charged : ∀ (i : Nat) r call, e.requests[i]? = some r → e.budget.calls[i]? = some call →
    Charged printable e r call

/-! ## Every move -/

/-- How long a request's body can be, by what the HTTP library promises of it: as long as its
length header declares, and a gRPC frame as long as the decoding ceiling. -/
def promised (e : TransportEdge) (r : EdgeRequest) : Option Nat :=
  match r.endpoint with
  | .exportGrpc _ => some e.grpcDecodingCeilingBytes
  | _ => r.headers.declaredLength

/-- No chunk carries a body past what is promised of it. -/
def delivers (e : TransportEdge) : EdgeEvent → Bool
  | .request i (.chunk bytes) =>
    match e.requests[i]? with
    | none => true
    | some r =>
      match e.promised r with
      | none => true
      | some limit => r.stage.buffered + bytes.length ≤ limit
  | _ => true

theorem le_promised {e : TransportEdge} {i limit : Nat} {r : EdgeRequest} {bytes : List UInt8}
    (hr : e.requests[i]? = some r) (hdelivers : e.delivers (.request i (.chunk bytes)) = true)
    (hlimit : e.promised r = some limit) : r.stage.buffered + bytes.length ≤ limit := by
  unfold delivers at hdelivers
  simp only [hr, hlimit] at hdelivers
  exact of_decide_eq_true hdelivers

/-- What one request's move does to the edge: another budget, and another stage of its own. -/
structure Framed (e e' : TransportEdge) (i : Nat) (r' : EdgeRequest) : Prop where
  later : Later e e'
  kept : InflightBodyBudget.Kept e.budget e'.budget i
  requests : e'.requests = e.requests.set i r'

/-- Only the request that moves has to be looked at. -/
theorem Guarded.framed {printable : Char → Bool} {e e' : TransportEdge} (h : Guarded printable e)
    {i : Nat} {r' : EdgeRequest} (hframed : Framed e e' i r')
    (hself : ∀ call, e'.budget.calls[i]? = some call → Charged printable e' r' call) :
    Guarded printable e' where
  balanced := hframed.kept.balanced
  aligned := by
    rw [hframed.kept.length, hframed.requests, List.length_set]
    exact h.aligned
  charged j r call hr hcall := by
    rw [hframed.requests] at hr
    rcases getElem?_set_cases hr with ⟨rfl, rfl⟩ | ⟨hne, hr⟩
    · exact hself call hcall
    · rw [hframed.kept.others j hne] at hcall
      exact (h.charged j r call hr hcall).later hframed.later

theorem Guarded.framed_goes {printable : Char → Bool} {e : TransportEdge} (h : Guarded printable e)
    (i : Nat) (r : EdgeRequest) (stage : EdgeStage) :
    Framed e (e.goes i r stage) i { r with stage := stage } :=
  ⟨Later.goes e i r stage, h.balanced.kept i, rfl⟩

theorem Guarded.framed_call {printable : Char → Bool} {e : TransportEdge} (h : Guarded printable e)
    {i : Nat} {move : AcquireMove} {budget : InflightBodyBudget}
    (hstep : e.budget.step (i, move) = some budget) (r : EdgeRequest) (stage : EdgeStage) :
    Framed e ({ e with budget := budget }.goes i r stage) i { r with stage := stage } :=
  ⟨Later.call hstep r stage, h.balanced.kept_of_step hstep, rfl⟩

/-- A chunk the bounded read takes, as delivered, keeps the body within its charge. -/
theorem paid_of_grows {e : TransportEdge} {i : Nat} {r : EdgeRequest} {body bytes : List UInt8}
    (hr : e.requests[i]? = some r) (hstage : r.stage = .reading body)
    (hdelivers : e.delivers (.request i (.chunk bytes)) = true)
    (hwithin : e.pastCeiling r body bytes = false) (hpaid : body.length ≤ e.chargeOf r) :
    (body ++ bytes).length ≤ e.chargeOf r := by
  have hpromised : ∀ limit, e.promised r = some limit → body.length + bytes.length ≤ limit := by
    intro limit hlimit
    have hle := le_promised hr hdelivers hlimit
    rwa [hstage] at hle
  rw [List.length_append]
  by_cases hgrpc : ∃ family, r.endpoint = .exportGrpc family
  · obtain ⟨family, hendpoint⟩ := hgrpc
    rw [chargeOf, hendpoint]
    exact hpromised _ (by rw [promised, hendpoint])
  · have hcharge : e.chargeOf r = r.headers.declaredLengthBounded e.payloadCeilingBytes := by
      unfold chargeOf
      split
      · rename_i family hendpoint
        exact absurd ⟨family, hendpoint⟩ hgrpc
      · rfl
    have hroom : bytes.length ≤ e.payloadCeilingBytes - body.length := by
      unfold pastCeiling at hwithin
      split at hwithin
      · rename_i family hendpoint
        exact absurd ⟨family, hendpoint⟩ hgrpc
      · exact not_lt.mp (of_decide_eq_false hwithin)
    have hdeclared : e.promised r = r.headers.declaredLength := by
      unfold promised
      split
      · rename_i family hendpoint
        exact absurd ⟨family, hendpoint⟩ hgrpc
      · rfl
    rw [hcharge] at hpaid ⊢
    have hceiling := hpaid.trans (r.headers.declaredLengthBounded_le e.payloadCeilingBytes)
    refine HeaderMap.le_declaredLengthBounded (by omega) fun declared hlength => ?_
    exact hpromised declared (hdeclared.trans hlength)

/-- A call that the request has at the budget. -/
theorem Guarded.exists_call {printable : Char → Bool} {e : TransportEdge} (h : Guarded printable e)
    {i : Nat} {r : EdgeRequest} (hr : e.requests[i]? = some r) :
    ∃ call, e.budget.calls[i]? = some call ∧ Charged printable e r call := by
  have hi : i < e.budget.calls.length := by
    rw [h.aligned]
    exact (List.getElem?_eq_some_iff.mp hr).1
  exact ⟨_, List.getElem?_eq_getElem hi, h.charged i r _ hr (List.getElem?_eq_getElem hi)⟩

/-! One lemma for each thing a move can do. -/

section Moves

variable {printable : Char → Bool} {e : TransportEdge} {i : Nat} {r : EdgeRequest}
  {call : AcquireCall} {budget : InflightBodyBudget} {acquire : AcquireMove} {body : List UInt8}

/-- The first gates answer a request they refuse as the contract has it. -/
theorem Charged.gated {answer : EdgeAnswer} (h : Charged printable e r call)
    (stage : r.stage = .arrived) (gate : e.gate r = .answer answer) :
    Answered printable e r (some answer) := by
  unfold Charged at h
  rw [stage] at h
  have hsays := gateSays e r
  rw [gate] at hsays
  exact .refused id hsays h.2

/-- What they pass on uncharged, the handler refuses. -/
theorem Charged.passes (h : Charged printable e r call) (stage : r.stage = .arrived)
    (gate : e.gate r = .enter) : Charged printable e { r with stage := .entered } call := by
  unfold Charged at h
  rw [stage] at h
  have hsays := gateSays e r
  rw [gate] at hsays
  exact ⟨Or.inr ⟨h.1, hsays⟩, h.2⟩

theorem Charged.charges {bytes : Nat} (h : Charged printable e r call) (stage : r.stage = .arrived)
    (gate : e.gate r = .charge bytes) :
    Charged printable e { r with stage := .acquiring } (.started bytes) := by
  unfold Charged at h
  rw [stage] at h
  have hsays := gateSays e r
  rw [gate] at hsays
  exact ⟨⟨rfl, congrArg some hsays.2⟩, hsays.1, h.2⟩

/-- A call of the budget is about the request's charge until it is answered. -/
theorem Charged.asks (h : Charged printable e r call) (stage : r.stage = .acquiring)
    (hcall : e.budget.calls[i]? = some call) (hstep : e.budget.step (i, acquire) = some budget)
    {after : AcquireCall} (hafter : budget.calls[i]? = some after) :
    after.charge? = some (e.chargeOf r) ∧ e.refusal false r = none ∧ Untouched r := by
  unfold Charged at h
  rw [stage] at h
  obtain ⟨⟨hopen, hcharge⟩, hfree, huntouched⟩ := h
  obtain ⟨other, hother, hkept⟩ := InflightBodyBudget.charge?_of_step hcall hopen hstep
  obtain rfl := Option.some.inj (hafter.symm.trans hother)
  exact ⟨hkept.trans hcharge, hfree, huntouched⟩

theorem Charged.waits (h : Charged printable e r call) (stage : r.stage = .acquiring)
    (hcall : e.budget.calls[i]? = some call) (hstep : e.budget.step (i, acquire) = some budget)
    (unanswered : (∀ charge, budget.calls[i]? ≠ some (.acquired charge)) ∧
      ∀ charge current, budget.calls[i]? ≠ some (.refused charge current))
    {after : AcquireCall} (hafter : budget.calls[i]? = some after) :
    Charged printable e { r with stage := .acquiring } after := by
  obtain ⟨hcharge, hfree, huntouched⟩ := h.asks stage hcall hstep hafter
  refine ⟨⟨?_, hcharge⟩, hfree, huntouched⟩
  cases after with
  | idle => cases hcharge
  | started charge => rfl
  | observed charge current => rfl
  | refused charge current => exact absurd hafter (unanswered.2 charge current)
  | acquired charge => exact absurd hafter (unanswered.1 charge)

theorem Charged.acquires {charge : Nat} (h : Charged printable e r call)
    (stage : r.stage = .acquiring) (hcall : e.budget.calls[i]? = some call)
    (hstep : e.budget.step (i, acquire) = some budget)
    (holds : budget.calls[i]? = some (.acquired charge)) :
    Charged printable e { r with stage := .entered } (.acquired charge) := by
  obtain ⟨hcharge, hfree, huntouched⟩ := h.asks stage hcall hstep holds
  exact ⟨Or.inl ⟨congrArg AcquireCall.acquired (Option.some.inj hcharge), hfree⟩, huntouched⟩

/-- A refusal of the budget is for a count it has held, on which the charge does not fit. -/
theorem Charged.overBudget {charge current : Nat} (h : Charged printable e r call)
    (stage : r.stage = .acquiring) (hcall : e.budget.calls[i]? = some call)
    (hstep : e.budget.step (i, acquire) = some budget)
    (holds : budget.calls[i]? = some (.refused charge current))
    (hkept : InflightBodyBudget.Kept e.budget budget i) :
    Answered printable { e with budget := budget } r (some (e.overBudget r)) := by
  obtain ⟨hcharge, hfree, huntouched⟩ := h.asks stage hcall hstep holds
  obtain rfl := Option.some.inj hcharge
  obtain ⟨hheld, hfull⟩ := hkept.balanced.honest i _ current holds
  have hwords : { e with budget := budget }.overBudget r = e.overBudget r := by
    unfold TransportEdge.overBudget
    rw [show ({ e with budget := budget } : TransportEdge).budget = budget from rfl, hkept.ceiling]
  rw [← hwords]
  exact .overBudget hfree huntouched hheld (InflightBodyBudget.lt_of_not_fits hfull)

theorem Charged.handlerRefuses {answer : EdgeAnswer} (h : Charged printable e r call)
    (stage : r.stage = .entered) (gate : e.handlerGate r = some answer) :
    Answered printable e r (some answer) := by
  unfold Charged at h
  rw [stage] at h
  exact .refused id (refusal_of_handlerGate gate) h.2

theorem Charged.reads (h : Charged printable e r call) (stage : r.stage = .entered)
    (gate : e.handlerGate r = none) :
    Charged printable e { r with stage := .reading [] } call := by
  unfold Charged at h
  rw [stage] at h
  obtain ⟨hentered, hreceived, hunhanded, hunfinished⟩ := h
  rcases hentered with ⟨hholds, hfree⟩ | ⟨-, howned⟩
  · exact ⟨hholds, hfree, Nat.zero_le _, hreceived, hunhanded, hunfinished⟩
  · -- a request that passed uncharged is refused here
    obtain ⟨answer, hanswer⟩ := howned e.draining id
    rw [gate] at hanswer
    cases hanswer

/-- A body that is read, or has been, is buffered. -/
theorem Charged.buffers (h : Charged printable e r call)
    (stage : r.stage = .reading body ∨ r.stage = .handling body) : Buffers e r call body := by
  unfold Charged at h
  rcases stage with stage | stage
  · rw [stage] at h
    exact h
  · rw [stage] at h
    exact h

theorem Buffers.grows {bytes : List UInt8} (h : Buffers e r call body)
    (hr : e.requests[i]? = some r) (stage : r.stage = .reading body)
    (hdelivers : e.delivers (.request i (.chunk bytes)) = true)
    (within : e.pastCeiling r body bytes = false) :
    Charged printable e
      { r with received := body ++ bytes, stage := .reading (body ++ bytes) } call := by
  have hpaid := paid_of_grows hr stage hdelivers within h.paid
  exact ⟨h.holds, h.free, hpaid, rfl, h.unhanded, h.unfinished⟩

theorem Buffers.ends (h : Buffers e r call body) :
    Charged printable e { r with stage := .handling body } call :=
  ⟨h.holds, h.free, h.paid, h.received, h.unhanded, h.unfinished⟩

theorem Buffers.stops {stop : BodyStop} (h : Buffers e r call body)
    (grown : ∀ bytes, stop = .overgrown bytes → e.pastCeiling r body bytes = true) :
    Answered printable e { r with stopped := some stop } (e.stopAnswer r stop) :=
  .unfinished (r := { r with stopped := some stop }) h.free h.unhanded rfl
    fun bytes hbytes => h.received.symm ▸ grown bytes hbytes

theorem Buffers.handles {result : Handled} {answer : EdgeAnswer} (h : Buffers e r call body)
    (words : handlerAnswer printable r result = some answer) :
    Answered printable e { r with handed := r.handed ++ [(body, result)] } (some answer) := by
  refine .handled h.free ?_ h.unfinished (h.received ▸ h.paid) words
  rw [h.unhanded, h.received]
  rfl

theorem Charged.answered {answer : Option EdgeAnswer} (h : Charged printable e r call)
    (stage : r.stage = .leaving answer) : Answered printable e r answer := by
  unfold Charged at h
  rw [stage] at h
  exact h

end Moves

/-- **One request's move** keeps every request within its charge. -/
theorem Guarded.moved {printable : Char → Bool} {e e' : TransportEdge} {i : Nat} {r : EdgeRequest}
    {move : EdgeMove} (h : Guarded printable e) (hr : e.requests[i]? = some r)
    (hmoved : Moved printable e i r move e') (hdelivers : e.delivers (.request i move) = true) :
    Guarded printable e' := by
  obtain ⟨call, hcall, hcharged⟩ := h.exists_call hr
  have hsame : ∀ {other}, e.budget.calls[i]? = some other → other = call := fun hother =>
    Option.some.inj (hother.symm.trans hcall)
  cases hmoved with
  | @gated answer stage gate =>
    have hframed := h.framed_goes i r (.leaving (some answer))
    exact h.framed hframed fun other _ =>
      charged_leaving (hcharged.gated stage gate) hframed.later other
  | passes stage gate =>
    exact h.framed (h.framed_goes i r _) fun other hother =>
      hsame hother ▸ (hcharged.passes stage gate).later (Later.goes e i r _)
  | charges stage gate hstep =>
    have hframed := h.framed_call hstep r .acquiring
    refine h.framed hframed fun other hother => ?_
    obtain rfl := Option.some.inj ((InflightBodyBudget.calls_of_call hstep).symm.trans hother)
    exact (hcharged.charges stage gate).later hframed.later
  | waits stage hstep unanswered =>
    have hframed := h.framed_call hstep r .acquiring
    exact h.framed hframed fun other hother =>
      (hcharged.waits stage hcall hstep unanswered hother).later hframed.later
  | acquires stage hstep holds =>
    have hframed := h.framed_call hstep r .entered
    refine h.framed hframed fun other hother => ?_
    obtain rfl := Option.some.inj (holds.symm.trans hother)
    exact (hcharged.acquires stage hcall hstep holds).later hframed.later
  | refused stage hstep holds =>
    have hkept := h.balanced.kept_of_step hstep
    exact h.framed (h.framed_call hstep r _) fun other _ =>
      charged_leaving (hcharged.overBudget stage hcall hstep holds hkept) (Later.goes _ i r _) other
  | @handlerRefuses answer stage gate =>
    have hframed := h.framed_goes i r (.leaving (some answer))
    exact h.framed hframed fun other _ =>
      charged_leaving (hcharged.handlerRefuses stage gate) hframed.later other
  | reads stage gate =>
    exact h.framed (h.framed_goes i r _) fun other hother =>
      hsame hother ▸ (hcharged.reads stage gate).later (Later.goes e i r _)
  | @grows body bytes chunk stage within =>
    subst chunk
    exact h.framed (h.framed_goes i { r with received := body ++ bytes } _) fun other hother =>
      hsame hother ▸ ((hcharged.buffers (Or.inl stage)).grows hr stage hdelivers within).later
        (Later.goes e i _ _)
  | @stops stop body stage grown =>
    have hframed := h.framed_goes i { r with stopped := some stop } (.leaving (e.stopAnswer r stop))
    exact h.framed hframed fun other _ =>
      charged_leaving ((hcharged.buffers stage).stops grown) hframed.later other
  | @ends body stage =>
    exact h.framed (h.framed_goes i r (.handling body)) fun other hother =>
      hsame hother ▸ (hcharged.buffers (Or.inl stage)).ends.later (Later.goes e i r _)
  | @handles payload result answer stage words =>
    have hframed := h.framed_goes i { r with handed := r.handed ++ [(payload, result)] }
      (.leaving (some answer))
    exact h.framed hframed fun other _ =>
      charged_leaving ((hcharged.buffers (Or.inr stage)).handles words) hframed.later other
  | @leaves answer stage idle =>
    have hframed := h.framed_goes i r (.left answer)
    exact h.framed hframed fun other hother =>
      ⟨Option.some.inj (hother.symm.trans idle),
        ((hcharged.answered stage).later hframed.later).restage _⟩
  | @releases answer budget stage hstep =>
    have hframed := h.framed_call hstep r (.left answer)
    exact h.framed hframed fun other hother =>
      ⟨Option.some.inj (hother.symm.trans (InflightBodyBudget.calls_of_finish hstep)),
        ((hcharged.answered stage).later hframed.later).restage _⟩

/-- **Every event** keeps every request within its charge. -/
theorem Guarded.step {printable : Char → Bool} {e e' : TransportEdge} {event : EdgeEvent}
    (h : Guarded printable e) (hdelivers : e.delivers event = true)
    (hstep : e.step printable event = some e') : Guarded printable e' := by
  cases event with
  | arrive method path headers =>
    obtain rfl := Option.some.inj hstep
    refine ⟨h.balanced.join, ?_, fun i r call hr hcall => ?_⟩
    · simp only [InflightBodyBudget.join, List.length_append, List.length_singleton, h.aligned]
    · rcases getElem?_concat_cases hr with ⟨rfl, rfl⟩ | hr
      · rcases getElem?_concat_cases hcall with ⟨-, rfl⟩ | hcall
        · exact ⟨rfl, rfl, rfl, rfl⟩
        · have hshort := (List.getElem?_eq_some_iff.mp hcall).1
          rw [h.aligned] at hshort
          exact absurd hshort (lt_irrefl _)
      · rcases getElem?_concat_cases hcall with ⟨rfl, rfl⟩ | hcall
        · have hshort := (List.getElem?_eq_some_iff.mp hr).1
          rw [h.aligned] at hshort
          exact absurd hshort (lt_irrefl _)
        · exact (h.charged i r call hr hcall).later ⟨rfl, rfl, rfl, List.Subset.refl _, id⟩
  | beginDraining =>
    obtain rfl := Option.some.inj hstep
    exact ⟨h.balanced, h.aligned, fun i r call hr hcall =>
      (h.charged i r call hr hcall).later ⟨rfl, rfl, rfl, List.Subset.refl _, fun _ => rfl⟩⟩
  | request i move =>
    unfold TransportEdge.step at hstep
    cases hr : e.requests[i]? with
    | none => simp [hr] at hstep
    | some r =>
      simp only [hr] at hstep
      exact h.moved hr (moved_of_requestStep hstep) hdelivers

theorem guarded_new (printable : Char → Bool)
    (payloadCeilingBytes inflightCeilingBytes bodyReadTimeoutMillis : Nat) :
    Guarded printable (new payloadCeilingBytes inflightCeilingBytes bodyReadTimeoutMillis) where
  balanced := InflightBodyBudget.balanced_new inflightCeilingBytes 0
  aligned := rfl
  charged i r call hr := by
    rw [new, List.getElem?_nil] at hr
    cases hr

/-! ## The laws -/

/-- The runs of an edge whose HTTP library keeps its promise. -/
def Runs (printable : Char → Bool) (e e' : TransportEdge) : Prop :=
  Reaches (fun s event t => step printable s event = some t) (fun s event => s.delivers event = true)
    e e'

theorem later_of_moved {printable : Char → Bool} {e e' : TransportEdge} {i : Nat} {r : EdgeRequest}
    {move : EdgeMove} (h : Moved printable e i r move e') : Later e e' := by
  cases h with
  | charges stage gate hstep => exact .call hstep r _
  | waits stage hstep => exact .call hstep r _
  | acquires stage hstep => exact .call hstep r _
  | refused stage hstep => exact .call hstep r _
  | releases stage hstep => exact .call hstep r _
  | _ => exact .goes e i _ _

theorem later_of_step {printable : Char → Bool} {e e' : TransportEdge} {event : EdgeEvent}
    (h : e.step printable event = some e') : Later e e' := by
  cases event with
  | arrive method path headers =>
    obtain rfl := Option.some.inj h
    exact ⟨rfl, rfl, rfl, List.Subset.refl _, id⟩
  | beginDraining =>
    obtain rfl := Option.some.inj h
    exact ⟨rfl, rfl, rfl, List.Subset.refl _, fun _ => rfl⟩
  | request i move =>
    unfold TransportEdge.step at h
    cases hr : e.requests[i]? with
    | none => simp [hr] at h
    | some r =>
      simp only [hr] at h
      exact later_of_moved (moved_of_requestStep h)

theorem Later.trans {e e' e'' : TransportEdge} (h : Later e e') (h' : Later e' e'') :
    Later e e'' :=
  ⟨h'.payload.trans h.payload, h'.timeout.trans h.timeout, h'.ceiling.trans h.ceiling,
    List.Subset.trans h.held h'.held, fun hdraining => h'.drains (h.drains hdraining)⟩

theorem guarded_of_runs {printable : Char → Bool}
    {payloadCeilingBytes inflightCeilingBytes bodyReadTimeoutMillis : Nat} {e : TransportEdge}
    (hruns : Runs printable
      (new payloadCeilingBytes inflightCeilingBytes bodyReadTimeoutMillis) e) :
    Guarded printable e ∧
      Later (new payloadCeilingBytes inflightCeilingBytes bodyReadTimeoutMillis) e :=
  hruns.invariant
    (I := fun s => Guarded printable s ∧
      Later (new payloadCeilingBytes inflightCeilingBytes bodyReadTimeoutMillis) s)
    ⟨guarded_new _ _ _ _, Later.refl _⟩ fun _ _ _ h hdelivers hstep =>
      ⟨h.1.step hdelivers hstep, h.2.trans (later_of_step hstep)⟩

/-- **Bounded memory at the edge.**  For any number of requests over both transports, in any
interleaving of their moves, with drains that begin, clients that go and bodies that stall: the
bytes of all bodies in memory are within what is charged, that is within the one in-flight ceiling,
and where every request has left nothing is charged. -/
theorem buffered_bounded (printable : Char → Bool)
    {payloadCeilingBytes inflightCeilingBytes bodyReadTimeoutMillis : Nat} {e : TransportEdge}
    (hruns : Runs printable
      (new payloadCeilingBytes inflightCeilingBytes bodyReadTimeoutMillis) e) :
    e.buffered ≤ e.budget.inFlight ∧ e.budget.inFlight ≤ inflightCeilingBytes ∧
      ((∀ r ∈ e.requests, r.stage.hasLeft = true) → e.budget.inFlight = 0) := by
  obtain ⟨hguarded, hlater⟩ := guarded_of_runs hruns
  have hbalance := hguarded.balanced.balance
  refine ⟨?_, ?_, fun hleft => ?_⟩
  · rw [hbalance]
    exact sum_map_le_sum_map hguarded.aligned.symm fun i r call hr hcall =>
      (hguarded.charged i r call hr hcall).buffered_le
  · exact hguarded.balanced.within.trans_eq hlater.ceiling
  · rw [hbalance, InflightBodyBudget.charged]
    refine List.sum_eq_zero fun charge hcharge => ?_
    obtain ⟨call, hmem, rfl⟩ := List.mem_map.mp hcharge
    obtain ⟨i, hi, hget⟩ := List.getElem_of_mem hmem
    have hcall : e.budget.calls[i]? = some call := List.getElem?_eq_some_iff.mpr ⟨hi, hget⟩
    rw [hguarded.aligned] at hi
    obtain ⟨answer, hstage⟩ := EdgeStage.eq_left_of_hasLeft (hleft _ (List.getElem_mem hi))
    have hcharged := hguarded.charged i _ call (List.getElem?_eq_getElem hi) hcall
    unfold Charged at hcharged
    rw [hstage] at hcharged
    rw [hcharged.1]
    rfl

/-- An export that is charged for its six bytes and has read four; one of no declared length, that
finds no room beside it; and one that declares more than the ceiling. -/
def rush : List EdgeEvent :=
  [.arrive "POST" "/v1/traces" ⟨none, some [54]⟩, .arrive "POST" "/v1/logs" ⟨none, none⟩,
    .arrive "POST" "/v1/metrics" ⟨none, some [49, 49]⟩, .request 0 .guard,
    .request 0 (.acquire (.load 0)), .request 0 (.acquire .exchange), .request 1 .guard,
    .request 1 (.acquire (.load 6)), .request 0 .enter, .request 2 .guard,
    .request 0 (.chunk [1, 2, 3, 4]), .request 2 .enter, .request 2 .leave, .request 1 .leave]

/-- Whether the rush can be taken, under a payload ceiling of ten bytes and a budget of twelve. -/
def rushed : Option TransportEdge :=
  runLabels (step asciiPrintable) delivers (new 10 12 10000) rush

theorem buffered_bounded_rush : ∃ e, rushed = some e ∧ e.buffered = 4 ∧
    e.buffered ≤ e.budget.inFlight ∧ e.budget.inFlight ≤ 12 ∧
      ((∀ r ∈ e.requests, r.stage.hasLeft = true) → e.budget.inFlight = 0) := by
  have hbuffered : rushed.map buffered = some 4 := by decide +kernel
  obtain ⟨e, hrushed, hfour⟩ := Option.map_eq_some_iff.mp hbuffered
  exact ⟨e, hrushed, hfour, buffered_bounded asciiPrintable (reaches_of_runLabels hrushed)⟩

/-- **Answers at the edge.**  Where a request has left, its answer has its reason; and what the
contract refuses before reading is answered as the contract has it, or as it has it while draining,
with nothing read and nothing handed over, however full the budget was. -/
theorem answered_of_left (printable : Char → Bool)
    {payloadCeilingBytes inflightCeilingBytes bodyReadTimeoutMillis : Nat} {e : TransportEdge}
    (hruns : Runs printable
      (new payloadCeilingBytes inflightCeilingBytes bodyReadTimeoutMillis) e)
    {r : EdgeRequest} {answer : Option EdgeAnswer} (hr : r ∈ e.requests)
    (hleft : r.stage = .left answer) :
    Answered printable e r answer ∧
      ∀ owned, e.refusal false r = some owned →
        (answer = some owned ∨ (e.draining = true ∧ answer = e.refusal true r)) ∧ Untouched r := by
  obtain ⟨hguarded, -⟩ := guarded_of_runs hruns
  obtain ⟨i, hi, rfl⟩ := List.getElem_of_mem hr
  obtain ⟨call, hcall, hcharged⟩ := hguarded.exists_call (List.getElem?_eq_getElem hi)
  unfold Charged at hcharged
  rw [hleft] at hcharged
  obtain ⟨-, hanswered⟩ := hcharged
  refine ⟨hanswered, fun owned howned => ?_⟩
  have hbusy : e.refusal false e.requests[i] ≠ none := by
    rw [howned]
    exact Option.some_ne_none owned
  cases hanswered with
  | @refused draining answer flag hrefusal untouched =>
    refine ⟨?_, untouched⟩
    cases draining with
    | false => exact Or.inl (hrefusal.symm.trans howned)
    | true => exact Or.inr ⟨flag rfl, hrefusal.symm⟩
  | overBudget free => exact absurd free hbusy
  | unfinished free => exact absurd free hbusy
  | handled free => exact absurd free hbusy

theorem answered_of_left_rush : ∃ e r answer, rushed = some e ∧ e.requests[2]? = some r ∧
    e.refusal false r = some (.http (payloadOverCapResponse none 10)) ∧
      Answered asciiPrintable e r answer ∧
        ∀ owned, e.refusal false r = some owned →
          (answer = some owned ∨ (e.draining = true ∧ answer = e.refusal true r)) ∧
            Untouched r := by
  have hread : (rushed.map fun e => (e.payloadCeilingBytes, e.requests[2]?.map fun r =>
      (r.endpoint, r.headers, r.stage.hasLeft))) =
        some (10, some (.exportHttp .metrics, ⟨none, some [49, 49]⟩, true)) := by
    decide +kernel
  obtain ⟨e, hrushed, he⟩ := Option.map_eq_some_iff.mp hread
  obtain ⟨hceiling, hrequest⟩ := Prod.mk.inj he
  obtain ⟨r, hr, hr'⟩ := Option.map_eq_some_iff.mp hrequest
  obtain ⟨hendpoint, hrest⟩ := Prod.mk.inj hr'
  obtain ⟨hheaders, hhasLeft⟩ := Prod.mk.inj hrest
  obtain ⟨answer, hleft⟩ := EdgeStage.eq_left_of_hasLeft hhasLeft
  have hover : (HeaderMap.mk none (some [49, 49])).declaredOverCeiling 10 = true := by decide +kernel
  have htype : (HeaderMap.mk none (some [49, 49])).contentTypeGate = none := rfl
  refine ⟨e, r, answer, hrushed, hr, ?_,
    answered_of_left asciiPrintable (reaches_of_runLabels hrushed) (List.mem_of_getElem? hr) hleft⟩
  simp [refusal, handlerGate, hendpoint, hheaders, hceiling, htype, hover]

end TransportEdge

end RuntimeTrail
