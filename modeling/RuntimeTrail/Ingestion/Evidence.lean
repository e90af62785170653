import RuntimeTrail.Ingestion.Handoff
import RuntimeTrail.Ingestion.Recover

/-!
# The emitter's evidence survives decoding

Records, message by message: the normal form of each wire message, the message a
model record is written back as, and the law that ties them.  Each message recovers
from the laws of its fields, so a field that was dropped or conflated would leave its
message without a proof.

* **nested messages** — events, links, exemplars, resources and scopes;
* **records** — `decodeSpan_recovers`, `decodeLogRecord_recovers`,
  `decodePoint_recovers`, each with what surrounds it;
* **all of them** — `decode_recovers`: an accepted record is written back from its
  model record in normal form, and two accepted records decode alike exactly when
  their normal forms agree.
-/

namespace RuntimeTrail

open Library

namespace Otlp

/-! ## What surrounds a record -/

def Resource.normal (resource : Resource) : Resource :=
  { resource with attributes := byKey resource.attributes }

def InstrumentationScope.normal (scope : InstrumentationScope) : InstrumentationScope :=
  { scope with attributes := byKey scope.attributes }

/-- A message in normal form under its envelope: an absent resource or scope is the default one. -/
def Carried.normal {R : Type} (record : R → R) (c : Carried R) : Carried R where
  resource := some (c.resource.getD .default).normal
  resourceSchemaUrl := c.resourceSchemaUrl
  scope := some (c.scope.getD .default).normal
  scopeSchemaUrl := c.scopeSchemaUrl
  record := record c.record

def ofResource (resource : RuntimeTrail.Resource) : Resource where
  attributes := ofAttributes resource.attributes
  droppedAttributesCount := resource.droppedAttributesCount
  entityRefs := []

def ofScope (scope : RuntimeTrail.InstrumentationScope) : InstrumentationScope where
  name := scope.name
  version := scope.version.getD ""
  attributes := ofAttributes scope.attributes
  droppedAttributesCount := scope.droppedAttributesCount

/-- A message under the envelope a model record carries. -/
def Carried.under {R : Type} (resource : RuntimeTrail.Resource)
    (scope : RuntimeTrail.InstrumentationScope) (record : R) : Carried R where
  resource := some (ofResource resource)
  resourceSchemaUrl := resource.schemaUrl.getD ""
  scope := some (ofScope scope)
  scopeSchemaUrl := scope.schemaUrl.getD ""
  record := record

/-- A resource and its schema url, read as one message. -/
theorem resource_recovers (limits : BudgetLimits) :
    Recovers (fun message : Resource × String => Decode.resource message.1 message.2 limits)
      (fun message => (message.1.normal, message.2))
      (fun resource => (ofResource resource, resource.schemaUrl.getD "")) := by
  have hread : ∀ {message : Resource × String} {made},
      Decode.resource message.1 message.2 limits = .ok made → message.1.entityRefs = [] ∧
        ∃ attributes, Decode.attributes message.1.attributes "resource attribute" limits =
          .ok attributes ∧ made = ⟨attributes, Decode.presentString message.2,
            message.1.droppedAttributesCount⟩ := by
    rintro ⟨message, schemaUrl⟩ made h
    unfold Decode.resource at h
    by_cases hrefs : message.entityRefs = []
    · rw [if_neg (by simp [hrefs])] at h
      obtain ⟨attributes, hattributes, hmade⟩ := bind_eq_ok_iff.mp h
      exact ⟨hrefs, attributes, hattributes, (Except.ok.inj hmade).symm⟩
    · rw [if_pos (by simpa using hrefs)] at h
      exact absurd h (by simp [Decode.unrepresentable])
  constructor
  · rintro ⟨message, schemaUrl⟩ made h
    obtain ⟨hrefs, attributes, hattributes, rfl⟩ := hread h
    replace hrefs : message.entityRefs = [] := hrefs
    simp only [ofResource, Resource.normal, getD_presentString, ← hrefs,
      (attributes_recovers _ limits).recover_eq hattributes]
  · rintro ⟨message, schemaUrl⟩ made h
    obtain ⟨hrefs, attributes, hattributes, rfl⟩ := hread h
    replace hrefs : message.entityRefs = [] := hrefs
    have hnormal := (attributes_recovers _ limits).decode_normal hattributes
    unfold Decode.resource
    rw [if_neg (by simp [Resource.normal, hrefs])]
    exact bind_eq_ok_iff.mpr ⟨attributes, hnormal, rfl⟩

/-- A scope and its schema url, read as one message. -/
theorem scope_recovers (limits : BudgetLimits) :
    Recovers
      (fun message : InstrumentationScope × String => Decode.scope message.1 message.2 limits)
      (fun message => (message.1.normal, message.2))
      (fun scope => (ofScope scope, scope.schemaUrl.getD "")) := by
  constructor
  · rintro ⟨message, schemaUrl⟩ made h
    obtain ⟨attributes, hattributes, hmade⟩ := bind_eq_ok_iff.mp h
    obtain rfl := Except.ok.inj hmade
    simp only [ofScope, InstrumentationScope.normal, getD_presentString,
      (attributes_recovers _ limits).recover_eq hattributes]
  · rintro ⟨message, schemaUrl⟩ made h
    obtain ⟨attributes, hattributes, hmade⟩ := bind_eq_ok_iff.mp h
    exact bind_eq_ok_iff.mpr
      ⟨attributes, (attributes_recovers _ limits).decode_normal hattributes, hmade⟩

section Envelope

variable {R : Type} {c : Carried R} {limits : BudgetLimits} (record : R → R)

theorem Carried.decodeResource_normal {resource : RuntimeTrail.Resource}
    (h : c.decodeResource limits = .ok resource) :
    (c.normal record).decodeResource limits = .ok resource :=
  (resource_recovers limits).decode_normal (a := (c.resource.getD .default, c.resourceSchemaUrl)) h

theorem Carried.decodeScope_normal {scope : RuntimeTrail.InstrumentationScope}
    (h : c.decodeScope limits = .ok scope) :
    (c.normal record).decodeScope limits = .ok scope :=
  (scope_recovers limits).decode_normal (a := (c.scope.getD .default, c.scopeSchemaUrl)) h

/-- What surrounds an accepted record is written back in normal form. -/
theorem Carried.under_eq_normal {resource : RuntimeTrail.Resource}
    {scope : RuntimeTrail.InstrumentationScope} {proto : R}
    (hresource : c.decodeResource limits = .ok resource) (hscope : c.decodeScope limits = .ok scope)
    (hrecord : proto = record c.record) : Carried.under resource scope proto = c.normal record := by
  have hr := (resource_recovers limits).recover_eq
    (a := (c.resource.getD .default, c.resourceSchemaUrl)) hresource
  have hs := (scope_recovers limits).recover_eq
    (a := (c.scope.getD .default, c.scopeSchemaUrl)) hscope
  simp only [Prod.mk.injEq] at hr hs
  rw [Carried.under, Carried.normal, hr.1, hr.2, hs.1, hs.2, hrecord]

end Envelope

/-! ## Spans -/

def Event.normal (event : Event) : Event := { event with attributes := byKey event.attributes }

def Link.normal (link : Link) : Link :=
  { link with
    traceId := zeroed 16 link.traceId
    spanId := zeroed 8 link.spanId
    traceState := trimTraceState link.traceState
    attributes := byKey link.attributes }

def Span.normal (span : Span) : Span :=
  { span with
    traceId := zeroed 16 span.traceId
    spanId := zeroed 8 span.spanId
    traceState := trimTraceState span.traceState
    attributes := byKey span.attributes
    events := span.events.map Event.normal
    links := span.links.map Link.normal
    status := some (span.status.getD .default) }

def ofSpanEvent (event : SpanEvent) : Event where
  timeUnixNano := event.timeUnixNano.getD 0
  name := event.name
  attributes := ofAttributes event.attributes
  droppedAttributesCount := event.droppedAttributeCount

def ofSpanLink (link : SpanLink) : Link where
  traceId := link.context.traceId.bytes
  spanId := link.context.spanId.bytes
  traceState := ofTraceState link.context.tracestate
  attributes := ofAttributes link.attributes
  droppedAttributesCount := link.droppedAttributeCount
  flags := link.context.flags.bits

def ofSpan (span : RuntimeTrail.Span) : Carried Span :=
  Carried.under span.resource span.scope
    { traceId := span.context.traceId.bytes
      spanId := span.context.spanId.bytes
      traceState := ofTraceState span.context.tracestate
      parentSpanId := ofPresent SpanId.bytes span.parentSpanId
      flags := span.context.flags.bits
      name := span.name
      kind := ofSpanKind span.kind
      startTimeUnixNano := span.startTimeUnixNano
      endTimeUnixNano := span.endTimeUnixNano.getD 0
      attributes := ofAttributes span.attributes
      droppedAttributesCount := span.emitterDropped.attributes
      events := span.events.map ofSpanEvent
      droppedEventsCount := span.emitterDropped.events
      links := span.links.map ofSpanLink
      droppedLinksCount := span.emitterDropped.links
      status := some ⟨span.status.message, ofStatusCode span.status.code⟩ }

/-- The fields of an accepted trace context, each accepted for itself. -/
theorem traceContext_eq_ok_iff {traceId spanId : List UInt8} {flags : Nat} {raw : String}
    {context : TraceContext} :
    Decode.traceContext traceId spanId flags raw = .ok context ↔
      Decode.spanTraceId traceId = .ok context.traceId ∧
        Decode.spanSpanId spanId = .ok context.spanId ∧
          Decode.traceState raw = .ok context.tracestate ∧ context.flags = ⟨flags⟩ := by
  obtain ⟨madeTrace, madeSpan, madeFlags, madeState⟩ := context
  unfold Decode.traceContext
  simp only [bind_eq_ok_iff]
  constructor
  · rintro ⟨trace, htrace, span, hspan, state, hstate, hcontext⟩
    obtain ⟨rfl, rfl, rfl, rfl⟩ := TraceContext.mk.inj (Except.ok.inj hcontext)
    exact ⟨htrace, hspan, hstate, rfl⟩
  · rintro ⟨htrace, hspan, hstate, hflags⟩
    exact ⟨madeTrace, htrace, madeSpan, hspan, madeState, hstate, by rw [hflags]; rfl⟩

/-- The normal form of a trace context's fields is accepted as the same context. -/
theorem traceContext_normal {traceId spanId : List UInt8} {flags : Nat} {raw : String}
    {context : TraceContext} (h : Decode.traceContext traceId spanId flags raw = .ok context) :
    Decode.traceContext (zeroed 16 traceId) (zeroed 8 spanId) flags (trimTraceState raw) =
      .ok context := by
  obtain ⟨htrace, hspan, hstate, hflags⟩ := traceContext_eq_ok_iff.mp h
  exact traceContext_eq_ok_iff.mpr ⟨spanTraceId_recovers.decode_normal htrace,
    spanSpanId_recovers.decode_normal hspan, traceState_recovers.decode_normal hstate, hflags⟩

theorem spanEvent_recovers (limits : BudgetLimits) :
    Recovers (Decode.spanEvent limits) Event.normal ofSpanEvent := by
  constructor
  · intro event made h
    obtain ⟨attributes, hattributes, hmade⟩ := bind_eq_ok_iff.mp h
    obtain rfl := Except.ok.inj hmade
    simp only [ofSpanEvent, Event.normal, getD_nonZero,
      (attributes_recovers _ limits).recover_eq hattributes]
  · intro event made h
    obtain ⟨attributes, hattributes, hmade⟩ := bind_eq_ok_iff.mp h
    exact bind_eq_ok_iff.mpr
      ⟨attributes, (attributes_recovers _ limits).decode_normal hattributes, hmade⟩

theorem spanLink_recovers (limits : BudgetLimits) :
    Recovers (Decode.spanLink limits) Link.normal ofSpanLink := by
  constructor
  · intro link made h
    obtain ⟨context, hcontext, hrest⟩ := bind_eq_ok_iff.mp h
    obtain ⟨attributes, hattributes, hmade⟩ := bind_eq_ok_iff.mp hrest
    obtain rfl := Except.ok.inj hmade
    obtain ⟨htrace, hspan, hstate, hflags⟩ := traceContext_eq_ok_iff.mp hcontext
    simp only [ofSpanLink, Link.normal, hflags, spanTraceId_recovers.recover_eq htrace,
      spanSpanId_recovers.recover_eq hspan, traceState_recovers.recover_eq hstate,
      (attributes_recovers _ limits).recover_eq hattributes]
  · intro link made h
    obtain ⟨context, hcontext, hrest⟩ := bind_eq_ok_iff.mp h
    obtain ⟨attributes, hattributes, hmade⟩ := bind_eq_ok_iff.mp hrest
    exact bind_eq_ok_iff.mpr ⟨context, traceContext_normal hcontext, bind_eq_ok_iff.mpr
      ⟨attributes, (attributes_recovers _ limits).decode_normal hattributes, hmade⟩⟩

/-- The steps of an accepted span. -/
theorem span_eq_ok_iff {proto : Span} {envelope : Envelope} {limits : BudgetLimits}
    {made : RuntimeTrail.Span} :
    Decode.span proto envelope limits = .ok made ↔
      ∃ context, Decode.traceContext proto.traceId proto.spanId proto.flags proto.traceState =
          .ok context ∧
      ∃ parent, Decode.parentSpanId proto.parentSpanId = .ok parent ∧
      ∃ kind, Decode.spanKind proto.kind = .ok kind ∧
      ∃ attributes, Decode.attributes proto.attributes "span attribute" limits = .ok attributes ∧
      ∃ events, proto.events.mapM (Decode.spanEvent limits) = .ok events ∧
      ∃ links, proto.links.mapM (Decode.spanLink limits) = .ok links ∧
      ∃ code, Decode.statusCode (proto.status.getD .default).code = .ok code ∧
        made =
          { context := context
            parentSpanId := parent
            name := proto.name
            kind := kind
            startTimeUnixNano := proto.startTimeUnixNano
            endTimeUnixNano := Decode.nonZero proto.endTimeUnixNano
            resource := envelope.resource
            scope := envelope.scope
            attributes := attributes
            emitterDropped :=
              ⟨proto.droppedAttributesCount, proto.droppedEventsCount, proto.droppedLinksCount⟩
            events := events
            links := links
            status := ⟨code, (proto.status.getD .default).message⟩ } := by
  unfold Decode.span
  simp only [bind_eq_ok_iff, pure, Except.pure, Except.ok.injEq, eq_comm (a := made)]

/-- **A span, with what surrounds it, is written back from its model record.** -/
theorem decodeSpan_recovers (limits : BudgetLimits) :
    Recovers (decodeSpan limits) (Carried.normal Span.normal) ofSpan := by
  constructor
  · intro c made h
    obtain ⟨scope, hscope, hrest⟩ := bind_eq_ok_iff.mp h
    obtain ⟨resource, hresource, hspan⟩ := bind_eq_ok_iff.mp hrest
    obtain ⟨context, hcontext, parent, hparent, kind, hkind, attributes, hattributes, events, hevents,
      links, hlinks, code, hcode, rfl⟩ := span_eq_ok_iff.mp hspan
    obtain ⟨htrace, hid, hstate, hflags⟩ := traceContext_eq_ok_iff.mp hcontext
    refine Carried.under_eq_normal Span.normal hresource hscope ?_
    simp only [Span.normal, hflags, spanTraceId_recovers.recover_eq htrace,
      spanSpanId_recovers.recover_eq hid, traceState_recovers.recover_eq hstate,
      parentSpanId_recovers.recover_eq hparent, spanKind_recovers.recover_eq hkind, getD_nonZero,
      (attributes_recovers _ limits).recover_eq hattributes,
      (spanEvent_recovers limits).mapM.recover_eq hevents,
      (spanLink_recovers limits).mapM.recover_eq hlinks, statusCode_recovers.recover_eq hcode, id]
  · intro c made h
    obtain ⟨scope, hscope, hrest⟩ := bind_eq_ok_iff.mp h
    obtain ⟨resource, hresource, hspan⟩ := bind_eq_ok_iff.mp hrest
    obtain ⟨context, hcontext, parent, hparent, kind, hkind, attributes, hattributes, events, hevents,
      links, hlinks, code, hcode, hmade⟩ := span_eq_ok_iff.mp hspan
    refine bind_eq_ok_iff.mpr ⟨scope, Carried.decodeScope_normal _ hscope, bind_eq_ok_iff.mpr
      ⟨resource, Carried.decodeResource_normal _ hresource, ?_⟩⟩
    exact span_eq_ok_iff.mpr ⟨context, traceContext_normal hcontext, parent, hparent, kind, hkind,
      attributes, (attributes_recovers _ limits).decode_normal hattributes, events,
      (spanEvent_recovers limits).mapM.decode_normal hevents, links,
      (spanLink_recovers limits).mapM.decode_normal hlinks, code, hcode, hmade⟩

/-! ## Log records -/

/-- A body, when it carries a value. -/
def sentBody : Option AnyValue → Option AnyValue
  | some .unset => none
  | body => body

def LogRecord.normal (record : LogRecord) : LogRecord :=
  { record with
    body := sentBody record.body
    attributes := byKey record.attributes }

def ofLogRecord (record : RuntimeTrail.LogRecord) : Carried LogRecord :=
  Carried.under record.resource record.scope
    { timeUnixNano := record.timestampUnixNano.getD 0
      observedTimeUnixNano := record.observedTimestampUnixNano.getD 0
      severityNumber := ofSeverityNumber record.severityNumber
      severityText := record.severityText.getD ""
      body := record.body.map ofValue
      attributes := ofAttributes record.attributes
      droppedAttributesCount := record.droppedAttributeCount
      flags := (record.traceFlags.map TraceFlags.bits).getD 0
      traceId := ofPresent TraceId.bytes record.traceId
      spanId := ofPresent SpanId.bytes record.spanId
      eventName := record.eventName.getD "" }

theorem logBody_recovers : Recovers Decode.logBody sentBody (Option.map ofValue) := by
  have hread : ∀ {any : AnyValue} {made : Option Value}, any ≠ .unset →
      Decode.logBody (some any) = .ok made →
        ∃ value, Decode.wireAny "log body" any = .ok value ∧ made = some value := by
    intro any made hne h
    have hbody : Decode.logBody (some any) = (Decode.wireAny "log body" any).map some := by
      cases any with
      | unset => exact absurd rfl hne
      | _ => rfl
    rw [hbody] at h
    obtain ⟨value, hvalue, rfl⟩ := map_eq_ok_iff.mp h
    exact ⟨value, hvalue, rfl⟩
  have hsent : ∀ {any : AnyValue}, any ≠ .unset → sentBody (some any) = some any := by
    intro any hne
    cases any with
    | unset => exact absurd rfl hne
    | _ => rfl
  constructor
  · intro body made h
    cases body with
    | none => rw [← Except.ok.inj h]; rfl
    | some any =>
      by_cases hunset : any = .unset
      · rw [hunset] at h ⊢
        rw [← Except.ok.inj h]; rfl
      · obtain ⟨value, hvalue, rfl⟩ := hread hunset h
        rw [hsent hunset, Option.map_some, ofValue_wireAny _ any value hvalue]
  · intro body made h
    cases body with
    | none => exact h
    | some any =>
      by_cases hunset : any = .unset
      · rw [hunset] at h ⊢
        exact h
      · rwa [hsent hunset]

theorem flags_nonZero (flags : Nat) :
    (((Decode.nonZero flags).map TraceFlags.mk).map TraceFlags.bits).getD 0 = flags := by
  have hbits : TraceFlags.bits ∘ TraceFlags.mk = id := rfl
  rw [Option.map_map, hbits, Option.map_id]
  exact getD_nonZero flags

/-- The steps of an accepted log record. -/
theorem logRecord_eq_ok_iff {proto : LogRecord} {envelope : Envelope} {limits : BudgetLimits}
    {made : RuntimeTrail.LogRecord} :
    Decode.logRecord proto envelope limits = .ok made ↔
      ∃ severity, Decode.severityNumber proto.severityNumber = .ok severity ∧
      ∃ body, Decode.logBody proto.body = .ok body ∧
      ∃ attributes, Decode.attributes proto.attributes "log attribute" limits = .ok attributes ∧
      ∃ traceId, Decode.optionalTraceId proto.traceId = .ok traceId ∧
      ∃ spanId, Decode.optionalSpanId proto.spanId = .ok spanId ∧
        made =
          { timestampUnixNano := Decode.nonZero proto.timeUnixNano
            observedTimestampUnixNano := Decode.nonZero proto.observedTimeUnixNano
            severityNumber := severity
            severityText := Decode.presentString proto.severityText
            body := body
            resource := envelope.resource
            scope := envelope.scope
            attributes := attributes
            droppedAttributeCount := proto.droppedAttributesCount
            traceId := traceId
            spanId := spanId
            traceFlags := (Decode.nonZero proto.flags).map TraceFlags.mk
            eventName := Decode.presentString proto.eventName } := by
  unfold Decode.logRecord
  simp only [bind_eq_ok_iff, pure, Except.pure, Except.ok.injEq, eq_comm (a := made)]

/-- **A log record, with what surrounds it, is written back from its model record.** -/
theorem decodeLogRecord_recovers (limits : BudgetLimits) :
    Recovers (decodeLogRecord limits) (Carried.normal LogRecord.normal) ofLogRecord := by
  constructor
  · intro c made h
    obtain ⟨scope, hscope, hrest⟩ := bind_eq_ok_iff.mp h
    obtain ⟨resource, hresource, hrecord⟩ := bind_eq_ok_iff.mp hrest
    obtain ⟨severity, hseverity, body, hbody, attributes, hattributes, traceId, htrace, spanId, hspan,
      rfl⟩ := logRecord_eq_ok_iff.mp hrecord
    refine Carried.under_eq_normal LogRecord.normal hresource hscope ?_
    simp only [LogRecord.normal, getD_nonZero, getD_presentString, flags_nonZero,
      severityNumber_recovers.recover_eq hseverity, logBody_recovers.recover_eq hbody,
      (attributes_recovers _ limits).recover_eq hattributes,
      optionalTraceId_recovers.recover_eq htrace, optionalSpanId_recovers.recover_eq hspan, id]
  · intro c made h
    obtain ⟨scope, hscope, hrest⟩ := bind_eq_ok_iff.mp h
    obtain ⟨resource, hresource, hrecord⟩ := bind_eq_ok_iff.mp hrest
    obtain ⟨severity, hseverity, body, hbody, attributes, hattributes, traceId, htrace, spanId, hspan,
      hmade⟩ := logRecord_eq_ok_iff.mp hrecord
    refine bind_eq_ok_iff.mpr ⟨scope, Carried.decodeScope_normal _ hscope, bind_eq_ok_iff.mpr
      ⟨resource, Carried.decodeResource_normal _ hresource, ?_⟩⟩
    exact logRecord_eq_ok_iff.mpr ⟨severity, hseverity, body, logBody_recovers.decode_normal hbody,
      attributes, (attributes_recovers _ limits).decode_normal hattributes, traceId, htrace, spanId,
      hspan, hmade⟩

/-! ## Data points -/

def Exemplar.normal (exemplar : Exemplar) : Exemplar :=
  { exemplar with filteredAttributes := byKey exemplar.filteredAttributes }

/-- A bucket layout; an absent one is the default one. -/
def sentBuckets (buckets : Option Buckets) : Option Buckets := some (buckets.getD .default)

def NumberDataPoint.normal (point : NumberDataPoint) : NumberDataPoint :=
  { point with
    attributes := byKey point.attributes
    exemplars := point.exemplars.map Exemplar.normal }

def HistogramDataPoint.normal (point : HistogramDataPoint) : HistogramDataPoint :=
  { point with
    attributes := byKey point.attributes
    exemplars := point.exemplars.map Exemplar.normal }

def ExponentialHistogramDataPoint.normal (point : ExponentialHistogramDataPoint) :
    ExponentialHistogramDataPoint :=
  { point with
    attributes := byKey point.attributes
    positive := sentBuckets point.positive
    negative := sentBuckets point.negative
    exemplars := point.exemplars.map Exemplar.normal }

def SummaryDataPoint.normal (point : SummaryDataPoint) : SummaryDataPoint :=
  { point with attributes := byKey point.attributes }

def DataPoint.normal : DataPoint → DataPoint
  | .gauge point => .gauge point.normal
  | .sum point aggregationTemporality isMonotonic =>
    .sum point.normal aggregationTemporality isMonotonic
  | .histogram point aggregationTemporality => .histogram point.normal aggregationTemporality
  | .exponentialHistogram point aggregationTemporality =>
    .exponentialHistogram point.normal aggregationTemporality
  | .summary point => .summary point.normal

def Descriptor.normal (descriptor : Descriptor) : Descriptor :=
  { descriptor with metadata := byKey descriptor.metadata }

def MetricRecord.normal (record : MetricRecord) : MetricRecord :=
  ⟨record.descriptor.normal, record.point.normal⟩

def ofNumber : MetricNumber → NumberValue
  | .int value => .asInt value
  | .double value => .asDouble value.get

def ofExemplar (exemplar : RuntimeTrail.Exemplar) : Exemplar where
  filteredAttributes := ofAttributes exemplar.filteredAttributes
  timeUnixNano := exemplar.timeUnixNano
  spanId := ofPresent SpanId.bytes exemplar.spanId
  traceId := ofPresent TraceId.bytes exemplar.traceId
  value := some (ofNumber exemplar.value)

def ofNumberPoint (point : NumberPoint) : NumberDataPoint where
  attributes := ofAttributes point.attributes
  startTimeUnixNano := point.startTimeUnixNano.getD 0
  timeUnixNano := point.timeUnixNano
  exemplars := point.exemplars.map ofExemplar
  flags := point.flags
  value := some (ofNumber point.value)

def ofHistogramPoint (point : HistogramPoint) : HistogramDataPoint where
  attributes := ofAttributes point.attributes
  startTimeUnixNano := point.startTimeUnixNano
  timeUnixNano := point.timeUnixNano
  count := point.count
  sum := point.sum.map Float.get
  bucketCounts := point.bucketCounts
  explicitBounds := point.explicitBounds.map Float.get
  exemplars := point.exemplars.map ofExemplar
  flags := point.flags
  min := point.min.map Float.get
  max := point.max.map Float.get

def ofBuckets (buckets : ExponentialBuckets) : Option Buckets :=
  some ⟨buckets.offset, buckets.bucketCounts⟩

def ofExponentialHistogramPoint (point : ExponentialHistogramPoint) :
    ExponentialHistogramDataPoint where
  attributes := ofAttributes point.attributes
  startTimeUnixNano := point.startTimeUnixNano
  timeUnixNano := point.timeUnixNano
  count := point.count
  sum := point.sum.map Float.get
  scale := point.scale
  zeroCount := point.zeroCount
  positive := ofBuckets point.positive
  negative := ofBuckets point.negative
  flags := point.flags
  exemplars := point.exemplars.map ofExemplar
  min := point.min.map Float.get
  max := point.max.map Float.get
  zeroThreshold := point.zeroThreshold.get

def ofQuantile (quantile : QuantileValue) : ValueAtQuantile :=
  ⟨quantile.quantile.get, quantile.value.get⟩

def ofSummaryPoint (point : SummaryPoint) : SummaryDataPoint where
  attributes := ofAttributes point.attributes
  startTimeUnixNano := point.startTimeUnixNano
  timeUnixNano := point.timeUnixNano
  count := point.count
  sum := sumOf point.sum
  quantileValues := point.quantiles.map ofQuantile
  flags := point.flags

/-- A point under the data its stream's kind declares: a number is a sum's or a gauge's. -/
def ofPoint (kind : StreamKind) (temporality : Option Temporality) : MetricPoint → DataPoint
  | .number point =>
    match kind with
    | .sum monotonic => .sum (ofNumberPoint point) (ofTemporality temporality) monotonic
    | _ => .gauge (ofNumberPoint point)
  | .histogram point => .histogram (ofHistogramPoint point) (ofTemporality temporality)
  | .exponentialHistogram point =>
    .exponentialHistogram (ofExponentialHistogramPoint point) (ofTemporality temporality)
  | .summary point => .summary (ofSummaryPoint point)

def ofMetricRecord (record : StreamIdentity × MetricPoint) : Carried MetricRecord :=
  Carried.under record.1.resource record.1.scope
    { descriptor :=
        { name := record.1.name
          description := record.1.description.getD ""
          unit := record.1.unit.getD ""
          metadata := ofAttributes record.1.metadata }
      point := ofPoint record.1.kind record.1.temporality record.2 }

theorem metricNumber_recovers (field : String) :
    Recovers (Decode.metricNumber field) id (fun number => some (ofNumber number)) := by
  refine .exact fun {value made} h => ?_
  cases value with
  | none => exact absurd h (by simp [Decode.metricNumber, Decode.unrepresentable])
  | some number =>
    cases number with
    | asDouble double => rw [← Except.ok.inj h]; rfl
    | asInt integer => rw [← Except.ok.inj h]; rfl

theorem exemplar_recovers (limits : BudgetLimits) :
    Recovers (Decode.exemplar limits) Exemplar.normal ofExemplar := by
  constructor
  · intro exemplar made h
    obtain ⟨value, hvalue, h⟩ := bind_eq_ok_iff.mp h
    obtain ⟨attributes, hattributes, h⟩ := bind_eq_ok_iff.mp h
    obtain ⟨traceId, htrace, h⟩ := bind_eq_ok_iff.mp h
    obtain ⟨spanId, hspan, hmade⟩ := bind_eq_ok_iff.mp h
    obtain rfl := Except.ok.inj hmade
    simp only [ofExemplar, Exemplar.normal, (metricNumber_recovers _).recover_eq hvalue,
      (attributes_recovers _ limits).recover_eq hattributes,
      optionalTraceId_recovers.recover_eq htrace, optionalSpanId_recovers.recover_eq hspan, id]
  · intro exemplar made h
    obtain ⟨value, hvalue, h⟩ := bind_eq_ok_iff.mp h
    obtain ⟨attributes, hattributes, hrest⟩ := bind_eq_ok_iff.mp h
    exact bind_eq_ok_iff.mpr ⟨value, hvalue, bind_eq_ok_iff.mpr
      ⟨attributes, (attributes_recovers _ limits).decode_normal hattributes, hrest⟩⟩

theorem exemplars_recovers (limits : BudgetLimits) :
    Recovers (fun proto => Decode.exemplars proto limits) (List.map Exemplar.normal)
      (List.map ofExemplar) :=
  (exemplar_recovers limits).mapM

theorem requireStartTime_eq_ok {field : String} {startTimeUnixNano made : Nat}
    (h : Decode.requireStartTime field startTimeUnixNano = .ok made) : made = startTimeUnixNano := by
  unfold Decode.requireStartTime at h
  split at h
  · exact absurd h (by simp [Decode.unrepresentable])
  · exact (Except.ok.inj h).symm

theorem ofBuckets_exponentialBuckets (buckets : Option Buckets) :
    ofBuckets (Decode.exponentialBuckets buckets) = sentBuckets buckets := by
  cases buckets <;> rfl

theorem exponentialBuckets_sentBuckets (buckets : Option Buckets) :
    Decode.exponentialBuckets (sentBuckets buckets) = Decode.exponentialBuckets buckets := by
  cases buckets <;> rfl

/-- A number point of either shape is written back as it was sent. -/
theorem numberPoint_recovers {limits : BudgetLimits} {proto : NumberDataPoint} {made : MetricPoint}
    (h : Decode.numberPoint proto limits = .ok made) :
    (∃ point, made = .number point ∧ ofNumberPoint point = proto.normal) ∧
      Decode.numberPoint proto.normal limits = .ok made := by
  obtain ⟨value, hvalue, h⟩ := bind_eq_ok_iff.mp h
  obtain ⟨attributes, hattributes, h⟩ := bind_eq_ok_iff.mp h
  obtain ⟨exemplars, hexemplars, hmade⟩ := bind_eq_ok_iff.mp h
  refine ⟨⟨_, (Except.ok.inj hmade).symm, ?_⟩, ?_⟩
  · simp only [ofNumberPoint, NumberDataPoint.normal, getD_nonZero,
      (metricNumber_recovers _).recover_eq hvalue,
      (attributes_recovers _ limits).recover_eq hattributes,
      (exemplars_recovers limits).recover_eq hexemplars, id]
  · exact bind_eq_ok_iff.mpr ⟨value, hvalue, bind_eq_ok_iff.mpr
      ⟨attributes, (attributes_recovers _ limits).decode_normal hattributes, bind_eq_ok_iff.mpr
        ⟨exemplars, (exemplars_recovers limits).decode_normal hexemplars, hmade⟩⟩⟩

theorem histogramPoint_recovers {limits : BudgetLimits} {proto : HistogramDataPoint}
    {made : MetricPoint} (h : Decode.histogramPoint proto limits = .ok made) :
    (∃ point, made = .histogram point ∧ ofHistogramPoint point = proto.normal) ∧
      Decode.histogramPoint proto.normal limits = .ok made := by
  obtain ⟨start, hstart, h⟩ := bind_eq_ok_iff.mp h
  obtain ⟨attributes, hattributes, h⟩ := bind_eq_ok_iff.mp h
  obtain ⟨exemplars, hexemplars, hmade⟩ := bind_eq_ok_iff.mp h
  refine ⟨⟨_, (Except.ok.inj hmade).symm, ?_⟩, ?_⟩
  · simp only [ofHistogramPoint, HistogramDataPoint.normal, requireStartTime_eq_ok hstart,
      map_get_map_new, optionMap_get_map_new, (attributes_recovers _ limits).recover_eq hattributes,
      (exemplars_recovers limits).recover_eq hexemplars]
  · exact bind_eq_ok_iff.mpr ⟨start, hstart, bind_eq_ok_iff.mpr
      ⟨attributes, (attributes_recovers _ limits).decode_normal hattributes, bind_eq_ok_iff.mpr
        ⟨exemplars, (exemplars_recovers limits).decode_normal hexemplars, hmade⟩⟩⟩

theorem exponentialHistogramPoint_recovers {limits : BudgetLimits}
    {proto : ExponentialHistogramDataPoint} {made : MetricPoint}
    (h : Decode.exponentialHistogramPoint proto limits = .ok made) :
    (∃ point, made = .exponentialHistogram point ∧
      ofExponentialHistogramPoint point = proto.normal) ∧
      Decode.exponentialHistogramPoint proto.normal limits = .ok made := by
  obtain ⟨start, hstart, h⟩ := bind_eq_ok_iff.mp h
  obtain ⟨attributes, hattributes, h⟩ := bind_eq_ok_iff.mp h
  obtain ⟨exemplars, hexemplars, hmade⟩ := bind_eq_ok_iff.mp h
  refine ⟨⟨_, (Except.ok.inj hmade).symm, ?_⟩, ?_⟩
  · simp only [ofExponentialHistogramPoint, ExponentialHistogramDataPoint.normal,
      requireStartTime_eq_ok hstart, optionMap_get_map_new, Float.get_new,
      ofBuckets_exponentialBuckets, (attributes_recovers _ limits).recover_eq hattributes,
      (exemplars_recovers limits).recover_eq hexemplars]
  · refine bind_eq_ok_iff.mpr ⟨start, hstart, bind_eq_ok_iff.mpr
      ⟨attributes, (attributes_recovers _ limits).decode_normal hattributes, bind_eq_ok_iff.mpr
        ⟨exemplars, (exemplars_recovers limits).decode_normal hexemplars, ?_⟩⟩⟩
    simp only [ExponentialHistogramDataPoint.normal, exponentialBuckets_sentBuckets]
    exact hmade

theorem summaryPoint_recovers {limits : BudgetLimits} {proto : SummaryDataPoint}
    {made : MetricPoint} (h : Decode.summaryPoint proto limits = .ok made) :
    (∃ point, made = .summary point ∧ ofSummaryPoint point = proto.normal) ∧
      Decode.summaryPoint proto.normal limits = .ok made := by
  obtain ⟨start, hstart, h⟩ := bind_eq_ok_iff.mp h
  obtain ⟨attributes, hattributes, hmade⟩ := bind_eq_ok_iff.mp h
  have hquantiles : (proto.quantileValues.map Decode.quantileValue).map ofQuantile =
      proto.quantileValues := by
    have hvalue : ofQuantile ∘ Decode.quantileValue = id := rfl
    rw [List.map_map, hvalue, List.map_id]
  refine ⟨⟨_, (Except.ok.inj hmade).symm, ?_⟩, ?_⟩
  · simp only [ofSummaryPoint, SummaryDataPoint.normal, requireStartTime_eq_ok hstart, hquantiles,
      sumOf_summarySum, (attributes_recovers _ limits).recover_eq hattributes]
  · exact bind_eq_ok_iff.mpr ⟨start, hstart, bind_eq_ok_iff.mpr
      ⟨attributes, (attributes_recovers _ limits).decode_normal hattributes, hmade⟩⟩

/-! ## Data points under their metric -/

theorem streamKind_normal (point : DataPoint) :
    Decode.streamKind (some point.normal.data) = Decode.streamKind (some point.data) := by
  cases point <;> rfl

/-- The steps of an accepted stream identity. -/
theorem streamIdentity_eq_ok_iff {proto : Metric otlp} {envelope : Envelope} {limits : BudgetLimits}
    {made : StreamIdentity} :
    Decode.streamIdentity proto envelope limits = .ok made ↔
      ∃ kind, Decode.streamKind proto.data = .ok kind ∧
      ∃ metadata, Decode.attributes proto.descriptor.metadata "metric metadata" limits =
        .ok metadata ∧
        made =
          { resource := envelope.resource
            scope := envelope.scope
            name := proto.descriptor.name
            description := Decode.presentString proto.descriptor.description
            unit := Decode.presentString proto.descriptor.unit
            metadata := metadata
            kind := kind.1
            temporality := kind.2 } := by
  unfold Decode.streamIdentity
  simp only [bind_eq_ok_iff, pure, Except.pure, Except.ok.injEq, eq_comm (a := made)]

/-- **A point is written back under the data its stream declares.** -/
theorem ofPoint_decode {limits : BudgetLimits} {point : DataPoint}
    {kind : StreamKind × Option Temporality} {made : MetricPoint}
    (hkind : Decode.streamKind (some point.data) = .ok kind) (h : point.decode limits = .ok made) :
    ofPoint kind.1 kind.2 made = point.normal ∧ point.normal.decode limits = .ok made := by
  cases point with
  | gauge proto =>
    obtain rfl := Except.ok.inj hkind
    obtain ⟨⟨number, rfl, hnumber⟩, hnormal⟩ := numberPoint_recovers h
    exact ⟨congrArg DataPoint.gauge hnumber, hnormal⟩
  | sum proto aggregationTemporality isMonotonic =>
    obtain ⟨declared, hdeclared, rfl⟩ := map_eq_ok_iff.mp hkind
    obtain ⟨⟨number, rfl, hnumber⟩, hnormal⟩ := numberPoint_recovers h
    refine ⟨?_, hnormal⟩
    rw [ofPoint, DataPoint.normal, hnumber, temporality_recovers.recover_eq hdeclared, id]
  | histogram proto aggregationTemporality =>
    obtain ⟨declared, hdeclared, rfl⟩ := map_eq_ok_iff.mp hkind
    obtain ⟨⟨histogram, rfl, hhistogram⟩, hnormal⟩ := histogramPoint_recovers h
    refine ⟨?_, hnormal⟩
    rw [ofPoint, DataPoint.normal, hhistogram, temporality_recovers.recover_eq hdeclared, id]
  | exponentialHistogram proto aggregationTemporality =>
    obtain ⟨declared, hdeclared, rfl⟩ := map_eq_ok_iff.mp hkind
    obtain ⟨⟨histogram, rfl, hhistogram⟩, hnormal⟩ := exponentialHistogramPoint_recovers h
    refine ⟨?_, hnormal⟩
    rw [ofPoint, DataPoint.normal, hhistogram, temporality_recovers.recover_eq hdeclared, id]
  | summary proto =>
    obtain rfl := Except.ok.inj hkind
    obtain ⟨⟨summary, rfl, hsummary⟩, hnormal⟩ := summaryPoint_recovers h
    exact ⟨by rw [ofPoint, DataPoint.normal, hsummary], hnormal⟩

/-- **A data point, with its metric and what surrounds it, is written back from its model
record.** -/
theorem decodePoint_recovers (limits : BudgetLimits) :
    Recovers (decodePoint limits) (Carried.normal MetricRecord.normal) ofMetricRecord := by
  constructor
  · intro c made h
    obtain ⟨resource, hresource, h⟩ := bind_eq_ok_iff.mp h
    obtain ⟨scope, hscope, h⟩ := bind_eq_ok_iff.mp h
    obtain ⟨stream, hstream, h⟩ := bind_eq_ok_iff.mp h
    obtain ⟨point, hpoint, hmade⟩ := bind_eq_ok_iff.mp h
    obtain rfl := Except.ok.inj hmade
    obtain ⟨kind, hkind, metadata, hmetadata, rfl⟩ := streamIdentity_eq_ok_iff.mp hstream
    refine Carried.under_eq_normal MetricRecord.normal hresource hscope ?_
    have hrecovered := (attributes_recovers _ limits).recover_eq hmetadata
    simp only [MetricRecord.metric] at hrecovered
    simp only [MetricRecord.normal, Descriptor.normal, MetricRecord.metric, getD_presentString,
      hrecovered, (ofPoint_decode hkind hpoint).1]
  · intro c made h
    obtain ⟨resource, hresource, h⟩ := bind_eq_ok_iff.mp h
    obtain ⟨scope, hscope, h⟩ := bind_eq_ok_iff.mp h
    obtain ⟨stream, hstream, h⟩ := bind_eq_ok_iff.mp h
    obtain ⟨point, hpoint, hmade⟩ := bind_eq_ok_iff.mp h
    obtain ⟨kind, hkind, metadata, hmetadata, hidentity⟩ := streamIdentity_eq_ok_iff.mp hstream
    refine bind_eq_ok_iff.mpr ⟨resource, Carried.decodeResource_normal _ hresource,
      bind_eq_ok_iff.mpr ⟨scope, Carried.decodeScope_normal _ hscope, bind_eq_ok_iff.mpr
        ⟨stream, ?_, bind_eq_ok_iff.mpr ⟨point, (ofPoint_decode hkind hpoint).2, hmade⟩⟩⟩⟩
    exact streamIdentity_eq_ok_iff.mpr ⟨kind, (streamKind_normal c.record.point).trans hkind,
      metadata, (attributes_recovers _ limits).decode_normal hmetadata, hidentity⟩

/-! ## Every record -/

/-- One record of an export, with what surrounds it. -/
inductive WireRecord where
  | span (carried : Carried Span)
  | log (carried : Carried LogRecord)
  | point (carried : Carried MetricRecord)

/-- One record of an export, translated. -/
def WireRecord.decode (limits : BudgetLimits) : WireRecord → Except RecordRejection Delivered
  | .span carried => (decodeSpan limits carried).map .span
  | .log carried => (decodeLogRecord limits carried).map .log
  | .point carried => (decodePoint limits carried).map fun record => .point record.1 record.2

/-- What decoding keeps of a wire record. -/
def WireRecord.normal : WireRecord → WireRecord
  | .span carried => .span (carried.normal Span.normal)
  | .log carried => .log (carried.normal LogRecord.normal)
  | .point carried => .point (carried.normal MetricRecord.normal)

/-- The wire record of a model record. -/
def ofDelivered : Delivered → WireRecord
  | .span record => .span (ofSpan record)
  | .log record => .log (ofLogRecord record)
  | .point stream point => .point (ofMetricRecord (stream, point))

/-- The records of an export in document order. -/
def wireRecords : ExportDocument otlp → List WireRecord
  | .traces _ payload =>
    match payload.decoded with
    | .ok request => (carried request).map .span
    | .error _ => []
  | .logs _ payload =>
    match payload.decoded with
    | .ok request => (carried request).map .log
    | .error _ => []
  | .metrics _ payload =>
    match payload.decoded with
    | .ok request => ((carried request).flatMap Carried.points).map .point
    | .error _ => []

/-- The walk over an export translates its records, each for itself. -/
theorem records_eq (limits : BudgetLimits) (doc : ExportDocument otlp) :
    (doc.call (otlpDecoder limits)).records = (wireRecords doc).map (WireRecord.decode limits) := by
  cases doc with
  | traces now payload =>
    obtain ⟨bytes, decoded⟩ := payload
    cases decoded with
    | error detail => rfl
    | ok request =>
      change ((otlpDecoder limits).spans request).map (Except.map Delivered.span) = _
      rw [spans_eq, wireRecords, List.map_map, List.map_map]
      rfl
  | logs now payload =>
    obtain ⟨bytes, decoded⟩ := payload
    cases decoded with
    | error detail => rfl
    | ok request =>
      change ((otlpDecoder limits).logs request).map (Except.map Delivered.log) = _
      rw [logs_eq, wireRecords, List.map_map, List.map_map]
      rfl
  | metrics now payload =>
    obtain ⟨bytes, decoded⟩ := payload
    cases decoded with
    | error detail => rfl
    | ok request =>
      change ((otlpDecoder limits).metrics request).flatMap WireMetric.records = _
      rw [points_eq, wireRecords, List.map_map]
      rfl

theorem record_recovers (limits : BudgetLimits) :
    Recovers (WireRecord.decode limits) WireRecord.normal ofDelivered := by
  constructor
  · intro record made h
    cases record with
    | span carried =>
      obtain ⟨span, hspan, rfl⟩ := map_eq_ok_iff.mp h
      exact congrArg WireRecord.span ((decodeSpan_recovers limits).recover_eq hspan)
    | log carried =>
      obtain ⟨log, hlog, rfl⟩ := map_eq_ok_iff.mp h
      exact congrArg WireRecord.log ((decodeLogRecord_recovers limits).recover_eq hlog)
    | point carried =>
      obtain ⟨point, hpoint, rfl⟩ := map_eq_ok_iff.mp h
      exact congrArg WireRecord.point ((decodePoint_recovers limits).recover_eq hpoint)
  · intro record made h
    cases record with
    | span carried =>
      obtain ⟨span, hspan, rfl⟩ := map_eq_ok_iff.mp h
      exact map_eq_ok_iff.mpr ⟨span, (decodeSpan_recovers limits).decode_normal hspan, rfl⟩
    | log carried =>
      obtain ⟨log, hlog, rfl⟩ := map_eq_ok_iff.mp h
      exact map_eq_ok_iff.mpr ⟨log, (decodeLogRecord_recovers limits).decode_normal hlog, rfl⟩
    | point carried =>
      obtain ⟨point, hpoint, rfl⟩ := map_eq_ok_iff.mp h
      exact map_eq_ok_iff.mpr ⟨point, (decodePoint_recovers limits).decode_normal hpoint, rfl⟩

/-- **Decoding loses nothing it does not name.**  Of any two accepted wire records, each is written
back from its model record in normal form, its normal form decodes to the same, and the two model
records are equal, field by field, exactly when the normal forms are. -/
theorem decode_recovers (limits : BudgetLimits) {record record' : WireRecord}
    {made made' : Delivered} (h : record.decode limits = .ok made)
    (h' : record'.decode limits = .ok made') :
    ofDelivered made = record.normal ∧ record.normal.decode limits = .ok made ∧
      (made = made' ↔ record.normal = record'.normal) :=
  ⟨(record_recovers limits).recover_eq h, (record_recovers limits).decode_normal h,
    (record_recovers limits).eq_iff h h'⟩

/-- A log record with an observed time and a severity, under this resource and with this body. -/
def WireRecord.bareLog (resource : Option Resource) (body : Option AnyValue) : WireRecord :=
  .log ⟨resource, "", none, "", ⟨0, 5, 9, "", body, [], 0, 0, [], [], ""⟩⟩

/-- A body without a value under the default resource decodes as no body under none. -/
theorem decode_recovers_unsent :
    ∃ made made', (WireRecord.bareLog none none).decode .default = .ok made ∧
      (WireRecord.bareLog (some .default) (some .unset)).decode .default = .ok made' ∧
        made = made' :=
  ⟨_, _, rfl, rfl, (@decode_recovers .default (WireRecord.bareLog none none)
    (WireRecord.bareLog (some .default) (some .unset)) _ _ rfl rfl).2.2.mpr rfl⟩

end Otlp

end RuntimeTrail
