import RuntimeTrail.Library.Bytes
import RuntimeTrail.Model.Size
import RuntimeTrail.Storage.Order

/-!
# Cursors

A cursor is the byte string of four things: the position in the residency order
and the entity id of the record a page continues after, the fingerprint of the
query it belongs to, and the snapshot boundary its chain stays within.  Words
are eight bytes, little-endian; an entity id is a tag byte and its id region.

* **reading a token** — `CursorPayload.parse`, strict: every region must fit and
  nothing may trail the snapshot's entity;
* **round trip** — `parseEntity_pushEntity`, and from it
  `CursorPayload.decode_encode`: a payload whose times and serials are 64-bit
  words is read back exactly;
* **canonicality** — `parseEntity_eq_some` and `CursorPayload.parse_eq_some`: a
  byte string that parses is the encoding of what it parses to; with the round
  trip this is `CursorPayload.codec_exact`;
* **the anchor** — `CursorPayload.anchor`: position and last entity are the key
  of the record the page stopped at.
-/

namespace RuntimeTrail

open Library

/-! ## The byte layout -/

/-- Bytes before the entity tag: position and fingerprint. -/
def headerLen : Nat := 16

/-- The tag of a span's natural identity. -/
def spanTag : UInt8 := 0

/-- The tag of an admission-assigned identity. -/
def assignedTag : UInt8 := 1

/-- The width of a serial. -/
def serialLen : Nat := 8

/-- The width of a span's id region: trace id then span id. -/
def spanIdRegion : Nat := TraceId.length + SpanId.length

/-- The width of the snapshot's admission time. -/
def snapshotTimeLen : Nat := 8

/-- The width of an entity id's id region. -/
def idRegionLen : EntityId → Nat
  | .span _ _ => spanIdRegion
  | .assigned _ => serialLen

/-- Appends one tagged entity id. -/
def pushEntity (bytes : List UInt8) : EntityId → List UInt8
  | .span traceId spanId => bytes ++ spanTag :: (traceId.bytes ++ spanId.bytes)
  | .assigned assigned => bytes ++ assignedTag :: writeLe serialLen assigned.serial

/-- Appends one snapshot boundary: admission time, then tagged entity. -/
def pushBoundary (bytes : List UInt8) (boundary : AdmissionKey) : List UInt8 :=
  pushEntity (bytes ++ writeLe snapshotTimeLen boundary.admittedAt.unixNano) boundary.entity

/-- The canonical bytes of one snapshot boundary. -/
def boundaryBytes (boundary : AdmissionKey) : List UInt8 := pushBoundary [] boundary

/-- Parses one tagged entity id at the front; the entity and the bytes it consumed. -/
def parseEntity : List UInt8 → Option (EntityId × Nat)
  | [] => none
  | tag :: rest =>
    if tag = spanTag then
      if rest.length < spanIdRegion then none
      else
        let trace := rest.take TraceId.length
        let span := (rest.take spanIdRegion).drop TraceId.length
        if htrace : trace.length = 16 then
          if hspan : span.length = 8 then
            some (.span ⟨trace, htrace⟩ ⟨span, hspan⟩, 1 + spanIdRegion)
          else none
        else none
    else if tag = assignedTag then
      if rest.length < serialLen then none
      else
        let serial := readLe (rest.take serialLen)
        if serial = 0 then none else some (.assigned ⟨serial⟩, 1 + serialLen)
    else none

/-- What a cursor encodes. -/
structure CursorPayload where
  position : Nat
  lastEntity : EntityId
  fingerprint : UInt64
  snapshot : AdmissionKey
deriving DecidableEq

/-- Why a cursor failed. -/
inductive CursorError where
  | malformed
  | fingerprintMismatch
  | leaseMismatch
deriving DecidableEq

/-- FNV-1a over the canonical bytes of a query or a boundary. -/
def fingerprint (input : List UInt8) : UInt64 :=
  input.foldl (fun hash byte => (hash ^^^ byte.toUInt64) * 0x100000001b3) 0xcbf29ce484222325

/-- One investigation's pin on one snapshot. -/
structure SnapshotLease where
  investigation : Nat
  snapshot : UInt64
deriving DecidableEq

/-- Whether this lease governs continuations within `boundary`. -/
def SnapshotLease.governs (lease : SnapshotLease) (boundary : AdmissionKey) : Bool :=
  fingerprint (boundaryBytes boundary) == lease.snapshot

namespace CursorPayload

/-- Encodes the payload into the canonical layout. -/
def encode (p : CursorPayload) : List UInt8 :=
  pushBoundary
    (pushEntity (writeLe 8 p.position ++ writeLe 8 p.fingerprint.toNat) p.lastEntity) p.snapshot

/-- The strict parser; `none` is every kind of non-canonicality. -/
def parse (bytes : List UInt8) : Option CursorPayload :=
  if bytes.length ≤ headerLen then none
  else
    let header := bytes.take headerLen
    let position := readLe (header.take serialLen)
    let fingerprint := UInt64.ofNat (readLe (header.drop serialLen))
    match parseEntity (bytes.drop headerLen) with
    | none => none
    | some (lastEntity, used) =>
      let start := headerLen + used
      if bytes.length - start < snapshotTimeLen then none
      else
        let nanos := readLe ((bytes.drop start).take snapshotTimeLen)
        match parseEntity (bytes.drop (start + snapshotTimeLen)) with
        | none => none
        | some (snapshotEntity, used) =>
          if start + snapshotTimeLen + used ≠ bytes.length then none
          else some ⟨position, lastEntity, fingerprint, ⟨⟨nanos⟩, snapshotEntity⟩⟩

def decode (bytes : List UInt8) : Except CursorError CursorPayload :=
  match parse bytes with
  | none => .error .malformed
  | some payload => .ok payload

/-- A cursor belongs to one query. -/
def verify (p : CursorPayload) (expectedFingerprint : UInt64) : Except CursorError Unit :=
  if p.fingerprint = expectedFingerprint then .ok () else .error .fingerprintMismatch

/-- A leased page continues only within the leased snapshot. -/
def verifyLease (p : CursorPayload) (lease : SnapshotLease) : Except CursorError Unit :=
  if lease.governs p.snapshot then .ok () else .error .leaseMismatch

/-- The key of the record the page continues after. -/
def anchor (p : CursorPayload) : AdmissionKey := ⟨⟨p.position⟩, p.lastEntity⟩

end CursorPayload

/-! ## The round trip -/

/-- An assigned serial is a nonzero 64-bit word. -/
def EntityId.InRange : EntityId → Prop
  | .span _ _ => True
  | .assigned id => 1 ≤ id.serial ∧ id.serial ≤ u64Max

/-- The admission time is a 64-bit word, the serial a nonzero one. -/
structure AdmissionKey.InRange (key : AdmissionKey) : Prop where
  time : key.admittedAt.unixNano ≤ u64Max
  entity : key.entity.InRange

instance (entity : EntityId) : Decidable entity.InRange :=
  match entity with
  | .span _ _ => isTrue trivial
  | .assigned _ => inferInstanceAs (Decidable (_ ∧ _))

instance (key : AdmissionKey) : Decidable key.InRange :=
  decidable_of_iff (key.admittedAt.unixNano ≤ u64Max ∧ key.entity.InRange)
    ⟨fun h => ⟨h.1, h.2⟩, fun h => ⟨h.time, h.entity⟩⟩

theorem lt_of_le_u64Max {word : Nat} (h : word ≤ u64Max) : word < 256 ^ 8 := by
  rw [u64Max] at h
  omega

theorem pushEntity_append (bytes : List UInt8) (entity : EntityId) :
    pushEntity bytes entity = bytes ++ pushEntity [] entity := by
  cases entity <;> rfl

theorem length_pushEntity (entity : EntityId) :
    (pushEntity [] entity).length = 1 + idRegionLen entity := by
  cases entity with
  | span traceId spanId =>
    simp [pushEntity, idRegionLen, spanIdRegion, TraceId.length, SpanId.length, traceId.length_eq,
      spanId.length_eq]
  | assigned id => simp [pushEntity, idRegionLen, serialLen]

/-- An entity id is read back from the front of any byte string it was written to. -/
theorem parseEntity_pushEntity {entity : EntityId} (h : entity.InRange) (rest : List UInt8) :
    parseEntity (pushEntity [] entity ++ rest) = some (entity, 1 + idRegionLen entity) := by
  cases entity with
  | span traceId spanId =>
    obtain ⟨trace, htrace⟩ := traceId
    obtain ⟨span, hspan⟩ := spanId
    have hfit : ¬ (trace ++ span ++ rest).length < spanIdRegion := by
      simp only [spanIdRegion, TraceId.length, SpanId.length, List.length_append, htrace, hspan]
      omega
    have htake : (trace ++ span ++ rest).take TraceId.length = trace := by
      rw [List.append_assoc, show TraceId.length = trace.length from htrace.symm,
        List.take_left]
    have hboth : (trace ++ span ++ rest).take spanIdRegion = trace ++ span := by
      rw [show spanIdRegion = (trace ++ span).length by
        simp [spanIdRegion, TraceId.length, SpanId.length, htrace, hspan], List.take_left]
    have hdrop : (trace ++ span).drop TraceId.length = span := by
      rw [show TraceId.length = trace.length from htrace.symm, List.drop_left]
    simp only [pushEntity, List.nil_append, List.cons_append, parseEntity, if_true, if_neg hfit,
      htake, hboth, hdrop, htrace, hspan, dif_pos, idRegionLen]
  | assigned id =>
    obtain ⟨serial⟩ := id
    have hword := readLe_writeLe (lt_of_le_u64Max h.2)
    have hfit : ¬ (writeLe serialLen serial ++ rest).length < serialLen := by simp
    have htake : (writeLe serialLen serial ++ rest).take serialLen = writeLe serialLen serial := by
      rw [show serialLen = (writeLe serialLen serial).length by simp, length_writeLe,
        List.take_left' (length_writeLe _ _)]
    have hne : readLe (writeLe serialLen serial) ≠ 0 := by
      rw [show readLe (writeLe serialLen serial) = serial from hword]
      have := h.1
      dsimp only at this
      omega
    simp only [pushEntity, List.nil_append, List.cons_append, parseEntity, if_neg hfit, htake,
      if_neg hne, idRegionLen, show assignedTag ≠ spanTag by decide, if_true, if_false]
    rw [show readLe (writeLe serialLen serial) = serial from hword]

namespace CursorPayload

/-- The words a payload is written from are 64-bit words. -/
structure InRange (p : CursorPayload) : Prop where
  position : p.position ≤ u64Max
  lastEntity : p.lastEntity.InRange
  snapshot : p.snapshot.InRange

/-- The encoding, region by region. -/
theorem encode_eq (p : CursorPayload) :
    p.encode = (writeLe 8 p.position ++ writeLe 8 p.fingerprint.toNat) ++
      (pushEntity [] p.lastEntity ++ (writeLe snapshotTimeLen p.snapshot.admittedAt.unixNano ++
        pushEntity [] p.snapshot.entity)) := by
  rw [encode, pushBoundary, pushEntity_append _ p.snapshot.entity, pushEntity_append _ p.lastEntity]
  simp only [List.append_assoc]

/-- A token laid out in its four regions parses region by region. -/
theorem parse_of_regions {header last time boundary : List UInt8}
    {lastEntity snapshotEntity : EntityId} (hheader : header.length = headerLen)
    (hlast : last.length = 1 + idRegionLen lastEntity) (htime : time.length = snapshotTimeLen)
    (hboundary : boundary.length = 1 + idRegionLen snapshotEntity)
    (hparseLast : ∀ rest, parseEntity (last ++ rest) = some (lastEntity, 1 + idRegionLen lastEntity))
    (hparseBoundary : parseEntity boundary =
      some (snapshotEntity, 1 + idRegionLen snapshotEntity)) :
    parse (header ++ (last ++ (time ++ boundary))) =
      some ⟨readLe (header.take serialLen), lastEntity,
        UInt64.ofNat (readLe (header.drop serialLen)), ⟨⟨readLe time⟩, snapshotEntity⟩⟩ := by
  have hlength : (header ++ (last ++ (time ++ boundary))).length =
      headerLen + (1 + idRegionLen lastEntity) + snapshotTimeLen +
        (1 + idRegionLen snapshotEntity) := by
    simp only [List.length_append, hheader, hlast, htime, hboundary]
    omega
  have hat : (header ++ (last ++ (time ++ boundary))).drop
      (headerLen + (1 + idRegionLen lastEntity)) = time ++ boundary := by
    rw [← List.append_assoc header last]
    exact List.drop_left' (by rw [List.length_append, hheader, hlast])
  have hafter : (header ++ (last ++ (time ++ boundary))).drop
      (headerLen + (1 + idRegionLen lastEntity) + snapshotTimeLen) = boundary := by
    rw [← List.drop_drop, hat]
    exact List.drop_left' htime
  rw [parse, if_neg (by rw [hlength]; omega), List.drop_left' hheader, List.take_left' hheader]
  simp only [hparseLast, hat, hafter, hparseBoundary, List.take_left' htime]
  rw [if_neg (by rw [hlength]; omega), if_neg (by rw [hlength]; omega)]

/-- **The round trip.** -/
theorem decode_encode {p : CursorPayload} (h : p.InRange) : decode p.encode = .ok p := by
  obtain ⟨position, lastEntity, fingerprint, ⟨⟨nanos⟩, entity⟩⟩ := p
  have hparse := @parse_of_regions (writeLe 8 position ++ writeLe 8 fingerprint.toNat)
    (pushEntity [] lastEntity) (writeLe snapshotTimeLen nanos) (pushEntity [] entity) lastEntity
    entity (by simp [headerLen]) (length_pushEntity _) (by simp) (length_pushEntity _)
    (fun rest => parseEntity_pushEntity h.lastEntity rest)
    (by simpa using parseEntity_pushEntity h.snapshot.entity [])
  have hposition : readLe (writeLe 8 position) = position :=
    readLe_writeLe (lt_of_le_u64Max h.position)
  have hfingerprint : readLe (writeLe 8 fingerprint.toNat) = fingerprint.toNat :=
    readLe_writeLe (by have := fingerprint.toNat_lt; omega)
  have hnanos : readLe (writeLe snapshotTimeLen nanos) = nanos :=
    readLe_writeLe (lt_of_le_u64Max h.snapshot.time)
  have htake : (writeLe 8 position ++ writeLe 8 fingerprint.toNat).take serialLen =
      writeLe 8 position := List.take_left' (length_writeLe _ _)
  have hdrop : (writeLe 8 position ++ writeLe 8 fingerprint.toNat).drop serialLen =
      writeLe 8 fingerprint.toNat := List.drop_left' (length_writeLe _ _)
  rw [htake, hdrop, hposition, hfingerprint, hnanos, UInt64.ofNat_toNat] at hparse
  rw [decode, encode_eq, hparse]

end CursorPayload

/-! ## Canonicality -/

/-- A word of the stated width is written back byte for byte. -/
theorem writeLe_readLe_of_length {bytes : List UInt8} {width : Nat} (h : bytes.length = width) :
    writeLe width (readLe bytes) = bytes := by
  rw [← h]
  exact writeLe_readLe bytes

/-- Eight bytes hold a 64-bit word. -/
theorem readLe_le_u64Max {bytes : List UInt8} (h : bytes.length = serialLen) :
    readLe bytes ≤ u64Max := by
  have hlt := readLe_lt bytes
  rw [h, show 256 ^ serialLen = u64Max + 1 by decide] at hlt
  exact Nat.le_of_lt_succ hlt

/-- A parsed entity id is in range, and the bytes it consumed are its encoding. -/
theorem parseEntity_eq_some {bytes : List UInt8} {entity : EntityId} {used : Nat}
    (h : parseEntity bytes = some (entity, used)) :
    entity.InRange ∧ used = 1 + idRegionLen entity ∧ bytes.take used = pushEntity [] entity := by
  cases bytes with
  | nil => cases h
  | cons tag rest =>
    rw [parseEntity] at h
    by_cases hspan : tag = spanTag
    · rw [if_pos hspan] at h
      by_cases hfit : rest.length < spanIdRegion
      · rw [if_pos hfit] at h
        cases h
      · have hlen : rest.length ≥ 24 := Nat.le_of_not_lt hfit
        have htrace : (rest.take TraceId.length).length = 16 := by
          rw [List.length_take, TraceId.length]
          omega
        have hid : ((rest.take spanIdRegion).drop TraceId.length).length = 8 := by
          rw [List.length_drop, List.length_take, spanIdRegion, TraceId.length, SpanId.length]
          omega
        simp only [if_neg hfit, dif_pos htrace, dif_pos hid, Option.some.injEq,
          Prod.mk.injEq] at h
        obtain ⟨rfl, rfl⟩ := h
        refine ⟨trivial, rfl, ?_⟩
        have hhead : (rest.take spanIdRegion).take TraceId.length = rest.take TraceId.length := by
          rw [List.take_take]
          rfl
        have hregion := List.take_append_drop TraceId.length (rest.take spanIdRegion)
        rw [hhead] at hregion
        rw [Nat.add_comm, List.take_succ_cons, pushEntity, List.nil_append, hspan, hregion]
    · rw [if_neg hspan] at h
      by_cases hassigned : tag = assignedTag
      · rw [if_pos hassigned] at h
        by_cases hfit : rest.length < serialLen
        · rw [if_pos hfit] at h
          cases h
        · have hlen : (rest.take serialLen).length = serialLen :=
            List.length_take_of_le (Nat.le_of_not_lt hfit)
          rw [if_neg hfit] at h
          by_cases hzero : readLe (rest.take serialLen) = 0
          · rw [if_pos hzero] at h
            cases h
          · simp only [if_neg hzero, Option.some.injEq, Prod.mk.injEq] at h
            obtain ⟨rfl, rfl⟩ := h
            refine ⟨⟨Nat.one_le_iff_ne_zero.mpr hzero, readLe_le_u64Max hlen⟩, rfl, ?_⟩
            rw [Nat.add_comm, List.take_succ_cons, pushEntity, List.nil_append, hassigned,
              writeLe_readLe_of_length hlen]
      · rw [if_neg hassigned] at h
        cases h

/-- The boundary's bytes: its admission time, then its entity. -/
theorem boundaryBytes_eq (boundary : AdmissionKey) :
    boundaryBytes boundary =
      writeLe snapshotTimeLen boundary.admittedAt.unixNano ++ pushEntity [] boundary.entity := by
  rw [boundaryBytes, pushBoundary, pushEntity_append, List.nil_append]

/-- The boundary bytes determine the boundary. -/
theorem boundaryBytes_injective {left right : AdmissionKey} (hleft : left.InRange)
    (hright : right.InRange) (h : boundaryBytes left = boundaryBytes right) : left = right := by
  rw [boundaryBytes_eq, boundaryBytes_eq] at h
  obtain ⟨htime, hentity⟩ := List.append_inj h (by simp)
  have hword : left.admittedAt.unixNano = right.admittedAt.unixNano :=
    calc left.admittedAt.unixNano
        = readLe (writeLe snapshotTimeLen left.admittedAt.unixNano) :=
          (readLe_writeLe (lt_of_le_u64Max hleft.time)).symm
      _ = readLe (writeLe snapshotTimeLen right.admittedAt.unixNano) := by rw [htime]
      _ = right.admittedAt.unixNano := readLe_writeLe (lt_of_le_u64Max hright.time)
  have hparse := parseEntity_pushEntity hleft.entity []
  rw [hentity, parseEntity_pushEntity hright.entity [], Option.some.injEq, Prod.mk.injEq] at hparse
  obtain ⟨⟨leftTime⟩, leftEntity⟩ := left
  obtain ⟨⟨rightTime⟩, rightEntity⟩ := right
  rw [AdmissionKey.mk.injEq, AdmissionTime.mk.injEq]
  exact ⟨hword, hparse.1.symm⟩

namespace CursorPayload

/-- A token that parses is the encoding of its payload, whose words are 64-bit words. -/
theorem parse_eq_some {bytes : List UInt8} {p : CursorPayload} (h : parse bytes = some p) :
    p.InRange ∧ p.encode = bytes := by
  rw [parse] at h
  by_cases hheader : bytes.length ≤ headerLen
  · rw [if_pos hheader] at h
    cases h
  rw [if_neg hheader] at h
  have hlt : headerLen ≤ bytes.length := Nat.le_of_not_le hheader
  cases hlast : parseEntity (bytes.drop headerLen) with
  | none =>
    rw [hlast] at h
    cases h
  | some last =>
    obtain ⟨lastEntity, used⟩ := last
    simp only [hlast] at h
    by_cases htime : bytes.length - (headerLen + used) < snapshotTimeLen
    · rw [if_pos htime] at h
      cases h
    rw [if_neg htime] at h
    cases hsnap : parseEntity (bytes.drop (headerLen + used + snapshotTimeLen)) with
    | none =>
      rw [hsnap] at h
      cases h
    | some snap =>
      obtain ⟨snapshotEntity, usedBy⟩ := snap
      simp only [hsnap] at h
      by_cases hend : headerLen + used + snapshotTimeLen + usedBy = bytes.length
      · rw [if_neg (not_not_intro hend), Option.some.injEq] at h
        subst h
        obtain ⟨hlastRange, -, hlastBytes⟩ := parseEntity_eq_some hlast
        obtain ⟨hsnapRange, -, hsnapBytes⟩ := parseEntity_eq_some hsnap
        have htimeLen : ((bytes.drop (headerLen + used)).take snapshotTimeLen).length =
            snapshotTimeLen :=
          List.length_take_of_le (by rw [List.length_drop]; exact Nat.le_of_not_lt htime)
        have hposition : ((bytes.take headerLen).take serialLen).length = 8 := by
          rw [List.length_take, List.length_take, headerLen, serialLen]
          rw [headerLen] at hlt
          omega
        have hprint : ((bytes.take headerLen).drop serialLen).length = 8 := by
          rw [List.length_drop, List.length_take, headerLen, serialLen]
          rw [headerLen] at hlt
          omega
        refine ⟨⟨readLe_le_u64Max hposition, hlastRange, ⟨readLe_le_u64Max htimeLen, hsnapRange⟩⟩,
          ?_⟩
        -- The tail of the token is the snapshot entity and nothing else.
        have htail : pushEntity [] snapshotEntity =
            bytes.drop (headerLen + used + snapshotTimeLen) := by
          rw [← hsnapBytes]
          exact List.take_of_length_le (by rw [List.length_drop]; omega)
        have hword : (UInt64.ofNat (readLe ((bytes.take headerLen).drop serialLen))).toNat =
            readLe ((bytes.take headerLen).drop serialLen) := by
          rw [UInt64.toNat_ofNat']
          refine Nat.mod_eq_of_lt (Nat.lt_of_lt_of_eq (readLe_lt _) ?_)
          rw [hprint]
          rfl
        rw [encode_eq]
        dsimp only
        rw [hword, writeLe_readLe_of_length hposition, writeLe_readLe_of_length hprint,
          writeLe_readLe_of_length htimeLen, htail, ← hlastBytes]
        simp only [← List.drop_drop, List.take_append_drop]
      · rw [if_pos hend] at h
        cases h

/-- The snapshot half of the encoding, after the header and the last entity. -/
theorem drop_encode (p : CursorPayload) :
    p.encode.drop (headerLen + (1 + idRegionLen p.lastEntity)) = boundaryBytes p.snapshot := by
  rw [encode_eq, ← List.append_assoc, ← boundaryBytes_eq]
  refine List.drop_left' ?_
  rw [List.length_append, List.length_append, length_pushEntity, length_writeLe, length_writeLe]
  rfl

/-- **The codec is exact.** Encoding then decoding is the identity on payloads of 64-bit words;
what decodes at all is the encoding of such a payload, byte for byte; and the boundary bytes a
lease is minted on are the snapshot half of the encoding and determine the boundary. -/
theorem codec_exact :
    (∀ p : CursorPayload, p.InRange → decode p.encode = .ok p) ∧
      (∀ (bytes : List UInt8) (p : CursorPayload),
        decode bytes = .ok p → p.InRange ∧ p.encode = bytes) ∧
      (∀ p : CursorPayload,
        p.encode.drop (headerLen + (1 + idRegionLen p.lastEntity)) = boundaryBytes p.snapshot) ∧
      ∀ left right : AdmissionKey, left.InRange → right.InRange →
        boundaryBytes left = boundaryBytes right → left = right := by
  refine ⟨fun p hp => decode_encode hp, ?_, drop_encode, fun left right => boundaryBytes_injective⟩
  intro bytes p h
  rw [decode] at h
  cases hparse : parse bytes with
  | none =>
    rw [hparse] at h
    cases h
  | some payload =>
    rw [hparse, Except.ok.injEq] at h
    exact parse_eq_some (h ▸ hparse)

/-- A payload anchored at one assigned record, its snapshot at another, read back from its token;
two boundaries that differ in their time have different bytes. -/
theorem codec_exact_assigned :
    decode (encode ⟨7, .assigned ⟨3⟩, 11, ⟨⟨9⟩, .assigned ⟨4⟩⟩⟩) =
        .ok ⟨7, .assigned ⟨3⟩, 11, ⟨⟨9⟩, .assigned ⟨4⟩⟩⟩ ∧
      boundaryBytes ⟨⟨9⟩, .assigned ⟨4⟩⟩ ≠ boundaryBytes ⟨⟨10⟩, .assigned ⟨4⟩⟩ := by
  refine ⟨codec_exact.1 _ ⟨by decide, by decide, by decide⟩, fun h => ?_⟩
  exact absurd (codec_exact.2.2.2 _ _ (by decide) (by decide) h) (by decide)

end CursorPayload

end RuntimeTrail
