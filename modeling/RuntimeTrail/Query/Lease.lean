import RuntimeTrail.Library.Digest
import RuntimeTrail.Query.Canonical
import RuntimeTrail.Query.Frontier

/-!
# Snapshot leases

An investigation pins its pages to the snapshot its first page minted: it presents
with every later cursor a lease over that boundary, and a page is answered under a
lease only where the cursor stays within it.

* **the boundary of a cursor** — `Walk.Pins`: a continuation hands back only cursors
  of the boundary it was presented;
* **the digest** — `fingerprint_ne_of_apart`: byte strings that differ in one byte
  never share a fingerprint;
* **the chain** — `followLeased`, and `leases_pin`: a lease never rejects its own
  chain, rejects every other one at once, and reaches across two boundaries only where
  their bytes collide.
-/

namespace RuntimeTrail

open Library

/-! ## The boundary of a cursor -/

/-- The tag at the front of two encodings tells the width of their id regions. -/
theorem idRegionLen_of_append {a b : EntityId} {rest rest' : List UInt8}
    (h : pushEntity [] a ++ rest = pushEntity [] b ++ rest') : idRegionLen a = idRegionLen b := by
  cases a with
  | span traceId spanId =>
    cases b with
    | span traceId' spanId' => rfl
    | assigned id => cases (List.cons.inj h).1
  | assigned id =>
    cases b with
    | span traceId spanId => cases (List.cons.inj h).1
    | assigned id' => rfl

/-- What a decoded cursor carries as its boundary has the bytes that were encoded. -/
theorem CursorPayload.boundary_of_decode {p p' : CursorPayload} (h : decode p.encode = .ok p') :
    boundaryBytes p'.snapshot = boundaryBytes p.snapshot := by
  have hsame := (codec_exact.2.1 _ _ h).2
  have hregions := hsame
  rw [encode_eq, encode_eq] at hregions
  obtain ⟨-, hregions⟩ := List.append_inj hregions (by simp)
  rw [← drop_encode, ← drop_encode, idRegionLen_of_append hregions, hsame]

namespace Walk

variable {input : WalkInput} {payload : CursorPayload} {w : Walk}

/-- Whatever a walk has stopped on, its cursor is of the boundary presented. -/
def Pins (payload : CursorPayload) (w : Walk) : Prop :=
  ∀ outcome ∈ w.stopped, ∀ bytes ∈ outcome.nextCursor, ∃ minted : CursorPayload,
    minted.snapshot = payload.snapshot ∧ bytes = minted.encode

/-- A walk keeps nothing asked of its keys. -/
theorem Holds.trivial (w : Walk) : w.Holds fun _ => True :=
  ⟨fun _ _ => True.intro, fun _ _ => True.intro, fun _ _ => True.intro⟩

/-- A minted cursor is of the boundary presented. -/
theorem Pins.of_mintsAt (hpresented : input.presented = some payload)
    (hbound : input.snapshotBound = some payload.snapshot) (frontier : Option AdmissionKey)
    (h : ∀ outcome ∈ w.stopped, MintsAt (fun _ => True) input frontier outcome ∨
      outcome.nextCursor = input.presented.map CursorPayload.encode) : w.Pins payload := by
  intro outcome hstopped bytes hbytes
  rcases h outcome hstopped with hmints | hecho
  · obtain ⟨key, -, rfl⟩ := hmints bytes hbytes
    refine ⟨input.mint frontier key, ?_, rfl⟩
    rw [WalkInput.mint, hbound]
    rfl
  · rw [hecho, hpresented] at hbytes
    exact ⟨payload, rfl, (Option.some.inj hbytes).symm⟩

theorem Pins.of_uncontinued {outcome : PartOutcome} (hstopped : w.stopped = some outcome)
    (hnone : outcome.nextCursor = none) : w.Pins payload := by
  intro outcome' houtcome bytes hbytes
  rw [hstopped] at houtcome
  rw [← Option.some.inj houtcome, hnone] at hbytes
  cases hbytes

theorem Pins.examine (hpresented : input.presented = some payload)
    (hbound : input.snapshotBound = some payload.snapshot) (h : w.Pins payload) (yielded : Yield)
    (tail : Nat) : (w.examine input yielded tail).Pins payload := by
  have hscanned : ∀ session, (w.scanned session yielded.key).Pins payload := fun session => by
    rw [Pins, (w.scanned_frame session yielded.key).2.2.2.2.2.2.2.2.1]
    exact h
  have hstops : ∀ (w' : Walk) (dimension : Dimension) (key : AdmissionKey) (tail : Nat),
      (w'.stopIncluding input dimension key tail).Pins payload := by
    intro w' dimension key tail
    refine Pins.of_mintsAt hpresented hbound w'.frontier fun outcome hstop => ?_
    exact (stopIncluding_mintsAt (Holds.trivial w') hstop).imp_right And.right
  have hall := w.examination input yielded tail
  generalize w.examine input yielded tail = w' at hall ⊢
  cases hall with
  | pastBound past =>
    exact Pins.of_mintsAt hpresented hbound _ fun _ hstop =>
      Or.inl (finish_mintsAt (Holds.trivial _) hstop)
  | unscanned within scan =>
    exact Pins.of_mintsAt hpresented hbound _ fun _ hstop =>
      Or.inl (stopBefore_mintsAt (Holds.trivial _) hstop)
  | skipped within scan filtered => exact hscanned _
  | counted within scan matching phase => exact hscanned _
  | resultsSpent within scan matching phase spent => exact hstops _ _ _ _
  | resultsRefused within scan matching phase unspent results => exact hstops _ _ _ _
  | unfit within scan matching phase unspent results wall => exact hscanned _
  | bytesRefused within scan matching phase unspent results fits bytes => exact hstops _ _ _ _
  | included within scan matching phase unspent results fits bytes => exact hscanned _

/-- Every turn keeps it. -/
theorem Pins.turnInvariant (hpresented : input.presented = some payload)
    (hbound : input.snapshotBound = some payload.snapshot) :
    TurnInvariant input (Pins payload) where
  pulled _ _ h := h
  examined _ tail _ h := h.examine hpresented hbound _ tail
  resumed _ _ h := h
  finished _ := Pins.of_mintsAt hpresented hbound _ fun _ hstop =>
    Or.inl (finish_mintsAt (Holds.trivial _) hstop)
  stalled _ _ := Pins.of_uncontinued rfl rfl

end Walk

/-- A continuation hands back cursors of the boundary it was presented, whatever stores and clock
answered it. -/
theorem answer_pins {stores : Nat → TelemetryStore} {query : RecordsQuery} {budget : QueryBudget}
    {clock : Clock} {payload : CursorPayload} {next : List UInt8}
    (h : (answer stores query budget clock (some payload)).nextCursor = some next) :
    ∃ minted : CursorPayload, minted.snapshot = payload.snapshot ∧ next = minted.encode := by
  unfold answer at h
  dsimp only at h
  split at h
  · exact absurd h (by simp [emptyPage])
  · obtain ⟨outcome, hstop, hcursor⟩ := walkRecords_nextCursor h
    exact (Walk.Pins.turnInvariant rfl rfl).run
      (fun _ hstopped => absurd hstopped (by simp [walkStart])) outcome hstop next hcursor

/-! ## The digest -/

/-- The digest's multiplier has an inverse among the words. -/
theorem fnvPrime_mul_inverse : (0x100000001b3 : UInt64) * 0xce965057aff6957b = 1 := by decide

/-- **One byte is never lost**: byte strings that differ in one place have different fingerprints. -/
theorem fingerprint_ne_of_apart {l m : List UInt8} (h : Apart l m) :
    fingerprint l ≠ fingerprint m := by
  refine foldl_ne_of_apart (fun byte => ?_) (fun hash => ?_) h _
  · exact (mul_right_injective_of_inverse fnvPrime_mul_inverse).comp fun s t hst =>
      (UInt64.xor_left_inj _).mp hst
  · exact (mul_right_injective_of_inverse fnvPrime_mul_inverse).comp fun x y hxy =>
      UInt8.toUInt64_inj.mp ((UInt64.xor_right_inj _).mp hxy)

/-! ## The chain -/

/-- The lease the compose flow presents: an investigation's pin on the boundary its first page
minted. -/
def SnapshotLease.forBoundary (investigation : Nat) (boundary : AdmissionKey) : SnapshotLease :=
  ⟨investigation, fingerprint (boundaryBytes boundary)⟩

/-- A lease governs a boundary exactly where the two share a fingerprint. -/
theorem SnapshotLease.governs_forBoundary {investigation : Nat} {a b : AdmissionKey} :
    (forBoundary investigation a).governs b = true ↔
      fingerprint (boundaryBytes b) = fingerprint (boundaryBytes a) := beq_iff_eq

/-- The chain from a cursor on, every page of it presented with the lease. -/
def followLeased (history : Nat → TelemetryStore) (query : RecordsQuery) (lease : SnapshotLease) :
    List UInt8 → List PageCall → List AnsweredPage
  | _, [] => []
  | bytes, call :: calls =>
    match recordsLeased (fun n => history (call.moments n)) query call.budget call.clock bytes
        lease with
    | .error _ => []
    | .ok page =>
      ⟨some bytes, call, page⟩ ::
        match page.nextCursor with
        | some next => followLeased history query lease next calls
        | none => []

/-- An investigation's chain: a first page, and every later one under the lease of the boundary that
page minted. -/
def followInvestigation (history : Nat → TelemetryStore) (query : RecordsQuery)
    (investigation : Nat) : List PageCall → List AnsweredPage
  | [] => []
  | call :: calls =>
    match records (fun n => history (call.moments n)) query call.budget call.clock none with
    | .error _ => []
    | .ok page =>
      ⟨none, call, page⟩ ::
        match page.nextCursor with
        | some bytes =>
          match CursorPayload.decode bytes with
          | .ok payload =>
            followLeased history query (.forBoundary investigation payload.snapshot) bytes calls
          | .error _ => []
        | none => []

section Continuation

variable {query : RecordsQuery} {bytes : List UInt8} {payload : CursorPayload}

/-- The validity test of a cursor that decodes: its query first, then its lease. -/
theorem presentedPayload_of_decode (hdecode : CursorPayload.decode bytes = .ok payload)
    (expected : UInt64) (lease : Option SnapshotLease) :
    presentedPayload expected bytes lease =
      if payload.fingerprint = expected then
        if lease.any (fun lease => !lease.governs payload.snapshot) then .error .leaseMismatch
        else .ok payload
      else .error .fingerprintMismatch := by
  unfold presentedPayload
  rw [hdecode]
  by_cases hown : payload.fingerprint = expected
  · rw [if_pos hown]
    cases lease with
    | none => simp [CursorPayload.verify, hown, pure, Except.pure, bind, Except.bind]
    | some lease =>
      cases hgoverns : lease.governs payload.snapshot <;>
        simp [CursorPayload.verify, CursorPayload.verifyLease, hown, hgoverns, pure, Except.pure,
          bind, Except.bind]
  · rw [if_neg hown]
    simp [CursorPayload.verify, hown, bind, Except.bind]

/-- A cursor that does not decode is refused, with a lease or without. -/
theorem recordsInner_of_malformed {error : CursorError}
    (hdecode : CursorPayload.decode bytes = .error error) (stores : Nat → TelemetryStore)
    (budget : QueryBudget) (clock : Clock) (lease : Option SnapshotLease) :
    recordsInner stores query budget clock (some bytes) lease = .error (.cursor error) := by
  unfold recordsInner presentedPayload
  dsimp only
  rw [hdecode]
  rfl

/-- What a page under a lease answers: what it answers without, where the lease governs the cursor's
boundary; an error that no store, budget or clock changes, where it does not. -/
theorem recordsLeased_eq (hdecode : CursorPayload.decode bytes = .ok payload)
    (lease : SnapshotLease) (stores : Nat → TelemetryStore) (budget : QueryBudget) (clock : Clock) :
    recordsLeased stores query budget clock bytes lease =
      if payload.fingerprint = fingerprint query.canonicalBytes ∧ lease.governs payload.snapshot = false
      then .error (.cursor .leaseMismatch)
      else records stores query budget clock (some bytes) := by
  unfold recordsLeased records recordsInner
  dsimp only
  rw [presentedPayload_of_decode hdecode, presentedPayload_of_decode hdecode]
  by_cases hown : payload.fingerprint = fingerprint query.canonicalBytes
  · cases hgoverns : lease.governs payload.snapshot <;> simp [hown, hgoverns]
  · simp [hown]

/-- Neither chain goes on from a cursor that does not decode. -/
theorem followLeased_of_malformed {error : CursorError}
    (hdecode : CursorPayload.decode bytes = .error error) (history : Nat → TelemetryStore)
    (lease : SnapshotLease) (calls : List PageCall) :
    followLeased history query lease bytes calls = [] ∧
      follow history query (some bytes) calls = [] := by
  cases calls with
  | nil => exact ⟨rfl, rfl⟩
  | cons call calls =>
    unfold followLeased follow recordsLeased records
    rw [recordsInner_of_malformed hdecode, recordsInner_of_malformed hdecode]
    exact ⟨rfl, rfl⟩

end Continuation

/-- **A lease never rejects its own chain.** -/
theorem followLeased_eq_follow (history : Nat → TelemetryStore) (query : RecordsQuery)
    {lease : SnapshotLease} {bytes : List UInt8} {payload : CursorPayload} (calls : List PageCall)
    (hdecode : CursorPayload.decode bytes = .ok payload)
    (hgoverns : lease.governs payload.snapshot = true) :
    followLeased history query lease bytes calls = follow history query (some bytes) calls := by
  induction calls generalizing bytes payload with
  | nil => rfl
  | cons call calls ih =>
    unfold followLeased follow
    rw [recordsLeased_eq hdecode, if_neg (by simp [hgoverns])]
    cases hpage : records (fun n => history (call.moments n)) query call.budget call.clock
        (some bytes) with
    | error error => rfl
    | ok page =>
      cases hnext : page.nextCursor with
      | none => simp only [hnext]
      | some next =>
        simp only [hnext]
        congr 1
        obtain ⟨presented, ⟨payload', hdecode', rfl⟩, rfl⟩ := recordsInner_eq_ok hpage
        obtain rfl := Except.ok.inj (hdecode.symm.trans hdecode')
        obtain ⟨minted, hsnapshot, rfl⟩ := answer_pins hnext
        cases hminted : CursorPayload.decode minted.encode with
        | ok decoded =>
          refine ih hminted ?_
          rw [SnapshotLease.governs, CursorPayload.boundary_of_decode hminted, hsnapshot]
          exact hgoverns
        | error error =>
          obtain ⟨hleased, hplain⟩ := followLeased_of_malformed hminted history lease calls
          exact hleased.trans hplain.symm

/-- **Leases pin.**  Over every history of a store, every query and every sequence of page calls, an
investigation's leased chain is the plain chain.  A lease over another boundary, presented with a
cursor of the query, is refused whatever the stores, the budget and the clock, unless the bytes of
the two boundaries share a fingerprint; then they differ in more than one place. -/
theorem leases_pin (query : RecordsQuery) (investigation : Nat) :
    (∀ (history : Nat → TelemetryStore) (calls : List PageCall),
      followInvestigation history query investigation calls = follow history query none calls) ∧
    ∀ (boundary : AdmissionKey) (bytes : List UInt8) (payload : CursorPayload),
      boundary.InRange → boundary ≠ payload.snapshot → CursorPayload.decode bytes = .ok payload →
      payload.fingerprint = fingerprint query.canonicalBytes →
        (∀ (stores : Nat → TelemetryStore) (budget : QueryBudget) (clock : Clock),
          recordsLeased stores query budget clock bytes (.forBoundary investigation boundary) =
            .error (.cursor .leaseMismatch)) ∨
        boundaryBytes boundary ≠ boundaryBytes payload.snapshot ∧
          fingerprint (boundaryBytes payload.snapshot) = fingerprint (boundaryBytes boundary) ∧
          ¬ Apart (boundaryBytes boundary) (boundaryBytes payload.snapshot) := by
  refine ⟨fun history calls => ?_, fun boundary bytes payload hrange hother hdecode hown => ?_⟩
  · cases calls with
    | nil => rfl
    | cons call calls =>
      rw [followInvestigation, follow]
      cases hpage : records (fun n => history (call.moments n)) query call.budget call.clock none with
      | error error => rfl
      | ok page =>
        cases hnext : page.nextCursor with
        | none => simp only [hnext]
        | some bytes =>
          simp only [hnext]
          congr 1
          cases hdecode : CursorPayload.decode bytes with
          | ok payload =>
            exact followLeased_eq_follow history query calls hdecode
              (SnapshotLease.governs_forBoundary.mpr rfl)
          | error error =>
            exact (followLeased_of_malformed hdecode history ⟨investigation, 0⟩ calls).2.symm
  · by_cases hshared :
        fingerprint (boundaryBytes payload.snapshot) = fingerprint (boundaryBytes boundary)
    · refine Or.inr ⟨fun hsame => hother ?_, hshared, fun hapart => ?_⟩
      · exact boundaryBytes_injective hrange (CursorPayload.codec_exact.2.1 _ _ hdecode).1.snapshot
          hsame
      · exact fingerprint_ne_of_apart hapart hshared.symm
    · refine Or.inl fun stores budget clock => ?_
      rw [recordsLeased_eq hdecode, if_pos]
      refine ⟨hown, Bool.eq_false_iff.mpr fun hgoverns => hshared ?_⟩
      exact SnapshotLease.governs_forBoundary.mp hgoverns

/-- The lease of a boundary one nanosecond later never pages behind the first of three logs. -/
theorem leases_pin_nextNanosecond :
    recordsLeased (fun _ => (lateLog 7).history 2) (.new .logRecords) budgetOfOne still
      behindFirst.encode (.forBoundary 7 ⟨⟨3⟩, .serial 3⟩) = .error (.cursor .leaseMismatch) := by
  have hrefused := (leases_pin (.new .logRecords) 7).2 ⟨⟨3⟩, .serial 3⟩ behindFirst.encode behindFirst
    (by decide) (by decide) (CursorPayload.decode_encode ⟨by decide, by decide, by decide⟩) rfl
  rcases hrefused with hrefused | ⟨-, -, hapart⟩
  · exact hrefused _ _ _
  · exact absurd ⟨[], 3, 2, _, by decide, rfl, rfl⟩ hapart

end RuntimeTrail
