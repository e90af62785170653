import RuntimeTrail.Runtime.Standing

/-!
# What every step of a session keeps

Between any two steps the hook owes the ledger at most one ending: a record that
has left the store and is still to be forgotten, and a stream that retired with
it and is still to be released.  `Sound` says what holds around that ending: the
ledger stands for the live records and the ending one, and every interned stream
is one of a live point or is about to be released.

* **admission** — `ExportSound`: what one export's admissions keep, up to its two
  ends (`Sound.exported`);
* **the store** — `Sound.refused`, `Sound.entered`, `Sound.evicted`;
* **the hook** — `Sound.called`;
* **every run** — `sound_of_reaches`.
-/

namespace RuntimeTrail

open Library

/-! ## Streams with something behind them -/

/-- A list of streams has one equal to this. -/
def Backs (streams : List StreamIdentity) (P : StreamIdentity) : Prop :=
  ∃ Q ∈ streams, (Q == P) = true

theorem Backs.of_mem {streams : List StreamIdentity} {P : StreamIdentity} (h : P ∈ streams) :
    Backs streams P := ⟨P, h, BEq.rfl⟩

theorem Backs.of_beq {streams : List StreamIdentity} {P P' : StreamIdentity}
    (h : Backs streams P) (heq : (P == P') = true) : Backs streams P' := by
  obtain ⟨Q, hQ, hQP⟩ := h
  exact ⟨Q, hQ, BEq.trans hQP heq⟩

theorem Backs.mono {streams streams' : List StreamIdentity} {P : StreamIdentity}
    (h : Backs streams P) (hsub : ∀ Q ∈ streams, Backs streams' Q) : Backs streams' P := by
  obtain ⟨Q, hQ, hQP⟩ := h
  exact (hsub Q hQ).of_beq hQP

theorem mem_streamsOf_append {a b : List Entry} {P : StreamIdentity} :
    P ∈ streamsOf (a ++ b) ↔ P ∈ streamsOf a ∨ P ∈ streamsOf b := by
  rw [streamsOf, List.filterMap_append, List.mem_append]
  rfl

theorem mem_streamsOf_perm {a b : List Entry} (h : a.Perm b) {P : StreamIdentity} :
    P ∈ streamsOf a ↔ P ∈ streamsOf b := (h.filterMap _).mem_iff

/-- What keeps a stream interned: its live points, and the release that is on its way. -/
def backing (records : List Entry) (released : Option StreamIdentity) : List StreamIdentity :=
  streamsOf records ++ released.toList

theorem Backs.of_record {records : List Entry} {released : Option StreamIdentity}
    {P : StreamIdentity} (h : P ∈ streamsOf records) : Backs (backing records released) P :=
  .of_mem (List.mem_append_left _ h)

theorem Backs.of_released {records : List Entry} {P : StreamIdentity} :
    Backs (backing records (some P)) P := .of_mem (List.mem_append_right _ (by simp))

/-! ## An export's admissions -/

/-- An offer-set whose admissions interned a stream equal to this one. -/
def FreshIn (pending : List PendingOffer) (P : StreamIdentity) : Prop :=
  ∃ offer ∈ pending, ∃ S, offer.freshInternStream = some S ∧ (S == P) = true

theorem FreshIn.append {pending : List PendingOffer} {P : StreamIdentity}
    (h : FreshIn pending P) (offer : PendingOffer) : FreshIn (pending ++ [offer]) P := by
  obtain ⟨o, ho, hS⟩ := h
  exact ⟨o, List.mem_append_left _ ho, hS⟩

/-- An admission leaves interned what is, and interns no stream that is. -/
theorem Admits.keeps {x x' : Export} {P : StreamIdentity} (hx : Admits x x')
    (hP : x.ledger.streams.contains P = true) (hfresh : ¬ FreshIn x.pending P) :
    x'.ledger.streams.contains P = true ∧ ¬ FreshIn x'.pending P := by
  have hdefer : ∀ {offer : PendingOffer}, (∀ S, offer.freshInternStream = some S →
      (S == P) = false) → ¬ FreshIn (x.pending ++ [offer]) P := by
    rintro offer hoffer ⟨o, ho, S, hS, hSP⟩
    rcases List.mem_append.mp ho with ho | ho
    · exact hfresh ⟨o, ho, S, hS, hSP⟩
    · obtain rfl := List.mem_singleton.mp ho
      rw [hoffer S hS] at hSP
      exact absurd hSP (by simp)
  cases hx with
  | nothing anomalies hledger hpending =>
    rw [hledger, hpending]
    exact ⟨hP, hfresh⟩
  | interned anomalies key entity stream _ _ _ hledger hpending =>
    rw [hledger, hpending, ContentMap.contains_insert, hP, Bool.or_true]
    exact ⟨rfl, hfresh⟩
  | span now key record _ _ hledger hpending =>
    rw [hledger, hpending]
    exact ⟨hP, hdefer fun S hS => absurd hS (by simp)⟩
  | assigned now record _ hledger hpending =>
    rw [hledger, hpending]
    exact ⟨hP, hdefer fun S hS => absurd hS (by simp)⟩
  | point now stream point _ hledger hpending =>
    rw [hledger, hpending]
    change (x.ledger.intern stream).1.streams.contains P = true ∧ _
    rcases x.ledger.intern_cases stream with ⟨standing, -, heq⟩ | ⟨hnone, heq⟩ <;> rw [heq]
    · exact ⟨hP, hdefer fun S hS => absurd hS (by simp)⟩
    · refine ⟨by rw [ContentMap.contains_insert, hP, Bool.or_true], hdefer fun S hS => ?_⟩
      obtain rfl : stream = S := Option.some.inj hS
      by_contra hSP
      rw [← ContentMap.contains_congr _ (by simpa using hSP), ContentMap.contains, hnone] at hP
      exact absurd hP (by simp)

theorem Admits.keeps_chain {x x' : Export} {P : StreamIdentity}
    (hx : Relation.ReflTransGen Admits x x') (hP : x.ledger.streams.contains P = true)
    (hfresh : ¬ FreshIn x.pending P) :
    x'.ledger.streams.contains P = true ∧ ¬ FreshIn x'.pending P := by
  induction hx with
  | refl => exact ⟨hP, hfresh⟩
  | tail _ hstep ih => exact hstep.keeps ih.1 ih.2

/-- What an export's admissions keep, beside records whose streams are backed. -/
structure ExportSound (x : Export) (records : List Entry) (back : List StreamIdentity) :
    Prop where
  standing : Standing x.ledger (Standing.offered x.pending ++ records)
  interned : ∀ P, x.ledger.streams.contains P = true → Backs back P ∨ FreshIn x.pending P
  offered : ∀ P ∈ streamsOf (Standing.offered x.pending), x.ledger.streams.contains P = true
  fresh : ∀ offer ∈ x.pending, ∀ S, offer.freshInternStream = some S →
    offer.queued.entry.2.stream? = some S

namespace ExportSound

variable {x x' : Export} {records : List Entry} {back : List StreamIdentity}

/-- An admission that defers a record without a stream. -/
theorem defer_plain (h : ExportSound x records back) {offer : PendingOffer}
    (hstanding : Standing x'.ledger (Standing.offered x'.pending ++ records))
    (hstreams : x'.ledger.streams = x.ledger.streams) (hpending : x'.pending = x.pending ++ [offer])
    (hstream : offer.queued.entry.2.stream? = none) (hfresh : offer.freshInternStream = none) :
    ExportSound x' records back where
  standing := hstanding
  interned P hP := by
    rw [hstreams] at hP
    rw [hpending]
    exact (h.interned P hP).imp_right fun hfresh => hfresh.append offer
  offered P hP := by
    rw [hpending, Standing.offered, List.map_append, mem_streamsOf_append] at hP
    rw [hstreams]
    rcases hP with hP | hP
    · exact h.offered P hP
    · exact absurd hP (by simp [streamsOf, hstream])
  fresh o ho S hS := by
    rw [hpending] at ho
    rcases List.mem_append.mp ho with ho | ho
    · exact h.fresh o ho S hS
    · obtain rfl := List.mem_singleton.mp ho
      exact absurd (hfresh.symm.trans hS) (by simp)

theorem admits (h : ExportSound x records back) (hback : ∀ P ∈ streamsOf records, Backs back P)
    (hx : Admits x x') : ExportSound x' records back := by
  have hstanding := h.standing.admits hx
  cases hx with
  | nothing anomalies hledger hpending =>
    refine ⟨hstanding, ?_, ?_, ?_⟩ <;> rw [hpending]
    · rw [hledger]; exact h.interned
    · rw [hledger]; exact h.offered
    · exact h.fresh
  | interned anomalies key entity stream hfresh hstands hsame hledger hpending =>
    -- the standing point of this stream is none of this export's: theirs are interned
    obtain ⟨⟨k, r⟩, he, hentry⟩ := List.mem_filterMap.mp (h.standing.points.mem_iff.mp hstands)
    have hback' : Backs back stream := by
      cases r with
      | point slot =>
        obtain ⟨rfl, -⟩ := Prod.mk.inj (Option.some.inj hentry)
        have hsame : (slot.stream == stream) = true := hsame
        have hmem := mem_streamsOf_append.mp (List.mem_filterMap.mpr ⟨_, he, rfl⟩ :
          slot.stream ∈ streamsOf (Standing.offered x.pending ++ records))
        rcases hmem with hmem | hmem
        · have hin := h.offered _ hmem
          rw [ContentMap.contains_congr _ hsame, ContentMap.contains, hfresh] at hin
          exact absurd hin (by simp)
        · exact (hback _ hmem).of_beq hsame
      | span record => exact absurd hentry (by simp [pointEntry])
      | log record => exact absurd hentry (by simp [pointEntry])
    refine ⟨hstanding, fun P hP => ?_, fun P hP => ?_, ?_⟩
    · rw [hledger, ContentMap.contains_insert, Bool.or_eq_true] at hP
      rw [hpending]
      rcases hP with hP | hP
      · exact Or.inl (hback'.of_beq hP)
      · exact h.interned P hP
    · rw [hpending] at hP
      rw [hledger, ContentMap.contains_insert, h.offered P hP, Bool.or_true]
    · rw [hpending]; exact h.fresh
  | span now key record hnat habsent hledger hpending =>
    exact h.defer_plain hstanding (by rw [hledger]) hpending rfl rfl
  | assigned now record hunnamed hledger hpending =>
    refine h.defer_plain hstanding (by rw [hledger]; rfl) hpending ?_ rfl
    cases record with
    | point stream point => exact hunnamed.elim
    | _ => rfl
  | point now stream point habsent hledger hpending =>
    have hstreams : x'.ledger.streams = (x.ledger.intern stream).1.streams := by rw [hledger]; rfl
    have hgrown : ∀ P, x.ledger.streams.contains P = true → x'.ledger.streams.contains P = true := by
      intro P hP
      rw [hstreams, AdmissionLedger.contains_intern, hP, Bool.true_or]
    refine ⟨hstanding, fun P hP => ?_, fun P hP => ?_, fun o ho S hS => ?_⟩
    · rw [hstreams] at hP
      rw [hpending]
      rcases x.ledger.intern_cases stream with ⟨standing, -, heq⟩ | ⟨-, heq⟩ <;>
        rw [heq] at hP ⊢
      · exact (h.interned P hP).imp_right fun hfresh => hfresh.append _
      · rw [ContentMap.contains_insert, Bool.or_eq_true] at hP
        rcases hP with hP | hP
        · exact Or.inr ⟨_, List.mem_append_right _ (List.mem_singleton_self _), stream, rfl, hP⟩
        · exact (h.interned P hP).imp_right fun hfresh => hfresh.append _
    · rw [hpending, Standing.offered, List.map_append, mem_streamsOf_append] at hP
      rcases hP with hP | hP
      · exact hgrown P (h.offered P hP)
      · -- the point's own stream is the handle that stands
        obtain rfl : P = (x.ledger.intern stream).2.1 := by
          simpa [streamsOf, QueuedRecord.entry, StoredRecord.resident, Resident.stream?] using hP
        rw [hstreams, AdmissionLedger.contains_intern, BEq.symm (x.ledger.intern_beq stream),
          Bool.or_true]
    · rw [hpending] at ho
      rcases List.mem_append.mp ho with ho | ho
      · exact h.fresh o ho S hS
      · obtain rfl := List.mem_singleton.mp ho
        dsimp only at hS
        split at hS
        · exact hS
        · exact absurd hS (by simp)

theorem chain (hx : Relation.ReflTransGen Admits x x')
    (hback : ∀ P ∈ streamsOf records, Backs back P) (h : ExportSound x records back) :
    ExportSound x' records back := by
  induction hx with
  | refl => exact h
  | tail _ hstep ih => exact ih.admits hback hstep

end ExportSound

/-- The undo leaves a stream interned that was, unless the export interned it. -/
theorem contains_undoExport (P : StreamIdentity) : ∀ (pending : List PendingOffer)
    (l : AdmissionLedger), (Pipeline.undoExport pending l).streams.contains P = true ↔
      l.streams.contains P = true ∧ ¬ FreshIn pending P := by
  intro pending
  induction pending with
  | nil => intro l; simp [Pipeline.undoExport, FreshIn]
  | cons offer rest ih =>
    intro l
    have hcons : FreshIn (offer :: rest) P ↔
        (∃ S, offer.freshInternStream = some S ∧ (S == P) = true) ∨ FreshIn rest P := by
      simp [FreshIn]
    unfold Pipeline.undoExport
    dsimp only
    rw [ih, hcons]
    cases hS : offer.freshInternStream with
    | none => simp
    | some S =>
      simp only [AdmissionLedger.releaseStream, ContentMap.contains_erase,
        AdmissionLedger.streams_forget,
        Bool.and_eq_true, Bool.not_eq_true', Option.some.injEq, exists_eq_left', not_or,
        Bool.not_eq_true]
      tauto

/-! ## The session -/

/-- The calls an ending owes the ledger: the record's, then its stream's. -/
def owed (ending : Option Entry) (released : Option StreamIdentity) : List LedgerCall :=
  ending.toList.map (fun e => .forget e.1.entity) ++ released.toList.map .releaseStream

theorem owed_eq_nil {ending : Option Entry} {released : Option StreamIdentity}
    (h : owed ending released = []) : ending = none ∧ released = none := by
  cases ending <;> cases released <;> simp_all [owed]

/-- The stream a removal retires: the removed point's, when no record left behind is of it. -/
def retired (stream : Option StreamIdentity) (later : List Entry) : Option StreamIdentity :=
  match stream with
  | none => none
  | some P => if (streamsOf later).any (· == P) then none else some P

theorem flatMap_releaseCall (stream : Option StreamIdentity) (later : List Entry) :
    (releaseCall stream later).flatMap ledgerHook =
      (retired stream later).toList.map .releaseStream := by
  cases stream with
  | none => rfl
  | some P =>
    by_cases hany : (streamsOf later).any (· == P) = true
    · simp only [releaseCall, retired, if_pos hany]
      rfl
    · simp only [releaseCall, retired, if_neg hany]
      rfl

/-- What holds of a session between any two steps, around the ending the hook owes. -/
structure Sound (s : Session) (ending : Option Entry) (released : Option StreamIdentity) :
    Prop where
  hook : s.hook = owed ending released
  idle : s.lock = .free → s.hook = []
  wired : s.store.hook = true
  coherent : s.store.Coherent
  standing : Standing s.ledger (ending.toList ++ s.live)
  backed : ∀ P, s.ledger.streams.contains P = true → Backs (backing s.live released) P
  endingBacked : ∀ P ∈ streamsOf ending.toList, Backs (backing s.live released) P

namespace Sound

variable {s t : Session} {ending : Option Entry} {released : Option StreamIdentity}

theorem new (limits : BudgetLimits) (payloadCeilingBytes queueCeilingBytes : Nat)
    (config : RetentionConfig) :
    Sound (Session.new limits payloadCeilingBytes queueCeilingBytes config) none none where
  hook := rfl
  idle _ := rfl
  wired := rfl
  coherent := .new config true
  standing := by
    rw [Session.live_new]
    exact Standing.new limits
  backed P hP := absurd hP (by
    simp [Session.new, Session.ledger, Pipeline.new, AdmissionLedger.new, ContentMap.contains,
      ContentMap.getPair?, ContentMap.empty])
  endingBacked P hP := absurd hP (by simp [streamsOf])

/-- A step that moves records between the parties, and nothing else. -/
theorem frame (h : Sound s ending released) (hledger : t.ledger = s.ledger)
    (hhook : t.hook = s.hook) (hidle : t.lock = .free → t.hook = [])
    (hwired : t.store.hook = true) (hcoherent : t.store.Coherent) (hlive : s.live.Perm t.live) :
    Sound t ending released := by
  have hbacking : ∀ Q ∈ backing s.live released, Backs (backing t.live released) Q := by
    intro Q hQ
    rcases List.mem_append.mp hQ with hQ | hQ
    · exact .of_record ((mem_streamsOf_perm hlive).mp hQ)
    · exact .of_mem (List.mem_append_right _ hQ)
  exact
    { hook := hhook.trans h.hook
      idle := hidle
      wired := hwired
      coherent := hcoherent
      standing := by rw [hledger]; exact h.standing.perm (hlive.append_left _)
      backed := fun P hP => (h.backed P (hledger ▸ hP)).mono hbacking
      endingBacked := fun P hP => (h.endingBacked P hP).mono hbacking }

/-- No record the pump can bring is resident already. -/
theorem not_duplicate (h : Sound s ending released) {q : QueuedRecord} (hheld : s.held = some q) :
    s.store.holds q.entity q.record.resident = false := by
  by_contra hholds
  have hresident : ∃ e ∈ s.store.merged, e.1.entity = q.entity := by
    have hshelf : ∀ {R : Type} {shelf : Shelf R} (tag : R → Resident), shelf.Indexed →
        shelf.contains q.entity = true → ∃ e ∈ shelf.tagged tag, e.1.entity = q.entity := by
      intro R shelf tag hindexed hcontains
      obtain ⟨p, hp, hent⟩ := hindexed.contains_iff.mp hcontains
      exact ⟨_, List.mem_map.mpr ⟨p, hp, rfl⟩, hent⟩
    rw [Bool.not_eq_false] at hholds
    cases hr : q.record.resident with
    | span record =>
      rw [hr] at hholds
      obtain ⟨e, he, hent⟩ := hshelf .span h.coherent.spans hholds
      exact ⟨e, InMemoryStore.mem_merged.mpr (Or.inl he), hent⟩
    | log record =>
      rw [hr] at hholds
      obtain ⟨e, he, hent⟩ := hshelf .log h.coherent.logs hholds
      exact ⟨e, InMemoryStore.mem_merged.mpr (Or.inr (Or.inl he)), hent⟩
    | point slot =>
      rw [hr] at hholds
      obtain ⟨e, he, hent⟩ := hshelf .point h.coherent.points hholds
      exact ⟨e, InMemoryStore.mem_merged.mpr (Or.inr (Or.inr he)), hent⟩
  obtain ⟨e, he, hent⟩ := hresident
  -- the held record and the resident one would be two records of one entity
  have hdistinct := h.standing.distinct
  rw [List.map_append, List.nodup_append] at hdistinct
  have hlive := hdistinct.2.1
  rw [Session.live, hheld, List.map_append, List.nodup_append] at hlive
  have hrest := hlive.2.1
  rw [Option.toList_some, List.map_singleton, List.singleton_append, List.map_cons,
    List.nodup_cons] at hrest
  exact hrest.1 (List.mem_map.mpr ⟨e, he, hent⟩)

/-! ### Exports -/

theorem openExport (h : Sound s ending released) :
    ExportSound s.pipeline.openExport (ending.toList ++ s.live) (backing s.live released) where
  standing := h.standing
  interned P hP := Or.inl (h.backed P hP)
  offered P hP := absurd hP (by simp [Pipeline.openExport, Standing.offered, streamsOf])
  fresh o ho := absurd ho (by simp [Pipeline.openExport])

theorem recordsBacked (h : Sound s ending released) :
    ∀ P ∈ streamsOf (ending.toList ++ s.live), Backs (backing s.live released) P := by
  intro P hP
  rcases mem_streamsOf_append.mp hP with hP | hP
  · exact h.endingBacked P hP
  · exact .of_record hP

/-- An export moves the ledger and the queue together, or puts the ledger back. -/
theorem exported (h : Sound s ending released) {e : Session.Event}
    {admitted : Except AdmissionSignal Export} (he : s.admitted e = some admitted) :
    Sound { s with pipeline := (s.pipeline.ingest admitted).1 } ending released := by
  rcases s.pipeline.ingest_cases admitted with ⟨signal, heq⟩ | ⟨x, rfl, -, hledger, hitems⟩ |
    ⟨x, rfl, -, hledger, hsink⟩
  · rw [heq]
    exact h
  · -- handed over: the offer-set joins the queue
    have hx := h.openExport.chain (Session.admits_of_admitted he) h.recordsBacked
    have hlive : (Standing.offered x.pending ++ s.live).Perm
        (Session.live { s with pipeline := (s.pipeline.ingest (.ok x)).1 }) := by
      simp only [Session.live, hitems, List.map_append, List.append_assoc, List.map_map]
      exact List.perm_append_comm_assoc _ _ _
    have hbacking : ∀ Q ∈ backing s.live released, Backs
        (backing (Session.live { s with pipeline := (s.pipeline.ingest (.ok x)).1 }) released) Q := by
      intro Q hQ
      rcases List.mem_append.mp hQ with hQ | hQ
      · exact .of_record ((mem_streamsOf_perm hlive).mp (mem_streamsOf_append.mpr (Or.inr hQ)))
      · exact .of_mem (List.mem_append_right _ hQ)
    refine ⟨h.hook, h.idle, h.wired, h.coherent, ?_, fun P hP => ?_, fun P hP => ?_⟩
    · change Standing (s.pipeline.ingest (.ok x)).1.ledger _
      rw [hledger]
      refine hx.standing.perm ((List.perm_append_comm_assoc _ _ _).trans ?_)
      exact hlive.append_left _
    · change (s.pipeline.ingest (.ok x)).1.ledger.streams.contains P = true at hP
      rw [hledger] at hP
      rcases hx.interned P hP with hback | ⟨offer, ho, S, hS, hSP⟩
      · exact hback.mono hbacking
      · have hmem : S ∈ streamsOf (Standing.offered x.pending) :=
          List.mem_filterMap.mpr ⟨_, List.mem_map.mpr ⟨offer, ho, rfl⟩, hx.fresh offer ho S hS⟩
        exact (Backs.of_record ((mem_streamsOf_perm hlive).mp
          (mem_streamsOf_append.mpr (Or.inl hmem)))).of_beq hSP
    · exact (h.endingBacked P hP).mono hbacking
  · -- refused by the queue: what its admissions created is taken back
    have hx := h.openExport.chain (Session.admits_of_admitted he) h.recordsBacked
    have hlive : Session.live { s with pipeline := (s.pipeline.ingest (.ok x)).1 } = s.live := by
      simp only [Session.live, hsink]
    refine ⟨h.hook, h.idle, h.wired, h.coherent, ?_, fun P hP => ?_, fun P hP => ?_⟩
    · change Standing (s.pipeline.ingest (.ok x)).1.ledger _
      rw [hledger, hlive]
      exact Standing.undoExport x.pending hx.standing
    · change (s.pipeline.ingest (.ok x)).1.ledger.streams.contains P = true at hP
      rw [hledger, contains_undoExport] at hP
      rw [hlive]
      exact (hx.interned P hP.1).resolve_right hP.2
    · rw [hlive]
      exact h.endingBacked P hP

/-! ### The store -/

/-- A record leaves the session, and the hook owes its ending. -/
theorem ended (h : Sound s none none) {e : Entry} {retired : Option StreamIdentity}
    (hledger : t.ledger = s.ledger) (hhook : t.hook = owed (some e) retired)
    (hlock : t.lock ≠ .free) (hwired : t.store.hook = true) (hcoherent : t.store.Coherent)
    (hlive : s.live.Perm (e :: t.live))
    (hstream : ∀ P, e.2.stream? = some P → Backs (backing t.live retired) P) :
    Sound t (some e) retired := by
  have hending : ∀ P ∈ streamsOf [e], Backs (backing t.live retired) P := by
    intro P hP
    obtain ⟨f, hf, hfP⟩ := List.mem_filterMap.mp hP
    obtain rfl := List.mem_singleton.mp hf
    exact hstream P hfP
  have hbacking : ∀ Q ∈ backing s.live none, Backs (backing t.live retired) Q := by
    intro Q hQ
    have hQ : Q ∈ streamsOf s.live := by simpa [backing] using hQ
    have hQ : Q ∈ streamsOf ([e] ++ t.live) := (mem_streamsOf_perm hlive).mp hQ
    rcases mem_streamsOf_append.mp hQ with hQ | hQ
    · exact hending Q hQ
    · exact .of_record hQ
  exact
    { hook := hhook
      idle := fun hfree => absurd hfree hlock
      wired := hwired
      coherent := hcoherent
      standing := by rw [hledger]; exact h.standing.perm hlive
      backed := fun P hP => (h.backed P (hledger ▸ hP)).mono hbacking
      endingBacked := hending }

/-- A refused record ends: it is to be forgotten, and a point's stream released. -/
theorem refused (h : Sound s ending released) {q : QueuedRecord} {outcome : KeepOutcome}
    (hlock : s.lock = .free) (hheld : s.held = some q)
    (hr : s.store.refusal q.entity q.record.resident = some outcome) :
    Sound { s with
      held := none
      store := (s.store.refuse q.entity q.record.resident outcome).store
      lock := .keeping none
      hook := (s.store.refuse q.entity q.record.resident outcome).calls.flatMap ledgerHook }
      (some q.entry) q.record.resident.stream? := by
  obtain ⟨rfl, rfl⟩ := owed_eq_nil (h.hook.symm.trans (h.idle hlock))
  have hrefused := @InMemoryStore.refused_of_refusal _ q.entry.1 _ _ hr
  have hne : outcome ≠ .duplicate := by
    rintro rfl
    have := InMemoryStore.holds_of_duplicate hr
    rw [h.not_duplicate hheld] at this
    exact absurd this (by simp)
  have hcalls : (s.store.refuse q.entity q.record.resident outcome).calls =
      [.keepRefused q.entity q.record.resident.stream?] :=
    hrefused.calls.trans (if_pos ⟨h.wired, hne⟩)
  obtain ⟨-, -, -, -, -, -, -, hhook, -⟩ :=
    s.store.refuse_frame q.entity q.record.resident outcome
  have hmerged := s.store.merged_refuse q.entity q.record.resident outcome
  refine h.ended (e := q.entry) rfl ?_ (by simp) (hhook.trans h.wired) (h.coherent.refuse _ _ _) ?_
    fun P hP => ?_
  · change List.flatMap ledgerHook _ = _
    rw [hcalls]
    cases q.record.resident.stream? <;> rfl
  · exact Session.live_refused rfl hheld rfl hmerged
  · have hP : q.record.resident.stream? = some P := hP
    rw [hP]
    exact .of_released

/-- An accepted record moves from the pump's hand to its shelf. -/
theorem entered (h : Sound s ending released) {q : QueuedRecord}
    (hheld : s.held = some q) (hr : s.store.refusal q.entity q.record.resident = none) :
    Sound { s with
      held := none
      store := s.store.enter q.entry.1 q.record.resident
      lock := .keeping (some q.admittedAt) } ending released := by
  obtain ⟨-, hhook, -⟩ := s.store.enter_frame q.entry.1 q.record.resident
  have hr : s.store.refusal q.entry.1.entity q.record.resident = none := hr
  refine h.frame rfl rfl (fun hfree => absurd hfree (by simp)) (hhook.trans h.wired)
    (h.coherent.enter hr) ?_
  exact Session.live_kept rfl hheld rfl
    (h.coherent.tallied.merged_enter (InMemoryStore.not_holds_of_refusal hr))

/-- An evicted record ends: it is to be forgotten, and its stream released if it retired. -/
theorem evicted (h : Sound s ending released) {now : AdmissionTime} {pass : InMemoryStore.Pass}
    (hhook : s.hook = []) (hnow : s.lock.reading = some now)
    (hturn : InMemoryStore.evictOne now ⟨s.store, 0, []⟩ = some pass) :
    ∃ e, s.store.merged = e :: pass.store.merged ∧
      Sound { s with store := pass.store, hook := pass.calls.flatMap ledgerHook } (some e)
        (retired e.2.stream? pass.store.merged) := by
  obtain ⟨rfl, rfl⟩ := owed_eq_nil (h.hook.symm.trans hhook)
  have hcoherent := h.coherent.evictOne hturn
  obtain ⟨cause, key, r, gone, s', -, hmerged, hremoves, rfl⟩ := InMemoryStore.evictOne_spec hturn
  obtain ⟨-, hwired, -⟩ := hremoves.frame
  have hwired : s'.hook = true := hwired.trans h.wired
  have hcalls := hremoves.released_eq h.coherent
  refine ⟨(key, r), hmerged, h.ended rfl ?_ ?_ hwired hcoherent ?_ fun P hP => ?_⟩
  · simp only [hwired, List.nil_append, hcalls, List.flatMap_cons, flatMap_releaseCall]
    rfl
  · intro hfree
    have hfree : s.lock = .free := hfree
    rw [hfree] at hnow
    exact absurd hnow (by simp [StoreLock.reading])
  · exact Session.live_evicted rfl rfl hmerged
  · have hP : r.stream? = some P := hP
    by_cases hany : (streamsOf s'.merged).any (· == P) = true
    · -- another resident point of the stream stays
      obtain ⟨Q, hQ, hQP⟩ := List.any_eq_true.mp hany
      refine Backs.of_beq (.of_record (mem_streamsOf_append.mpr (Or.inr ?_))) hQP
      exact mem_streamsOf_append.mpr (Or.inr hQ)
    · have hretired : retired r.stream? s'.merged = some P := by
        simp only [retired, hP, if_neg hany]
      exact hretired ▸ .of_released

/-! ### The hook -/

/-- A call of the hook ends what it names. -/
theorem called (h : Sound s ending released) {call : LedgerCall} {rest : List LedgerCall}
    (hhook : s.hook = call :: rest) :
    ∃ ending' released', Sound { s with
      pipeline := { s.pipeline with ledger := call.run s.ledger }, hook := rest }
        ending' released' := by
  have howed := h.hook.symm.trans hhook
  have hlock : s.lock ≠ .free := fun hfree => by
    rw [h.idle hfree] at hhook
    exact absurd hhook (by simp)
  cases ending with
  | some e =>
    -- the record is forgotten first; its stream still waits
    obtain ⟨rfl, hrest⟩ : .forget e.1.entity = call ∧ owed none released = rest := by
      simpa [owed] using howed
    refine ⟨none, released, hrest.symm, fun hfree => absurd hfree hlock, h.wired, h.coherent,
      h.standing.forget, fun P hP => h.backed P ?_, fun P hP => absurd hP (by simp [streamsOf])⟩
    have hP : (s.ledger.forget e.1.entity).streams.contains P = true := hP
    rwa [AdmissionLedger.streams_forget] at hP
  | none =>
    cases released with
    | none => exact absurd howed (by simp [owed])
    | some R =>
      obtain ⟨rfl, rfl⟩ : .releaseStream R = call ∧ [] = rest := by simpa [owed] using howed
      refine ⟨none, none, rfl, fun _ => rfl, h.wired, h.coherent, h.standing.releaseStream R,
        fun P hP => ?_, fun P hP => absurd hP (by simp [streamsOf])⟩
      have hP : (s.ledger.releaseStream R).streams.contains P = true := hP
      rw [AdmissionLedger.releaseStream, ContentMap.contains_erase, Bool.and_eq_true,
        Bool.not_eq_true'] at hP
      obtain ⟨Q, hQ, hQP⟩ := h.backed P hP.2
      rcases List.mem_append.mp hQ with hQ | hQ
      · exact ⟨Q, List.mem_append_left _ hQ, hQP⟩
      · obtain rfl : Q = R := by simpa using hQ
        rw [hP.1] at hQP
        exact absurd hQP (by simp)

/-! ### Every run -/

/-- **Every step keeps the session sound.** -/
theorem step {e : Session.Event} (h : Sound s ending released) (hstep : s.Step e t) :
    ∃ ending' released', Sound t ending' released' := by
  cases Session.moves_of_step hstep with
  | exported admitted he => exact ⟨_, _, h.exported he⟩
  | draining => exact ⟨_, _, h.frame rfl rfl h.idle h.wired h.coherent (List.Perm.refl _)⟩
  | popped q sink hheld hpop =>
    exact ⟨_, _, h.frame rfl rfl h.idle h.wired h.coherent
      (Session.live_popped hheld hpop rfl rfl rfl)⟩
  | refused q outcome _ hlock hheld hr => exact ⟨_, _, h.refused hlock hheld hr⟩
  | entered q hlock hheld hr => exact ⟨_, _, h.entered hheld hr⟩
  | ticked now hlock =>
    exact ⟨_, _, h.frame rfl rfl (fun hfree => absurd hfree (by simp)) h.wired h.coherent
      (List.Perm.refl _)⟩
  | evicted now pass _ hhook hnow hturn =>
    obtain ⟨e, -, hsound⟩ := h.evicted hhook hnow hturn
    exact ⟨_, _, hsound⟩
  | called call rest hhook => exact h.called hhook
  | unlocked hhook =>
    exact ⟨_, _, h.frame rfl rfl (fun _ => hhook) h.wired h.coherent (List.Perm.refl _)⟩

end Sound

/-- A session is sound in every state any run of it reaches. -/
theorem sound_of_reaches {limits : BudgetLimits} {payloadCeilingBytes queueCeilingBytes : Nat}
    {config : RetentionConfig} {ok : Session → Session.Event → Prop} {s : Session}
    (h : Reaches Session.Step ok
      (Session.new limits payloadCeilingBytes queueCeilingBytes config) s) :
    ∃ ending released, Sound s ending released :=
  h.invariant (I := fun s => ∃ ending released, Sound s ending released)
    ⟨none, none, .new limits payloadCeilingBytes queueCeilingBytes config⟩
    fun _ _ _ ⟨_, _, hsound⟩ _ hstep => hsound.step hstep

end RuntimeTrail
