import Mathlib.Data.List.Nodup
import RuntimeTrail.Investigation.Envelope

/-!
# The honesty checks of the envelope

The envelope's own invariants, as the program checks them: each is computed from
a finished envelope alone, and names nothing of the flow that built it.

* **the subject, the truncations, the references** — the three checks
  `violations` reports;
* **the views** — `keyedOnce_iff`: every view carries an entity id, and no two the
  same one;
* **the run facts** — the recorded runs, the entities and the metric window
  against what the limits state.
-/

namespace RuntimeTrail

/-- The entity a note roots the trace at. -/
def ResolutionNote.rootedAt : ResolutionNote → Option EntityId
  | traceRootedAt entity _ _ => some entity
  | _ => none

/-- Whether an entry states a stall of the driver. -/
def RunCoverage.isStall : RunCoverage → Bool
  | driverStall _ => true
  | _ => false

/-- The records a residency hole counts. -/
def FlowCoverageEntry.holeCount : FlowCoverageEntry → Option Nat
  | residencyHole _ count => some count
  | _ => none

/-- The window a metric window states as asked. -/
def FlowCoverageEntry.askedWindow : FlowCoverageEntry → Option TimeWindow
  | metricWindow asked _ => some asked
  | _ => none

namespace Investigation

/-! ## The checks `violations` reports -/

/-- A requested subject other than the effective one is named by a note, and no note roots the trace
elsewhere. -/
def subjectsAreStatedSeparately (envelope : Investigation) : Bool :=
  let effective := envelope.subject.effective.root.entity
  let notes := envelope.subject.effective.notes
  if envelope.subject.requested.rootSpan ≠ effective ∧
      (notes.any fun note => note.rootedAt == some effective) = false then false
  else
    notes.all fun note =>
      match note.rootedAt with
      | some entity => entity == effective
      | none => true

/-- Notes that root the trace nowhere beside an unmoved subject, or once at the effective root, state
the subjects separately. -/
theorem subjectsAreStatedSeparately_of_notes {envelope : Investigation}
    (h : (envelope.subject.effective.root.entity = envelope.subject.requested.rootSpan ∧
        ∀ note ∈ envelope.subject.effective.notes, note.rootedAt = none) ∨
      envelope.subject.effective.notes.map ResolutionNote.rootedAt =
        [some envelope.subject.effective.root.entity]) :
    envelope.subjectsAreStatedSeparately = true := by
  unfold subjectsAreStatedSeparately
  dsimp only
  rcases h with ⟨hsame, hnone⟩ | hrooted
  · rw [if_neg fun hmoved => hmoved.1 hsame.symm, List.all_eq_true]
    intro note hnote
    rw [hnone note hnote]
  · have hnote : ∀ note ∈ envelope.subject.effective.notes,
        note.rootedAt = some envelope.subject.effective.root.entity := by
      intro note hmem
      have hmapped := List.mem_map_of_mem (f := ResolutionNote.rootedAt) hmem
      rw [hrooted] at hmapped
      exact List.mem_singleton.mp hmapped
    have hnamed : (envelope.subject.effective.notes.any fun note =>
        note.rootedAt == some envelope.subject.effective.root.entity) = true := by
      obtain ⟨note, hmem⟩ : ∃ note, note ∈ envelope.subject.effective.notes := by
        refine List.exists_mem_of_ne_nil _ fun hnil => ?_
        rw [hnil] at hrooted
        exact absurd hrooted (by simp)
      exact List.any_eq_true.mpr ⟨note, hmem, by rw [hnote note hmem]; exact beq_self_eq_true _⟩
    rw [hnamed, if_neg (by simp), List.all_eq_true]
    intro note hmem
    rw [hnote note hmem]
    exact beq_self_eq_true _

/-- Whether a run names what it left out: a truncation an omission, a refusal a limit it differs
from, a stall its entry. -/
def truncationIsNamed (run : RunFacts) : Bool :=
  match run.outcome with
  | .complete => true
  | .degraded truncation => truncation.omitted != 0
  | .refused refusal => refusal.limit != refusal.observed
  | .stalled => run.coverage.any RunCoverage.isStall

/-- Every truncation is named. -/
def truncationsAreNamed (envelope : Investigation) : Bool :=
  envelope.execution.runGroups.all fun group => group.runs.all truncationIsNamed

/-- Every relation stands on facts, and both its ends are in the evidence. -/
def signalRefsResolve (envelope : Investigation) : Bool :=
  envelope.correlated.all fun relation =>
    if relation.relationType = .inferred ∨ relation.facts.isEmpty then false
    else envelope.evidence.entityOf relation.source && envelope.evidence.entityOf relation.target

/-- The labels of the invariants an envelope violates. -/
def violations (envelope : Investigation) : List String :=
  (if envelope.subjectsAreStatedSeparately then []
    else ["requested and effective subjects merged or unresolved"]) ++
  (if envelope.truncationsAreNamed then [] else ["a truncation, refusal or stall is not named"]) ++
  (if envelope.signalRefsResolve then []
    else ["a signal ref dangles or an inferred relation is present"])

theorem violations_eq_nil_iff {envelope : Investigation} : envelope.violations = [] ↔
    envelope.subjectsAreStatedSeparately = true ∧ envelope.truncationsAreNamed = true ∧
      envelope.signalRefsResolve = true := by
  unfold violations
  cases envelope.subjectsAreStatedSeparately <;> cases envelope.truncationsAreNamed <;>
    cases envelope.signalRefsResolve <;> simp

/-! ## The views -/

/-- The view loop: an entity id seen before ends it, a view without one spoils the answer. -/
def keyedOnce : List EntityId → Bool → List (Option EntityId) → Bool
  | _, allKeyed, [] => allKeyed
  | seen, allKeyed, some entity :: rest =>
    if seen.contains entity then false else keyedOnce (seen ++ [entity]) allKeyed rest
  | seen, _, none :: rest => keyedOnce seen false rest

theorem keyedOnce_false (seen : List EntityId) (views : List (Option EntityId)) :
    keyedOnce seen false views = false := by
  induction views generalizing seen with
  | nil => rfl
  | cons view rest ih =>
    cases view with
    | none => exact ih seen
    | some entity =>
      rw [keyedOnce]
      split
      · rfl
      · exact ih _

/-- The loop accepts exactly the views that carry ids, no two the same one. -/
theorem keyedOnce_iff {seen : List EntityId} {views : List (Option EntityId)} (h : seen.Nodup) :
    keyedOnce seen true views = true ↔
      ∃ ids : List EntityId, views = ids.map some ∧ (seen ++ ids).Nodup := by
  induction views generalizing seen with
  | nil =>
    refine iff_of_true rfl ⟨[], rfl, ?_⟩
    rw [List.append_nil]
    exact h
  | cons view rest ih =>
    cases view with
    | none =>
      rw [keyedOnce, keyedOnce_false]
      refine iff_of_false Bool.false_ne_true ?_
      rintro ⟨ids, hids, -⟩
      cases ids with
      | nil => exact absurd hids (by simp)
      | cons id ids => exact absurd hids (by simp)
    | some entity =>
      rw [keyedOnce]
      by_cases hseen : entity ∈ seen
      · rw [if_pos (List.contains_iff_mem.mpr hseen)]
        refine iff_of_false Bool.false_ne_true ?_
        rintro ⟨ids, hids, hnodup⟩
        cases ids with
        | nil => exact absurd hids (by simp)
        | cons id ids =>
          obtain rfl : entity = id := by simpa using (List.cons.inj hids).1
          exact (List.disjoint_of_nodup_append hnodup) hseen (List.mem_cons_self ..)
      · rw [if_neg (by simpa using hseen)]
        have hnodup : (seen ++ [entity]).Nodup :=
          List.nodup_append'.mpr ⟨h, List.nodup_singleton entity, by simpa using hseen⟩
        rw [ih hnodup]
        constructor
        · rintro ⟨ids, rfl, hids⟩
          exact ⟨entity :: ids, rfl, by simpa using hids⟩
        · rintro ⟨ids, hids, hall⟩
          cases ids with
          | nil => exact absurd hids (by simp)
          | cons id ids =>
            obtain ⟨hid, hrest⟩ := List.cons.inj hids
            obtain rfl : entity = id := by simpa using hid
            exact ⟨ids, hrest, by simpa using hall⟩

/-- The entity ids of the views, the spans first. -/
def viewIds (evidence : Evidence) : List (Option EntityId) :=
  evidence.spans.map SpanEvidence.entity ++ evidence.logs.map LogEvidence.entity ++
    evidence.points.map PointEvidence.entity

/-- Every view carries its entity id, and no id is carried by two views. -/
def viewsCarryEntityIds (envelope : Investigation) : Bool :=
  keyedOnce [] true (viewIds envelope.evidence)

/-! ## The run facts -/

/-- The runs an envelope records, all groups together. -/
def recordedPages (envelope : Investigation) : Nat :=
  (envelope.execution.runGroups.map fun group => group.runs.length).sum

/-- Every page is a recorded run, and a flow that stopped has run one. -/
def noPartialContentAsComplete (envelope : Investigation) : Bool :=
  if envelope.recordedPages ≠ envelope.limits.chain.totalPages then false
  else if envelope.limits.chain.stopped.isSome ∧ envelope.limits.chain.totalPages = 0 then false
  else true

/-- The residency holes an envelope states. -/
def holeCounts (envelope : Investigation) : Nat :=
  (envelope.execution.flowCoverage.filterMap FlowCoverageEntry.holeCount).sum

/-- The record views of the evidence. -/
def views (envelope : Investigation) : Nat :=
  envelope.evidence.spans.length + envelope.evidence.logs.length + envelope.evidence.points.length

/-- The chain totals agree with the runs and with the evidence. -/
def runFactsAreConsistent (envelope : Investigation) : Bool :=
  if envelope.recordedPages ≠ envelope.limits.chain.totalPages then false
  else decide (envelope.limits.chain.totalEntities = envelope.views + envelope.holeCounts)

/-- The time extent of the evidence spans; a span without an end counts its start. -/
def waterfallExtent (envelope : Investigation) : Option TimeWindow :=
  if envelope.evidence.spans.isEmpty then none
  else
    some (envelope.evidence.spans.foldl (fun extent view =>
      ⟨min extent.start view.span.val.startTimeUnixNano,
        max extent.stop
          (view.span.val.endTimeUnixNano.getD view.span.val.startTimeUnixNano)⟩) ⟨u64Max, 0⟩)

/-- The first metric window the flow coverage states as asked. -/
def askedWindow (envelope : Investigation) : Option TimeWindow :=
  envelope.execution.flowCoverage.findSome? FlowCoverageEntry.askedWindow

/-- A metric part that ran states the window it asked for: the extent of the evidence spans. -/
def metricWindowIsStated (envelope : Investigation) : Bool :=
  if envelope.execution.runGroups.any fun group =>
      group.part == .surroundingMetrics && !group.runs.isEmpty then
    match envelope.askedWindow, envelope.waterfallExtent with
    | some asked, some extent => asked == extent
    | _, _ => false
  else true

/-- What an envelope says of itself holds: its subjects are stated separately, its relations resolve,
its views are keyed, its runs are the ones recorded, its entity total is that of the views and the
holes on a saturating 64-bit counter, and its asked window is the extent of its spans. -/
structure Honest (envelope : Investigation) : Prop where
  subjects : envelope.subjectsAreStatedSeparately = true
  relations : envelope.signalRefsResolve = true
  keyed : envelope.viewsCarryEntityIds = true
  pages : envelope.noPartialContentAsComplete = true
  entities : envelope.limits.chain.totalEntities = min (envelope.views + envelope.holeCounts) u64Max
  window : envelope.metricWindowIsStated = true

/-- The chain totals of an honest envelope agree with its runs and its evidence, whenever the evidence
can be counted in 64 bits. -/
theorem Honest.runFacts {envelope : Investigation} (h : envelope.Honest)
    (hcounted : envelope.views + envelope.holeCounts ≤ u64Max) :
    envelope.runFactsAreConsistent = true := by
  have hpages := h.pages
  unfold noPartialContentAsComplete at hpages
  split at hpages
  · exact absurd hpages (by simp)
  · rename_i hrecorded
    unfold runFactsAreConsistent
    rw [if_neg hrecorded, h.entities, min_eq_left hcounted]
    exact decide_eq_true rfl

end Investigation

end RuntimeTrail
