import RuntimeTrail.Query.Sources

/-!
# What a turn of the page loop can do

Any driver at all: a batch is whatever it answers, and nothing is said about its
keys or about the cursor it claims.

* **one turn** — `Walk.Turn`, and `Walk.turning` which lists everything a turn can
  do;
* **the run** — `Walk.TakesTurn`: the states a page's walk takes a turn from, and
  `Walk.Examines`: the examinations it makes in them;
* **the end** — `Walk.Examines.last`: an examination that stops the walk is where
  the page ends; `Walk.pageEnd` lists everything that can end one.
-/

namespace RuntimeTrail

open Library

namespace Walk

/-! ## One turn -/

/-- The batch a turn is answered. -/
def batch (w : Walk) (input : WalkInput) : List Yield :=
  ((input.stores w.calls).pull input.kind w.after scanBatch).1

/-- The cursor the driver claims behind it. -/
def batchCursor (w : Walk) (input : WalkInput) : Option AdmissionKey :=
  ((input.stores w.calls).pull input.kind w.after scanBatch).2

/-- The walk once the batch is pulled. -/
def pulled (w : Walk) (input : WalkInput) : Walk :=
  { w with
    frontier := (w.batchCursor input).or ((w.batch input).getLast?.map Yield.key)
    calls := w.calls + 1 }

/-- The walk ended by a driver that claims a successor it never yields. -/
def stallAt (w : Walk) (entity : EntityId) : Walk :=
  { w with coverage := w.coverage ++ [.driverStall entity], stopped := some .stalled }

/-- Everything a turn of the page loop can do. -/
inductive Turn (input : WalkInput) (w : Walk) (emptyPages : Nat) : Walk × Nat → Prop
  | exhausted (nothing : w.batch input = []) (last : w.batchCursor input = none) :
      Turn input w emptyPages ((w.pulled input).finishCountingOrComplete input, emptyPages)
  | stalled {cursor : AdmissionKey} {entity : EntityId} (nothing : w.batch input = [])
      (claimed : w.batchCursor input = some cursor) (limit : emptyPageStallLimit ≤ emptyPages + 1) :
      Turn input w emptyPages ((w.pulled input).stallAt entity, emptyPages + 1)
  | waits {cursor : AdmissionKey} (nothing : w.batch input = [])
      (claimed : w.batchCursor input = some cursor) (room : emptyPages + 1 < emptyPageStallLimit) :
      Turn input w emptyPages ({ w.pulled input with after := some cursor }, emptyPages + 1)
  | stops (yielded : w.batch input ≠ [])
      (stop : (examineBatch input (w.pulled input) (w.batch input)).stopped.isSome) :
      Turn input w emptyPages (examineBatch input (w.pulled input) (w.batch input), 0)
  | resumes {next : AdmissionKey} (yielded : w.batch input ≠ [])
      (goes : (examineBatch input (w.pulled input) (w.batch input)).stopped = none)
      (claimed : w.batchCursor input = some next) :
      Turn input w emptyPages
        ({ examineBatch input (w.pulled input) (w.batch input) with after := some next }, 0)
  | ends (yielded : w.batch input ≠ [])
      (goes : (examineBatch input (w.pulled input) (w.batch input)).stopped = none)
      (last : w.batchCursor input = none) :
      Turn input w emptyPages
        ((examineBatch input (w.pulled input) (w.batch input)).finishCountingOrComplete input, 0)

theorem turning (w : Walk) (input : WalkInput) (emptyPages : Nat) :
    Turn input w emptyPages (w.turn input emptyPages) := by
  have hbatch : ((input.stores w.calls).pull input.kind w.after scanBatch).1 = w.batch input := rfl
  have hclaim : ((input.stores w.calls).pull input.kind w.after scanBatch).2 =
      w.batchCursor input := rfl
  have hpulled : { w with
      frontier := (w.batchCursor input).or ((w.batch input).getLast?.map Yield.key)
      calls := w.calls + 1 } = w.pulled input := rfl
  simp only [turn, hbatch, hclaim, hpulled]
  by_cases hempty : (w.batch input).isEmpty = true
  · rw [if_pos hempty]
    have nothing : w.batch input = [] := List.isEmpty_iff.mp hempty
    split
    · rename_i cursor hcursor
      split
      · exact .stalled nothing hcursor (by assumption)
      · exact .waits nothing hcursor (not_le.mp (by assumption))
    · rename_i hcursor
      exact .exhausted nothing hcursor
  · rw [if_neg hempty]
    have yielded : w.batch input ≠ [] := fun hnil => hempty (by rw [hnil]; rfl)
    by_cases hstop : (examineBatch input (w.pulled input) (w.batch input)).stopped.isSome = true
    · rw [if_pos hstop]
      exact .stops yielded hstop
    · rw [if_neg hstop]
      have goes := Option.not_isSome_iff_eq_none.mp hstop
      split
      · rename_i next hcursor
        exact .resumes yielded goes hcursor
      · rename_i hcursor
        exact .ends yielded goes hcursor

/-- Examining a batch pulls nothing. -/
theorem examineBatch_frame (input : WalkInput) (batch : List Yield) (w : Walk) :
    (examineBatch input w batch).frontier = w.frontier ∧
      (examineBatch input w batch).after = w.after ∧
      (examineBatch input w batch).calls = w.calls := by
  induction batch generalizing w with
  | nil => exact ⟨rfl, rfl, rfl⟩
  | cons yielded rest ih =>
    obtain ⟨hfrontier, hafter, hcalls⟩ := w.examine_frame input yielded rest.length
    rw [examineBatch]
    split
    · exact ⟨hfrontier, hafter, hcalls⟩
    · obtain ⟨hf, ha, hc⟩ := ih (w.examine input yielded rest.length)
      exact ⟨hf.trans hfrontier, ha.trans hafter, hc.trans hcalls⟩

/-! ## The run -/

/-- Where a page's walk stopped. -/
def lastWalk (input : WalkInput) (session : BudgetSession) : Walk :=
  ((pages input).run (walkStart input session, 0)).1

/-- The page loop ends, and where it ends the walk knows its outcome. -/
theorem lastWalk_stopped (input : WalkInput) (session : BudgetSession) :
    (lastWalk input session).stopped.isSome := by
  have hend := (pages input).step_run (walkStart input session, 0)
  change (if (lastWalk input session).stopped.isSome then none else some _) = none at hend
  by_contra hgoes
  rw [if_neg hgoes] at hend
  cases hend

/-- The page's walk takes a turn from this state. -/
def TakesTurn (input : WalkInput) (session : BudgetSession) (w : Walk) (emptyPages : Nat) : Prop :=
  (pages input).Visits (walkStart input session, 0) (w, emptyPages) ∧ w.stopped = none

theorem TakesTurn.step_eq {input : WalkInput} {session : BudgetSession} {w : Walk} {emptyPages : Nat}
    (h : TakesTurn input session w emptyPages) :
    (pages input).step (w, emptyPages) = some (w.turn input emptyPages) :=
  if_neg (by rw [h.2]; simp)

/-- No turn is taken behind a stop. -/
theorem going_of_visits {input : WalkInput} {s t : Walk × Nat} (h : (pages input).Visits s t)
    (hgoing : t.1.stopped = none) : s.1.stopped = none := by
  by_contra hsome
  have hnone : (pages input).step s = none := if_pos (Option.ne_none_iff_isSome.mp hsome)
  rw [h.eq_of_none hnone] at hgoing
  exact hsome hgoing

/-- A turn that stops the walk is where the page ends. -/
theorem TakesTurn.last {input : WalkInput} {session : BudgetSession} {w : Walk} {emptyPages : Nat}
    (h : TakesTurn input session w emptyPages) (hstop : (w.turn input emptyPages).1.stopped.isSome) :
    lastWalk input session = (w.turn input emptyPages).1 := by
  have hnone : (pages input).step (w.turn input emptyPages) = none := if_pos hstop
  rw [lastWalk, h.1.run_eq, Loop.run_of_some h.step_eq, Loop.run_of_none hnone]

/-- A batch is examined record by record: the state a record is examined in, and how many are behind
it. -/
inductive Steps (input : WalkInput) : Walk → List Yield → Walk → Yield → Nat → Prop
  | here (w : Walk) (yielded : Yield) (rest : List Yield) :
      Steps input w (yielded :: rest) w yielded rest.length
  | later {w w' : Walk} {first yielded : Yield} {rest : List Yield} {tail : Nat}
      (goes : (w.examine input first rest.length).stopped = none)
      (behind : Steps input (w.examine input first rest.length) rest w' yielded tail) :
      Steps input w (first :: rest) w' yielded tail

/-- The page's walk examines a record in this state. -/
def Examines (input : WalkInput) (session : BudgetSession) (w : Walk) (yielded : Yield)
    (tail : Nat) : Prop :=
  ∃ start emptyPages, TakesTurn input session start emptyPages ∧
    Steps input (start.pulled input) (start.batch input) w yielded tail

/-- An examination that stops the walk ends its batch. -/
theorem Steps.last {input : WalkInput} {w w' : Walk} {batch : List Yield} {yielded : Yield}
    {tail : Nat} (h : Steps input w batch w' yielded tail)
    (hstop : (w'.examine input yielded tail).stopped.isSome) :
    examineBatch input w batch = w'.examine input yielded tail := by
  induction h with
  | here w yielded rest => rw [examineBatch, if_pos hstop]
  | later goes behind ih => rw [examineBatch, if_neg (by rw [goes]; simp), ih hstop]

/-- **Where an examination stops the walk the page ends.** -/
theorem Examines.last {input : WalkInput} {session : BudgetSession} {w : Walk} {yielded : Yield}
    {tail : Nat} (h : Examines input session w yielded tail)
    (hstop : (w.examine input yielded tail).stopped.isSome) :
    lastWalk input session = w.examine input yielded tail := by
  obtain ⟨start, emptyPages, hturn, hsteps⟩ := h
  have hbatch := hsteps.last hstop
  have hyielded : start.batch input ≠ [] := by
    intro hnil
    rw [hnil] at hsteps
    cases hsteps
  have hresult : (start.turn input emptyPages).1 = w.examine input yielded tail := by
    have hall := start.turning input emptyPages
    generalize start.turn input emptyPages = s at hall ⊢
    cases hall with
    | exhausted nothing => exact absurd nothing hyielded
    | stalled nothing => exact absurd nothing hyielded
    | waits nothing => exact absurd nothing hyielded
    | stops => exact hbatch
    | resumes _ goes =>
      rw [← hbatch, goes] at hstop
      cases hstop
    | ends _ goes =>
      rw [← hbatch, goes] at hstop
      cases hstop
  rw [hturn.last (by rw [hresult]; exact hstop), hresult]

/-! ## How a page ends -/

/-- A batch whose examination stops the walk stops it at one of its records. -/
theorem exists_last_step {input : WalkInput} (batch : List Yield) {w : Walk}
    (hgoing : w.stopped = none) (hstop : (examineBatch input w batch).stopped.isSome) :
    ∃ w' yielded tail, Steps input w batch w' yielded tail ∧
      examineBatch input w batch = w'.examine input yielded tail := by
  induction batch generalizing w with
  | nil =>
    rw [examineBatch, hgoing] at hstop
    cases hstop
  | cons first rest ih =>
    rw [examineBatch] at hstop ⊢
    cases hfirst : (w.examine input first rest.length).stopped with
    | some outcome => exact ⟨w, first, rest.length, .here _ _ _, if_pos rfl⟩
    | none =>
      rw [hfirst, if_neg (by simp)] at hstop
      obtain ⟨w', yielded, tail, hsteps, hlast⟩ := ih hfirst hstop
      exact ⟨w', yielded, tail, .later hfirst hsteps, by rw [if_neg (by simp), hlast]⟩

/-- Everything that can end the walk of a page. -/
inductive PageEnd (input : WalkInput) (session : BudgetSession) : Walk → Prop
  | exhausted {w : Walk} {emptyPages : Nat} (turn : TakesTurn input session w emptyPages)
      (nothing : w.batch input = []) (last : w.batchCursor input = none) :
      PageEnd input session ((w.pulled input).finishCountingOrComplete input)
  | ended {w : Walk} {emptyPages : Nat} (turn : TakesTurn input session w emptyPages)
      (yielded : w.batch input ≠ [])
      (goes : (examineBatch input (w.pulled input) (w.batch input)).stopped = none)
      (last : w.batchCursor input = none) :
      PageEnd input session
        ((examineBatch input (w.pulled input) (w.batch input)).finishCountingOrComplete input)
  | stalled {w : Walk} {emptyPages : Nat} {entity : EntityId}
      (turn : TakesTurn input session w emptyPages) (nothing : w.batch input = []) :
      PageEnd input session ((w.pulled input).stallAt entity)
  | examined {w : Walk} {yielded : Yield} {tail : Nat}
      (examines : Examines input session w yielded tail)
      (stop : (w.examine input yielded tail).stopped.isSome) :
      PageEnd input session (w.examine input yielded tail)

/-- A page's walk takes a last turn, which stops it. -/
theorem exists_lastTurn (input : WalkInput) (session : BudgetSession) :
    ∃ w emptyPages, TakesTurn input session w emptyPages ∧
      lastWalk input session = (w.turn input emptyPages).1 := by
  have hlast := lastWalk_stopped input session
  rcases ((pages input).visits_run (walkStart input session, 0)).cases_last with
    hsame | ⟨⟨w, emptyPages⟩, hvisits, hstep⟩
  · rw [lastWalk, ← hsame] at hlast
    cases hlast
  · change (if w.stopped.isSome then none else some (w.turn input emptyPages)) = some _ at hstep
    split at hstep
    · cases hstep
    · rename_i hgoes
      exact ⟨w, emptyPages, ⟨hvisits, Option.not_isSome_iff_eq_none.mp hgoes⟩,
        congrArg Prod.fst (Option.some.inj hstep).symm⟩

/-- **How the walk of a page ends.** -/
theorem pageEnd (input : WalkInput) (session : BudgetSession) :
    PageEnd input session (lastWalk input session) := by
  have hlast := lastWalk_stopped input session
  obtain ⟨w, emptyPages, hturn, hresult⟩ := exists_lastTurn input session
  rw [hresult] at hlast ⊢
  have hall := w.turning input emptyPages
  generalize w.turn input emptyPages = s at hall hlast ⊢
  cases hall with
  | exhausted nothing last => exact .exhausted hturn nothing last
  | stalled nothing claimed limit => exact .stalled hturn nothing
  | waits nothing claimed room =>
    change w.stopped.isSome at hlast
    rw [hturn.2] at hlast
    cases hlast
  | stops yielded stop =>
    obtain ⟨w', y, tail, hsteps, heq⟩ := exists_last_step (w.batch input)
      (show (w.pulled input).stopped = none from hturn.2) stop
    dsimp only
    rw [heq] at hlast ⊢
    exact .examined ⟨w, emptyPages, hturn, hsteps⟩ hlast
  | resumes yielded goes claimed =>
    change (examineBatch input (w.pulled input) (w.batch input)).stopped.isSome at hlast
    rw [goes] at hlast
    cases hlast
  | ends yielded goes last => exact .ended hturn yielded goes last

/-! ## What holds along the run -/

section Along

variable {input : WalkInput} {session : BudgetSession} {I : Walk → Prop} {w : Walk}

/-- What every turn keeps holds wherever the page loop comes to. -/
theorem visits_invariant {s t : Walk × Nat} (h : (pages input).Visits s t)
    (hI : TurnInvariant input I) (hs : I s.1) : I t.1 := by
  refine Loop.Visits.invariant (I := fun s => I s.1) ?_ h hs
  rintro ⟨w, emptyPages⟩ s' hw hstep
  change (if w.stopped.isSome then none else some (w.turn input emptyPages)) = some s' at hstep
  split at hstep
  · cases hstep
  · obtain rfl := Option.some.inj hstep
    exact hI.turn hw emptyPages

theorem TakesTurn.invariant {emptyPages : Nat} (h : TakesTurn input session w emptyPages)
    (hI : TurnInvariant input I) (hstart : I (walkStart input session)) : I w :=
  visits_invariant h.1 hI hstart

theorem Steps.invariant {batch : List Yield} {w' : Walk} {yielded : Yield} {tail : Nat} {n : Nat}
    (h : Steps input w batch w' yielded tail) (hI : TurnInvariant input I) (hw : I w)
    (hgoing : w.stopped = none)
    (hbatch : ∀ y ∈ batch, y ∈ ((input.stores n).pull input.kind w.after scanBatch).1) :
    I w' ∧ w'.stopped = none ∧ w'.frontier = w.frontier ∧
      yielded ∈ ((input.stores n).pull input.kind w'.after scanBatch).1 := by
  induction h with
  | here w yielded rest => exact ⟨hw, hgoing, rfl, hbatch _ (by simp)⟩
  | @later w w' first yielded rest tail goes behind ih =>
    obtain ⟨hfrontier, hafter, -⟩ := w.examine_frame input first rest.length
    obtain ⟨hI', hgoing', hfrontier', hmem⟩ := ih (hI.examined n _ (hbatch first (by simp)) hw) goes
      fun y hy => by
        rw [hafter]
        exact hbatch y (List.mem_cons_of_mem _ hy)
    exact ⟨hI', hgoing', hfrontier'.trans hfrontier, hmem⟩

/-- What every turn keeps holds in every state a record is examined in. -/
theorem Examines.invariant {yielded : Yield} {tail : Nat}
    (h : Examines input session w yielded tail) (hI : TurnInvariant input I)
    (hstart : I (walkStart input session)) :
    I w ∧ w.stopped = none ∧
      ∃ n, yielded ∈ ((input.stores n).pull input.kind w.after scanBatch).1 := by
  obtain ⟨start, emptyPages, hturn, hsteps⟩ := h
  obtain ⟨hw, hgoing, -, hmem⟩ := hsteps.invariant (n := start.calls) hI
    (hI.pulled _ _ (hturn.invariant hI hstart)) hturn.2 fun y hy => hy
  exact ⟨hw, hgoing, _, hmem⟩

end Along

end Walk

end RuntimeTrail
