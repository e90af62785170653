import Mathlib.Logic.Relation

/-!
# Loops that end, and runs

A `while let Some(s') = step(s)` loop whose body shrinks a natural number is run
by handing it that number as fuel.  Nothing is lost: `Loop.run_of_some` and
`Loop.run_of_none` are the loop's own equation, `Loop.run_induct` its induction,
and `Loop.step_run` says that where it stops the guard really fails; `Loop.trace`
lists the states its turns start from, `Loop.run_lockstep` runs two loops side by
side, and `Loop.Visits` are the states a run comes to on its way.

A run of a labelled transition system is a chain of steps, each of them
permitted by a side condition on the state before it.  `Reaches.invariant` is
the one induction over runs: what holds at the start and is kept by every
permitted step holds wherever a run arrives.
-/

namespace Library

universe u v

/-! ## Loops -/

/-- A loop body together with the measure every turn of it shrinks. -/
structure Loop (σ : Type u) where
  step : σ → Option σ
  fuel : σ → Nat
  decreases : ∀ {s s' : σ}, step s = some s' → fuel s' < fuel s

namespace Loop

variable {σ : Type u}

/-- Run a body for at most `n` turns. -/
def turns (step : σ → Option σ) : Nat → σ → σ
  | 0, s => s
  | n + 1, s =>
    match step s with
    | none => s
    | some s' => turns step n s'

/-- Run the loop until its guard fails. -/
def run (L : Loop σ) (s : σ) : σ := turns L.step (L.fuel s) s

/-- Any fuel past the measure gives the same result. -/
theorem turns_eq_run (L : Loop σ) :
    ∀ (n : Nat) (s : σ), L.fuel s ≤ n → turns L.step n s = L.run s := by
  intro n
  induction n using Nat.strongRecOn with
  | _ n ih =>
    intro s hs
    cases hstep : L.step s with
    | none =>
      have hstop : ∀ m, turns L.step m s = s := by
        intro m
        cases m with
        | zero => rfl
        | succ m => simp [turns, hstep]
      rw [run, hstop, hstop]
    | some s' =>
      have hlt := L.decreases hstep
      obtain ⟨m, hm⟩ : ∃ m, L.fuel s = m + 1 := ⟨L.fuel s - 1, by omega⟩
      obtain ⟨k, rfl⟩ : ∃ k, n = k + 1 := ⟨n - 1, by omega⟩
      rw [run, hm]
      simp only [turns, hstep]
      rw [ih k (by omega) s' (by omega)]
      rcases Nat.lt_or_ge m (k + 1) with hmk | hmk
      · rw [ih m hmk s' (by omega)]
      · omega

theorem run_of_none {L : Loop σ} {s : σ} (h : L.step s = none) : L.run s = s := by
  unfold run
  cases L.fuel s with
  | zero => rfl
  | succ n => simp [turns, h]

theorem run_of_some {L : Loop σ} {s s' : σ} (h : L.step s = some s') :
    L.run s = L.run s' := by
  have hlt := L.decreases h
  obtain ⟨n, hn⟩ : ∃ n, L.fuel s = n + 1 := ⟨L.fuel s - 1, by omega⟩
  rw [run, hn]
  simp only [turns, h]
  exact L.turns_eq_run n s' (by omega)

/-- The states of at most `n` turns, each the one its turn starts from. -/
def turnStates (step : σ → Option σ) : Nat → σ → List σ
  | 0, _ => []
  | n + 1, s =>
    match step s with
    | none => []
    | some s' => s :: turnStates step n s'

/-- The states the loop's turns start from, in order. -/
def trace (L : Loop σ) (s : σ) : List σ := turnStates L.step (L.fuel s) s

theorem turnStates_of_none {step : σ → Option σ} {s : σ} (h : step s = none) (n : Nat) :
    turnStates step n s = [] := by
  cases n with
  | zero => rfl
  | succ n => simp [turnStates, h]

/-- Any fuel past the measure gives the same states. -/
theorem turnStates_eq_trace (L : Loop σ) :
    ∀ (n : Nat) (s : σ), L.fuel s ≤ n → turnStates L.step n s = L.trace s := by
  intro n
  induction n using Nat.strongRecOn with
  | _ n ih =>
    intro s hs
    cases hstep : L.step s with
    | none => rw [trace, turnStates_of_none hstep, turnStates_of_none hstep]
    | some s' =>
      have hlt := L.decreases hstep
      obtain ⟨m, hm⟩ : ∃ m, L.fuel s = m + 1 := ⟨L.fuel s - 1, by omega⟩
      obtain ⟨k, rfl⟩ : ∃ k, n = k + 1 := ⟨n - 1, by omega⟩
      rw [trace, hm]
      simp only [turnStates, hstep]
      rw [ih k (by omega) s' (by omega)]
      rcases Nat.lt_or_ge m (k + 1) with hmk | hmk
      · rw [ih m hmk s' (by omega)]
      · omega

theorem trace_of_none {L : Loop σ} {s : σ} (h : L.step s = none) : L.trace s = [] :=
  turnStates_of_none h _

theorem trace_of_some {L : Loop σ} {s s' : σ} (h : L.step s = some s') :
    L.trace s = s :: L.trace s' := by
  have hlt := L.decreases h
  obtain ⟨n, hn⟩ : ∃ n, L.fuel s = n + 1 := ⟨L.fuel s - 1, by omega⟩
  rw [trace, hn]
  simp only [turnStates, h]
  rw [L.turnStates_eq_trace n s' (by omega)]

/-- **Loop induction.**  What holds of a stopped loop and is carried backwards over one turn
holds of the start and the end of every run. -/
theorem run_induct (L : Loop σ) {P : σ → σ → Prop}
    (stop : ∀ s, L.step s = none → P s s)
    (turn : ∀ s s', L.step s = some s' → P s' (L.run s') → P s (L.run s')) (s : σ) :
    P s (L.run s) := by
  generalize hn : L.fuel s = n
  induction n using Nat.strongRecOn generalizing s with
  | _ n ih =>
    cases h : L.step s with
    | none => rw [run_of_none h]; exact stop s h
    | some s' =>
      rw [run_of_some h]
      exact turn s s' h (ih _ (hn ▸ L.decreases h) s' rfl)

/-- The loop stops only where its guard fails. -/
theorem step_run (L : Loop σ) (s : σ) : L.step (L.run s) = none :=
  L.run_induct (P := fun _ r => L.step r = none) (fun _ h => h) (fun _ _ _ h => h) s

/-- An invariant of the body is an invariant of the loop. -/
theorem run_invariant (L : Loop σ) {I : σ → Prop}
    (keep : ∀ s s', I s → L.step s = some s' → I s') {s : σ} (h : I s) : I (L.run s) :=
  L.run_induct (P := fun a r => I a → I r) (fun _ _ ha => ha)
    (fun a a' hstep ih ha => ih (keep a a' ha hstep)) s h

/-- **Two loops in lockstep.**  A relation that each turn of the first carries to a turn of the
second, and each stop to a stop, holds of their ends. -/
theorem run_lockstep {τ : Type v} {L : Loop σ} {M : Loop τ} {R : σ → τ → Prop}
    (stop : ∀ s t, R s t → L.step s = none → M.step t = none)
    (turn : ∀ s t s', R s t → L.step s = some s' → ∃ t', M.step t = some t' ∧ R s' t')
    {s : σ} {t : τ} (h : R s t) : R (L.run s) (M.run t) := by
  refine L.run_induct (P := fun a r => ∀ t, R a t → R r (M.run t)) ?_ ?_ s t h
  · intro a hnone t ha
    rw [run_of_none (stop a t ha hnone)]
    exact ha
  · intro a a' hstep ih t ha
    obtain ⟨t', ht, ha'⟩ := turn a t a' ha hstep
    rw [run_of_some ht]
    exact ih t' ha'

/-- The states a loop comes to from a state. -/
inductive Visits (L : Loop σ) : σ → σ → Prop
  | here (s : σ) : Visits L s s
  | later {s s' t : σ} (turn : L.step s = some s') (rest : Visits L s' t) : Visits L s t

namespace Visits

variable {L : Loop σ} {s t : σ}

/-- From wherever a loop comes to, it ends where it ends. -/
theorem run_eq (h : L.Visits s t) : L.run s = L.run t := by
  induction h with
  | here => rfl
  | later turn _ ih => exact (run_of_some turn).trans ih

/-- A loop comes to a state by starting in it, or by a first turn. -/
theorem cases_first (h : L.Visits s t) : s = t ∨ ∃ u, L.step s = some u ∧ L.Visits u t := by
  cases h with
  | here => exact Or.inl rfl
  | later turn rest => exact Or.inr ⟨_, turn, rest⟩

/-- A stopped loop comes to no other state. -/
theorem eq_of_none (h : L.Visits s t) (hnone : L.step s = none) : t = s := by
  rcases h.cases_first with rfl | ⟨u, turn, -⟩
  · rfl
  · rw [hnone] at turn
    cases turn

/-- Of two states a loop comes to, it comes to one from the other. -/
theorem linear {u : σ} (h : L.Visits s t) (h' : L.Visits s u) : L.Visits t u ∨ L.Visits u t := by
  induction h with
  | here => exact Or.inl h'
  | @later s s' t turn rest ih =>
    cases h' with
    | here => exact Or.inr (.later turn rest)
    | later turn' rest' =>
      rw [turn] at turn'
      obtain rfl := Option.some.inj turn'
      exact ih rest'

/-- A loop comes to a state by starting in it, or by a last turn. -/
theorem cases_last (h : L.Visits s t) : s = t ∨ ∃ u, L.Visits s u ∧ L.step u = some t := by
  induction h with
  | here => exact Or.inl rfl
  | later turn rest ih =>
    rcases ih with rfl | ⟨u, hvisits, hlast⟩
    · exact Or.inr ⟨_, .here _, turn⟩
    · exact Or.inr ⟨u, .later turn hvisits, hlast⟩

/-- What every turn keeps holds wherever the loop comes to. -/
theorem invariant {I : σ → Prop} (keep : ∀ s s', I s → L.step s = some s' → I s')
    (h : L.Visits s t) (hs : I s) : I t := by
  induction h with
  | here => exact hs
  | later turn _ ih => exact ih (keep _ _ hs turn)

end Visits

/-- A loop comes to where it ends. -/
theorem visits_run (L : Loop σ) (s : σ) : L.Visits s (L.run s) :=
  L.run_induct (P := fun a r => L.Visits a r) (fun a _ => .here a) (fun _ _ hstep ih => .later hstep ih)
    s

end Loop

/-! ## Runs -/

section Runs

variable {σ : Type u} {ε : Type v}

/-- `Reaches step ok s t`: a run from `s` arrives at `t`, every step of it taken with a label
the side condition permits in the state before it. -/
def Reaches (step : σ → ε → σ → Prop) (ok : σ → ε → Prop) : σ → σ → Prop :=
  Relation.ReflTransGen (fun s t => ∃ e, ok s e ∧ step s e t)

variable {step : σ → ε → σ → Prop} {ok : σ → ε → Prop}

theorem Reaches.refl (s : σ) : Reaches step ok s s := Relation.ReflTransGen.refl

theorem Reaches.head {s t u : σ} {e : ε} (hok : ok s e) (hstep : step s e t)
    (h : Reaches step ok t u) : Reaches step ok s u :=
  Relation.ReflTransGen.head ⟨e, hok, hstep⟩ h

/-- A weaker side condition permits every run. -/
theorem Reaches.weaken {ok' : σ → ε → Prop} (himp : ∀ s e, ok s e → ok' s e) {s t : σ}
    (h : Reaches step ok s t) : Reaches step ok' s t :=
  Relation.ReflTransGen.mono (fun _ _ ⟨e, hok, hstep⟩ => ⟨e, himp _ e hok, hstep⟩) _ _ h

/-- **The induction over runs.**  What holds at the start and is kept by every permitted step
holds wherever a run arrives. -/
theorem Reaches.invariant {I : σ → Prop} {s t : σ} (h : Reaches step ok s t) (h0 : I s)
    (keep : ∀ s e t, I s → ok s e → step s e t → I t) : I t := by
  induction h with
  | refl => exact h0
  | tail _ hstep ih =>
    obtain ⟨e, hok, hstep⟩ := hstep
    exact keep _ e _ ih hok hstep

/-- Takes a list of labels in turn, where each is permitted and its step can be taken. -/
def runLabels (next : σ → ε → Option σ) (permits : σ → ε → Bool) (s : σ) : List ε → Option σ
  | [] => some s
  | e :: rest =>
    if permits s e then (next s e).bind fun t => runLabels next permits t rest else none

theorem reaches_of_runLabels {next : σ → ε → Option σ} {permits : σ → ε → Bool} :
    ∀ {labels : List ε} {s t : σ}, runLabels next permits s labels = some t →
      Reaches (fun s e t => next s e = some t) (fun s e => permits s e = true) s t := by
  intro labels
  induction labels with
  | nil => intro s t h; exact Option.some.inj h ▸ Reaches.refl s
  | cons e rest ih =>
    intro s t h
    unfold runLabels at h
    split at h
    · rename_i hpermits
      obtain ⟨u, hu, hrest⟩ := Option.bind_eq_some_iff.mp h
      exact Reaches.head hpermits hu (ih hrest)
    · exact absurd h (by simp)

end Runs

end Library
