import Mathlib.Data.List.Basic

/-!
# Journaled runs

A run of labelled steps, with what each of its steps notes down, in order.

* **prefixes** — `journaled_append`: the run of a list of labels is the run of its
  front and then of its back, and the journal of the front begins the journal of
  the whole;
* **the notes** — `exists_noted`: what a journal holds, a step of the run noted;
* **the induction** — `journaled_invariant`: what relates a journal to the state it
  was kept up to, and is kept by every step, holds where a run arrives;
* **what passes** — `Passes`: the states a run goes through, each with the journal
  kept up to it.
-/

namespace Library

universe u v w

variable {σ : Type u} {ε : Type v} {α : Type w}

/-- Takes a list of labels in turn, where each step can be taken, and keeps the journal. -/
def journaled (next : σ → ε → Option σ) (note : σ → ε → List α) :
    σ → List ε → Option (σ × List α)
  | s, [] => some (s, [])
  | s, e :: rest =>
    (next s e).bind fun t => (journaled next note t rest).map fun r => (r.1, note s e ++ r.2)

variable {next : σ → ε → Option σ} {note : σ → ε → List α} {s t u : σ} {events front back : List ε}
  {journal before : List α}

/-- A run that takes a step first takes it, and then the rest of the run. -/
theorem journaled_cons_eq_some {e : ε} (h : journaled next note s (e :: events) = some (t, journal)) :
    ∃ u rest, next s e = some u ∧ journaled next note u events = some (t, rest) ∧
      journal = note s e ++ rest := by
  obtain ⟨u, hstep, hrest⟩ := Option.bind_eq_some_iff.mp h
  obtain ⟨⟨t', rest⟩, hrun, heq⟩ := Option.map_eq_some_iff.mp hrest
  obtain ⟨rfl, rfl⟩ := Prod.mk.inj heq
  exact ⟨u, rest, hstep, hrun, rfl⟩

/-- **A run is a run of its front and then of its back.** -/
theorem journaled_append (h : journaled next note s (front ++ back) = some (t, journal)) :
    ∃ u before after, journaled next note s front = some (u, before) ∧
      journaled next note u back = some (t, after) ∧ journal = before ++ after := by
  induction front generalizing s journal with
  | nil => exact ⟨s, [], journal, rfl, h, rfl⟩
  | cons e front ih =>
    obtain ⟨u, rest, hstep, hrest, rfl⟩ := journaled_cons_eq_some h
    obtain ⟨v, before, after, hfront, hback, rfl⟩ := ih hrest
    refine ⟨v, note s e ++ before, after, ?_, hback, (List.append_assoc ..).symm⟩
    rw [journaled, hstep, Option.bind_some, hfront]
    rfl

/-- What a journal holds, a step noted in a state the run went through. -/
theorem exists_noted (h : journaled next note s events = some (t, journal)) {a : α}
    (ha : a ∈ journal) :
    ∃ front e back u before, events = front ++ e :: back ∧
      journaled next note s front = some (u, before) ∧ a ∈ note u e := by
  induction events generalizing s journal with
  | nil =>
    obtain ⟨-, rfl⟩ := Prod.mk.inj (Option.some.inj h)
    cases ha
  | cons e events ih =>
    obtain ⟨u, rest, hstep, hrest, rfl⟩ := journaled_cons_eq_some h
    rcases List.mem_append.mp ha with ha | ha
    · exact ⟨[], e, events, s, [], rfl, rfl, ha⟩
    · obtain ⟨front, e', back, v, before, rfl, hfront, hnoted⟩ := ih hrest ha
      refine ⟨e :: front, e', back, v, note s e ++ before, rfl, ?_, hnoted⟩
      rw [journaled, hstep, Option.bind_some, hfront]
      rfl

/-- **The induction over journaled runs.**  What holds of the journal so far and the state it was
kept up to, and is kept by every step and its notes, holds where the run arrives. -/
theorem journaled_invariant {I : List α → σ → Prop}
    (keep : ∀ journal s e t, I journal s → next s e = some t → I (journal ++ note s e) t)
    (hstart : I before s) (h : journaled next note s events = some (t, journal)) :
    I (before ++ journal) t := by
  induction events generalizing s before journal with
  | nil =>
    obtain ⟨rfl, rfl⟩ := Prod.mk.inj (Option.some.inj h)
    rwa [List.append_nil]
  | cons e events ih =>
    obtain ⟨u, rest, hstep, hrest, rfl⟩ := journaled_cons_eq_some h
    rw [← List.append_assoc]
    exact ih (keep before s e u hstart hstep) hrest

/-- A state that a run of these labels goes through. -/
def Passes (next : σ → ε → Option σ) (note : σ → ε → List α) (s : σ) (events : List ε) (u : σ) :
    Prop :=
  ∃ front back journal, events = front ++ back ∧ journaled next note s front = some (u, journal)

/-- **What held when a run passed holds of a beginning of its journal.** -/
theorem Passes.invariant {I : List α → σ → Prop}
    (keep : ∀ journal s e t, I journal s → next s e = some t → I (journal ++ note s e) t)
    (hstart : I [] s) (h : journaled next note s events = some (t, journal))
    (hpasses : Passes next note s events u) :
    ∃ before after, journal = before ++ after ∧ I before u := by
  obtain ⟨front, back, before, rfl, hfront⟩ := hpasses
  obtain ⟨v, before', after, hfront', -, rfl⟩ := journaled_append h
  obtain ⟨rfl, rfl⟩ := Prod.mk.inj (Option.some.inj (hfront.symm.trans hfront'))
  exact ⟨before, after, rfl, journaled_invariant keep hstart hfront⟩

end Library
