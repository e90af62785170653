import Mathlib.Data.List.Induction

/-!
# A record that misses the steps that fail

A run whose steps may fail, and a record kept beside it.  A step that goes well
either brings the record up to date or touches neither; a step that fails leaves the
record alone.  However many steps fail the record is never wrong, only stale: it says
what was true at some earlier point, and every later step that changed anything
failed.

* **staleness** — `StaleSince`: where in the run the record stands;
* **the law** — `exists_staleSince`.
-/

namespace Library

universe u v

variable {σ : Type u} {ε : Type v} {next : σ → ε → σ} {fails : ε → Prop} {same : σ → σ → Prop}
  {tells : σ → σ → Prop} {start : σ}

/-- The record at the end of a run says what was so after `before`, and of the steps `after` it only
failed ones changed anything. -/
structure StaleSince (next : σ → ε → σ) (fails : ε → Prop) (same tells : σ → σ → Prop) (start : σ)
    (before after : List ε) : Prop where
  said : tells (after.foldl next (before.foldl next start)) (before.foldl next start)
  missed : ∀ front e back, after = front ++ e :: back → fails e ∨
    same (front.foldl next (before.foldl next start))
      (next (front.foldl next (before.foldl next start)) e)

/-- A record brought up to date is stale since now. -/
theorem StaleSince.now {before : List ε}
    (h : tells (before.foldl next start) (before.foldl next start)) :
    StaleSince next fails same tells start before [] where
  said := h
  missed front e back hsplit := by
    have := congrArg List.length hsplit
    simp at this

/-- A step that failed, or changed nothing, leaves the record as stale as it was. -/
theorem StaleSince.append {before after : List ε} {e : ε}
    (h : StaleSince next fails same tells start before after)
    (hsaid : ∀ m, tells (after.foldl next (before.foldl next start)) m →
      tells (next (after.foldl next (before.foldl next start)) e) m)
    (hmissed : fails e ∨ same (after.foldl next (before.foldl next start))
      (next (after.foldl next (before.foldl next start)) e)) :
    StaleSince next fails same tells start before (after ++ [e]) where
  said := by
    rw [List.foldl_append]
    exact hsaid _ h.said
  missed front e' back hsplit := by
    rcases List.eq_nil_or_concat back with rfl | ⟨back, last, rfl⟩
    · obtain ⟨rfl, hlast⟩ := List.append_inj' hsplit rfl
      obtain rfl := (List.cons.inj hlast).1
      exact hmissed
    · have hshift : after ++ [e] = (front ++ e' :: back) ++ [last] := by
        rw [hsplit, List.append_assoc, List.cons_append, List.concat_eq_append]
      exact h.missed front e' back (List.append_inj' hshift rfl).1

/-- **The record is stale and never wrong.**  Where a step that goes well brings the record up to date
or touches neither the record nor what it is of, and a step that fails leaves the record alone, the
record says what was so at some point of the run, and only failed steps have changed anything
since. -/
theorem exists_staleSince {I : σ → Prop} {ok : σ → ε → Prop}
    (keep : ∀ s e, I s → ok s e → I (next s e))
    (good : ∀ s e, I s → ok s e → ¬ fails e → tells (next s e) (next s e) ∨
      ((∀ m, tells s m → tells (next s e) m) ∧ same s (next s e)))
    (failed : ∀ s e, I s → ok s e → fails e → ∀ m, tells s m → tells (next s e) m)
    (hstart : I start) (hsaid : tells start start) (events : List ε)
    (hok : ∀ front e back, events = front ++ e :: back → ok (front.foldl next start) e) :
    I (events.foldl next start) ∧ ∃ before after, events = before ++ after ∧
      StaleSince next fails same tells start before after := by
  induction events using List.reverseRecOn with
  | nil => exact ⟨hstart, [], [], rfl, StaleSince.now hsaid⟩
  | append_singleton events e ih =>
    obtain ⟨hinv, before, after, rfl, hstale⟩ := ih fun front e' back hsplit =>
      hok front e' (back ++ [e]) (by rw [hsplit, List.append_assoc, List.cons_append])
    have he := hok (before ++ after) e [] rfl
    rw [List.foldl_append, List.foldl_cons, List.foldl_nil]
    refine ⟨keep _ _ hinv he, ?_⟩
    rw [List.foldl_append] at hinv he
    by_cases hfails : fails e
    · exact ⟨before, after ++ [e], List.append_assoc _ _ _,
        hstale.append (failed _ _ hinv he hfails) (Or.inl hfails)⟩
    · rcases good _ _ hinv he hfails with hnow | ⟨hkept, hsame⟩
      · refine ⟨before ++ after ++ [e], [], (List.append_nil _).symm, StaleSince.now ?_⟩
        rw [List.foldl_append, List.foldl_append, List.foldl_cons, List.foldl_nil]
        exact hnow
      · exact ⟨before, after ++ [e], List.append_assoc _ _ _, hstale.append hkept (Or.inr hsame)⟩

end Library
