import Mathlib.Algebra.Order.BigOperators.Group.List
import Mathlib.Algebra.Order.Ring.Nat

/-!
# Threads side by side

The local states of a pool of threads are a list, and a thread's step replaces its
own entry.  What every thread satisfies is kept when the one that steps keeps it
(`forall_mem_set`); what the threads hold together gains what that one gained
(`flatMap_set_perm`), and where it is counted it gains that number (`sum_map_set`).
-/

namespace Library

universe u v

variable {τ : Type u} {β : Type v} {threads : List τ} {i : Nat} {before after : τ}

/-- The thread that steps, between those that do not. -/
theorem split_of_getElem? (h : threads[i]? = some before) :
    ∃ front back, threads = front ++ before :: back ∧
      ∀ after, threads.set i after = front ++ after :: back := by
  obtain ⟨hi, hget⟩ := List.getElem?_eq_some_iff.mp h
  refine ⟨threads.take i, threads.drop (i + 1), ?_, fun after => ?_⟩
  · rw [← hget, List.getElem_cons_drop hi, List.take_append_drop]
  · rw [List.set_eq_take_append_cons_drop, if_pos hi]

theorem forall_mem_set {P : τ → Prop} (hall : ∀ t ∈ threads, P t) (hafter : P after) :
    ∀ t ∈ threads.set i after, P t := by
  intro t ht
  rcases List.mem_or_eq_of_mem_set ht with ht | rfl
  · exact hall t ht
  · exact hafter

/-- A thread's entry is where it was put, and the others are where they were. -/
theorem getElem?_set_cases {j : Nat} {t : τ} (h : (threads.set i after)[j]? = some t) :
    (j = i ∧ t = after) ∨ (j ≠ i ∧ threads[j]? = some t) := by
  by_cases hij : i = j
  · subst hij
    obtain ⟨hlt, hget⟩ := List.getElem?_eq_some_iff.mp h
    exact Or.inl ⟨rfl, by simpa using hget.symm⟩
  · rw [List.getElem?_set_ne hij] at h
    exact Or.inr ⟨Ne.symm hij, h⟩

/-- A pool that one more thread has joined has that thread, and the others where they were. -/
theorem getElem?_concat_cases {j : Nat} {t : τ} (h : (threads ++ [after])[j]? = some t) :
    (j = threads.length ∧ t = after) ∨ threads[j]? = some t := by
  rcases Nat.lt_trichotomy j threads.length with hj | rfl | hj
  · rw [List.getElem?_append_left hj] at h
    exact Or.inr h
  · rw [List.getElem?_concat_length] at h
    exact Or.inl ⟨rfl, (Option.some.inj h).symm⟩
  · rw [List.getElem?_eq_none (by rw [List.length_append, List.length_singleton]; omega)] at h
    cases h

/-- **What the threads hold together gains what one of them gained.** -/
theorem flatMap_set_perm {holds : τ → List β} {gained : List β}
    (h : threads[i]? = some before) (hgain : (holds after).Perm (holds before ++ gained)) :
    ((threads.set i after).flatMap holds).Perm (threads.flatMap holds ++ gained) := by
  obtain ⟨front, back, hsplit, hset⟩ := split_of_getElem? h
  rw [hset, hsplit, List.flatMap_append, List.flatMap_append, List.flatMap_cons, List.flatMap_cons,
    List.append_assoc, List.append_assoc]
  refine List.Perm.append_left _ ?_
  calc (holds after ++ back.flatMap holds).Perm (holds before ++ gained ++ back.flatMap holds) :=
        hgain.append_right _
    _ = (holds before ++ (gained ++ back.flatMap holds)) := List.append_assoc _ _ _
    _ |>.Perm (holds before ++ (back.flatMap holds ++ gained)) :=
        (List.perm_append_comm).append_left _

theorem flatMap_set_eq {holds : τ → List β} (h : threads[i]? = some before)
    (hsame : holds after = holds before) :
    (threads.set i after).flatMap holds = threads.flatMap holds := by
  obtain ⟨front, back, hsplit, hset⟩ := split_of_getElem? h
  rw [hset, hsplit, List.flatMap_append, List.flatMap_append, List.flatMap_cons, List.flatMap_cons,
    hsame]

/-- **The counted sum moves by what the thread that steps moves by.** -/
theorem sum_map_set {count : τ → Nat} (h : threads[i]? = some before) :
    ((threads.set i after).map count).sum + count before =
      (threads.map count).sum + count after := by
  obtain ⟨front, back, hsplit, hset⟩ := split_of_getElem? h
  rw [hset, hsplit]
  simp only [List.map_append, List.map_cons, List.sum_append, List.sum_cons]
  omega

/-- No thread counts more than they all do. -/
theorem le_sum_map {count : τ → Nat} (h : threads[i]? = some before) :
    count before ≤ (threads.map count).sum := by
  obtain ⟨front, back, hsplit, -⟩ := split_of_getElem? h
  rw [hsplit]
  simp only [List.map_append, List.map_cons, List.sum_append, List.sum_cons]
  omega

/-- Where each thread of one pool counts no more than the one beside it, so do they all. -/
theorem sum_map_le_sum_map {υ : Type v} {f : τ → Nat} {g : υ → Nat} :
    ∀ {threads : List τ} {others : List υ}, threads.length = others.length →
      (∀ (i : Nat) t u, threads[i]? = some t → others[i]? = some u → f t ≤ g u) →
      (threads.map f).sum ≤ (others.map g).sum := by
  intro threads
  induction threads with
  | nil => intro others _ _; exact Nat.zero_le _
  | cons t threads ih =>
    intro others hlength hle
    cases others with
    | nil => cases hlength
    | cons u others =>
      have hfirst : f t ≤ g u := hle 0 t u rfl rfl
      have hrest := ih (Nat.succ.inj hlength) fun i t' u' ht hu => hle (i + 1) t' u' ht hu
      simp only [List.map_cons, List.sum_cons]
      exact Nat.add_le_add hfirst hrest

end Library
