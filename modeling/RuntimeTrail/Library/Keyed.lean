import Mathlib.Data.List.Induction
import Mathlib.Order.Lattice

/-!
# Lists in key order, cut at a key

A walk over a list in strictly increasing key order resumes from a key: what is
still ahead of it is the part past that key, and cutting the list at one of its
own members splits it there (`filter_past_cut`, `filter_upto_cut`).  A prefix
walked so far is likewise cut at the last member a predicate accepts
(`exists_cut_at_last`).
-/

namespace Library

universe u v

variable {α : Type u} {κ : Type v} [LinearOrder κ]

/-- The keys strictly increase along the list. -/
def Keyed (key : α → κ) (l : List α) : Prop := l.Pairwise fun a b => key a < key b

namespace Keyed

variable {key : α → κ} {l front back : List α} {x : α}

theorem filter (h : Keyed key l) (p : α → Bool) : Keyed key (l.filter p) :=
  List.Pairwise.filter p h

theorem right (h : Keyed key (front ++ back)) : Keyed key back := (List.pairwise_append.mp h).2.1

theorem left (h : Keyed key (front ++ back)) : Keyed key front := (List.pairwise_append.mp h).1

/-- Everything before a member is below it. -/
theorem lt_of_mem_front (h : Keyed key (front ++ x :: back)) {y : α} (hy : y ∈ front) :
    key y < key x := (List.pairwise_append.mp h).2.2 y hy x (by simp)

/-- Everything behind a member is above it. -/
theorem lt_of_mem_back (h : Keyed key (front ++ x :: back)) {y : α} (hy : y ∈ back) :
    key x < key y := (List.pairwise_cons.mp h.right).1 y hy

/-- The last member is the largest. -/
theorem le_getLast (h : Keyed key l) (hlast : l.getLast? = some x) {y : α} (hy : y ∈ l) :
    key y ≤ key x := by
  obtain ⟨front, rfl⟩ := List.getLast?_eq_some_iff.mp hlast
  rcases List.mem_append.mp hy with hy | hy
  · exact (h.lt_of_mem_front hy).le
  · rw [List.mem_singleton.mp hy]

/-- What lies strictly past a member is what is behind it. -/
theorem filter_past_cut (h : Keyed key (front ++ x :: back)) :
    (front ++ x :: back).filter (fun y => decide (key x < key y)) = back := by
  have hfront : front.filter (fun y => decide (key x < key y)) = [] :=
    List.filter_eq_nil_iff.mpr fun y hy => by simpa using (h.lt_of_mem_front hy).le
  have hback : back.filter (fun y => decide (key x < key y)) = back :=
    List.filter_eq_self.mpr fun y hy => by simpa using h.lt_of_mem_back hy
  rw [List.filter_append, hfront, List.filter_cons_of_neg (by simp), hback, List.nil_append]

/-- What lies up to and including a member is what is before it, and the member. -/
theorem filter_upto_cut (h : Keyed key (front ++ x :: back)) :
    (front ++ x :: back).filter (fun y => decide (key y ≤ key x)) = front ++ [x] := by
  have hfront : front.filter (fun y => decide (key y ≤ key x)) = front :=
    List.filter_eq_self.mpr fun y hy => by simpa using (h.lt_of_mem_front hy).le
  have hback : back.filter (fun y => decide (key y ≤ key x)) = [] :=
    List.filter_eq_nil_iff.mpr fun y hy => by simpa using h.lt_of_mem_back hy
  rw [List.filter_append, hfront, List.filter_cons_of_pos (by simp), hback]

/-- Where a selection closed upwards is cut at a member, what lies past the member is what the
selection has behind it. -/
theorem filter_past_of_filter_eq (h : Keyed key l) {p : κ → Bool}
    (hup : ∀ {a b}, p a = true → a < b → p b = true)
    (hsplit : l.filter (fun y => p (key y)) = front ++ x :: back) :
    l.filter (fun y => decide (key x < key y)) = back := by
  have hx : p (key x) = true := by
    have hmem : x ∈ l.filter fun y => p (key y) := by rw [hsplit]; simp
    exact (List.mem_filter.mp hmem).2
  have hpast : l.filter (fun y => decide (key x < key y)) =
      (l.filter fun y => p (key y)).filter fun y => decide (key x < key y) := by
    rw [List.filter_filter]
    refine List.filter_congr fun y _ => ?_
    by_cases hy : key x < key y
    · simp [hy, hup hx hy]
    · simp [hy]
  have hkeyed := h.filter fun y => p (key y)
  rw [hsplit] at hkeyed
  rw [hpast, hsplit, hkeyed.filter_past_cut]

end Keyed

/-- A list is cut at the last member a predicate accepts; behind the cut it accepts nothing. -/
theorem exists_cut_at_last {p : α → Bool} {l : List α} {x : α}
    (h : (l.filter p).getLast? = some x) :
    ∃ front back, l = front ++ x :: back ∧ l.filter p = (front ++ [x]).filter p ∧
      back.filter p = [] := by
  induction l using List.reverseRecOn with
  | nil => simp at h
  | append_singleton l y ih =>
    by_cases hy : p y = true
    · rw [List.filter_append, List.filter_cons_of_pos hy, List.filter_nil,
        List.getLast?_concat] at h
      obtain rfl := Option.some.inj h
      exact ⟨l, [], rfl, rfl, rfl⟩
    · have hdrop : (l ++ [y]).filter p = l.filter p := by
        rw [List.filter_append, List.filter_cons_of_neg hy, List.filter_nil, List.append_nil]
      rw [hdrop] at h
      obtain ⟨front, back, rfl, hfront, hback⟩ := ih h
      refine ⟨front, back ++ [y], by simp, by rw [hdrop, hfront], ?_⟩
      rw [List.filter_append, hback, List.filter_cons_of_neg hy, List.filter_nil, List.append_nil]

end Library
