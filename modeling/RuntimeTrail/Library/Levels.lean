import Mathlib.Data.List.Basic
import RuntimeTrail.Library.Loop

/-!
# Breadth-first levels

Nodes are told apart by a key, and a node met under a key that was seen is passed
over.  The levels below a level are what is new among its children, theirs, and so
on, each level in the order of the one above.

* **what is new** — `novel` and its law over an append (`novel_append`);
* **the levels** — `Levels`;
* **a worklist** — `Worklist.levels`: a loop that appends to its list, entry by
  entry, what is new among the entry's children has put its list in levels when it
  ends.
-/

namespace Library

universe u v w

section Novel

variable {α : Type u} {κ : Type v} [DecidableEq κ]

/-- The nodes of a list under keys that were not seen, the first one of each key. -/
def novel (key : α → κ) : List κ → List α → List α
  | _, [] => []
  | seen, node :: rest =>
    if key node ∈ seen then novel key seen rest
    else node :: novel key (seen ++ [key node]) rest

variable {key : α → κ} {seen : List κ}

/-- What is new in the second of two lists is new past the first. -/
theorem novel_append (l l' : List α) : novel key seen (l ++ l') =
    novel key seen l ++ novel key (seen ++ (novel key seen l).map key) l' := by
  induction l generalizing seen with
  | nil => simp [novel]
  | cons node rest ih =>
    rw [List.cons_append]
    by_cases hseen : key node ∈ seen
    · simp only [novel, if_pos hseen, ih]
    · simp only [novel, if_neg hseen, ih, List.cons_append, List.map_cons, List.append_assoc,
        List.nil_append]

end Novel

/-! ## The levels -/

/-- The levels from a level on: what is new among its children is the next one, until nothing is. -/
inductive Levels {α : Type u} {κ : Type v} [DecidableEq κ] (key : α → κ) (next : α → List α) :
    List κ → List α → List (List α) → Prop
  | last {seen : List κ} {level : List α} (settled : novel key seen (level.flatMap next) = []) :
      Levels key next seen level [level]
  | deeper {seen : List κ} {level below : List α} {rest : List (List α)}
      (fresh : novel key seen (level.flatMap next) = below) (nonempty : below ≠ [])
      (further : Levels key next (seen ++ below.map key) below rest) :
      Levels key next seen level (level :: rest)

/-! ## A worklist -/

/-- A loop over a list it extends: a turn appends what is new among the children of the entry at the
cursor, and passes it; the loop stops behind the last entry. -/
structure Worklist {σ : Type w} {α : Type u} {κ : Type v} [DecidableEq κ] (L : Loop σ)
    (I : σ → Prop) (key : α → κ) (next : α → List α) (order : σ → List α) (cursor : σ → Nat) :
    Prop where
  keep : ∀ {s s'}, I s → L.step s = some s' → I s'
  turn : ∀ {s s'}, I s → L.step s = some s' → ∃ node, (order s)[cursor s]? = some node ∧
    order s' = order s ++ novel key ((order s).map key) (next node) ∧ cursor s' = cursor s + 1
  stop : ∀ {s}, I s → L.step s = none → (order s).length ≤ cursor s

namespace Worklist

variable {σ : Type w} {α : Type u} {κ : Type v} [DecidableEq κ] {L : Loop σ} {I : σ → Prop}
  {key : α → κ} {next : α → List α} {order : σ → List α} {cursor : σ → Nat}

/-- From within a level on: the levels above it stand in front, the cursor parts the level, and
what is new among the children of its passed part stands behind it. -/
theorem levels_within (W : Worklist L I key next order cursor) (s : σ) : I s →
    ∀ front passed ahead, order s = front ++ (passed ++ ahead) ++
        novel key ((front ++ (passed ++ ahead)).map key) (passed.flatMap next) →
      cursor s = (front ++ passed).length →
      ∃ levels, Levels key next ((front ++ (passed ++ ahead)).map key) (passed ++ ahead) levels ∧
        order (L.run s) = front ++ levels.flatten := by
  refine L.run_induct (P := fun s r => I s → ∀ front passed ahead,
    order s = front ++ (passed ++ ahead) ++
        novel key ((front ++ (passed ++ ahead)).map key) (passed.flatMap next) →
      cursor s = (front ++ passed).length →
      ∃ levels, Levels key next ((front ++ (passed ++ ahead)).map key) (passed ++ ahead) levels ∧
        order r = front ++ levels.flatten) ?_ ?_ s
  · intro s hnone hinv front passed ahead horder hcursor
    have hlength := W.stop hinv hnone
    rw [hcursor, horder] at hlength
    simp only [List.length_append] at hlength
    obtain rfl : ahead = [] := List.length_eq_zero_iff.mp (by omega)
    have hover : novel key ((front ++ (passed ++ [])).map key) (passed.flatMap next) = [] :=
      List.length_eq_zero_iff.mp (by omega)
    refine ⟨[passed ++ []], .last ?_, ?_⟩
    · rwa [List.append_nil] at hover ⊢
    · rw [horder, hover]
      simp
  · intro s s' hstep ih hinv front passed ahead horder hcursor
    obtain ⟨node, hnode, horder', hcursor'⟩ := W.turn hinv hstep
    have hinv' := W.keep hinv hstep
    rw [hcursor, horder, List.append_assoc, ← List.append_assoc front, ← List.append_assoc front,
      List.append_assoc (front ++ passed), List.getElem?_append_right (Nat.le_refl _),
      Nat.sub_self] at hnode
    cases ahead with
    | cons first ahead =>
      obtain rfl : first = node := Option.some.inj hnode
      -- the entry moves to the passed part of its level
      obtain ⟨levels, hlevels, hrun⟩ := ih hinv' front (passed ++ [first]) ahead (by
        rw [horder', horder, List.flatMap_append, List.append_assoc passed, List.singleton_append,
          novel_append]
        simp) (by
        rw [hcursor', hcursor]
        simp only [List.length_append, List.length_singleton]
        omega)
      rw [List.append_assoc passed, List.singleton_append] at hlevels
      exact ⟨levels, hlevels, hrun⟩
    | nil =>
      rw [List.append_nil] at horder hnode ⊢
      -- the level is passed, and the one below it begins
      generalize hbelow : novel key ((front ++ passed).map key) (passed.flatMap next) = below at *
      cases below with
      | nil => exact absurd hnode (by simp)
      | cons first below =>
        obtain rfl : first = node := Option.some.inj (by simpa using hnode)
        obtain ⟨levels, hlevels, hrun⟩ := ih hinv' (front ++ passed) [first] below (by
          rw [horder', horder]
          simp) (by
          rw [hcursor', hcursor]
          simp only [List.length_append, List.length_singleton])
        refine ⟨passed :: levels, .deeper hbelow (by simp) ?_, ?_⟩
        · rw [← List.map_append]
          exact hlevels
        · rw [hrun, List.flatten_cons, List.append_assoc]

/-- **A worklist ends in levels** from the list it started with, every entry passed. -/
theorem levels (W : Worklist L I key next order cursor) {s : σ} (hinv : I s)
    (hcursor : cursor s = 0) : ∃ levels,
      Levels key next ((order s).map key) (order s) levels ∧ order (L.run s) = levels.flatten :=
  W.levels_within s hinv [] [] (order s) (by simp [novel]) hcursor

end Worklist

end Library
