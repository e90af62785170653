import Mathlib.Algebra.Order.Ring.Nat
import Mathlib.Data.Nat.Dist
import Mathlib.Data.Nat.Log
import Mathlib.Tactic.Ring

/-!
# Natural numbers as doubles

A double has 53 significant bits.  A natural number is rounded to the nearest double,
ties to the even one, and a double that is a whole number is printed with as few
significant digits as still round to it.

* **a grid** — `roundTo`, to the nearest multiple; it keeps the order and passes over
  no multiple (`roundTo_le_of_dvd`, `le_roundTo_of_dvd`);
* **doubles** — `toDouble_mono`, `toDouble_toDouble` and `toDouble_of_lt`, exact below
  `2 ^ 53`;
* **prints** — `shortest`, and `shortest_toDouble_eq_iff`: a number comes back from the
  print of its double exactly where it is `ReadsBack`.
-/

namespace Library

/-! ## A grid -/

/-- The nearest multiple of a unit, the one with an even quotient on a tie. -/
def roundTo (unit n : Nat) : Nat :=
  if 2 * (n % unit) < unit ∨ 2 * (n % unit) = unit ∧ n / unit % 2 = 0 then n / unit * unit
  else (n / unit + 1) * unit

theorem roundTo_of_dvd {unit n : Nat} (hunit : 0 < unit) (h : unit ∣ n) : roundTo unit n = n := by
  rw [roundTo, Nat.mod_eq_zero_of_dvd h, if_pos (Or.inl (by omega)), Nat.div_mul_cancel h]

theorem dvd_roundTo (unit n : Nat) : unit ∣ roundTo unit n := by
  unfold roundTo
  split
  · exact Nat.dvd_mul_left _ _
  · exact Nat.dvd_mul_left _ _

/-- The rounded number is one of the two multiples around the number. -/
theorem roundTo_bounds (unit n : Nat) :
    n / unit * unit ≤ roundTo unit n ∧ roundTo unit n ≤ (n / unit + 1) * unit := by
  have hle : n / unit * unit ≤ (n / unit + 1) * unit := Nat.mul_le_mul_right _ (Nat.le_succ _)
  unfold roundTo
  split
  · exact ⟨Nat.le_refl _, hle⟩
  · exact ⟨hle, Nat.le_refl _⟩

/-- Rounding does not pass over a multiple from below. -/
theorem le_roundTo_of_dvd {unit n t : Nat} (hunit : 0 < unit) (ht : unit ∣ t) (h : t ≤ n) :
    t ≤ roundTo unit n := by
  obtain ⟨k, rfl⟩ := ht
  have hk : k ≤ n / unit := (Nat.le_div_iff_mul_le hunit).mpr (by rwa [Nat.mul_comm] at h)
  refine Nat.le_trans ?_ (roundTo_bounds unit n).1
  rw [Nat.mul_comm]
  exact Nat.mul_le_mul_right _ hk

/-- Nor from above. -/
theorem roundTo_le_of_dvd {unit n t : Nat} (hunit : 0 < unit) (ht : unit ∣ t) (h : n ≤ t) :
    roundTo unit n ≤ t := by
  rcases Nat.eq_or_lt_of_le h with rfl | hlt
  · exact (roundTo_of_dvd hunit ht).le
  · obtain ⟨k, rfl⟩ := ht
    have hk : n / unit < k := (Nat.div_lt_iff_lt_mul hunit).mpr (by rwa [Nat.mul_comm] at hlt)
    refine Nat.le_trans (roundTo_bounds unit n).2 ?_
    rw [Nat.mul_comm unit]
    exact Nat.mul_le_mul_right _ hk

theorem roundTo_mono {unit m n : Nat} (h : m ≤ n) :
    roundTo unit m ≤ roundTo unit n := by
  have hquotient : m / unit ≤ n / unit := Nat.div_le_div_right h
  rcases Nat.eq_or_lt_of_le hquotient with hsame | hlt
  · -- between two neighbouring multiples the remainders decide
    have hm := Nat.div_add_mod m unit
    have hn := Nat.div_add_mod n unit
    rw [hsame] at hm
    have hle : n / unit * unit ≤ (n / unit + 1) * unit := Nat.mul_le_mul_right _ (Nat.le_succ _)
    unfold roundTo
    rw [hsame]
    split
    · split
      · exact Nat.le_refl _
      · exact hle
    · split
      · rename_i hup hdown
        omega
      · exact Nat.le_refl _
  · exact Nat.le_trans (roundTo_bounds unit m).2 (Nat.le_trans (Nat.mul_le_mul_right _ hlt)
      (roundTo_bounds unit n).1)

/-! ## Doubles -/

/-- The distance of two neighbouring doubles on a number's binade. -/
def ulp (n : Nat) : Nat := 2 ^ (n.log2 - 52)

/-- The double nearest a natural number, ties to even. -/
def toDouble (n : Nat) : Nat := roundTo (ulp n) n

theorem ulp_pos (n : Nat) : 0 < ulp n := Nat.two_pow_pos _

/-- Below `2 ^ 53` every number is a double. -/
theorem toDouble_of_lt {n : Nat} (h : n < 2 ^ 53) : toDouble n = n := by
  refine roundTo_of_dvd (ulp_pos n) ?_
  have hlog : n.log2 - 52 = 0 := by
    rcases Nat.eq_zero_or_pos n with rfl | hn
    · rfl
    · have := (Nat.log2_lt (Nat.ne_of_gt hn)).mpr h
      omega
  rw [ulp, hlog, Nat.pow_zero]
  exact Nat.one_dvd n

theorem ulp_dvd_two_pow {n k : Nat} (h : n.log2 ≤ k) : ulp n ∣ 2 ^ k :=
  Nat.pow_dvd_pow 2 (by omega)

/-- A number's double is on the number's binade, or the first of the next. -/
theorem toDouble_bounds {n : Nat} (hn : 0 < n) :
    2 ^ n.log2 ≤ toDouble n ∧ toDouble n ≤ 2 ^ (n.log2 + 1) :=
  ⟨le_roundTo_of_dvd (ulp_pos n) (ulp_dvd_two_pow (Nat.le_refl _)) (Nat.log2_self_le hn.ne'),
    roundTo_le_of_dvd (ulp_pos n) (ulp_dvd_two_pow (Nat.le_succ _)) Nat.lt_log2_self.le⟩

/-- Rounding to doubles keeps the order. -/
theorem toDouble_mono {m n : Nat} (h : m ≤ n) : toDouble m ≤ toDouble n := by
  rcases Nat.eq_zero_or_pos m with rfl | hm
  · exact Nat.zero_le _
  · have hn : 0 < n := Nat.lt_of_lt_of_le hm h
    have hlog : m.log2 ≤ n.log2 := (Nat.le_log2 hn.ne').mpr
      (Nat.le_trans (Nat.log2_self_le hm.ne') h)
    rcases Nat.eq_or_lt_of_le hlog with hsame | hlt
    · have hulp : ulp m = ulp n := by rw [ulp, ulp, hsame]
      rw [toDouble, toDouble, hulp]
      exact roundTo_mono h
    · exact Nat.le_trans (toDouble_bounds hm).2
        (Nat.le_trans (Nat.pow_le_pow_right (by decide) hlt) (toDouble_bounds hn).1)

/-- A double is its own nearest one. -/
theorem toDouble_toDouble (n : Nat) : toDouble (toDouble n) = toDouble n := by
  rcases Nat.eq_zero_or_pos n with rfl | hn
  · rfl
  · obtain ⟨hlow, hhigh⟩ := toDouble_bounds hn
    refine roundTo_of_dvd (ulp_pos _) ?_
    rcases Nat.eq_or_lt_of_le hhigh with htop | hlt
    · rw [htop]
      exact ulp_dvd_two_pow (by rw [Nat.log2_two_pow])
    · have hpos : toDouble n ≠ 0 := (Nat.lt_of_lt_of_le (Nat.two_pow_pos _) hlow).ne'
      have hlog : (toDouble n).log2 = n.log2 := by
        have hle := (Nat.le_log2 hpos).mpr hlow
        have hge := (Nat.log2_lt hpos).mpr hlt
        omega
      rw [ulp, hlog]
      exact dvd_roundTo (ulp n) n

/-- A double is more than half of what it is nearest to. -/
theorem le_two_mul_toDouble (n : Nat) : n ≤ 2 * toDouble n := by
  rcases Nat.eq_zero_or_pos n with rfl | hn
  · exact Nat.zero_le _
  · have hlow := (toDouble_bounds hn).1
    have hlt : n < 2 ^ (n.log2 + 1) := Nat.lt_log2_self
    rw [Nat.pow_succ] at hlt
    omega

/-- What stands between a double and a number that is rounded to it is rounded to it, too. -/
theorem toDouble_of_between {x m t : Nat} (hx : toDouble x = x) (hm : toDouble m = x)
    (h : m ≤ t ∧ t ≤ x ∨ x ≤ t ∧ t ≤ m) : toDouble t = x := by
  rcases h with ⟨hlow, hhigh⟩ | ⟨hlow, hhigh⟩
  · exact Nat.le_antisymm (hx ▸ toDouble_mono hhigh) (hm ▸ toDouble_mono hlow)
  · exact Nat.le_antisymm (hm ▸ toDouble_mono hhigh) (hx ▸ toDouble_mono hlow)

/-! ## Prints -/

/-- The multiple of a step that is rounded to a double and nearest to it, the one with an even
quotient on a tie, if there is one. -/
def nearestMultiple (x step : Nat) : Option Nat :=
  let low := x / step * step
  let high := low + step
  if toDouble low = x then
    if toDouble high = x ∧ (high - x < x - low ∨ high - x = x - low ∧ x / step % 2 = 1) then
      some high
    else some low
  else if toDouble high = x then some high
  else none

/-- Tries to end in so many zeros, and then in fewer. -/
def shortestFrom (x : Nat) : Nat → Nat
  | 0 => x
  | zeros + 1 => (nearestMultiple x (10 ^ (zeros + 1))).getD (shortestFrom x zeros)

/-- The number a whole double is printed as: with as few significant digits as are still rounded
to it, and nearest to it among these. -/
def shortest (x : Nat) : Nat := shortestFrom x (Nat.toDigits 10 x).length

/-- A multiple of a step that is rounded to a double, and nearer to it than any other one, or as
near and with an even quotient. -/
structure Nearest (x step c : Nat) : Prop where
  dvd : step ∣ c
  rounded : toDouble c = x
  nearest : ∀ m, step ∣ m → toDouble m = x → m ≠ c →
    Nat.dist c x < Nat.dist m x ∨ Nat.dist c x = Nat.dist m x ∧ c / step % 2 = 0

/-- A step has one nearest multiple. -/
theorem Nearest.unique {x step c c' : Nat} (hx : toDouble x = x) (hstep : 0 < step)
    (h : Nearest x step c) (h' : Nearest x step c') : c = c' := by
  by_contra hne
  have hside : Nat.dist c x = Nat.dist c' x ∧ c / step % 2 = 0 ∧ c' / step % 2 = 0 := by
    rcases h.nearest c' h'.dvd h'.rounded (Ne.symm hne) with hlt | ⟨heq, heven⟩
    · rcases h'.nearest c h.dvd h.rounded hne with hlt' | ⟨heq', -⟩ <;> omega
    · rcases h'.nearest c h.dvd h.rounded hne with hlt' | ⟨-, heven'⟩
      · omega
      · exact ⟨heq, heven, heven'⟩
  obtain ⟨hdist, heven, heven'⟩ := hside
  -- the double stands midway between two even multiples, so it is a multiple itself
  obtain ⟨k, rfl⟩ := h.dvd
  obtain ⟨l, rfl⟩ := h'.dvd
  rw [Nat.mul_div_cancel_left _ hstep] at heven heven'
  have hmid : step * k + step * l = 2 * x := by
    unfold Nat.dist at hdist
    omega
  have hdvd : step ∣ x := by
    refine ⟨k / 2 + l / 2, ?_⟩
    have hk : k = 2 * (k / 2) := by omega
    have hl : l = 2 * (l / 2) := by omega
    rw [hk, hl] at hmid
    have hdouble : 2 * x = 2 * (step * (k / 2 + l / 2)) := by rw [← hmid]; ring
    omega
  have hself : x ≠ step * k := by
    rintro rfl
    unfold Nat.dist at hdist
    omega
  rcases h.nearest x hdvd hx hself with hlt | ⟨heq, -⟩
  · rw [Nat.dist_self] at hlt
    exact Nat.not_lt_zero _ hlt
  · rw [Nat.dist_self] at heq
    exact hself (Nat.eq_of_dist_eq_zero heq).symm

/-- A multiple of a step is at most the last one below a number, or at least the next one. -/
theorem multiple_le_or_ge {x step m : Nat} (hm : step ∣ m) :
    m ≤ x / step * step ∨ x / step * step + step ≤ m := by
  obtain ⟨k, rfl⟩ := hm
  rw [← Nat.succ_mul, Nat.mul_comm step]
  rcases Nat.lt_or_ge (x / step) k with hlt | hge
  · exact Or.inr (Nat.mul_le_mul_right _ hlt)
  · exact Or.inl (Nat.mul_le_mul_right _ hge)

theorem lt_next_multiple (x : Nat) {step : Nat} (hstep : 0 < step) :
    x < x / step * step + step := by
  rw [Nat.mul_comm]
  exact Nat.lt_mul_div_succ x hstep

/-- Where no nearest multiple is found there is none. -/
theorem toDouble_ne_of_nearestMultiple {x step m : Nat} (hx : toDouble x = x) (hstep : 0 < step)
    (h : nearestMultiple x step = none) (hm : step ∣ m) : toDouble m ≠ x := by
  intro hround
  have hlow : x / step * step ≤ x := Nat.div_mul_le_self x step
  have hhigh := lt_next_multiple x hstep
  simp only [nearestMultiple] at h
  by_cases hlowRound : toDouble (x / step * step) = x
  · rw [if_pos hlowRound] at h
    split at h <;> cases h
  · rw [if_neg hlowRound] at h
    rcases multiple_le_or_ge (x := x) hm with hle | hge
    · exact hlowRound (toDouble_of_between hx hround (Or.inl ⟨hle, hlow⟩))
    · rw [if_pos (toDouble_of_between hx hround (Or.inr ⟨hhigh.le, hge⟩))] at h
      cases h

/-- What is found is the nearest multiple. -/
theorem nearest_of_nearestMultiple {x step c : Nat} (hx : toDouble x = x) (hstep : 0 < step)
    (h : nearestMultiple x step = some c) : Nearest x step c := by
  have hlow : x / step * step ≤ x := Nat.div_mul_le_self x step
  have hhigh := lt_next_multiple x hstep
  have hlowDvd : step ∣ x / step * step := Nat.dvd_mul_left _ _
  have hhighDvd : step ∣ x / step * step + step := (Nat.dvd_add_right hlowDvd).mpr (dvd_refl _)
  have hlowQuotient : x / step * step / step = x / step := Nat.mul_div_cancel _ hstep
  have hhighQuotient : (x / step * step + step) / step = x / step + 1 := by
    rw [← Nat.succ_mul, Nat.mul_div_cancel _ hstep]
  simp only [nearestMultiple] at h
  by_cases hlowRound : toDouble (x / step * step) = x
  · rw [if_pos hlowRound] at h
    split at h
    · -- both neighbours are rounded to the double, and the next one is preferred
      rename_i hpreferred
      obtain rfl := Option.some.inj h
      refine ⟨hhighDvd, hpreferred.1, fun m hm _ hne => ?_⟩
      rw [hhighQuotient]
      unfold Nat.dist
      rcases multiple_le_or_ge (x := x) hm with hle | hge
      · omega
      · omega
    · rename_i hkept
      obtain rfl := Option.some.inj h
      refine ⟨hlowDvd, hlowRound, fun m hm hround hne => ?_⟩
      rw [hlowQuotient]
      unfold Nat.dist
      rcases multiple_le_or_ge (x := x) hm with hle | hge
      · omega
      · have hnext := toDouble_of_between hx hround (Or.inr ⟨hhigh.le, hge⟩)
        rw [not_and_or] at hkept
        rcases hkept with hkept | hkept
        · exact absurd hnext hkept
        · omega
  · rw [if_neg hlowRound] at h
    split at h
    · rename_i hhighRound
      obtain rfl := Option.some.inj h
      refine ⟨hhighDvd, hhighRound, fun m hm hround hne => ?_⟩
      unfold Nat.dist
      rcases multiple_le_or_ge (x := x) hm with hle | hge
      · exact absurd (toDouble_of_between hx hround (Or.inl ⟨hle, hlow⟩)) hlowRound
      · omega
    · cases h

/-- The search ends at the most zeros a number that is rounded to the double ends in. -/
theorem shortestFrom_spec {x : Nat} (hx : toDouble x = x) {zeros : Nat}
    (h : ∀ m, 10 ^ (zeros + 1) ∣ m → toDouble m ≠ x) :
    ∃ k, Nearest x (10 ^ k) (shortestFrom x zeros) ∧ ∀ m, 10 ^ (k + 1) ∣ m → toDouble m ≠ x := by
  induction zeros with
  | zero =>
    refine ⟨0, ⟨Nat.one_dvd x, hx, fun m _ _ hne => Or.inl ?_⟩, h⟩
    change Nat.dist x x < Nat.dist m x
    rw [Nat.dist_self]
    exact Nat.dist_pos_of_ne hne
  | succ zeros ih =>
    rw [shortestFrom]
    cases hfound : nearestMultiple x (10 ^ (zeros + 1)) with
    | none => exact ih fun m => toDouble_ne_of_nearestMultiple hx (Nat.pow_pos (by decide)) hfound
    | some c =>
      exact ⟨zeros + 1, nearest_of_nearestMultiple hx (Nat.pow_pos (by decide)) hfound, h⟩

/-- A number comes back from its double's print: it ends in as many zeros as any number rounded to
the same double, and is the nearest of those that do. -/
def ReadsBack (n : Nat) : Prop :=
  ∃ zeros, Nearest (toDouble n) (10 ^ zeros) n ∧
    ∀ m, 10 ^ (zeros + 1) ∣ m → toDouble m ≠ toDouble n

/-- No number rounded to a double ends in more zeros than the double has digits. -/
theorem toDouble_ne_of_length {x m : Nat} (hx : 0 < x)
    (hm : 10 ^ ((Nat.toDigits 10 x).length + 1) ∣ m) : toDouble m ≠ x := by
  rintro rfl
  have hpos : 0 < m := by
    rcases Nat.eq_zero_or_pos m with rfl | hpos
    · exact absurd hx (by decide)
    · exact hpos
  have hle := Nat.le_of_dvd hpos hm
  have hlt : toDouble m < 10 ^ (Nat.toDigits 10 (toDouble m)).length :=
    (Nat.length_toDigits_le_iff (by decide) (List.length_pos_iff.mpr Nat.toDigits_ne_nil)).mp
      (Nat.le_refl _)
  have hhalf := le_two_mul_toDouble m
  rw [Nat.pow_succ] at hle
  omega

/-- The print ends in as many zeros as any number rounded to the double, and is the nearest of
those that do. -/
theorem shortest_spec {n : Nat} (hn : 0 < n) :
    ∃ k, Nearest (toDouble n) (10 ^ k) (shortest (toDouble n)) ∧
      ∀ m, 10 ^ (k + 1) ∣ m → toDouble m ≠ toDouble n := by
  have hpos : 0 < toDouble n := by
    have := le_two_mul_toDouble n
    omega
  exact shortestFrom_spec (toDouble_toDouble n) fun m hm => toDouble_ne_of_length hpos hm

/-- A double is read back from its print. -/
theorem toDouble_shortest {n : Nat} (hn : 0 < n) :
    toDouble (shortest (toDouble n)) = toDouble n := by
  obtain ⟨k, hnearest, -⟩ := shortest_spec hn
  exact hnearest.rounded

/-- **A number comes back from the print of its double exactly where it is the shortest.** -/
theorem shortest_toDouble_eq_iff {n : Nat} (hn : 0 < n) :
    shortest (toDouble n) = n ↔ ReadsBack n := by
  have hx := toDouble_toDouble n
  obtain ⟨k, hnearest, hnone⟩ := shortest_spec hn
  constructor
  · intro h
    rw [h] at hnearest
    exact ⟨k, hnearest, hnone⟩
  · rintro ⟨zeros, hnearest', hnone'⟩
    have hsame : k = zeros := by
      rcases Nat.lt_trichotomy k zeros with hlt | heq | hgt
      · exact absurd hnearest'.rounded
          (hnone n ((Nat.pow_dvd_pow 10 hlt).trans hnearest'.dvd))
      · exact heq
      · exact absurd hnearest.rounded
          (hnone' _ ((Nat.pow_dvd_pow 10 hgt).trans hnearest.dvd))
    subst hsame
    exact hnearest.unique hx (Nat.pow_pos (by decide)) hnearest'

end Library
