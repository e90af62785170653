import RuntimeTrail.Library.Loop
import RuntimeTrail.Library.Threads
import RuntimeTrail.Model.Size

/-!
# The in-flight body budget

A request body is buffered before anything of it is admitted, so the transports share
one counter of the bytes that may be buffered at once.  A call loads the counter and
exchanges it for the sum with its charge, where that sum fits; an exchange that finds
another count looks at what it found.  What a call was given is subtracted when its
guard is dropped.

A load is relaxed: it may return any count the counter has held, and an exchange may
fail for no reason.  Only an exchange that succeeds has seen the last count.

* **one move** — `InflightBodyBudget.step`, and `Moved` which lists what it can do;
* **the invariant** — `Balanced`: the counter is what the guards hold, and it fits;
* **the history** — `Recalls`: every count the counter has held was once what the
  guards held;
* **the law** — `inflight_budget_law`.
-/

namespace RuntimeTrail

open Library

/-- Where a call of `try_acquire` stands, and the guard it leaves. -/
inductive AcquireCall where
  | idle
  | started (charge : Nat)
  /-- Found a count that the charge fits on. -/
  | observed (charge current : Nat)
  /-- Answered `None`, having found this count. -/
  | refused (charge current : Nat)
  /-- The guard is held. -/
  | acquired (charge : Nat)
deriving DecidableEq

/-- The bytes a call's guard holds. -/
def AcquireCall.charged : AcquireCall → Nat
  | .acquired charge => charge
  | _ => 0

/-- The charge a call is about. -/
def AcquireCall.charge? : AcquireCall → Option Nat
  | .idle => none
  | .started charge => some charge
  | .observed charge _ => some charge
  | .refused charge _ => some charge
  | .acquired charge => some charge

/-- Whether a call has no answer yet. -/
def AcquireCall.isOpen : AcquireCall → Bool
  | .started _ => true
  | .observed _ _ => true
  | _ => false

/-- What a call does next. -/
inductive AcquireMove where
  | call (charge : Nat)
  | load (value : Nat)
  | exchange
  | fail (value : Nat)
  /-- The guard is dropped, or the refusal has been answered. -/
  | finish
deriving DecidableEq

/-- The counter and its ceiling, with the calls on it and the counts it held before, latest
first. -/
structure InflightBodyBudget where
  ceilingBytes : Nat
  inFlight : Nat
  overwritten : List Nat
  calls : List AcquireCall
deriving DecidableEq

namespace InflightBodyBudget

def new (ceilingBytes threads : Nat) : InflightBodyBudget where
  ceilingBytes := ceilingBytes
  inFlight := 0
  overwritten := []
  calls := List.replicate threads .idle

/-- Every count the counter has held. -/
def held (b : InflightBodyBudget) : List Nat := b.inFlight :: b.overwritten

/-- The bytes the guards hold together. -/
def charged (b : InflightBodyBudget) : Nat := (b.calls.map AcquireCall.charged).sum

/-- Whether a charge fits on a count: the sum neither overflows nor passes the ceiling. -/
def fits (b : InflightBodyBudget) (charge current : Nat) : Bool :=
  current + charge ≤ u64Max && current + charge ≤ b.ceilingBytes

/-- What a call that found this count does with it. -/
def look (b : InflightBodyBudget) (charge current : Nat) : AcquireCall :=
  if b.fits charge current then .observed charge current else .refused charge current

/-- A subtraction that wraps. -/
def wrappingSub (a b : Nat) : Nat := (a + (2 ^ 64 - b)) % 2 ^ 64

def setCall (b : InflightBodyBudget) (i : Nat) (call : AcquireCall) : InflightBodyBudget :=
  { b with calls := b.calls.set i call }

/-- The counter takes another count. -/
def store (b : InflightBodyBudget) (count : Nat) : InflightBodyBudget :=
  { b with inFlight := count, overwritten := b.held }

/-- One call's next move. -/
def step (b : InflightBodyBudget) (label : Nat × AcquireMove) : Option InflightBodyBudget :=
  match b.calls[label.1]?, label.2 with
  | some .idle, .call charge => some (b.setCall label.1 (.started charge))
  | some (.started charge), .load value =>
    if value ∈ b.held then some (b.setCall label.1 (b.look charge value)) else none
  | some (.observed charge current), .exchange =>
    if b.inFlight = current then
      some ((b.store (current + charge)).setCall label.1 (.acquired charge))
    else none
  | some (.observed charge _), .fail value =>
    if value ∈ b.held then some (b.setCall label.1 (b.look charge value)) else none
  | some (.refused _ _), .finish => some (b.setCall label.1 .idle)
  | some (.acquired charge), .finish =>
    some ((b.store (wrappingSub b.inFlight charge)).setCall label.1 .idle)
  | _, _ => none

/-- One more caller. -/
def join (b : InflightBodyBudget) : InflightBodyBudget := { b with calls := b.calls ++ [.idle] }

@[simp] theorem calls_setCall (b : InflightBodyBudget) (i : Nat) (call : AcquireCall) :
    (b.setCall i call).calls = b.calls.set i call := rfl

theorem setCall_setCall (b : InflightBodyBudget) (i : Nat) (first second : AcquireCall) :
    (b.setCall i first).setCall i second = b.setCall i second := by
  unfold setCall
  rw [List.set_set]

/-! ## One move -/

/-- What one call's move can do. -/
inductive Moved (b : InflightBodyBudget) (i : Nat) : InflightBodyBudget → Prop
  /-- A call that holds nothing goes on holding nothing. -/
  | waits {before after : AcquireCall} (call : b.calls[i]? = some before)
    (nothing : before.charged = 0) (still : after.charged = 0)
    (looked : ∀ charge current, after = .observed charge current → b.fits charge current = true)
    (honest : ∀ charge current, after = .refused charge current →
      current ∈ b.held ∧ b.fits charge current = false) :
    Moved b i (b.setCall i after)
  | exchange {charge : Nat} (call : b.calls[i]? = some (.observed charge b.inFlight)) :
    Moved b i ((b.store (b.inFlight + charge)).setCall i (.acquired charge))
  | release {charge : Nat} (call : b.calls[i]? = some (.acquired charge)) :
    Moved b i ((b.store (wrappingSub b.inFlight charge)).setCall i .idle)

theorem charged_look (b : InflightBodyBudget) (charge current : Nat) :
    (b.look charge current).charged = 0 := by
  unfold look
  split <;> rfl

/-- A look at a count the counter has held. -/
theorem Moved.look {b : InflightBodyBudget} {i value charge : Nat} {before : AcquireCall}
    (call : b.calls[i]? = some before) (nothing : before.charged = 0) (hvalue : value ∈ b.held) :
    Moved b i (b.setCall i (b.look charge value)) := by
  refine .waits call nothing (b.charged_look charge value) ?_ ?_
  · intro charge' current h
    unfold InflightBodyBudget.look at h
    split at h
    · rename_i hfits
      cases h
      exact hfits
    · cases h
  · intro charge' current h
    unfold InflightBodyBudget.look at h
    split at h
    · cases h
    · rename_i hfits
      cases h
      exact ⟨hvalue, Bool.eq_false_iff.mpr hfits⟩

theorem moved_of_step {b b' : InflightBodyBudget} {label : Nat × AcquireMove}
    (h : b.step label = some b') : Moved b label.1 b' := by
  unfold step at h
  split at h
  · rename_i hcall _
    obtain rfl := Option.some.inj h
    exact .waits hcall rfl rfl (fun _ _ h => by cases h) (fun _ _ h => by cases h)
  · rename_i hcall _
    split at h
    · rename_i hvalue
      obtain rfl := Option.some.inj h
      exact .look hcall rfl hvalue
    · cases h
  · rename_i hcall _
    split at h
    · rename_i hlast
      subst hlast
      obtain rfl := Option.some.inj h
      exact .exchange hcall
    · cases h
  · rename_i hcall _
    split at h
    · rename_i hvalue
      obtain rfl := Option.some.inj h
      exact .look hcall rfl hvalue
    · cases h
  · rename_i hcall _
    obtain rfl := Option.some.inj h
    exact .waits hcall rfl rfl (fun _ _ h => by cases h) (fun _ _ h => by cases h)
  · rename_i hcall _
    obtain rfl := Option.some.inj h
    exact .release hcall
  · cases h

/-- A move is one call's; the others stay where they are. -/
theorem Moved.calls_eq {b b' : InflightBodyBudget} {i : Nat} (h : Moved b i b') :
    ∃ after, b'.calls = b.calls.set i after := by
  cases h with
  | waits => exact ⟨_, rfl⟩
  | exchange => exact ⟨_, rfl⟩
  | release => exact ⟨_, rfl⟩

theorem charge?_look (b : InflightBodyBudget) (charge current : Nat) :
    (b.look charge current).charge? = some charge := by
  unfold look
  split <;> rfl

/-- A call without an answer stays about its charge. -/
theorem charge?_of_step {b b' : InflightBodyBudget} {i : Nat} {move : AcquireMove}
    {before : AcquireCall} (hcall : b.calls[i]? = some before) (hopen : before.isOpen = true)
    (h : b.step (i, move) = some b') :
    ∃ after, b'.calls[i]? = some after ∧ after.charge? = before.charge? := by
  have hi : i < b.calls.length := (List.getElem?_eq_some_iff.mp hcall).1
  have hset : ∀ call, (b.calls.set i call)[i]? = some call := fun call => List.getElem?_set_self hi
  unfold step at h
  rw [hcall] at h
  cases before with
  | started charge =>
    cases move with
    | load value =>
      simp only at h
      split at h
      · obtain rfl := Option.some.inj h
        exact ⟨_, hset _, charge?_look b charge value⟩
      · cases h
    | _ => cases h
  | observed charge current =>
    cases move with
    | exchange =>
      simp only at h
      split at h
      · obtain rfl := Option.some.inj h
        exact ⟨_, hset _, rfl⟩
      · cases h
    | fail value =>
      simp only at h
      split at h
      · obtain rfl := Option.some.inj h
        exact ⟨_, hset _, charge?_look b charge value⟩
      · cases h
    | _ => cases h
  | _ => cases hopen

theorem calls_of_call {b b' : InflightBodyBudget} {i charge : Nat}
    (h : b.step (i, .call charge) = some b') : b'.calls[i]? = some (.started charge) := by
  unfold step at h
  cases hcall : b.calls[i]? with
  | none => simp [hcall] at h
  | some before =>
    simp only [hcall] at h
    cases before with
    | idle =>
      obtain rfl := Option.some.inj h
      exact List.getElem?_set_self (List.getElem?_eq_some_iff.mp hcall).1
    | _ => cases h

theorem calls_of_finish {b b' : InflightBodyBudget} {i : Nat}
    (h : b.step (i, .finish) = some b') : b'.calls[i]? = some .idle := by
  unfold step at h
  cases hcall : b.calls[i]? with
  | none => simp [hcall] at h
  | some before =>
    have hset : ∀ call, (b.calls.set i call)[i]? = some call := fun call =>
      List.getElem?_set_self (List.getElem?_eq_some_iff.mp hcall).1
    simp only [hcall] at h
    cases before with
    | refused charge current =>
      obtain rfl := Option.some.inj h
      exact hset _
    | acquired charge =>
      obtain rfl := Option.some.inj h
      exact hset _
    | _ => cases h

theorem ceilingBytes_of_moved {b b' : InflightBodyBudget} {i : Nat} (h : Moved b i b') :
    b'.ceilingBytes = b.ceilingBytes := by
  cases h <;> rfl

/-- The counter forgets no count it has held. -/
theorem Moved.held_subset {b b' : InflightBodyBudget} {i : Nat} (h : Moved b i b') :
    b.held ⊆ b'.held := by
  cases h with
  | waits => exact List.Subset.refl _
  | exchange => exact List.subset_cons_self _ _
  | release => exact List.subset_cons_self _ _

/-! ## The invariant -/

/-- The counter is what the guards hold and fits below the ceiling; a call that found room found
enough of it, and one that was refused had found a count it did not fit on. -/
structure Balanced (b : InflightBodyBudget) : Prop where
  balance : b.inFlight = b.charged
  within : b.inFlight ≤ b.ceilingBytes
  word : b.inFlight ≤ u64Max
  looked : ∀ (i : Nat) charge current, b.calls[i]? = some (.observed charge current) →
    b.fits charge current = true
  honest : ∀ (i : Nat) charge current, b.calls[i]? = some (.refused charge current) →
    current ∈ b.held ∧ b.fits charge current = false

theorem balanced_new (ceilingBytes threads : Nat) : Balanced (new ceilingBytes threads) where
  balance := by simp [new, charged, AcquireCall.charged]
  within := Nat.zero_le _
  word := Nat.zero_le _
  looked i charge current h := by
    have hidle := List.eq_of_mem_replicate (List.mem_of_getElem? h)
    cases hidle
  honest i charge current h := by
    have hidle := List.eq_of_mem_replicate (List.mem_of_getElem? h)
    cases hidle

theorem charged_setCall {b : InflightBodyBudget} {i : Nat} {before : AcquireCall}
    (hcall : b.calls[i]? = some before) (after : AcquireCall) :
    (b.setCall i after).charged + before.charged = b.charged + after.charged := sum_map_set hcall

theorem Balanced.waits {b : InflightBodyBudget} (h : Balanced b) {i : Nat}
    {before after : AcquireCall} (hcall : b.calls[i]? = some before)
    (nothing : before.charged = 0) (still : after.charged = 0)
    (looked : ∀ charge current, after = .observed charge current → b.fits charge current = true)
    (honest : ∀ charge current, after = .refused charge current →
      current ∈ b.held ∧ b.fits charge current = false) : Balanced (b.setCall i after) where
  balance := by
    have hsum := charged_setCall hcall after
    rw [nothing, still] at hsum
    exact h.balance.trans hsum.symm
  within := h.within
  word := h.word
  looked j charge current hj := by
    rcases getElem?_set_cases hj with ⟨-, hafter⟩ | ⟨-, hj⟩
    · exact looked charge current hafter.symm
    · exact h.looked j charge current hj
  honest j charge current hj := by
    rcases getElem?_set_cases hj with ⟨-, hafter⟩ | ⟨-, hj⟩
    · exact honest charge current hafter.symm
    · exact h.honest j charge current hj

/-- What the calls know is kept where the counter takes another count. -/
theorem Balanced.store {b : InflightBodyBudget} (h : Balanced b) {i count : Nat}
    {after : AcquireCall} (hcount : count = (b.setCall i after).charged)
    (hfits : count ≤ b.ceilingBytes) (hword : count ≤ u64Max)
    (hlooked : ∀ charge current, after ≠ .observed charge current)
    (hhonest : ∀ charge current, after ≠ .refused charge current) :
    Balanced ((b.store count).setCall i after) where
  balance := hcount
  within := hfits
  word := hword
  looked j charge current hj := by
    rcases getElem?_set_cases hj with ⟨-, hafter⟩ | ⟨-, hj⟩
    · exact absurd hafter.symm (hlooked charge current)
    · exact h.looked j charge current hj
  honest j charge current hj := by
    rcases getElem?_set_cases hj with ⟨-, hafter⟩ | ⟨-, hj⟩
    · exact absurd hafter.symm (hhonest charge current)
    · obtain ⟨hheld, hfull⟩ := h.honest j charge current hj
      exact ⟨List.mem_cons_of_mem _ hheld, hfull⟩

theorem fits_iff {b : InflightBodyBudget} {charge current : Nat} :
    b.fits charge current = true ↔
      current + charge ≤ u64Max ∧ current + charge ≤ b.ceilingBytes := by
  simp [InflightBodyBudget.fits]

/-- A charge that does not fit on a count passes the ceiling or the counter's width. -/
theorem lt_of_not_fits {b : InflightBodyBudget} {charge current : Nat}
    (h : b.fits charge current = false) : min b.ceilingBytes u64Max < current + charge := by
  rw [min_lt_iff]
  by_contra hroom
  rw [not_or, not_lt, not_lt] at hroom
  rw [fits_iff.mpr ⟨hroom.2, hroom.1⟩] at h
  cases h

theorem Balanced.exchange {b : InflightBodyBudget} (h : Balanced b) {i charge : Nat}
    (hcall : b.calls[i]? = some (.observed charge b.inFlight)) :
    Balanced ((b.store (b.inFlight + charge)).setCall i (.acquired charge)) := by
  obtain ⟨hword, hceiling⟩ := fits_iff.mp (h.looked i charge b.inFlight hcall)
  refine h.store ?_ hceiling hword (fun _ _ h => by cases h) (fun _ _ h => by cases h)
  have hsum := charged_setCall hcall (.acquired charge)
  rw [h.balance]
  exact hsum.symm

/-- What a guard subtracts was counted, so the subtraction does not wrap. -/
theorem Balanced.wrappingSub_eq {b : InflightBodyBudget} (h : Balanced b) {i charge : Nat}
    (hcall : b.calls[i]? = some (.acquired charge)) :
    charge ≤ b.inFlight ∧ wrappingSub b.inFlight charge = b.inFlight - charge := by
  have hcounted : charge ≤ b.inFlight := by
    rw [h.balance]
    exact @le_sum_map _ _ _ _ AcquireCall.charged hcall
  refine ⟨hcounted, ?_⟩
  have hword : b.inFlight ≤ 2 ^ 64 - 1 := h.word
  unfold wrappingSub
  omega

theorem Balanced.release {b : InflightBodyBudget} (h : Balanced b) {i charge : Nat}
    (hcall : b.calls[i]? = some (.acquired charge)) :
    Balanced ((b.store (wrappingSub b.inFlight charge)).setCall i .idle) := by
  obtain ⟨hcounted, hsub⟩ := h.wrappingSub_eq hcall
  have hless : b.inFlight - charge ≤ b.inFlight := Nat.sub_le _ _
  rw [hsub]
  refine h.store ?_ (hless.trans h.within) (hless.trans h.word) (fun _ _ h => by cases h)
    (fun _ _ h => by cases h)
  have hsum : (b.setCall i .idle).charged + charge = b.charged := charged_setCall hcall .idle
  rw [h.balance]
  omega

theorem Balanced.moved {b b' : InflightBodyBudget} {i : Nat} (h : Balanced b)
    (hmoved : Moved b i b') : Balanced b' := by
  cases hmoved with
  | waits call nothing still looked honest => exact h.waits call nothing still looked honest
  | exchange call => exact h.exchange call
  | release call => exact h.release call

/-- A caller that joins holds nothing and has asked for nothing. -/
theorem Balanced.join {b : InflightBodyBudget} (h : Balanced b) : Balanced b.join where
  balance := by
    have hcharged : b.join.charged = b.charged := by
      simp [charged, InflightBodyBudget.join, AcquireCall.charged]
    exact h.balance.trans hcharged.symm
  within := h.within
  word := h.word
  looked i charge current hi := by
    rcases getElem?_concat_cases hi with ⟨-, hidle⟩ | hi
    · cases hidle
    · exact h.looked i charge current hi
  honest i charge current hi := by
    rcases getElem?_concat_cases hi with ⟨-, hidle⟩ | hi
    · cases hidle
    · exact h.honest i charge current hi

/-- What one caller's moves leave the others: a balanced budget under the same ceiling, and their own
calls where they were. -/
structure Kept (b b' : InflightBodyBudget) (i : Nat) : Prop where
  balanced : Balanced b'
  ceiling : b'.ceilingBytes = b.ceilingBytes
  length : b'.calls.length = b.calls.length
  others : ∀ j, j ≠ i → b'.calls[j]? = b.calls[j]?

theorem Balanced.kept {b : InflightBodyBudget} (h : Balanced b) (i : Nat) : Kept b b i :=
  ⟨h, rfl, rfl, fun _ _ => rfl⟩

theorem Balanced.kept_of_step {b b' : InflightBodyBudget} (h : Balanced b) {i : Nat}
    {move : AcquireMove} (hstep : b.step (i, move) = some b') : Kept b b' i := by
  have hmoved : Moved b i b' := moved_of_step hstep
  obtain ⟨after, hcalls⟩ := hmoved.calls_eq
  refine ⟨h.moved hmoved, ceilingBytes_of_moved hmoved, ?_, fun j hj => ?_⟩
  · rw [hcalls, List.length_set]
  · rw [hcalls, List.getElem?_set_ne (Ne.symm hj)]

/-! ## The history -/

/-- The moves of any number of calls. -/
def Runs (b b' : InflightBodyBudget) : Prop :=
  Reaches (fun s label t => step s label = some t) (fun _ _ => True) b b'

theorem Runs.step {b c d : InflightBodyBudget} {label : Nat × AcquireMove} (h : Runs b c)
    (hstep : c.step label = some d) : Runs b d :=
  Relation.ReflTransGen.tail h ⟨label, trivial, hstep⟩

/-- Every count the counter has held was what the guards held together, earlier in the run. -/
def Recalls (start b : InflightBodyBudget) : Prop :=
  ∀ count ∈ b.held, ∃ earlier, Runs start earlier ∧ Runs earlier b ∧ earlier.charged = count

theorem recalls_of_runs {start b : InflightBodyBudget} (hstart : Balanced start)
    (hfresh : start.overwritten = []) (h : Runs start b) : Balanced b ∧ Recalls start b := by
  induction h with
  | refl =>
    refine ⟨hstart, fun count hcount => ⟨start, Reaches.refl _, Reaches.refl _, ?_⟩⟩
    rw [held, hfresh, List.mem_singleton] at hcount
    rw [hcount, hstart.balance]
  | @tail s t hrun hlast ih =>
    obtain ⟨label, -, hstep⟩ := hlast
    obtain ⟨hbalanced, hrecalls⟩ := ih
    have hnext := hbalanced.moved (moved_of_step hstep)
    refine ⟨hnext, fun count hcount => ?_⟩
    have holder : count = t.inFlight ∨ count ∈ s.held := by
      cases moved_of_step hstep with
      | waits => exact Or.inr hcount
      | exchange => exact List.mem_cons.mp hcount
      | release => exact List.mem_cons.mp hcount
    rcases holder with rfl | hcount
    · exact ⟨t, Runs.step hrun hstep, Reaches.refl _, hnext.balance.symm⟩
    · obtain ⟨earlier, hbefore, hsince, hcharged⟩ := hrecalls count hcount
      exact ⟨earlier, hbefore, Runs.step hsince hstep, hcharged⟩

/-! ## The law -/

/-- Where there is room, a call that loads the last count and meets nobody is given its guard. -/
theorem acquires_of_fits {b : InflightBodyBudget} {i charge : Nat}
    (hidle : b.calls[i]? = some .idle) (hfits : b.fits charge b.inFlight = true) :
    Runs b ((b.store (b.inFlight + charge)).setCall i (.acquired charge)) := by
  have hi : i < b.calls.length := (List.getElem?_eq_some_iff.mp hidle).1
  have hset : ∀ call, (b.calls.set i call)[i]? = some call := fun call => List.getElem?_set_self hi
  have hcall : b.step (i, .call charge) = some (b.setCall i (.started charge)) := by
    unfold step
    rw [hidle]
  have hload : (b.setCall i (.started charge)).step (i, .load b.inFlight) =
      some (b.setCall i (.observed charge b.inFlight)) := by
    unfold step
    rw [calls_setCall, hset]
    have hlook : (b.setCall i (.started charge)).look charge b.inFlight =
        .observed charge b.inFlight := if_pos hfits
    dsimp only
    rw [hlook]
    exact (if_pos (List.mem_cons_self)).trans (congrArg some (setCall_setCall b i _ _))
  have hexchange : (b.setCall i (.observed charge b.inFlight)).step (i, .exchange) =
      some ((b.store (b.inFlight + charge)).setCall i (.acquired charge)) := by
    unfold step
    rw [calls_setCall, hset]
    exact (if_pos rfl).trans (congrArg some (setCall_setCall (b.store (b.inFlight + charge)) i _ _))
  exact ((Runs.step (Reaches.refl b) hcall).step hload).step hexchange

/-- **The in-flight budget.**  For any number of calls, in any interleaving of their moves, with
stale loads and exchanges that fail for no reason: the counter is exactly what the guards hold
together, and within the ceiling; a call that was refused was so for a count that the guards really
held together at an earlier moment, with which its charge passes the ceiling or the counter's width;
and a call whose charge fits beside what the guards hold can be given its guard at once. -/
theorem inflight_budget_law {ceilingBytes threads : Nat} {b : InflightBodyBudget}
    (hruns : Runs (new ceilingBytes threads) b) :
    b.inFlight = b.charged ∧ b.charged ≤ ceilingBytes ∧
      (∀ (i : Nat) charge current, b.calls[i]? = some (.refused charge current) →
        min ceilingBytes u64Max < current + charge ∧
          ∃ earlier, Runs (new ceilingBytes threads) earlier ∧ Runs earlier b ∧
            earlier.charged = current) ∧
      ∀ (i : Nat) charge, b.calls[i]? = some .idle → b.charged + charge ≤ min ceilingBytes u64Max →
        ∃ after, Runs b after ∧ after.calls = b.calls.set i (.acquired charge) := by
  have hceiling : b.ceilingBytes = ceilingBytes := hruns.invariant
    (I := fun s => s.ceilingBytes = ceilingBytes) rfl fun s label t hs _ hstep =>
      (ceilingBytes_of_moved (moved_of_step hstep)).trans hs
  obtain ⟨hbalanced, hrecalls⟩ := recalls_of_runs (balanced_new ceilingBytes threads) rfl hruns
  refine ⟨hbalanced.balance, ?_, ?_, ?_⟩
  · rw [← hbalanced.balance, ← hceiling]
    exact hbalanced.within
  · intro i charge current hcall
    obtain ⟨hheld, hfull⟩ := hbalanced.honest i charge current hcall
    exact ⟨hceiling ▸ lt_of_not_fits hfull, hrecalls current hheld⟩
  · intro i charge hidle hroom
    rw [← hceiling, ← hbalanced.balance, le_min_iff] at hroom
    exact ⟨_, acquires_of_fits hidle (fits_iff.mpr ⟨hroom.2, hroom.1⟩), rfl⟩

/-- Two calls that load the same count: the one that exchanges second finds no room left. -/
def contention : List (Nat × AcquireMove) :=
  [(0, .call 7), (1, .call 5), (0, .load 0), (1, .load 0), (1, .fail 0), (1, .exchange),
    (0, .fail 5), (1, .finish)]

/-- Where they end. -/
def contended : InflightBodyBudget where
  ceilingBytes := 10
  inFlight := 0
  overwritten := [5, 0]
  calls := [.refused 7 5, .idle]

theorem inflight_budget_law_contention :
    contended.inFlight = contended.charged ∧ contended.charged ≤ 10 ∧
      (∀ (i : Nat) charge current, contended.calls[i]? = some (.refused charge current) →
        min 10 u64Max < current + charge ∧
          ∃ earlier, Runs (new 10 2) earlier ∧ Runs earlier contended ∧
            earlier.charged = current) ∧
      ∀ (i : Nat) charge, contended.calls[i]? = some .idle →
        contended.charged + charge ≤ min 10 u64Max →
          ∃ after, Runs contended after ∧ after.calls = contended.calls.set i (.acquired charge) := by
  have hrun : runLabels step (fun _ _ => true) (new 10 2) contention = some contended := by
    decide +kernel
  exact inflight_budget_law ((reaches_of_runLabels hrun).weaken fun _ _ _ => trivial)

end InflightBodyBudget

end RuntimeTrail
