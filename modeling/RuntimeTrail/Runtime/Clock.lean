import RuntimeTrail.Library.Loop
import RuntimeTrail.Library.Threads
import RuntimeTrail.Model.Records
import RuntimeTrail.Model.Size

/-!
# The admission clock

Any number of threads ask one clock for admission times.  A call takes a wall-clock
reading, loads the last time handed out, and exchanges it for the later of the
reading and one past what it loaded; an exchange that finds another time loads again
and retries.

The wall clock may answer anything at any call.  A load is relaxed: it may return any
time the clock has held, and an exchange may fail for no reason.  Only an exchange
that succeeds has seen the last one.

* **one move** — `AdmissionClock.step`, and `Moved` which lists what it can do;
* **the invariant** — `Monotonic`: what was stored keeps growing until it saturates,
  and what the calls hold or have returned is what was stored;
* **the law** — `admission_times_grow`.
-/

namespace RuntimeTrail

open Library

/-- Where a call of `now` stands. -/
inductive NowCall where
  | idle
  | started
  | read (reading : Nat)
  | observed (reading observed : Nat)
  | handed (next : Nat)
deriving DecidableEq

/-- The time a call holds that it has not returned yet. -/
def NowCall.holds : NowCall → List Nat
  | .handed time => [time]
  | _ => []

/-- What a call does next. -/
inductive NowMove where
  | start
  | read (nanos : Nat)
  | load (value : Nat)
  | exchange
  | fail (value : Nat)
  | finish
deriving DecidableEq

/-- What the callers see of the calls. -/
inductive ClockEvent where
  | began (thread : Nat)
  | returned (thread : Nat) (time : AdmissionTime)
deriving DecidableEq

/-- The time a call has returned. -/
def ClockEvent.time : ClockEvent → Option AdmissionTime
  | .began _ => none
  | .returned _ time => some time

/-- The clock, with its threads' calls, the times it held before, and what the callers have seen;
both latest first. -/
structure AdmissionClock where
  last : Nat
  overwritten : List Nat
  calls : List NowCall
  log : List ClockEvent
deriving DecidableEq

namespace AdmissionClock

def new (threads : Nat) : AdmissionClock where
  last := 0
  overwritten := []
  calls := List.replicate threads .idle
  log := []

/-- Every time the clock has held. -/
def held (c : AdmissionClock) : List Nat := c.last :: c.overwritten

/-- The later of the reading and one past what was observed. -/
def next (reading observed : Nat) : Nat := max reading (saturatingAdd observed 1)

/-- One thread's next move. -/
def step (c : AdmissionClock) (label : Nat × NowMove) : Option AdmissionClock :=
  match c.calls[label.1]?, label.2 with
  | some .idle, .start =>
    some { c with calls := c.calls.set label.1 .started, log := .began label.1 :: c.log }
  | some .started, .read nanos =>
    if nanos ≤ u64Max then some { c with calls := c.calls.set label.1 (.read nanos) } else none
  | some (.read reading), .load value =>
    if value ∈ c.held then some { c with calls := c.calls.set label.1 (.observed reading value) }
    else none
  | some (.observed reading observed), .exchange =>
    if c.last = observed then
      some { c with
        last := next reading observed
        overwritten := c.last :: c.overwritten
        calls := c.calls.set label.1 (.handed (next reading observed)) }
    else none
  | some (.observed reading _), .fail value =>
    if value ∈ c.held then some { c with calls := c.calls.set label.1 (.observed reading value) }
    else none
  | some (.handed time), .finish =>
    some { c with calls := c.calls.set label.1 .idle, log := .returned label.1 ⟨time⟩ :: c.log }
  | _, _ => none

/-- The times the clock has returned. -/
def returned (c : AdmissionClock) : List AdmissionTime := c.log.filterMap ClockEvent.time

/-! ## One move -/

/-- What one thread's move can do. -/
inductive Moved (c : AdmissionClock) (i : Nat) : AdmissionClock → Prop
  | start (call : c.calls[i]? = some .idle) :
    Moved c i { c with calls := c.calls.set i .started, log := .began i :: c.log }
  | waits {before after : NowCall} (call : c.calls[i]? = some before)
    (nothing : ∀ time, before ≠ .handed time) (still : ∀ time, after ≠ .handed time) :
    Moved c i { c with calls := c.calls.set i after }
  | exchange {reading : Nat} (call : c.calls[i]? = some (.observed reading c.last)) :
    Moved c i { c with
      last := next reading c.last
      overwritten := c.last :: c.overwritten
      calls := c.calls.set i (.handed (next reading c.last)) }
  | finish {time : Nat} (call : c.calls[i]? = some (.handed time)) :
    Moved c i { c with calls := c.calls.set i .idle, log := .returned i ⟨time⟩ :: c.log }

theorem moved_of_step {c c' : AdmissionClock} {label : Nat × NowMove}
    (h : c.step label = some c') : Moved c label.1 c' := by
  unfold step at h
  split at h
  · rename_i hcall _
    obtain rfl := Option.some.inj h
    exact .start hcall
  · rename_i nanos hcall _
    split at h
    · obtain rfl := Option.some.inj h
      exact .waits hcall (fun _ => by simp) (fun _ => by simp)
    · cases h
  · rename_i reading value hcall _
    split at h
    · obtain rfl := Option.some.inj h
      exact .waits hcall (fun _ => by simp) (fun _ => by simp)
    · cases h
  · rename_i reading observed hcall _
    split at h
    · rename_i hlast
      subst hlast
      obtain rfl := Option.some.inj h
      exact .exchange hcall
    · cases h
  · rename_i reading observed value hcall _
    split at h
    · obtain rfl := Option.some.inj h
      exact .waits hcall (fun _ => by simp) (fun _ => by simp)
    · cases h
  · rename_i time hcall _
    obtain rfl := Option.some.inj h
    exact .finish hcall
  · cases h

/-! ## The invariant -/

/-- The times that were returned before a thread's latest call began. -/
def completedBefore (i : Nat) : List ClockEvent → List AdmissionTime
  | [] => []
  | .began j :: earlier =>
    if j = i then earlier.filterMap ClockEvent.time else completedBefore i earlier
  | .returned _ _ :: earlier => completedBefore i earlier

theorem completedBefore_sublist (i : Nat) (log : List ClockEvent) :
    (completedBefore i log).Sublist (log.filterMap ClockEvent.time) := by
  induction log with
  | nil => exact List.Sublist.refl _
  | cons event log ih =>
    cases event with
    | began j =>
      unfold completedBefore
      split
      · exact List.Sublist.refl _
      · exact ih
    | returned j time => exact ih.trans (List.sublist_cons_self _ _)

/-- What was returned before a call began was so before the thread's latest call did. -/
theorem mem_completedBefore {i : Nat} {time : AdmissionTime} {earlier : List ClockEvent}
    (h : time ∈ earlier.filterMap ClockEvent.time) (between : List ClockEvent) :
    time ∈ completedBefore i (between ++ .began i :: earlier) := by
  induction between with
  | nil =>
    rw [List.nil_append, completedBefore, if_pos rfl]
    exact h
  | cons event between ih =>
    cases event with
    | began j =>
      rw [List.cons_append, completedBefore]
      split
      · rw [List.filterMap_append]
        exact List.mem_append_right _ h
      · exact ih
    | returned j time' => exact ih

/-- What was stored keeps growing until it saturates; the calls hold or have returned what was
stored, and each of them more than was returned before it began. -/
structure Monotonic (c : AdmissionClock) : Prop where
  grows : c.held.Pairwise fun later earlier => earlier < u64Max → earlier < later
  exact : (0 :: (c.calls.flatMap NowCall.holds ++ c.returned.map AdmissionTime.unixNano)).Perm c.held
  ahead : ∀ i time, c.calls[i]? = some (.handed time) →
    ∀ t ∈ completedBefore i c.log, t.unixNano < u64Max → t.unixNano < time
  logged : ∀ later i time earlier, c.log = later ++ .returned i time :: earlier →
    ∀ t ∈ completedBefore i earlier, t.unixNano < u64Max → t.unixNano < time.unixNano

theorem monotonic_new (threads : Nat) : Monotonic (new threads) where
  grows := List.pairwise_singleton _ _
  exact := by
    have hidle : (List.replicate threads NowCall.idle).flatMap NowCall.holds = [] := by
      rw [List.flatMap_eq_nil_iff]
      intro call hcall
      rw [List.eq_of_mem_replicate hcall]
      rfl
    rw [new, hidle]
    exact List.Perm.refl _
  ahead i time h := by
    have hidle := List.eq_of_mem_replicate (List.mem_of_getElem? h)
    cases hidle
  logged later i time earlier h := by
    have hlength := congrArg List.length h
    simp [new] at hlength

/-- What is exchanged in is past everything held before. -/
theorem lt_next {c : AdmissionClock} (h : Monotonic c) (reading : Nat) :
    ∀ t ∈ c.held, t < u64Max → t < next reading c.last := by
  intro t ht hbound
  have hlast : t ≤ c.last := by
    rcases List.mem_cons.mp ht with rfl | hover
    · exact le_rfl
    · exact (List.rel_of_pairwise_cons h.grows hover hbound).le
  have hpast : t < saturatingAdd c.last 1 := by
    rw [saturatingAdd]
    exact lt_min (Nat.lt_succ_of_le hlast) hbound
  exact hpast.trans_le (le_max_right _ _)

theorem mem_held_of_completedBefore {c : AdmissionClock} (h : Monotonic c) {i : Nat}
    {t : AdmissionTime} (ht : t ∈ completedBefore i c.log) : t.unixNano ∈ c.held := by
  have hreturned : t.unixNano ∈ c.returned.map AdmissionTime.unixNano :=
    List.mem_map_of_mem ((completedBefore_sublist i c.log).subset ht)
  exact h.exact.subset (List.mem_cons_of_mem _ (List.mem_append_right _ hreturned))

theorem holds_of_ne {call : NowCall} (h : ∀ time, call ≠ .handed time) : call.holds = [] := by
  cases call with
  | handed time => exact absurd rfl (h time)
  | _ => rfl

/-- A log that has grown by one event has that event last, or what it had. -/
theorem logged_cons {P : Nat → AdmissionTime → List ClockEvent → Prop} {event : ClockEvent}
    {log : List ClockEvent} (hevent : ∀ i time, event = .returned i time → P i time log)
    (hlog : ∀ later i time earlier, log = later ++ .returned i time :: earlier → P i time earlier)
    (later : List ClockEvent) (i : Nat) (time : AdmissionTime) (earlier : List ClockEvent)
    (h : event :: log = later ++ .returned i time :: earlier) : P i time earlier := by
  cases later with
  | nil =>
    obtain ⟨rfl, rfl⟩ := List.cons.inj h
    exact hevent i time rfl
  | cons _ later => exact hlog later i time earlier (List.cons.inj h).2

theorem Monotonic.start {c : AdmissionClock} (h : Monotonic c) {i : Nat}
    (hcall : c.calls[i]? = some .idle) :
    Monotonic { c with calls := c.calls.set i .started, log := .began i :: c.log } where
  grows := h.grows
  exact := by
    have hholds := @flatMap_set_eq _ _ c.calls i .idle .started NowCall.holds hcall rfl
    rw [hholds]
    exact h.exact
  ahead j time hj := by
    rcases getElem?_set_cases hj with ⟨-, hstarted⟩ | ⟨hne, hj⟩
    · cases hstarted
    · rw [completedBefore, if_neg (Ne.symm hne)]
      exact h.ahead j time hj
  logged := logged_cons (fun _ _ heq => by cases heq) h.logged

theorem Monotonic.waits {c : AdmissionClock} (h : Monotonic c) {i : Nat} {before after : NowCall}
    (hcall : c.calls[i]? = some before) (nothing : ∀ time, before ≠ .handed time)
    (still : ∀ time, after ≠ .handed time) : Monotonic { c with calls := c.calls.set i after } where
  grows := h.grows
  exact := by
    have hholds := @flatMap_set_eq _ _ c.calls i before after NowCall.holds hcall
      ((holds_of_ne still).trans (holds_of_ne nothing).symm)
    rw [hholds]
    exact h.exact
  ahead j time hj := by
    rcases getElem?_set_cases hj with ⟨-, hafter⟩ | ⟨-, hj⟩
    · exact absurd hafter.symm (still time)
    · exact h.ahead j time hj
  logged := h.logged

/-- **The exchange** hands out a time past everything held, so past everything returned. -/
theorem Monotonic.exchange {c : AdmissionClock} (h : Monotonic c) {i reading : Nat}
    (hcall : c.calls[i]? = some (.observed reading c.last)) :
    Monotonic { c with
      last := next reading c.last
      overwritten := c.last :: c.overwritten
      calls := c.calls.set i (.handed (next reading c.last)) } where
  grows := List.pairwise_cons.mpr ⟨lt_next h reading, h.grows⟩
  exact := by
    have hholds := @flatMap_set_perm _ _ c.calls i _ (.handed (next reading c.last)) NowCall.holds
      [next reading c.last] hcall (List.Perm.refl _)
    have hgained := (hholds.append_right (c.returned.map AdmissionTime.unixNano)).cons 0
    rw [List.append_assoc, List.singleton_append] at hgained
    have hfront := (@List.perm_middle _ (next reading c.last) (c.calls.flatMap NowCall.holds)
      (c.returned.map AdmissionTime.unixNano)).cons 0
    exact (hgained.trans hfront).trans ((List.Perm.swap _ _ _).trans (h.exact.cons _))
  ahead j time hj t ht hbound := by
    rcases getElem?_set_cases hj with ⟨rfl, hhanded⟩ | ⟨-, hj⟩
    · cases hhanded
      exact lt_next h reading _ (mem_held_of_completedBefore h ht) hbound
    · exact h.ahead j time hj t ht hbound
  logged := h.logged

theorem Monotonic.finish {c : AdmissionClock} (h : Monotonic c) {i time : Nat}
    (hcall : c.calls[i]? = some (.handed time)) :
    Monotonic { c with calls := c.calls.set i .idle, log := .returned i ⟨time⟩ :: c.log } where
  grows := h.grows
  exact := by
    have hi : i < c.calls.length := (List.getElem?_eq_some_iff.mp hcall).1
    have hidle : (c.calls.set i .idle)[i]? = some .idle := List.getElem?_set_self hi
    have hback : (c.calls.set i .idle).set i (.handed time) = c.calls := by
      rw [List.set_set, ← (List.getElem?_eq_some_iff.mp hcall).2, List.set_getElem_self]
    have hholds := @flatMap_set_perm _ _ (c.calls.set i .idle) i _ (.handed time) NowCall.holds
      [time] hidle (List.Perm.refl _)
    rw [hback] at hholds
    have hmoved := (hholds.append_right (c.returned.map AdmissionTime.unixNano)).symm
    rw [List.append_assoc, List.singleton_append] at hmoved
    exact (hmoved.cons 0).trans h.exact
  ahead j time' hj := by
    rcases getElem?_set_cases hj with ⟨-, hidle⟩ | ⟨-, hj⟩
    · cases hidle
    · exact h.ahead j time' hj
  logged := logged_cons (fun j time' heq => by
    cases heq
    exact h.ahead i time hcall) h.logged

theorem Monotonic.step {c c' : AdmissionClock} {label : Nat × NowMove} (h : Monotonic c)
    (hstep : c.step label = some c') : Monotonic c' := by
  cases moved_of_step hstep with
  | start call => exact h.start call
  | waits call nothing still => exact h.waits call nothing still
  | exchange call => exact h.exchange call
  | finish call => exact h.finish call

/-! ## The law -/

/-- **Admission times grow.**  For any number of threads, in any interleaving of their moves and
whatever the wall clock answers, the times returned below the largest one are pairwise distinct,
and a call returns more than any of them that was returned before it began. -/
theorem admission_times_grow {threads : Nat} {c : AdmissionClock}
    (hreach : Reaches (fun s label t => AdmissionClock.step s label = some t) (fun _ _ => True)
      (new threads) c) :
    (c.returned.filter fun t => t.unixNano < u64Max).Nodup ∧
      ∀ later i time between earlier j t,
        c.log = later ++ .returned i time :: (between ++ .began i :: earlier) →
        .returned j t ∈ earlier → t.unixNano < u64Max → t.unixNano < time.unixNano := by
  have hmonotonic : Monotonic c := hreach.invariant (monotonic_new threads)
    fun _ _ _ h _ hstep => h.step hstep
  constructor
  · have hdistinct : (c.held.filter fun t => t < u64Max).Nodup := by
      refine List.Pairwise.imp_of_mem (fun _ hearlier hgrows => ?_) (hmonotonic.grows.filter _)
      exact (hgrows (of_decide_eq_true (List.mem_filter.mp hearlier).2)).ne'
    have hreturned := ((hmonotonic.exact.filter fun t => decide (t < u64Max)).nodup_iff.mpr
      hdistinct).sublist (((List.sublist_append_right _ _).trans
        (List.sublist_cons_self 0 _)).filter _)
    rw [List.filter_map] at hreturned
    exact List.Nodup.of_map _ hreturned
  · intro later i time between earlier j t hlog ht
    refine hmonotonic.logged later i time _ hlog t (mem_completedBefore ?_ between)
    exact List.mem_filterMap.mpr ⟨_, ht, rfl⟩

/-- Two threads that load the same time: the one that exchanges second loads again. -/
def race : List (Nat × NowMove) :=
  [(0, .start), (1, .start), (0, .read 5), (1, .read 3), (0, .load 0), (1, .load 0), (1, .exchange),
    (0, .fail 3), (0, .exchange), (1, .finish), (0, .finish), (1, .start), (1, .read 0),
    (1, .load 0), (1, .fail 5), (1, .exchange), (1, .finish)]

/-- Where that race ends. -/
def raced : AdmissionClock where
  last := 6
  overwritten := [5, 3, 0]
  calls := [.idle, .idle]
  log := [.returned 1 ⟨6⟩, .began 1, .returned 0 ⟨5⟩, .returned 1 ⟨3⟩, .began 1, .began 0]

theorem admission_times_grow_race : (raced.returned.filter fun t => t.unixNano < u64Max).Nodup ∧
    ∀ later i time between earlier j t,
      raced.log = later ++ .returned i time :: (between ++ .began i :: earlier) →
      .returned j t ∈ earlier → t.unixNano < u64Max → t.unixNano < time.unixNano := by
  have hrun : runLabels step (fun _ _ => true) (new 2) race = some raced := by decide +kernel
  exact admission_times_grow ((reaches_of_runLabels hrun).weaken fun _ _ _ => trivial)

end AdmissionClock

end RuntimeTrail
