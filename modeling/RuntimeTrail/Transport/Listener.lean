import RuntimeTrail.Library.Loop
import Mathlib.Data.List.Range

/-!
# The bounded listener

The accept loop takes a permit before it takes a socket off the kernel's backlog, and the
permit lives in the connection.  An accept that fails gives its permit back, and one that
is dropped does.

The backlog is the kernel's: sockets enter it in their order, and a peer may be gone from
it before it is accepted.

* **one event** — `BoundedListener.step`;
* **the invariant** — `Permitted`: every permit is in the semaphore, with the accept loop
  or with one connection, and sockets are served in their order;
* **the law** — `connection_cap_law`.
-/

namespace RuntimeTrail

open Library

/-- Where the accept loop stands. -/
inductive Accepting where
  /-- Waits for a permit. -/
  | acquiring
  /-- Holds a permit and waits for a socket. -/
  | accepting
  /-- Waits a second, after an error that is no connection's. -/
  | backingOff
  /-- The server takes no more connections. -/
  | dropped
deriving DecidableEq

/-- The listener, with the sockets of the backlog, those of open connections, and all that were
accepted; sockets are numbered as they arrive. -/
structure BoundedListener where
  permits : Nat
  accept : Accepting
  backlog : List Nat
  connections : List Nat
  accepted : List Nat
  arrived : Nat
deriving DecidableEq

inductive ListenerEvent where
  | arrive
  /-- A peer of the backlog is gone. -/
  | abandon (socket : Nat)
  | acquire
  | accept
  /-- The kernel's accept failed, by an error of one connection or by another one. -/
  | fail (transient : Bool)
  | wake
  | close (socket : Nat)
  /-- The accept loop is dropped. -/
  | stop
deriving DecidableEq

namespace BoundedListener

def new (maxConnections : Nat) : BoundedListener where
  permits := maxConnections
  accept := .acquiring
  backlog := []
  connections := []
  accepted := []
  arrived := 0

/-- The permit of the accept loop. -/
def held (l : BoundedListener) : Nat := if l.accept = .accepting then 1 else 0

theorem held_eq_one {l : BoundedListener} (h : l.accept = .accepting) : l.held = 1 := if_pos h

theorem held_eq_zero {l : BoundedListener} (h : l.accept ≠ .accepting) : l.held = 0 := if_neg h

/-- One event. -/
def step (l : BoundedListener) : ListenerEvent → Option BoundedListener
  | .arrive => some { l with backlog := l.backlog ++ [l.arrived], arrived := l.arrived + 1 }
  | .abandon socket =>
    if socket ∈ l.backlog then some { l with backlog := l.backlog.erase socket } else none
  | .acquire =>
    if l.accept = .acquiring ∧ 0 < l.permits then
      some { l with permits := l.permits - 1, accept := .accepting }
    else none
  | .accept =>
    match l.accept, l.backlog with
    | .accepting, socket :: rest =>
      some { l with
        accept := .acquiring
        backlog := rest
        connections := l.connections ++ [socket]
        accepted := l.accepted ++ [socket] }
    | _, _ => none
  | .fail transient =>
    if l.accept = .accepting then
      some { l with
        permits := l.permits + 1
        accept := if transient then .acquiring else .backingOff }
    else none
  | .wake => if l.accept = .backingOff then some { l with accept := .acquiring } else none
  | .close socket =>
    if socket ∈ l.connections then
      some { l with permits := l.permits + 1, connections := l.connections.erase socket }
    else none
  | .stop => some { l with permits := l.permits + l.held, accept := .dropped }

/-! ## The invariant -/

/-- Every permit is somewhere, and the sockets are in their order. -/
structure Permitted (maxConnections : Nat) (l : BoundedListener) : Prop where
  balance : l.permits + l.held + l.connections.length = maxConnections
  ordered : (l.accepted ++ l.backlog).Sublist (List.range l.arrived)
  served : l.connections.Sublist l.accepted

theorem permitted_new (maxConnections : Nat) : Permitted maxConnections (new maxConnections) where
  balance := rfl
  ordered := List.Sublist.refl _
  served := List.Sublist.refl _

theorem Permitted.step {maxConnections : Nat} {l l' : BoundedListener} {event : ListenerEvent}
    (h : Permitted maxConnections l) (hstep : l.step event = some l') :
    Permitted maxConnections l' := by
  obtain ⟨hbalance, hordered, hserved⟩ := h
  unfold BoundedListener.step at hstep
  cases event with
  | arrive =>
    obtain rfl := Option.some.inj hstep
    refine ⟨hbalance, ?_, hserved⟩
    rw [← List.append_assoc, List.range_succ]
    exact hordered.append_right [l.arrived]
  | abandon socket =>
    dsimp only at hstep
    split at hstep
    · obtain rfl := Option.some.inj hstep
      exact ⟨hbalance, ((List.erase_sublist).append_left _).trans hordered, hserved⟩
    · cases hstep
  | acquire =>
    dsimp only at hstep
    split at hstep
    · rename_i hfree
      obtain rfl := Option.some.inj hstep
      have hheld := held_eq_zero (l := l) (by rw [hfree.1]; exact nofun)
      refine ⟨?_, hordered, hserved⟩
      change l.permits - 1 + 1 + l.connections.length = maxConnections
      omega
    · cases hstep
  | accept =>
    dsimp only at hstep
    split at hstep
    · rename_i socket rest haccept hbacklog
      obtain rfl := Option.some.inj hstep
      have hheld := held_eq_one haccept
      refine ⟨?_, ?_, hserved.append_right [socket]⟩
      · change l.permits + 0 + (l.connections ++ [socket]).length = maxConnections
        rw [List.length_append, List.length_singleton]
        omega
      · rw [hbacklog] at hordered
        rwa [List.append_assoc, List.singleton_append]
    · cases hstep
  | fail transient =>
    dsimp only at hstep
    split at hstep
    · rename_i haccept
      obtain rfl := Option.some.inj hstep
      have hheld := held_eq_one haccept
      have hgone : held { l with
          permits := l.permits + 1
          accept := if transient then .acquiring else .backingOff } = 0 :=
        held_eq_zero (by cases transient <;> exact nofun)
      refine ⟨?_, hordered, hserved⟩
      rw [hgone]
      change l.permits + 1 + 0 + l.connections.length = maxConnections
      omega
    · cases hstep
  | wake =>
    dsimp only at hstep
    split at hstep
    · rename_i haccept
      obtain rfl := Option.some.inj hstep
      have hheld := held_eq_zero (l := l) (by rw [haccept]; exact nofun)
      refine ⟨?_, hordered, hserved⟩
      change l.permits + 0 + l.connections.length = maxConnections
      omega
    · cases hstep
  | close socket =>
    dsimp only at hstep
    split at hstep
    · rename_i hopen
      obtain rfl := Option.some.inj hstep
      refine ⟨?_, hordered, List.erase_sublist.trans hserved⟩
      have hlength := List.length_erase_of_mem hopen
      have hpos := List.length_pos_of_mem hopen
      change l.permits + 1 + l.held + (l.connections.erase socket).length = maxConnections
      omega
    · cases hstep
  | stop =>
    obtain rfl := Option.some.inj hstep
    exact ⟨by change l.permits + l.held + 0 + l.connections.length = maxConnections; omega, hordered,
      hserved⟩

/-! ## Runs -/

/-- Any events, in any order. -/
def Runs (l l' : BoundedListener) : Prop :=
  Reaches (fun s event t => step s event = some t) (fun _ _ => True) l l'

theorem Runs.step {l m n : BoundedListener} {event : ListenerEvent} (h : Runs l m)
    (hstep : m.step event = some n) : Runs l n :=
  Relation.ReflTransGen.tail h ⟨event, trivial, hstep⟩

theorem permitted_of_runs {maxConnections : Nat} {l : BoundedListener}
    (h : Runs (new maxConnections) l) : Permitted maxConnections l :=
  h.invariant (permitted_new maxConnections) fun _ _ _ hs _ hstep => hs.step hstep

/-- The accept loop by itself comes to hold a permit, where one is free. -/
theorem accepting_of_free {l : BoundedListener} (hlive : l.accept ≠ .dropped)
    (hfree : 0 < l.permits + l.held) :
    ∃ m, Runs l m ∧ m.accept = .accepting ∧ m.backlog = l.backlog ∧
      m.connections = l.connections ∧ m.accepted = l.accepted := by
  have hacquire : ∀ k : BoundedListener, k.accept = .acquiring → 0 < k.permits →
      k.step .acquire = some { k with permits := k.permits - 1, accept := .accepting } :=
    fun k haccept hpermits => if_pos ⟨haccept, hpermits⟩
  cases haccept : l.accept with
  | accepting => exact ⟨l, Reaches.refl l, haccept, rfl, rfl, rfl⟩
  | dropped => exact absurd haccept hlive
  | acquiring =>
    rw [held_eq_zero (by rw [haccept]; exact nofun)] at hfree
    exact ⟨_, Runs.step (Reaches.refl l) (hacquire l haccept hfree), rfl, rfl, rfl, rfl⟩
  | backingOff =>
    rw [held_eq_zero (by rw [haccept]; exact nofun)] at hfree
    have hwake : l.step .wake = some { l with accept := .acquiring } := if_pos haccept
    exact ⟨_, (Runs.step (Reaches.refl l) hwake).step (hacquire _ rfl hfree), rfl, rfl, rfl, rfl⟩

/-- **The connection cap.**  However sockets arrive, leave, are accepted, fail and close: every permit
is with one holder, so that never more connections are open than were admitted; sockets are served
in the order of their arrival, none twice; at the cap no socket is accepted, and below it the first
of the backlog can be, by the accept loop alone. -/
theorem connection_cap_law {maxConnections : Nat} {l : BoundedListener}
    (hruns : Runs (new maxConnections) l) :
    l.permits + l.held + l.connections.length = maxConnections ∧
      (l.accepted ++ l.backlog).Sublist (List.range l.arrived) ∧
      l.connections.Sublist l.accepted ∧
      (l.connections.length = maxConnections → l.step .accept = none) ∧
      ∀ socket rest, l.backlog = socket :: rest → l.accept ≠ .dropped →
        l.connections.length < maxConnections →
        ∃ m, Runs l m ∧ m.connections = l.connections ++ [socket] ∧
          m.accepted = l.accepted ++ [socket] ∧ m.backlog = rest := by
  obtain ⟨hbalance, hordered, hserved⟩ := permitted_of_runs hruns
  refine ⟨hbalance, hordered, hserved, fun hfull => ?_, fun socket rest hbacklog hlive hroom => ?_⟩
  · unfold step
    dsimp only
    split
    · rename_i haccept _
      have hheld := held_eq_one haccept
      omega
    · rfl
  · obtain ⟨m, hreach, haccept, hsame, hconnections, haccepted⟩ :=
      accepting_of_free hlive (by omega)
    have hstep : m.step .accept = some { m with
        accept := .acquiring
        backlog := rest
        connections := m.connections ++ [socket]
        accepted := m.accepted ++ [socket] } := by
      unfold step
      rw [haccept, hsame, hbacklog]
    exact ⟨_, hreach.step hstep, congrArg (· ++ [socket]) hconnections,
      congrArg (· ++ [socket]) haccepted, rfl⟩

/-- Three peers at a cap of two, and the first is gone. -/
def thirdWaits : BoundedListener where
  permits := 1
  accept := .acquiring
  backlog := [2]
  connections := [1]
  accepted := [0, 1]
  arrived := 3

theorem connection_cap_law_third : ∃ m, Runs thirdWaits m ∧ m.connections = [1, 2] := by
  have hrun : runLabels step (fun _ _ => true) (new 2) [.arrive, .acquire, .accept, .arrive, .acquire,
      .accept, .arrive, .close 0] = some thirdWaits := by decide
  have hlaw := connection_cap_law ((reaches_of_runLabels hrun).weaken fun _ _ _ => trivial)
  obtain ⟨m, hreach, hconnections, -, -⟩ := hlaw.2.2.2.2 2 [] rfl nofun (by decide)
  exact ⟨m, hreach, hconnections⟩

end BoundedListener

end RuntimeTrail
