import MeteredVm.Proofs.Pool.Operations
import Mathlib.Data.List.Nodup

/-!
A pool together with all who use it, from its first moment on. A session says where every instance is, which acquirers
there are, and in which order they first asked and were served; it is moved on by what callers can do, in any order.
The main statement is what stays true of every session: nobody waits for an idle instance, and those who asked are
served in the order in which they asked.
-/

set_option autoImplicit false
set_option relaxedAutoImplicit false

namespace MeteredVm

/-- An instance that can be told apart from the others whatever its state is. -/
structure Instance (σ : Type) where
  serial : Nat
  state : σ
deriving DecidableEq, Repr

def Instance.made {σ : Type} (build : Nat → σ) (serial : Nat) : Instance σ := ⟨serial, build serial⟩

/-- What is done with a pool. Acquirers are named by their tickets, and instances that were handed out by their places
among those held. -/
inductive Move (σ : Type) where
  /-- There is a new acquirer, who does not ask yet. -/
  | create
  | poll (ticket : Nat)
  | cancel (ticket : Nat)
  | use (place : Nat) (state : σ)
  | release (place : Nat)
  | lose (place : Nat)
  /-- An instance that the pool did not hand out is returned to it. -/
  | foreign (item : Instance σ)

/-- Whether a move returns no instance but those handed out. -/
def Move.isOwn {σ : Type} : Move σ → Bool
  | .foreign _ => false
  | _ => true

/-- A pool, those who use it, and what happened so far. -/
structure Session (σ : Type) where
  pool : Pool (Instance σ)
  /-- The number of acquirers there ever were; their tickets are the numbers below it. -/
  created : Nat
  /-- Acquirers who neither gave up nor hold what they asked for. -/
  pending : List Nat
  /-- Acquirers in the order in which they first asked. -/
  asked : List Nat
  /-- Acquirers in the order in which an instance was handed or given to them. -/
  served : List Nat
  /-- Acquirers who gave up after they asked and before they were served. -/
  withdrawn : List Nat
  held : List (Instance σ)
  /-- Instances that were handed out and are never returned. -/
  lost : List (Instance σ)
  /-- The state in which an instance was returned last, or else built. -/
  record : Nat → σ

/-- A log with those added at its end that it does not have yet. -/
def noted (log tickets : List Nat) : List Nat := log ++ tickets.filter (· ∉ log)

theorem noted_of_subset {log tickets : List Nat} (known : ∀ t ∈ tickets, t ∈ log) : noted log tickets = log := by
  rw [noted, List.filter_eq_nil_iff.mpr fun t mem => by simpa using known t mem, List.append_nil]

theorem noted_append_of_subset {log old : List Nat} (known : ∀ t ∈ old, t ∈ log) (new : List Nat) :
    noted log (old ++ new) = noted log new := by
  rw [noted, List.filter_append, List.filter_eq_nil_iff.mpr fun t mem => by simpa using known t mem, List.nil_append,
    noted]

theorem noted_singleton {log : List Nat} {ticket : Nat} (new : ticket ∉ log) :
    noted log [ticket] = log ++ [ticket] := by
  simp [noted, new]

namespace Session

variable {σ : Type}

/-- A session with a pool that nobody used yet, whose instances are in the states they were built in. -/
def opened (pool : Pool (Instance σ)) (build : Nat → σ) : Session σ where
  pool := pool
  created := 0
  pending := []
  asked := []
  served := []
  withdrawn := []
  held := []
  lost := []
  record := build

/-- The pool was used; whoever it gave an instance meanwhile is served. -/
def withPool (session : Session σ) (pool : Pool (Instance σ)) : Session σ :=
  { session with pool, served := noted session.served pool.receivers }

def giveBack (session : Session σ) (item : Instance σ) : Session σ :=
  { session.withPool (session.pool.release item) with
    record := fun serial => if serial = item.serial then item.state else session.record serial }

def poll (session : Session σ) (ticket : Nat) : Session σ :=
  match session.pool.poll ticket with
  | (none, pool) => { session with pool, asked := noted session.asked [ticket] }
  | (some item, pool) =>
    { session with
      pool
      pending := session.pending.filter (· ≠ ticket)
      asked := noted session.asked [ticket]
      served := noted session.served [ticket]
      held := item :: session.held }

def cancel (session : Session σ) (ticket : Nat) : Session σ :=
  { session.withPool (session.pool.cancel ticket) with
    pending := session.pending.filter (· ≠ ticket)
    withdrawn :=
      if ticket ∈ session.asked ∧ ticket ∉ session.served then session.withdrawn ++ [ticket] else session.withdrawn }

/-- Makes a move. Moves of acquirers who are gone, and of instances that nobody holds, do nothing. -/
def perform (session : Session σ) : Move σ → Session σ
  | .create => { session with created := session.created + 1, pending := session.created :: session.pending }
  | .poll ticket => if ticket ∈ session.pending then session.poll ticket else session
  | .cancel ticket => if ticket ∈ session.pending then session.cancel ticket else session
  | .use place state =>
    match session.held[place]? with
    | none => session
    | some item => { session with held := session.held.set place { item with state } }
  | .release place =>
    match session.held[place]? with
    | none => session
    | some item => { session with held := session.held.eraseIdx place }.giveBack item
  | .lose place =>
    match session.held[place]? with
    | none => session
    | some item => { session with held := session.held.eraseIdx place, lost := item :: session.lost }
  | .foreign item => session.giveBack item

inductive Moved (session : Session σ) : Move σ → Session σ → Prop where
  | nothing (move : Move σ) : Moved session move session
  | creates :
    Moved session .create { session with created := session.created + 1, pending := session.created :: session.pending }
  | polls (ticket : Nat) (pending : ticket ∈ session.pending) : Moved session (.poll ticket) (session.poll ticket)
  | cancels (ticket : Nat) (pending : ticket ∈ session.pending) : Moved session (.cancel ticket) (session.cancel ticket)
  | uses (place : Nat) (state : σ) (item : Instance σ) (held : session.held[place]? = some item) :
    Moved session (.use place state) { session with held := session.held.set place { item with state } }
  | releases (place : Nat) (item : Instance σ) (held : session.held[place]? = some item) :
    Moved session (.release place) ({ session with held := session.held.eraseIdx place }.giveBack item)
  | loses (place : Nat) (item : Instance σ) (held : session.held[place]? = some item) :
    Moved session (.lose place) { session with held := session.held.eraseIdx place, lost := item :: session.lost }
  | returns (item : Instance σ) : Moved session (.foreign item) (session.giveBack item)

theorem perform_moved (session : Session σ) (move : Move σ) : session.Moved move (session.perform move) := by
  cases move with
  | create => exact .creates
  | poll ticket =>
    rw [perform]
    split
    · exact .polls ticket ‹_›
    · exact .nothing _
  | cancel ticket =>
    rw [perform]
    split
    · exact .cancels ticket ‹_›
    · exact .nothing _
  | use place state =>
    cases held : session.held[place]? with
    | none =>
      rw [perform, held]
      exact .nothing _
    | some item =>
      rw [perform, held]
      exact .uses place state item held
  | release place =>
    cases held : session.held[place]? with
    | none =>
      rw [perform, held]
      exact .nothing _
    | some item =>
      rw [perform, held]
      exact .releases place item held
  | lose place =>
    cases held : session.held[place]? with
    | none =>
      rw [perform, held]
      exact .nothing _
    | some item =>
      rw [perform, held]
      exact .loses place item held
  | foreign item => exact .returns item

def run (session : Session σ) (moves : List (Move σ)) : Session σ := moves.foldl perform session

@[simp] theorem run_nil (session : Session σ) : session.run [] = session := rfl

@[simp] theorem run_cons (session : Session σ) (move : Move σ) (moves : List (Move σ)) :
    session.run (move :: moves) = (session.perform move).run moves := rfl

theorem run_append (session : Session σ) (earlier later : List (Move σ)) :
    session.run (earlier ++ later) = (session.run earlier).run later :=
  List.foldl_append

end Session

end MeteredVm
