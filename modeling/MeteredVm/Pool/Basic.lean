/-!
A fixed number of instances shared by acquirers who are served first come, first served. An instance is idle, or
handed out; an acquirer who finds no idle instance waits in a queue, and a released instance goes to the oldest one
who still waits. An acquirer may give up at any time: its place in the queue is closed, and closed places are dropped
when the next acquirer joins the queue or when a release passes them.

An instance reaches an acquirer through a channel that carries one value. Of such channels this much is relied on. A
value can be sent as long as the receiver is open, and sending to a closed one fails and leaves the value with the
sender: a place in the queue is open as long as its receiver is (`Waiter.isOpen`), and a release passes closed ones. A
value that was sent stays in the channel until the receiver takes it (`Pool.delivered`), and a receiver that is closed
before that gives it back, so that it is released again (`Pool.cancel`).
-/

set_option autoImplicit false
set_option relaxedAutoImplicit false

namespace MeteredVm

inductive PoolError where
  | noInstance
  /-- The instances would not fit into any memory. -/
  | tooManyInstances
deriving DecidableEq, Repr

def PoolError.message : PoolError → String
  | .noInstance => "interpreter pool needs at least one instance"
  | .tooManyInstances => "interpreter pool has too many instances"

structure Waiter where
  ticket : Nat
  /-- Whether the acquirer still wants an instance. -/
  isOpen : Bool
deriving DecidableEq, Repr

/-- A pool of instances of type `α`. Acquirers are known by tickets. -/
structure Pool (α : Type) where
  capacity : Nat
  /-- Instances that nobody uses, the last one returned first. -/
  idle : List α
  outstanding : Nat
  /-- The places in the queue, oldest first. -/
  queue : List Waiter
  /-- Instances given to acquirers who have not taken them yet. -/
  delivered : List (Nat × α)

namespace Pool

variable {α : Type}

/-- The number of instances in the largest pool: each takes 208 bytes, and no more than half of the 64-bit range can be
taken. -/
def maxCapacity : Nat := 9223372036854775807 / 208

/-- A pool of `capacity` instances, built in order; the last one built is handed out first. -/
def ofFactory (capacity : Nat) (build : Nat → α) : Except PoolError (Pool α) :=
  if capacity = 0 then .error .noInstance
  else if maxCapacity < capacity then .error .tooManyInstances
  else .ok ⟨capacity, ((List.range capacity).map build).reverse, 0, [], []⟩

def idleCount (pool : Pool α) : Nat := pool.idle.length

def waitingCount (pool : Pool α) : Nat := pool.queue.countP (·.isOpen)

def isWaiting (pool : Pool α) (ticket : Nat) : Bool :=
  pool.queue.any fun waiter => waiter.isOpen && waiter.ticket == ticket

def take? (pool : Pool α) (ticket : Nat) : Option (α × Pool α) :=
  match pool.delivered.lookup ticket with
  | none => none
  | some item =>
    some (item, { pool with delivered := pool.delivered.eraseP fun entry => entry.1 == ticket })

/-- A first attempt to acquire: an idle instance is handed out, and otherwise the acquirer joins the queue. -/
def request (pool : Pool α) (ticket : Nat) : Option α × Pool α :=
  match pool.idle with
  | item :: idle => (some item, { pool with idle, outstanding := pool.outstanding + 1 })
  | [] => (none, { pool with queue := pool.queue.filter (·.isOpen) ++ [⟨ticket, true⟩] })

/-- Asks on behalf of an acquirer: it takes what was given to it, goes on waiting, or requests an instance. -/
def poll (pool : Pool α) (ticket : Nat) : Option α × Pool α :=
  match pool.take? ticket with
  | some (item, pool) => (some item, pool)
  | none => if pool.isWaiting ticket then (none, pool) else pool.request ticket

/-- Returns an instance. The oldest acquirer who still waits is given it; if nobody waits it becomes idle. Instances
beyond those handed out are dropped. -/
def release (pool : Pool α) (item : α) : Pool α :=
  if pool.outstanding = 0 then pool
  else
    match pool.queue.dropWhile (fun waiter => !waiter.isOpen) with
    | waiter :: queue => { pool with queue, delivered := pool.delivered ++ [(waiter.ticket, item)] }
    | [] => { pool with queue := [], outstanding := pool.outstanding - 1, idle := item :: pool.idle }

/-- Closes the places of an acquirer. -/
def close (pool : Pool α) (ticket : Nat) : Pool α :=
  { pool with
    queue := pool.queue.map fun waiter => if waiter.ticket == ticket then { waiter with isOpen := false } else waiter }

/-- An acquirer gives up; an instance that was given to it is returned. -/
def cancel (pool : Pool α) (ticket : Nat) : Pool α :=
  match pool.take? ticket with
  | some (item, pool) => pool.release item
  | none => pool.close ticket

end Pool

end MeteredVm
