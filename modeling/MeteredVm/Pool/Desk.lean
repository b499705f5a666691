import MeteredVm.Config
import MeteredVm.Pool.Basic

/-!
A pool of machines together with those who use it: named acquirers, each of which waits or has not asked yet, and
named machines that were handed out. Every operation says what its caller sees.
-/

set_option autoImplicit false
set_option relaxedAutoImplicit false

namespace MeteredVm

def Desk.tagRegister : Reg := .numbered 12

def Machine.tagged (machine : Machine) (tag : UInt64) : Machine :=
  { machine with registers := machine.registers.set Desk.tagRegister tag }

def Machine.tag (machine : Machine) : UInt64 := machine.registers.get Desk.tagRegister

inductive PoolConfigError where
  | config (error : VmError)
  | pool (error : PoolError)
deriving DecidableEq, Repr

def Pool.ofConfig (config : VmConfig) : Except PoolConfigError (Pool Machine) :=
  match config.validate with
  | .error error => .error (.config error)
  | .ok () =>
    (Pool.ofFactory config.poolCapacity fun _ => Machine.idle config.instructionGas).mapError .pool

/-- A pool of machines, and who uses it. -/
structure Desk where
  pool : Pool Machine
  nextTicket : Nat
  acquirers : List (String × Nat)
  held : List (String × Machine)

namespace Desk

def ofPool (pool : Pool Machine) : Desk := ⟨pool, 0, [], []⟩

inductive Operation where
  /-- A new acquirer asks at once. -/
  | acquire (id : String)
  /-- A new acquirer does not ask yet. -/
  | acquireLater (id : String)
  | poll (id : String)
  | cancel (id : String)
  | release (id : String)
  /-- A machine is never returned. -/
  | lose (id : String)
  | tag (id : String) (tag : UInt64)
  /-- A machine that the pool did not build is returned to it. -/
  | releaseForeign (tag : UInt64)
  | run (id : String) (program : Array UInt8) (pc : UInt32) (gas : UInt64) (registers : Option Registers)
      (memory : Option Memory)
  /-- Nothing. -/
  | count

inductive Answer where
  | ready (machine : Machine)
  | pending
  | created
  | done
  | held (machine : Machine)
  /-- The name stands for nothing that the operation needs. -/
  | noSuchId
  | endless

def without {β : Type} (id : String) (entries : List (String × β)) : List (String × β) :=
  entries.filter fun entry => entry.1 != id

def hold (desk : Desk) (id : String) (machine : Machine) : Desk :=
  { desk with held := (id, machine) :: without id desk.held }

/-- The acquirer with a name gives up, if there is one. -/
def dismiss (desk : Desk) (id : String) : Desk :=
  match desk.acquirers.lookup id with
  | none => desk
  | some ticket => { desk with pool := desk.pool.cancel ticket, acquirers := without id desk.acquirers }

/-- Lets a new acquirer have a name, which stands for no other acquirer any more. -/
def enroll (desk : Desk) (id : String) : Desk :=
  let desk := desk.dismiss id
  { desk with nextTicket := desk.nextTicket + 1, acquirers := (id, desk.nextTicket) :: desk.acquirers }

/-- Asks the pool on behalf of the acquirer with a name; the name stands for the machine as soon as there is one. -/
def ask (desk : Desk) (id : String) : Answer × Desk :=
  match desk.acquirers.lookup id with
  | none => (.noSuchId, desk)
  | some ticket =>
    match desk.pool.poll ticket with
    | (none, pool) => (.pending, { desk with pool })
    | (some machine, pool) =>
      (.ready machine, { desk with pool, acquirers := without id desk.acquirers }.hold id machine)

def perform (desk : Desk) : Operation → Answer × Desk
  | .acquire id => (desk.enroll id).ask id
  | .acquireLater id => (.created, desk.enroll id)
  | .poll id => desk.ask id
  | .cancel id => if (desk.acquirers.lookup id).isSome then (.done, desk.dismiss id) else (.noSuchId, desk)
  | .release id =>
    match desk.held.lookup id with
    | none => (.noSuchId, desk)
    | some machine =>
      (.done, { desk with pool := desk.pool.release machine, held := without id desk.held })
  | .lose id =>
    match desk.held.lookup id with
    | none => (.noSuchId, desk)
    | some _ => (.done, { desk with held := without id desk.held })
  | .tag id tag =>
    match desk.held.lookup id with
    | none => (.noSuchId, desk)
    | some machine => (.done, desk.hold id (machine.tagged tag))
  | .releaseForeign tag =>
    let machine := (Machine.idle Machine.defaultInstructionGas).tagged tag
    (.done, { desk with pool := desk.pool.release machine })
  | .run id program pc gas registers memory =>
    match desk.held.lookup id with
    | none => (.noSuchId, desk)
    | some machine =>
      match (machine.reset program pc gas registers memory).run? with
      | none => (.endless, desk)
      | some machine => (.held machine, desk.hold id machine)
  | .count => (.done, desk)

def performAll (desk : Desk) : List Operation → List (Answer × Desk)
  | [] => []
  | operation :: rest =>
    let next := desk.perform operation
    next :: next.2.performAll rest

end Desk

end MeteredVm
