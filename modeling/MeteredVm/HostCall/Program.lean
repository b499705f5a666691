import MeteredVm.Gas
import MeteredVm.Memory.Basic
import MeteredVm.Registers

/-!
What a host call may do. A host program is a tree of requests to the guest state that it was handed: registers, gas
through its charging operations only, and memory through its range-checked view. Running a program answers its
requests one after another and collects what it reports to the embedder.
-/

set_option autoImplicit false
set_option relaxedAutoImplicit false

namespace MeteredVm

/-- The guest state that a host call can reach. -/
structure GuestView where
  gas : GasCounter
  registers : Registers
  memory : Memory

/-- Bytes that the embedder holds in a buffer of its own, so that a word counts them. -/
structure Payload where
  bytes : List UInt8
  counted : bytes.length < UInt64.size

namespace Payload

/-- The bytes of a list; no list that a buffer can hold is shortened. -/
def ofList (bytes : List UInt8) : Payload where
  bytes := bytes.take 18446744073709551615
  counted := by
    rw [List.length_take, UInt64.size]
    omega

def replicate (length : UInt64) (byte : UInt8) : Payload where
  bytes := List.replicate length.toNat byte
  counted := by
    rw [List.length_replicate]
    exact length.toNat_lt

end Payload

/-- A program that serves a host call, reporting entries of type `ε` and ending with a value. -/
inductive HostProgram (ε α : Type) : Type where
  | done (value : α)
  | getRegister (r : Reg) (next : UInt64 → HostProgram ε α)
  | setRegister (r : Reg) (value : UInt64) (next : HostProgram ε α)
  | readGas (next : GasCounter → HostProgram ε α)
  /-- Deducts gas, and learns whether that overdrew the counter. -/
  | chargeGas (amount : UInt64) (next : Except GasError Unit → HostProgram ε α)
  | store (address : UInt64) (payload : Payload) (next : Except MemoryError Unit → HostProgram ε α)
  | load (address length : UInt64) (next : Except MemoryError (Array UInt8) → HostProgram ε α)
  | isReadable (address length : UInt64) (next : Bool → HostProgram ε α)
  | isWriteable (address length : UInt64) (next : Bool → HostProgram ε α)
  /-- Tells the embedder something. -/
  | report (entry : ε) (next : HostProgram ε α)
  /-- Lets other work go on before it continues. -/
  | suspend (next : HostProgram ε α)

namespace HostProgram

variable {ε α β : Type}

def bind (program : HostProgram ε α) (f : α → HostProgram ε β) : HostProgram ε β :=
  match program with
  | .done value => f value
  | .getRegister r next => .getRegister r fun v => (next v).bind f
  | .setRegister r value next => .setRegister r value (next.bind f)
  | .readGas next => .readGas fun v => (next v).bind f
  | .chargeGas amount next => .chargeGas amount fun v => (next v).bind f
  | .store address payload next => .store address payload fun v => (next v).bind f
  | .load address length next => .load address length fun v => (next v).bind f
  | .isReadable address length next => .isReadable address length fun v => (next v).bind f
  | .isWriteable address length next => .isWriteable address length fun v => (next v).bind f
  | .report entry next => .report entry (next.bind f)
  | .suspend next => .suspend (next.bind f)

instance : Monad (HostProgram ε) where
  pure := .done
  bind := bind

def remainingGas (next : UInt64 → HostProgram ε α) : HostProgram ε α :=
  .readGas fun gas => next (UInt64.ofNat gas.remaining)

def readRegister (r : Reg) : HostProgram ε UInt64 := .getRegister r .done

def writeRegister (r : Reg) (value : UInt64) : HostProgram ε Unit := .setRegister r value (.done ())

def tell (entry : ε) : HostProgram ε Unit := .report entry (.done ())

/-- Runs a program on the guest state: what it ends with, the state it leaves, and its reports in order. -/
def run : HostProgram ε α → GuestView → α × GuestView × List ε
  | .done value, view => (value, view, [])
  | .getRegister r next, view => (next (view.registers.get r)).run view
  | .setRegister r value next, view => next.run { view with registers := view.registers.set r value }
  | .readGas next, view => (next view.gas).run view
  | .chargeGas amount next, view =>
    let (gas, verdict) := view.gas.charge amount
    (next verdict).run { view with gas }
  | .store address payload next, view =>
    match Memory.Host.store view.memory address payload.bytes with
    | .error error => (next (.error error)).run view
    | .ok memory => (next (.ok ())).run { view with memory }
  | .load address length next, view => (next (Memory.Host.load view.memory address length)).run view
  | .isReadable address length next, view => (next (Memory.Host.isReadable view.memory address length)).run view
  | .isWriteable address length next, view => (next (Memory.Host.isWriteable view.memory address length)).run view
  | .report entry next, view =>
    let (value, view, reports) := next.run view
    (value, view, entry :: reports)
  | .suspend next, view => next.run view

end HostProgram

end MeteredVm
