import MeteredVm.HostCall.Program
import MeteredVm.HostCall.Registry
import MeteredVm.Machine.Run

/-!
Running a program together with its host calls. A machine that waits for a host call is served by the handler
registered for it: the declared price is paid first, then the handler runs on the guest state, and unless it asks for
an end the machine runs on behind the call. The result of an execution is read off the machine that has stopped.
-/

set_option autoImplicit false
set_option relaxedAutoImplicit false

namespace MeteredVm

inductive HostVerdict where
  | halt | panic
deriving DecidableEq, Repr

/-- What serves a host call: a price that is known from the registers, and a program. -/
structure Handler (ε : Type) where
  cost : Registers → GasCost
  execute : HostProgram ε (Option HostVerdict)

/-- The words by which a host call answers in the result register. -/
inductive ResultCode where
  | none | what | oob | who | full | core | cash | low | huh | ok
deriving DecidableEq, Repr

namespace ResultCode

def all : List ResultCode := [.none, .what, .oob, .who, .full, .core, .cash, .low, .huh, .ok]

/-- The word of a result code: success is zero, failures count down from the largest word. -/
def word : ResultCode → UInt64
  | .none => 18446744073709551615
  | .what => 18446744073709551614
  | .oob => 18446744073709551613
  | .who => 18446744073709551612
  | .full => 18446744073709551611
  | .core => 18446744073709551610
  | .cash => 18446744073709551609
  | .low => 18446744073709551608
  | .huh => 18446744073709551607
  | .ok => 0

def name : ResultCode → String
  | .none => "NONE"
  | .what => "WHAT"
  | .oob => "OOB"
  | .who => "WHO"
  | .full => "FULL"
  | .core => "CORE"
  | .cash => "CASH"
  | .low => "LOW"
  | .huh => "HUH"
  | .ok => "OK"

end ResultCode

namespace HostCall

def resultRegister : Reg := .numbered 7

def outputAddressRegister : Reg := .numbered 10

def outputLengthRegister : Reg := .numbered 11

def defaultUnknownCallGas : UInt32 := 10

end HostCall

def Machine.view (machine : Machine) : GuestView := ⟨machine.gas, machine.registers, machine.memory⟩

def Machine.withView (machine : Machine) (view : GuestView) : Machine :=
  { machine with gas := view.gas, registers := view.registers, memory := view.memory }

structure Handler.Trial (ε : Type) where
  cost : GasCost
  verdict : Option HostVerdict
  reports : List ε
  /-- Whether the price could be paid in the end. -/
  charged : Except GasError Unit
  view : GuestView

/-- Calls a handler on guest state outside of a machine. The price is taken from the registers first and charged
last. -/
def Handler.trial {ε : Type} (handler : Handler ε) (view : GuestView) : Handler.Trial ε :=
  let cost := handler.cost view.registers
  let (verdict, view, reports) := handler.execute.run view
  let (gas, charged) := view.gas.chargeCost cost
  ⟨cost, verdict, reports, charged, { view with gas }⟩

def Machine.conclude (machine : Machine) : Option HostVerdict → Machine
  | some .halt => machine.stop .halt
  | some .panic => machine.stop .panic
  | none => machine.resume

theorem Machine.view_conclude (machine : Machine) (verdict : Option HostVerdict) :
    (machine.conclude verdict).view = machine.view := by
  unfold conclude resume
  split
  · rfl
  · rfl
  · split <;> rfl

inductive Outcome where
  | halt (output : Array UInt8)
  | outOfGas
  | panic
deriving DecidableEq, Repr

structure ExecutionResult where
  outcome : Outcome
  gasUsed : Nat
deriving DecidableEq, Repr

namespace ExecutionResult

def isHalt (result : ExecutionResult) : Bool :=
  match result.outcome with
  | .halt _ => true
  | .outOfGas | .panic => false

def output? (result : ExecutionResult) : Option (Array UInt8) :=
  match result.outcome with
  | .halt output => some output
  | .outOfGas | .panic => none

end ExecutionResult

/-- The bytes that a halted program points at; none if it cannot read all of them. -/
def Machine.output (machine : Machine) : Array UInt8 :=
  let address := machine.registers.get HostCall.outputAddressRegister
  let length := machine.registers.get HostCall.outputLengthRegister
  if length = 0 ∨ ¬ machine.memory.isReadable address length then #[]
  else
    match machine.memory.load address length with
    | .ok bytes => bytes
    | .error _ => #[]

/-- The result that the status of a machine stands for. -/
def Machine.result (machine : Machine) : ExecutionResult where
  outcome :=
    match machine.status with
    | .halt => .halt machine.output
    | .outOfGas => .outOfGas
    | .panic | .continuing | .hostCall _ => .panic
  gasUsed := machine.gasUsed

structure Execution (ε : Type) where
  machine : Machine
  reports : Array ε

structure Dispatcher (ε : Type) where
  registry : Registry (Handler ε)
  unknownCallGas : UInt32

namespace Dispatcher

variable {ε : Type}

/-- Answers a host call that nobody serves. -/
def refuse (dispatcher : Dispatcher ε) (execution : Execution ε) : Execution ε :=
  match execution.machine.chargeGas (.fixed dispatcher.unknownCallGas) with
  | (machine, .error _) => { execution with machine }
  | (machine, .ok ()) =>
    let registers := machine.registers.set HostCall.resultRegister ResultCode.what.word
    { execution with machine := { machine with registers }.resume }

def serve (handler : Handler ε) (execution : Execution ε) : Execution ε :=
  match execution.machine.chargeGas (handler.cost execution.machine.registers) with
  | (machine, .error _) => { execution with machine }
  | (machine, .ok ()) =>
    let (verdict, view, reports) := handler.execute.run machine.view
    { machine := (machine.withView view).conclude verdict, reports := execution.reports ++ reports }

def dispatch (dispatcher : Dispatcher ε) (index : UInt32) (execution : Execution ε) : Execution ε :=
  match dispatcher.registry.get? index with
  | none => dispatcher.refuse execution
  | some handler => serve handler execution

/-- Takes an execution one instruction or one host call further. -/
def advance (dispatcher : Dispatcher ε) (execution : Execution ε) : Execution ε :=
  match execution.machine.status with
  | .continuing => { execution with machine := execution.machine.step }
  | .hostCall index => dispatcher.dispatch index execution
  | .halt | .panic | .outOfGas => execution

def isFinished (execution : Execution ε) : Bool := execution.machine.status.isTerminal

/-- The largest number of instructions and host calls that the gas of a machine can pay for. -/
def allowance (machine : Machine) : Nat := 2 * machine.stepAllowance + 1

/-- Runs a machine with its host calls until it ends; `none` only if a machine that pays nothing for an instruction
never ends. -/
def run? (dispatcher : Dispatcher ε) (machine : Machine) : Option (Execution ε) :=
  iterateUntil? isFinished dispatcher.advance (allowance machine) ⟨machine, #[]⟩

end Dispatcher

end MeteredVm
