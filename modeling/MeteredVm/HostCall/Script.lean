import MeteredVm.HostCall.Dispatch

/-!
Host calls described by data. A scripted handler is a price and a list of actions on the guest state; each action
leaves a result, and the results of a handler that ran to its end are its report. An action may name a register that
the machine does not have: the handler then crashes, and the report says so.
-/

set_option autoImplicit false
set_option relaxedAutoImplicit false

namespace MeteredVm.Script

inductive Operand where
  | constant (value : UInt64)
  | register (number : Nat)

/-- One thing that a scripted handler does. -/
inductive Action where
  | set (register : Nat) (value : Operand)
  /-- Writes a sum, reduced to 64 bits, to a register. -/
  | add (register : Nat) (a b : Operand)
  | gas (register : Nat)
  | charge (amount : Operand)
  | store (address : Operand) (data : Array UInt8)
  | fill (address length : Operand) (byte : UInt8)
  | load (address length : Operand)
  | isReadable (address length : Operand)
  | isWriteable (address length : Operand)
  /-- Writes to the result register whether the last action on memory succeeded. -/
  | result
  | halt
  | panic
  /-- Lets other work go on. -/
  | yield

inductive ActionResult where
  | nothing
  | word (value : UInt64)
  | done
  | bytes (data : Array UInt8)
  | answer (holds : Bool)
  /-- The range was longer than a script may touch at once. -/
  | tooLong
  | gasError (error : GasError)
  | memoryError (error : MemoryError)

inductive Report where
  | completed (index : UInt32) (results : List ActionResult)
  /-- It named a register that the machine does not have. -/
  | crashed

inductive Cost where
  | constant (cost : GasCost)
  /-- A base and the value of a register, by its number. -/
  | linear (base : UInt64) (register : Nat)

def longestRange : UInt64 := 65536

structure Handler where
  index : UInt32
  cost : Cost
  actions : List Action

/-- Ends a handler that named a register that the machine does not have. -/
def crash : HostProgram Report (Option HostVerdict) := do
  HostProgram.tell .crashed
  return some .panic

def withOperand (operand : Operand) (next : UInt64 → HostProgram Report (Option HostVerdict)) :
    HostProgram Report (Option HostVerdict) :=
  match operand with
  | .constant value => next value
  | .register number =>
    match Reg.ofNat? number with
    | none => crash
    | some r => .getRegister r next

def withWritten (number : Nat) (value : UInt64) (next : HostProgram Report (Option HostVerdict)) :
    HostProgram Report (Option HostVerdict) :=
  match Reg.ofNat? number with
  | none => crash
  | some r => .setRegister r value next

def storeResult : Except MemoryError Unit → ActionResult
  | .ok () => .done
  | .error error => .memoryError error

def loadResult : Except MemoryError (Array UInt8) → ActionResult
  | .ok data => .bytes data
  | .error error => .memoryError error

/-- Performs actions, where `succeeded` says how the last action on memory went and `results` holds what the actions so
far have left, latest first. -/
def perform (index : UInt32) : List Action → Bool → List ActionResult → HostProgram Report (Option HostVerdict)
  | [], _, results => finish index results none
  | action :: rest, succeeded, results =>
    match action with
    | .set register value =>
      withOperand value fun value =>
        withWritten register value (perform index rest succeeded (.nothing :: results))
    | .add register a b =>
      withOperand a fun a =>
        withOperand b fun b =>
          withWritten register (a + b) (perform index rest succeeded (.word (a + b) :: results))
    | .gas register =>
      .remainingGas fun left =>
        withWritten register left (perform index rest succeeded (.word left :: results))
    | .charge amount =>
      withOperand amount fun amount =>
        .chargeGas amount fun
          | .ok () => perform index rest succeeded (.done :: results)
          | .error error => perform index rest succeeded (.gasError error :: results)
    | .store address data =>
      withOperand address fun address =>
        .store address (.ofList data.toList) fun outcome =>
          perform index rest outcome.toBool (storeResult outcome :: results)
    | .fill address length byte =>
      withOperand address fun address =>
        withOperand length fun length =>
          if longestRange < length then perform index rest false (.tooLong :: results)
          else
            .store address (.replicate length byte) fun outcome =>
              perform index rest outcome.toBool (storeResult outcome :: results)
    | .load address length =>
      withOperand address fun address =>
        withOperand length fun length =>
          if longestRange < length then perform index rest false (.tooLong :: results)
          else
            .load address length fun outcome =>
              perform index rest outcome.toBool (loadResult outcome :: results)
    | .isReadable address length =>
      withOperand address fun address =>
        withOperand length fun length =>
          .isReadable address length fun holds => perform index rest holds (.answer holds :: results)
    | .isWriteable address length =>
      withOperand address fun address =>
        withOperand length fun length =>
          .isWriteable address length fun holds => perform index rest holds (.answer holds :: results)
    | .result =>
      let code := if succeeded then ResultCode.ok.word else ResultCode.oob.word
      .setRegister HostCall.resultRegister code (perform index rest succeeded (.word code :: results))
    | .halt => finish index results (some .halt)
    | .panic => finish index results (some .panic)
    | .yield => .suspend (perform index rest succeeded results)
where
  finish (index : UInt32) (results : List ActionResult) (verdict : Option HostVerdict) :
      HostProgram Report (Option HostVerdict) := do
    HostProgram.tell (.completed index results.reverse)
    return verdict

/-- The handler that a script describes. One whose price names a register that the machine does not have crashes as
soon as it is called. -/
def Handler.compile (script : Handler) : MeteredVm.Handler Report :=
  match script.cost with
  | .constant cost => ⟨fun _ => cost, perform script.index script.actions true []⟩
  | .linear base number =>
    match Reg.ofNat? number with
    | none => ⟨fun _ => .fixed 0, crash⟩
    | some r =>
      ⟨fun registers => .linear base (registers.get r), perform script.index script.actions true []⟩

def registry (scripts : List Handler) : Except RegistryError (Registry (MeteredVm.Handler Report)) :=
  Registry.empty.registerAll (scripts.map fun script => (script.index, script.compile))

/-- The results of the handlers that ran to their end, each with its index; `none` if a handler crashed. -/
def completedCalls? : List Report → Option (List (UInt32 × List ActionResult))
  | [] => some []
  | .crashed :: _ => none
  | .completed index results :: rest => (completedCalls? rest).map ((index, results) :: ·)

end MeteredVm.Script
